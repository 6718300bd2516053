import Mathlib.Data.List.Basic

/-! # Updates that overwrite

A part of a state is overwritten by an update that either sets it to a value of its own or leaves it
alone, whatever the rest of the state is. What such updates leave behind depends only on the last one
that sets the part, so a list of them is one such update (`Overwrites.foldl`), and doing it twice is
doing it once (`Overwrites.twice`).

A reader that takes a snapshot of a writer while its updates are under way may be handed updates that
the snapshot has already seen. `catch_up` says that this does no harm: whoever has the writer's part
from after some updates and then applies a later stretch of them, which may begin before the snapshot,
ends where the writer is. No numbering of the updates is needed, only that they are applied in the
order of the writer and that none from after the snapshot is missing. -/

namespace Overwrite

variable {σ ε α : Type*}

/-- The update sets the part to a value of its own, or leaves it alone. -/
def Overwrites (f : σ → σ) (part : σ → α) : Prop :=
  (∃ a, ∀ s, part (f s) = a) ∨ ∀ s, part (f s) = part s

variable {f g : σ → σ} {part : σ → α}

/-- A function that sets the part to a value overwrites it. -/
theorem Overwrites.sets {a : α} (h : ∀ s, part (f s) = a) : Overwrites f part := Or.inl ⟨a, h⟩

/-- A function that keeps the part overwrites it with nothing. -/
theorem Overwrites.keeps (h : ∀ s, part (f s) = part s) : Overwrites f part := Or.inr h

/-- One update after the other: the later one decides, if it sets the part. -/
theorem Overwrites.comp (hg : Overwrites g part) (hf : Overwrites f part) :
    Overwrites (g ∘ f) part := by
  obtain ⟨a, hg⟩ | hg := hg
  · exact .sets fun s => hg (f s)
  · obtain ⟨a, hf⟩ | hf := hf
    · exact .sets fun s => (hg (f s)).trans (hf s)
    · exact .keeps fun s => (hg (f s)).trans (hf s)

/-- A list of updates that each overwrite a part overwrites it as a whole: by the last of them that
sets it, or not at all. -/
theorem Overwrites.foldl {apply : σ → ε → σ} (h : ∀ e, Overwrites (fun s => apply s e) part)
    (l : List ε) : Overwrites (fun s => l.foldl apply s) part := by
  induction l with
  | nil => exact .keeps fun _ => rfl
  | cons e l ih => exact ih.comp (h e)

/-- Doing an update twice leaves in its part what doing it once leaves there. -/
theorem Overwrites.twice (h : Overwrites f part) (s : σ) : part (f (f s)) = part (f s) := by
  obtain ⟨a, h⟩ | h := h
  · rw [h, h]
  · exact h (f s)

/-- Nothing else of the state matters for the part. -/
theorem Overwrites.congr (h : Overwrites f part) {s t : σ} (heq : part s = part t) :
    part (f s) = part (f t) := by
  obtain ⟨a, h⟩ | h := h
  · rw [h, h]
  · rw [h, h, heq]

/-- **Catching up.** A writer has gone through the updates `early`, `missed` and `later`. Whoever has
its part from after `missed` and then applies `missed` and `later` has the writer's part. -/
theorem catch_up {apply : σ → ε → σ} (h : ∀ e, Overwrites (fun s => apply s e) part)
    {start now reader : σ} {early missed later : List ε}
    (hreader : part reader = part ((early ++ missed).foldl apply start))
    (hnow : part now = part ((early ++ missed ++ later).foldl apply start)) :
    part ((missed ++ later).foldl apply reader) = part now := by
  have hmissed := Overwrites.foldl h missed
  have hlater := Overwrites.foldl h later
  rw [List.foldl_append] at hreader
  rw [hnow, List.foldl_append, List.foldl_append, List.foldl_append]
  -- `missed` does nothing to a state that comes from `missed`
  refine hlater.congr ?_
  rw [hmissed.congr hreader]
  exact hmissed.twice _

end Overwrite
