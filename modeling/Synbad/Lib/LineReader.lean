import Synbad.Lib.Lines
import Mathlib.Data.List.Infix

/-! # Reading lines through a buffer

A buffered reader hands out what has arrived chunk by chunk and is told how much of a chunk was used.
A line reader takes of each chunk what belongs to the line in progress: all of it, or up to and with
the first end symbol. The rules here say what one such bite is (`bite`), and what a reader that
refuses lines over a limit returns, whatever the chunks.

A reader with a limit is a machine that goes round by round. `Reads` is its invariant: the lines it
has returned are the first of those that were written, each within the limit, and what it holds in its
buffer is the beginning of the next. A round keeps it and brings the end nearer (`Reads.next`), so
after enough rounds the reader has stopped, and then (`after_spec`) it has returned every line
before the first that is too long, and stopped there if there is one. Nowhere does the buffer exceed
the limit. -/

namespace LineReader

variable {α : Type*} [DecidableEq α]

/-! ## Chunks -/

section

omit [DecidableEq α]

/-- The chunk at hand; an empty one is the end of the input. -/
def fillBuf (chunks : List (List α)) : List α := chunks.headD []

/-- So much of the chunk at hand was used. -/
def consume (n : ℕ) : List (List α) → List (List α)
  | [] => []
  | c :: cs => if n < c.length then c.drop n :: cs else cs

/-- No chunk is taken for the end of the input. -/
def AllFull (chunks : List (List α)) : Prop := ∀ c ∈ chunks, c ≠ []

/-- What is left is not taken for the end either. -/
theorem AllFull.consume {chunks : List (List α)} (h : AllFull chunks) (n : ℕ) :
    AllFull (consume n chunks) := by
  cases chunks with
  | nil => exact h
  | cons c cs =>
      rw [LineReader.consume]
      split
      case isTrue hlt =>
        intro d hd
        rcases List.mem_cons.mp hd with rfl | hd
        · exact List.ne_nil_of_length_pos (by rw [List.length_drop]; omega)
        · exact h d (List.mem_cons_of_mem c hd)
      case isFalse => exact fun d hd => h d (List.mem_cons_of_mem c hd)

/-- The input is at its end exactly when there is no chunk. -/
theorem AllFull.fillBuf_eq_nil {chunks : List (List α)} (h : AllFull chunks) :
    fillBuf chunks = [] ↔ chunks = [] := by
  cases chunks with
  | nil => exact ⟨fun _ => rfl, fun _ => rfl⟩
  | cons c cs => exact ⟨fun hc => absurd hc (h c List.mem_cons_self), fun hc => absurd hc (List.cons_ne_nil c cs)⟩

/-- What was used and what is left are the input. -/
theorem flatten_consume {n : ℕ} {chunks : List (List α)} (h : n ≤ (fillBuf chunks).length) :
    chunks.flatten = (fillBuf chunks).take n ++ (consume n chunks).flatten := by
  cases chunks with
  | nil =>
      show [] = ([] : List α).take n ++ []
      rw [List.take_nil, List.append_nil]
  | cons c cs =>
      have hle : n ≤ c.length := h
      show c ++ cs.flatten = c.take n ++ (consume n (c :: cs)).flatten
      rw [consume]
      split
      case isTrue => rw [List.flatten_cons, ← List.append_assoc, List.take_append_drop]
      case isFalse hge => rw [List.take_of_length_le (by omega)]

end

/-- Whether no chunk is empty can be computed. -/
instance (chunks : List (List α)) : Decidable (AllFull chunks) :=
  inferInstanceAs (Decidable (∀ c ∈ chunks, c ≠ []))

/-! ## One bite -/

variable (sep : α)

/-- Where the line ends in a chunk: the position of its first end symbol, if there is one. -/
def position (chunk : List α) : Option ℕ := chunk.findIdx? (· == sep)

/-- How much of a chunk belongs to the line in progress. -/
def taken (chunk : List α) : ℕ := (position sep chunk).elim chunk.length (· + 1)

variable {sep}

/-- A chunk without an end symbol belongs to the line altogether. -/
theorem position_none {chunk : List α} (h : position sep chunk = none) : sep ∉ chunk := by
  intro hmem
  have hno := List.findIdx?_eq_none_iff.mp h sep hmem
  rw [beq_self_eq_true] at hno
  exact Bool.noConfusion hno

/-- A chunk with an end symbol belongs to the line as far as that. -/
theorem position_some {chunk : List α} {i : ℕ} (h : position sep chunk = some i) :
    ∃ l rest, chunk = l ++ sep :: rest ∧ sep ∉ l ∧ l.length = i := by
  induction chunk generalizing i with
  | nil => cases h
  | cons a chunk ih =>
      rw [position, List.findIdx?_cons] at h
      split at h
      case isTrue ha =>
        obtain rfl := Option.some.inj h
        exact ⟨[], chunk, by rw [eq_of_beq ha]; rfl, List.not_mem_nil, rfl⟩
      case isFalse ha =>
        obtain ⟨j, hj, rfl⟩ := Option.map_eq_some_iff.mp h
        obtain ⟨l, rest, rfl, hl, rfl⟩ := ih hj
        refine ⟨a :: l, rest, rfl, ?_, rfl⟩
        intro hmem
        rcases List.mem_cons.mp hmem with rfl | hmem
        · exact ha (beq_self_eq_true _)
        · exact hl hmem

/-- No more is taken of a chunk than it has. -/
theorem taken_le (chunk : List α) : taken sep chunk ≤ chunk.length := by
  unfold taken
  cases h : position sep chunk with
  | none => exact Nat.le_refl _
  | some i =>
      obtain ⟨l, rest, rfl, -, rfl⟩ := position_some h
      show l.length + 1 ≤ _
      rw [List.length_append, List.length_cons]
      omega

/-- **One bite**: either the whole chunk, with no end symbol in it, or the rest of the line with its
end symbol. -/
theorem bite (sep : α) (chunks : List (List α)) :
    let chunk := fillBuf chunks
    let n := taken sep chunk
    (position sep chunk = none ∧ sep ∉ chunk ∧ n = chunk.length ∧ chunk.take n = chunk ∧
        chunks.flatten = chunk ++ (consume n chunks).flatten) ∨
      ∃ l, position sep chunk = some l.length ∧ sep ∉ l ∧ n = l.length + 1 ∧
        chunk.take n = l ++ [sep] ∧ chunks.flatten = l ++ sep :: (consume n chunks).flatten := by
  intro chunk n
  have hflatten : chunks.flatten = chunk.take n ++ (consume n chunks).flatten :=
    flatten_consume (taken_le chunk)
  cases h : position sep chunk with
  | none =>
      have hn : n = chunk.length := by
        show taken sep chunk = _
        rw [taken, h, Option.elim_none]
      have htake : chunk.take n = chunk := by rw [hn, List.take_length]
      rw [htake] at hflatten
      exact Or.inl ⟨rfl, position_none h, hn, htake, hflatten⟩
  | some i =>
      obtain ⟨l, rest, hchunk, hl, rfl⟩ := position_some h
      have hn : n = l.length + 1 := by
        show taken sep chunk = _
        rw [taken, h, Option.elim_some]
      have htake : chunk.take n = l ++ [sep] := by
        rw [hchunk, hn, ← List.singleton_append, ← List.append_assoc]
        exact List.take_left' (by rw [List.length_append, List.length_singleton])
      rw [htake, List.append_assoc, List.singleton_append] at hflatten
      exact Or.inr ⟨l, rfl, hl, hn, htake, hflatten⟩

/-- A bite brings the end of the input nearer. -/
theorem length_consume_lt {sep : α} {chunks : List (List α)} (h : fillBuf chunks ≠ []) :
    (consume (taken sep (fillBuf chunks)) chunks).flatten.length < chunks.flatten.length := by
  rcases bite sep chunks with ⟨-, -, -, -, hflatten⟩ | ⟨l, -, -, -, -, hflatten⟩
  · have hpos := List.length_pos_of_ne_nil h
    have hlen := congrArg List.length hflatten
    rw [List.length_append] at hlen
    omega
  · have hlen := congrArg List.length hflatten
    rw [List.length_append, List.length_cons] at hlen
    omega

/-! ## A reader with a limit -/

/-- What one round of a reader with a limit comes to. -/
inductive Round (α : Type*) where
  | eof
  | tooLarge
  | more (buffer : List α) (chunks : List (List α))
  | line (line : List α) (chunks : List (List α))

/-- One round: a bite that would make the line too long is refused before it is taken. -/
def round (sep : α) (limit : ℕ) (buffer : List α) (chunks : List (List α)) : Round α :=
  let chunk := fillBuf chunks
  if chunk.isEmpty then .eof
  else
    let n := taken sep chunk
    if limit < buffer.length + n then .tooLarge
    else if (position sep chunk).isSome then .line (buffer ++ chunk.take n) (consume n chunks)
    else .more (buffer ++ chunk.take n) (consume n chunks)

/-- A round that is not at the end, without its local names. -/
theorem round_of_ne {limit : ℕ} {buffer : List α} {chunks : List (List α)}
    (h : fillBuf chunks ≠ []) :
    round sep limit buffer chunks =
      if limit < buffer.length + taken sep (fillBuf chunks) then .tooLarge
      else if (position sep (fillBuf chunks)).isSome then
        .line (buffer ++ (fillBuf chunks).take (taken sep (fillBuf chunks)))
          (consume (taken sep (fillBuf chunks)) chunks)
      else
        .more (buffer ++ (fillBuf chunks).take (taken sep (fillBuf chunks)))
          (consume (taken sep (fillBuf chunks)) chunks) := by
  rw [round, List.isEmpty_eq_false_iff.mpr h]
  rfl

/-- Why a reader stopped: its input ended, or a line was over the limit. -/
inductive Stop where
  | eof
  | tooLarge
  deriving DecidableEq, Repr

/-- A reader: what is still to come, the line in progress, and the lines it returned. -/
structure Reading (α : Type*) where
  chunks : List (List α)
  buffer : List α
  lines : List (List α)
  stopped : Option Stop

/-- A reader at the start of its input, with nothing read yet and nothing returned. -/
def Reading.start (chunks : List (List α)) : Reading α := ⟨chunks, [], [], none⟩

/-- The reader after one more round. Once it has stopped it stays as it is; a line that is complete is
appended to those it returned, and the buffer is empty again. -/
def Reading.next (sep : α) (limit : ℕ) (r : Reading α) : Reading α :=
  match r.stopped with
  | some _ => r
  | none =>
      match round sep limit r.buffer r.chunks with
      | .eof => { r with stopped := some .eof }
      | .tooLarge => { r with stopped := some .tooLarge }
      | .more buffer chunks => { r with buffer := buffer, chunks := chunks }
      | .line line chunks => { r with buffer := [], chunks := chunks, lines := r.lines ++ [line] }

open Lines

omit [DecidableEq α] in
/-- A text is split at its first end symbol in one way only: if neither first part contains the
symbol, both parts are the same. -/
theorem end_unique {u v w x : List α} (hu : sep ∉ u) (hv : sep ∉ v)
    (h : u ++ sep :: w = v ++ sep :: x) : u = v ∧ w = x := by
  induction u generalizing v with
  | nil =>
      cases v with
      | nil => exact ⟨rfl, (List.cons.inj h).2⟩
      | cons b v => exact absurd (List.mem_cons.mpr (Or.inl (List.cons.inj h).1)) hv
  | cons a u ih =>
      cases v with
      | nil => exact absurd (List.mem_cons.mpr (Or.inl (List.cons.inj h).1.symm)) hu
      | cons b v =>
          obtain ⟨rfl, htail⟩ := List.cons.inj h
          obtain ⟨rfl, hrest⟩ := ih (fun hmem => hu (List.mem_cons_of_mem a hmem))
            (fun hmem => hv (List.mem_cons_of_mem a hmem)) htail
          exact ⟨rfl, hrest⟩

omit [DecidableEq α] in
/-- What comes before the first end symbol is no longer than the first line. -/
theorem length_le_of_unended {u w v x : List α} (hu : sep ∉ u) (h : u ++ w = v ++ sep :: x) :
    u.length ≤ v.length := by
  by_contra hlt
  have hget : (u ++ w)[v.length]? = some sep := by
    rw [h, List.getElem?_append_right (Nat.le_refl _), Nat.sub_self]
    rfl
  rw [List.getElem?_append_left (by omega)] at hget
  exact hu (List.mem_of_getElem? hget)

omit [DecidableEq α] in
/-- The text of a line and some more is the line, its separator and the text of those. -/
theorem unlines_cons (l : List α) (ls : List (List α)) :
    unlines sep (l :: ls) = l ++ sep :: unlines sep ls := by
  rw [unlines, List.flatMap_cons, List.append_assoc, List.singleton_append, unlines]

/-- A reader of the lines `ls`: those it returned are the first ones and fit, the buffer is the
beginning of the next, and it stops at the end or at a line that is too long. -/
structure Reads (sep : α) (limit : ℕ) (ls : List (List α)) (r : Reading α)
    (done rest : List (List α)) : Prop where
  split : ls = done ++ rest
  returned : r.lines = done.map (· ++ [sep])
  fits : ∀ l ∈ done, l.length + 1 ≤ limit
  stream : r.buffer ++ r.chunks.flatten = unlines sep rest
  unended : sep ∉ r.buffer
  bounded : r.buffer.length ≤ limit
  full : AllFull r.chunks
  eof : r.stopped = some .eof → rest = []
  tooLarge : r.stopped = some .tooLarge → ∃ l tail, rest = l :: tail ∧ limit < l.length + 1

variable {limit : ℕ} {ls done rest : List (List α)} {r : Reading α}

omit [DecidableEq α] in
/-- At the end of the input all lines have been read. -/
theorem Reads.rest_eq_nil (h : Reads sep limit ls r done rest) (hempty : fillBuf r.chunks = []) :
    rest = [] := by
  have hstream := h.stream
  rw [(h.full.fillBuf_eq_nil).mp hempty, List.flatten_nil, List.append_nil] at hstream
  cases rest with
  | nil => rfl
  | cons l tail =>
      rw [unlines_cons] at hstream
      have hmem : sep ∈ r.buffer := by
        rw [hstream]
        exact List.mem_append_right l List.mem_cons_self
      exact absurd hmem h.unended

omit [DecidableEq α] in
/-- What is at hand without an end symbol belongs to the next line. -/
theorem Reads.next_line (h : Reads sep limit ls r done rest) {chunk more : List α}
    (hne : chunk ≠ []) (hsep : sep ∉ chunk) (hflatten : r.chunks.flatten = chunk ++ more) :
    ∃ l tail, rest = l :: tail ∧ r.buffer.length + chunk.length ≤ l.length := by
  have hstream := h.stream
  rw [hflatten, ← List.append_assoc] at hstream
  cases rest with
  | nil =>
      have hnil := (List.append_eq_nil_iff.mp (List.append_eq_nil_iff.mp hstream).1).2
      exact absurd hnil hne
  | cons l tail =>
      rw [unlines_cons] at hstream
      have hle := length_le_of_unended (List.not_mem_append h.unended hsep) hstream
      rw [List.length_append] at hle
      exact ⟨l, tail, rfl, hle⟩

omit [DecidableEq α] in
/-- What is at hand up to the first end symbol is the end of the next line. -/
theorem Reads.line_ended (h : Reads sep limit ls r done rest) (hls : ∀ l ∈ ls, sep ∉ l)
    {l more : List α} (hl : sep ∉ l) (hflatten : r.chunks.flatten = l ++ sep :: more) :
    ∃ tail, rest = (r.buffer ++ l) :: tail ∧ more = unlines sep tail := by
  have hline : r.buffer ++ l ++ sep :: more = unlines sep rest := by
    rw [← h.stream, hflatten, List.append_assoc]
  cases rest with
  | nil => exact absurd (List.append_eq_nil_iff.mp hline).2 (List.cons_ne_nil _ _)
  | cons line tail =>
      have hmem : line ∈ ls := by
        rw [h.split]
        exact List.mem_append_right done List.mem_cons_self
      rw [unlines_cons] at hline
      obtain ⟨rfl, htail⟩ := end_unique (List.not_mem_append h.unended hl) (hls line hmem) hline
      exact ⟨tail, rfl, htail⟩

/-- **What a round comes to**, by the line it works on. -/
theorem Reads.round_cases (h : Reads sep limit ls r done rest) (hls : ∀ l ∈ ls, sep ∉ l) :
    (round sep limit r.buffer r.chunks = .eof ∧ rest = []) ∨
      (round sep limit r.buffer r.chunks = .tooLarge ∧
        ∃ l tail, rest = l :: tail ∧ limit < l.length + 1) ∨
      (∃ chunk chunks, round sep limit r.buffer r.chunks = .more (r.buffer ++ chunk) chunks ∧
        chunk ≠ [] ∧ sep ∉ chunk ∧ r.buffer.length + chunk.length ≤ limit ∧ AllFull chunks ∧
        r.chunks.flatten = chunk ++ chunks.flatten) ∨
      ∃ l tail chunks, round sep limit r.buffer r.chunks = .line (l ++ [sep]) chunks ∧
        rest = l :: tail ∧ l.length + 1 ≤ limit ∧ AllFull chunks ∧
        chunks.flatten = unlines sep tail ∧ chunks.flatten.length < r.chunks.flatten.length := by
  rcases eq_or_ne (fillBuf r.chunks) [] with hempty | hne
  · left
    refine ⟨?_, h.rest_eq_nil hempty⟩
    rw [round, hempty]
    rfl
  right
  have hfull := h.full.consume (taken sep (fillBuf r.chunks))
  rcases bite sep r.chunks with ⟨hpos, hsep, hn, htake, hflatten⟩ | ⟨l, hpos, hl, hn, htake, hflatten⟩
  · -- the line goes on behind this chunk
    -- a line that is too long is noticed as soon as the buffer cannot hold what has come
    rcases Nat.lt_or_ge limit (r.buffer.length + taken sep (fillBuf r.chunks)) with hover | hfits
    · left
      obtain ⟨l, tail, hrest, hle⟩ := h.next_line hne hsep hflatten
      refine ⟨?_, l, tail, hrest, by omega⟩
      rw [round_of_ne hne, if_pos hover]
    · right
      left
      refine ⟨fillBuf r.chunks, _, ?_, hne, hsep, by omega, hfull, hflatten⟩
      rw [round_of_ne hne, hpos, htake, if_neg (by omega)]
      rfl
  · -- the line ends in this chunk
    obtain ⟨tail, hrest, htail⟩ := h.line_ended hls hl hflatten
    have hlength : (r.buffer ++ l).length = r.buffer.length + l.length := List.length_append
    rcases Nat.lt_or_ge limit (r.buffer.length + taken sep (fillBuf r.chunks)) with hover | hfits
    · left
      refine ⟨?_, _, tail, hrest, by omega⟩
      rw [round_of_ne hne, if_pos hover]
    · right
      right
      refine ⟨r.buffer ++ l, tail, consume (taken sep (fillBuf r.chunks)) r.chunks, ?_, hrest,
        by omega, hfull, htail, length_consume_lt hne⟩
      rw [round_of_ne hne, hpos, htake, if_neg (by omega), List.append_assoc]
      rfl

omit [DecidableEq α] in
/-- A reader that keeps to its lines still does when it stops, provided that the reason is true: at
the end nothing is left, and at a line that is too long the next one is over the limit. -/
theorem Reads.stop (h : Reads sep limit ls r done rest) {stop : Stop}
    (heof : stop = .eof → rest = [])
    (hlarge : stop = .tooLarge → ∃ l tail, rest = l :: tail ∧ limit < l.length + 1) :
    Reads sep limit ls { r with stopped := some stop } done rest :=
  ⟨h.split, h.returned, h.fits, h.stream, h.unended, h.bounded, h.full,
    fun heq => heof (Option.some.inj heq), fun heq => hlarge (Option.some.inj heq)⟩

omit [DecidableEq α] in
/-- A reader that keeps to its lines still does when it takes a part of a line into its buffer,
without an end symbol and within the limit. -/
theorem Reads.more (h : Reads sep limit ls r done rest)
    {chunk : List α} {chunks : List (List α)} (hsep : sep ∉ chunk)
    (hlen : r.buffer.length + chunk.length ≤ limit) (hfull : AllFull chunks)
    (hflatten : r.chunks.flatten = chunk ++ chunks.flatten) :
    Reads sep limit ls ⟨chunks, r.buffer ++ chunk, r.lines, none⟩ done rest where
  split := h.split
  returned := h.returned
  fits := h.fits
  stream := by rw [List.append_assoc, ← hflatten, h.stream]
  unended := List.not_mem_append h.unended hsep
  bounded := by rwa [List.length_append]
  full := hfull
  eof := fun heq => absurd heq (Option.some_ne_none _).symm
  tooLarge := fun heq => absurd heq (Option.some_ne_none _).symm

omit [DecidableEq α] in
/-- A reader that keeps to its lines still does when it returns the next of them, with the end symbol
and within the limit. -/
theorem Reads.line {l : List α} {tail : List (List α)} (h : Reads sep limit ls r done (l :: tail))
    {chunks : List (List α)} (hlen : l.length + 1 ≤ limit)
    (hfull : AllFull chunks) (hflatten : chunks.flatten = unlines sep tail) :
    Reads sep limit ls ⟨chunks, [], r.lines ++ [l ++ [sep]], none⟩ (done ++ [l]) tail where
  split := by rw [h.split, List.append_assoc, List.singleton_append]
  returned := by rw [h.returned, List.map_append, List.map_singleton]
  fits := by
    intro k hk
    rcases List.mem_append.mp hk with hk | hk
    · exact h.fits k hk
    · rw [List.mem_singleton.mp hk]
      exact hlen
  stream := hflatten
  unended := List.not_mem_nil
  bounded := Nat.zero_le limit
  full := hfull
  eof := fun heq => absurd heq (Option.some_ne_none _).symm
  tooLarge := fun heq => absurd heq (Option.some_ne_none _).symm

/-- A round leaves a reader alone that has stopped. -/
theorem next_of_stopped {stop : Stop} (h : r.stopped = some stop) : r.next sep limit = r := by
  unfold Reading.next
  rw [h]

/-- **A round keeps to the lines**, and brings the end nearer unless the reader stops. -/
theorem Reads.next (h : Reads sep limit ls r done rest) (hls : ∀ l ∈ ls, sep ∉ l) :
    ∃ done' rest', Reads sep limit ls (r.next sep limit) done' rest' ∧
      (r.stopped = none → (r.next sep limit).stopped = none →
        (r.next sep limit).chunks.flatten.length < r.chunks.flatten.length) := by
  cases hstop : r.stopped with
  | some stop =>
      rw [next_of_stopped hstop]
      exact ⟨done, rest, h, fun hnone => absurd hnone (Option.some_ne_none stop)⟩
  | none =>
      unfold Reading.next
      rcases h.round_cases hls with ⟨hround, hrest⟩ | ⟨hround, hlong⟩ |
        ⟨chunk, chunks, hround, hne, hsep, hlen, hfull, hflatten⟩ |
        ⟨l, tail, chunks, hround, rfl, hlen, hfull, hflatten, hless⟩
      · rw [hstop, hround]
        refine ⟨done, rest, h.stop (fun _ => hrest) (fun heq => Stop.noConfusion heq), ?_⟩
        exact fun _ hnone => absurd hnone (Option.some_ne_none _)
      · rw [hstop, hround]
        refine ⟨done, rest, h.stop (fun heq => Stop.noConfusion heq) (fun _ => hlong), ?_⟩
        exact fun _ hnone => absurd hnone (Option.some_ne_none _)
      · rw [hstop, hround]
        refine ⟨done, rest, h.more hsep hlen hfull hflatten, fun _ _ => ?_⟩
        have hpos := List.length_pos_of_ne_nil hne
        show chunks.flatten.length < _
        rw [hflatten, List.length_append]
        omega
      · rw [hstop, hround]
        exact ⟨done ++ [l], tail, h.line hlen hfull hflatten, fun _ _ => hless⟩

/-- The reader after so many rounds, however many of them it is stopped in. -/
def Reading.after (sep : α) (limit : ℕ) (r : Reading α) : ℕ → Reading α
  | 0 => r
  | k + 1 => (r.after sep limit k).next sep limit

/-- Rounds keep to the lines, and the reader stops before it has made more of them than the input
has elements. -/
theorem Reads.after (h : Reads sep limit ls r done rest) (hls : ∀ l ∈ ls, sep ∉ l)
    (k : ℕ) :
    ∃ done' rest', Reads sep limit ls (r.after sep limit k) done' rest' ∧
      ((r.after sep limit k).stopped = none →
        (r.after sep limit k).chunks.flatten.length + k ≤ r.chunks.flatten.length) := by
  induction k with
  | zero => exact ⟨done, rest, h, fun _ => Nat.le_refl _⟩
  | succ k ih =>
      obtain ⟨done₁, rest₁, h₁, hless₁⟩ := ih
      obtain ⟨done₂, rest₂, h₂, hless₂⟩ := h₁.next hls
      refine ⟨done₂, rest₂, h₂, fun hnone => ?_⟩
      have hbefore : (r.after sep limit k).stopped = none := by
        cases hk : (r.after sep limit k).stopped with
        | none => rfl
        | some stop =>
            rw [Reading.after, next_of_stopped hk] at hnone
            exact absurd (hk.symm.trans hnone) (Option.some_ne_none stop)
      have hone := hless₂ hbefore hnone
      have hall := hless₁ hbefore
      show ((r.after sep limit k).next sep limit).chunks.flatten.length + (k + 1) ≤ _
      omega

/-- The lines before the first one that is too long. -/
def fitting (limit : ℕ) (ls : List (List α)) : List (List α) :=
  ls.takeWhile fun l => decide (l.length + 1 ≤ limit)

omit [DecidableEq α] in
/-- Lines that fit are among those before the first that does not. -/
theorem fitting_append (h : ∀ l ∈ done, l.length + 1 ≤ limit) :
    fitting limit (done ++ rest) = done ++ fitting limit rest :=
  List.takeWhile_append_of_pos fun l hl => decide_eq_true (h l hl)

omit [DecidableEq α] in
/-- What was returned so far is a beginning of the lines that fit. -/
theorem Reads.lines_prefix (h : Reads sep limit ls r done rest) :
    r.lines <+: (fitting limit ls).map (· ++ [sep]) := by
  rw [h.split, fitting_append h.fits, List.map_append, h.returned]
  exact List.prefix_append ..

omit [DecidableEq α] in
/-- **A reader that has stopped** returned all lines before the first that is too long, and stopped
there if there is one. -/
theorem Reads.stopped (h : Reads sep limit ls r done rest) (hstop : r.stopped ≠ none) :
    r.lines = (fitting limit ls).map (· ++ [sep]) ∧
      (r.stopped = some .tooLarge ↔ ∃ l ∈ ls, limit < l.length + 1) := by
  cases hs : r.stopped with
  | none => exact absurd hs hstop
  | some stop =>
      cases stop with
      | eof =>
          -- nothing is left: all lines have been returned, and all of them fit
          have hrest := h.eof hs
          have hsplit := h.split
          rw [hrest, List.append_nil] at hsplit
          have hfitting : fitting limit ls = done := by
            have happend : fitting limit (done ++ []) = done ++ fitting limit [] :=
              fitting_append h.fits
            rw [List.append_nil] at happend
            rw [hsplit, happend]
            exact List.append_nil done
          refine ⟨by rw [hfitting, h.returned], fun heq => ?_, ?_⟩
          · exact absurd (Option.some.inj heq) (fun heq => Stop.noConfusion heq)
          · rintro ⟨l, hl, hlong⟩
            rw [hsplit] at hl
            have hfits := h.fits l hl
            omega
      | tooLarge =>
          -- the first line that is left is too long, and those before it fit
          obtain ⟨l, tail, hrest, hlong⟩ := h.tooLarge hs
          have hfitting : fitting limit (l :: tail) = [] :=
            List.takeWhile_cons_of_neg (by rw [decide_eq_true_eq]; omega)
          refine ⟨?_, fun _ => ⟨l, ?_, hlong⟩, fun _ => rfl⟩
          · rw [h.split, hrest, fitting_append h.fits, hfitting, List.append_nil, h.returned]
          · rw [h.split, hrest]
            exact List.mem_append_right done List.mem_cons_self

omit [DecidableEq α] in
/-- A reader at the start of chunks that are the lines. -/
theorem reads_start {chunks : List (List α)} (hfull : AllFull chunks)
    (hstream : chunks.flatten = unlines sep ls) :
    Reads sep limit ls (Reading.start chunks) [] ls where
  split := rfl
  returned := rfl
  fits := fun _ hl => absurd hl List.not_mem_nil
  stream := hstream
  unended := List.not_mem_nil
  bounded := Nat.zero_le limit
  full := hfull
  eof := fun heq => absurd heq (Option.some_ne_none _).symm
  tooLarge := fun heq => absurd heq (Option.some_ne_none _).symm

/-- **Reading with a limit.** However the lines arrive in chunks: the buffer never exceeds the limit,
what was returned is a beginning of the lines before the first that is too long, and after more
rounds than the input has elements it is all of them, and the reader stopped at a line that is too
long if there is one. -/
theorem after_spec {chunks : List (List α)} (hfull : AllFull chunks) (hls : ∀ l ∈ ls, sep ∉ l)
    (hstream : chunks.flatten = unlines sep ls) (k : ℕ) :
    let r := (Reading.start chunks).after sep limit k
    r.buffer.length ≤ limit ∧
      r.lines <+: (fitting limit ls).map (· ++ [sep]) ∧
      (chunks.flatten.length < k →
        r.lines = (fitting limit ls).map (· ++ [sep]) ∧
          (r.stopped = some .tooLarge ↔ ∃ l ∈ ls, limit < l.length + 1)) := by
  intro r
  have hreads : Reads sep limit ls (Reading.start chunks) [] ls := reads_start hfull hstream
  obtain ⟨done, rest, h, hless⟩ := hreads.after hls k
  refine ⟨h.bounded, h.lines_prefix, fun hk => h.stopped fun hnone => ?_⟩
  have hle := hless hnone
  have hstart : (Reading.start chunks).chunks = chunks := rfl
  rw [hstart] at hle
  omega

end LineReader
