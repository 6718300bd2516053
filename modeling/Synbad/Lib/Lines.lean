import Mathlib.Data.List.Basic

/-! # Lines and delimiters

A text as a list of symbols, one of which ends a line. `unlines` writes lines, `lines` reads them
back; it succeeds on lines that do not contain the end symbol (`lines_unlines`), and what it reads
never contains it. `pieces` keeps in addition whether a line was ended at all, for a reader that
treats a last line without its end as incomplete.

For a delimiter inside a line, `List.dropInfix?` finds its first occurrence. The last lemma,
`dropInfix?_eq_iff`, says when that is the one between two given parts: exactly if the first part,
followed by all of the delimiter but its last symbol, does not contain the delimiter. That is a
condition on the first part alone, and the one under which a text of two parts can be taken apart
again; writers of such texts meet it by what they allow in a name. -/

namespace Lines

variable {α : Type*} [DecidableEq α]

/-- Write lines, each with the end symbol after it. -/
def unlines (sep : α) (ls : List (List α)) : List α := ls.flatMap (· ++ [sep])

/-- The lines of a text: the parts between its end symbols. A part after the last of them is a line
too, unless it is empty. -/
def lines (sep : α) : List α → List (List α)
  | [] => []
  | a :: l =>
      if a = sep then [] :: lines sep l
      else
        match lines sep l with
        | [] => [[a]]
        | head :: tail => (a :: head) :: tail

variable {sep : α}

omit [DecidableEq α] in
/-- The text of two runs of lines is the text of the one and then that of the other. -/
theorem unlines_append (ls ks : List (List α)) :
    unlines sep (ls ++ ks) = unlines sep ls ++ unlines sep ks :=
  List.flatMap_append

/-- The first line of a text is the part before its first end symbol, and the other lines are those of
what follows. -/
theorem lines_line {l : List α} (h : sep ∉ l) (rest : List α) :
    lines sep (l ++ sep :: rest) = l :: lines sep rest := by
  induction l with
  | nil => simp [lines]
  | cons a l ih =>
      have ha : a ≠ sep := fun heq => h (by simp [heq])
      have hl : sep ∉ l := fun hmem => h (List.mem_cons_of_mem a hmem)
      rw [List.cons_append, lines, if_neg ha, ih hl]

/-- **Lines are read back** if none of them contains the end symbol. -/
theorem lines_unlines {ls : List (List α)} (h : ∀ l ∈ ls, sep ∉ l) :
    lines sep (unlines sep ls) = ls := by
  induction ls with
  | nil => rfl
  | cons l ls ih =>
      have hwrite : unlines sep (l :: ls) = l ++ sep :: unlines sep ls := by
        simp [unlines]
      rw [hwrite, lines_line (h l List.mem_cons_self), ih fun k hk => h k (List.mem_cons_of_mem l hk)]

/-- A text is read up to an end symbol, and then on. -/
theorem lines_append_end (l rest : List α) :
    lines sep (l ++ sep :: rest) = lines sep (l ++ [sep]) ++ lines sep rest := by
  induction l with
  | nil => simp [lines]
  | cons a l ih =>
      by_cases ha : a = sep
      · rw [List.cons_append, List.cons_append, lines, lines, if_pos ha, if_pos ha, ih,
          List.cons_append]
      · rw [List.cons_append, List.cons_append, lines, lines, if_neg ha, if_neg ha, ih]
        -- the first line goes on to the left of the end symbol
        cases h : lines sep (l ++ [sep]) with
        | nil =>
            cases l with
            | nil => simp [lines] at h
            | cons b l =>
                rw [List.cons_append, lines] at h
                split at h
                · cases h
                · split at h <;> cases h
        | cons head tail => rfl

/-- What is read from lines that may contain the end symbol. -/
theorem lines_unlines_flatMap (ls : List (List α)) :
    lines sep (unlines sep ls) = ls.flatMap fun l => lines sep (l ++ [sep]) := by
  induction ls with
  | nil => rfl
  | cons l ls ih =>
      have hwrite : unlines sep (l :: ls) = l ++ sep :: unlines sep ls := by
        simp [unlines]
      rw [hwrite, lines_append_end, ih, List.flatMap_cons]

/-- What is read as a line does not contain the end symbol. -/
theorem not_mem_of_mem_lines {text l : List α} (h : l ∈ lines sep text) : sep ∉ l := by
  induction text generalizing l with
  | nil => cases h
  | cons a text ih =>
      rw [lines] at h
      split at h
      · rcases List.mem_cons.mp h with rfl | h
        · exact List.not_mem_nil
        · exact ih h
      · next ha =>
        split at h
        · rw [List.mem_singleton.mp h, List.mem_singleton]
          exact fun heq => ha heq.symm
        · next head tail htext =>
          rcases List.mem_cons.mp h with rfl | h
          · have hhead : sep ∉ head := ih (by rw [htext]; exact List.mem_cons_self)
            rw [List.mem_cons, not_or]
            exact ⟨fun heq => ha heq.symm, hhead⟩
          · exact ih (by rw [htext]; exact List.mem_cons_of_mem head h)

/-- The lines of a text, each with whether the end symbol follows it; only the last may lack it, and
then it is not empty. -/
def pieces (sep : α) : List α → List (List α × Bool)
  | [] => []
  | a :: l =>
      if a = sep then ([], true) :: pieces sep l
      else
        match pieces sep l with
        | [] => [([a], false)]
        | (head, ended) :: tail => (a :: head, ended) :: tail

/-- The first piece of a text that has an end symbol. -/
theorem pieces_ended {l : List α} (h : sep ∉ l) (rest : List α) :
    pieces sep (l ++ sep :: rest) = (l, true) :: pieces sep rest := by
  induction l with
  | nil => exact if_pos rfl
  | cons a l ih =>
      have ha : a ≠ sep := fun heq => h (by rw [heq]; exact List.mem_cons_self)
      have hl : sep ∉ l := fun hmem => h (List.mem_cons_of_mem a hmem)
      rw [List.cons_append, pieces, if_neg ha, ih hl]

/-- A text without an end symbol is one piece, unless it is empty. -/
theorem pieces_unended {l : List α} (h : sep ∉ l) :
    pieces sep l = if l.isEmpty then [] else [(l, false)] := by
  induction l with
  | nil => rfl
  | cons a l ih =>
      have ha : a ≠ sep := fun heq => h (by rw [heq]; exact List.mem_cons_self)
      rw [pieces, if_neg ha, ih fun hmem => h (List.mem_cons_of_mem a hmem)]
      cases l <;> rfl

/-- **The first delimiter** in a text made of two parts is the one between them exactly if the first
part followed by all but the last symbol of the delimiter does not contain it. -/
theorem dropInfix?_eq_iff {k i v : List α} (hi : i ≠ []) :
    (k ++ i ++ v).dropInfix? i = some (k, v) ↔ ¬ i <:+: k ++ i.dropLast := by
  have hlast : i.dropLast ++ [i.getLast hi] = i := List.dropLast_append_getLast hi
  have hlength : i.dropLast.length + 1 = i.length := by
    rw [List.length_dropLast, Nat.sub_add_cancel (List.length_pos_iff.mpr hi)]
  rw [List.dropInfix?_eq_some_iff]
  constructor
  · rintro ⟨-, hfirst⟩ ⟨p, t, hinfix⟩
    have hwhole : k ++ i ++ v = p ++ i ++ (t ++ [i.getLast hi] ++ v) := by
      calc k ++ i ++ v = (k ++ i.dropLast) ++ [i.getLast hi] ++ v := by
            rw [List.append_assoc k i.dropLast, hlast]
        _ = p ++ i ++ (t ++ [i.getLast hi] ++ v) := by
            rw [← hinfix]
            simp only [List.append_assoc]
    have hle : k.length ≤ p.length := hfirst p i _ hwhole (beq_self_eq_true i)
    have hsum := congrArg List.length hinfix
    simp only [List.length_append] at hsum
    omega
  · intro hnone
    refine ⟨⟨i, rfl, beq_self_eq_true i⟩, ?_⟩
    intro p i' s hwhole hbeq
    rw [eq_of_beq hbeq] at hwhole
    -- an earlier occurrence ends before the last symbol of the delimiter
    by_contra hlt
    have hlt : p.length < k.length := Nat.lt_of_not_le hlt
    refine hnone ⟨p, s.take (k.length - 1 - p.length), ?_⟩
    have hleft : (k ++ i ++ v).take (k.length + i.dropLast.length) = k ++ i.dropLast := by
      rw [List.append_assoc, List.take_length_add_append]
      congr 1
      rw [List.take_append_of_le_length (by omega)]
      rw [List.dropLast_eq_take, List.length_take, Nat.min_eq_left (Nat.sub_le _ _)]
    have hright : (p ++ i ++ s).take (k.length + i.dropLast.length) =
        p ++ i ++ s.take (k.length - 1 - p.length) := by
      have hsplit : k.length + i.dropLast.length = (p ++ i).length + (k.length - 1 - p.length) := by
        rw [List.length_append]
        omega
      rw [hsplit, List.take_length_add_append]
    rw [← hleft, hwhole, hright]

end Lines
