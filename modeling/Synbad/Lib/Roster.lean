import Mathlib.Logic.Function.Basic

/-! # A view of a changing population

Many instances, each with a record; a record names the one it belongs to, so several instances can be
of one. A view has one record for each name. It is exact if its names are those of the instances there
are, one name left out, and each of its records is an instance's. The rules here say when a view stays
exact as an instance comes, changes or goes, and the view follows with an entry put, dropped or left.

Where instances share a name the answer is not always yes: a view that drops a name when one of two
instances of that name goes is wrong until the other is heard from again. So the rules are stated as
conditions on the change (`Exact.put_iff`, `Exact.update_iff`) rather than for distinct names only:
they are exact, and a run through such changes is exact as long as each of them meets its condition. -/

namespace Roster

variable {K I R : Type*} (name : R → I) (own : I)

/-- The view has exactly the names of the live instances, `own` apart, and each with the record of one
of them. -/
structure Exact (live : K → Option R) (view : I → Option R) : Prop where
  names : ∀ i, (view i).isSome ↔ i ≠ own ∧ ∃ k r, live k = some r ∧ name r = i
  current : ∀ i r, view i = some r → name r = i ∧ ∃ k, live k = some r

/-- Some instance other than `k` has the record the view has for `i`. -/
def Backed (live : K → Option R) (view : I → Option R) (k : K) (i : I) : Prop :=
  ∃ l r, l ≠ k ∧ live l = some r ∧ view i = some r

variable {name own} {live : K → Option R} {view : I → Option R} {k : K} {new : Option R}

/-- If there is no instance and the view shows nothing, the view is exact. -/
theorem Exact.empty : Exact name own (fun _ : K => none) (fun _ => none) where
  names i := by simp
  current i r h := by cases h

variable [DecidableEq K]

/-- A record that another instance has survives the change of this one. -/
theorem backed_update {i : I} (h : Backed live view k i) :
    ∃ l r, Function.update live k new l = some r ∧ view i = some r := by
  obtain ⟨l, r, hne, hl, hr⟩ := h
  exact ⟨l, r, by rw [Function.update_of_ne hne]; exact hl, hr⟩

/-- Conversely, if the new record of this instance is of another name. -/
theorem backed_of_update {i : I} (hnew : ∀ r, new = some r → view i ≠ some r)
    (h : ∃ l r, Function.update live k new l = some r ∧ view i = some r) : Backed live view k i := by
  obtain ⟨l, r, hl, hr⟩ := h
  by_cases hlk : l = k
  · rw [hlk, Function.update_self] at hl
    exact absurd hr (hnew r hl)
  · rw [Function.update_of_ne hlk] at hl
    exact ⟨l, r, hlk, hl, hr⟩

/-- **An instance changes and the view stays.** It is exact again if the new record's name is shown
already, and what was shown for the old name is still someone's record. -/
theorem Exact.update_iff (h : Exact name own live view) :
    Exact name own (Function.update live k new) view ↔
      (∀ r, new = some r → name r ≠ own → (view (name r)).isSome) ∧
      ∀ q, live k = some q → name q ≠ own →
        ∃ l r, Function.update live k new l = some r ∧ view (name q) = some r := by
  constructor
  · intro h'
    refine ⟨fun r hr hne => (h'.names _).mpr ⟨hne, k, r, ?_, rfl⟩, fun q hq hne => ?_⟩
    · rw [Function.update_self, hr]
    · obtain ⟨r, hr⟩ := Option.isSome_iff_exists.mp ((h.names _).mpr ⟨hne, k, q, hq, rfl⟩)
      obtain ⟨-, l, hl⟩ := h'.current _ r hr
      exact ⟨l, r, hl, hr⟩
  · rintro ⟨hshown, hkept⟩
    -- the instance that has a shown record: it has stayed, or it was `k` and the record is kept
    have hcurrent : ∀ i r, view i = some r → ∃ l, Function.update live k new l = some r := by
      intro i r hr
      obtain ⟨hname, l, hl⟩ := h.current i r hr
      by_cases hlk : l = k
      · have hown : name r ≠ own := by
          rw [hname]
          exact ((h.names i).mp (Option.isSome_iff_exists.mpr ⟨r, hr⟩)).1
        obtain ⟨l', r', hl', hr'⟩ := hkept r (hlk ▸ hl) hown
        rw [hname, hr] at hr'
        cases hr'
        exact ⟨l', hl'⟩
      · exact ⟨l, by rw [Function.update_of_ne hlk]; exact hl⟩
    refine ⟨fun i => ⟨fun hi => ?_, ?_⟩, fun i r hr => ⟨(h.current i r hr).1, hcurrent i r hr⟩⟩
    · obtain ⟨r, hr⟩ := Option.isSome_iff_exists.mp hi
      obtain ⟨l, hl⟩ := hcurrent i r hr
      exact ⟨((h.names i).mp hi).1, l, r, hl, (h.current i r hr).1⟩
    · rintro ⟨hne, l, r, hl, rfl⟩
      by_cases hlk : l = k
      · rw [hlk, Function.update_self] at hl
        exact hshown r hl hne
      · rw [Function.update_of_ne hlk] at hl
        exact (h.names _).mpr ⟨hne, l, r, hl, rfl⟩

/-- **An instance has a new record and the view shows it.** It is exact again if what was shown for
the old name, when that is another, is still someone's record. -/
theorem Exact.put_iff [DecidableEq I] {p : R} (h : Exact name own live view) (hp : name p ≠ own) :
    Exact name own (Function.update live k (some p)) (Function.update view (name p) (some p)) ↔
      ∀ q, live k = some q → name q ≠ own → name q ≠ name p → Backed live view k (name q) := by
  constructor
  -- the view loses nothing: a name that was shown has an instance to go by, with the new record or
  -- the old
  · intro h' q hq hne hname
    obtain ⟨r, hr⟩ := Option.isSome_iff_exists.mp ((h.names _).mpr ⟨hne, k, q, hq, rfl⟩)
    obtain ⟨hrq, l, hl⟩ := h'.current (name q) r (by rw [Function.update_of_ne hname]; exact hr)
    have hshown : ∃ l r, Function.update live k (some p) l = some r ∧ view (name q) = some r :=
      ⟨l, r, hl, hr⟩
    refine backed_of_update ?_ hshown
    rintro s hs hview
    cases hs
    exact hname ((h.current _ p hview).1).symm
  · intro hkept
    -- and shows nothing new but the name of the record that comes
    refine ⟨fun i => ?_, fun i r hr => ?_⟩
    · by_cases hi : i = name p
      · rw [hi, Function.update_self]
        exact ⟨fun _ => ⟨hp, k, p, Function.update_self .., rfl⟩, fun _ => rfl⟩
      · rw [Function.update_of_ne hi, h.names]
        refine and_congr_right fun hne => ⟨?_, ?_⟩
        · rintro ⟨l, r, hl, rfl⟩
          by_cases hlk : l = k
          · -- the record that goes had this name, and another instance has it too
            obtain ⟨l', r', hne', hl', hr'⟩ := hkept r (hlk ▸ hl) hne hi
            exact ⟨l', r', by rw [Function.update_of_ne hne']; exact hl', (h.current _ r' hr').1⟩
          · exact ⟨l, r, by rw [Function.update_of_ne hlk]; exact hl, rfl⟩
        · rintro ⟨l, r, hl, rfl⟩
          by_cases hlk : l = k
          · rw [hlk, Function.update_self] at hl
            cases hl
            exact absurd rfl hi
          · rw [Function.update_of_ne hlk] at hl
            exact ⟨l, r, hl, rfl⟩
    · by_cases hi : i = name p
      · rw [hi, Function.update_self] at hr
        cases hr
        exact ⟨hi.symm, k, Function.update_self ..⟩
      · rw [Function.update_of_ne hi] at hr
        obtain ⟨hname, l, hl⟩ := h.current i r hr
        refine ⟨hname, ?_⟩
        by_cases hlk : l = k
        -- the record that goes was the one shown under this name; another instance has the same
        · have hne := ((h.names i).mp (Option.isSome_iff_exists.mpr ⟨r, hr⟩)).1
          obtain ⟨l', r', hne', hl', hr'⟩ := hkept r (hlk ▸ hl) (hname ▸ hne) (hname ▸ hi)
          rw [hname, hr] at hr'
          cases hr'
          exact ⟨l', by rw [Function.update_of_ne hne']; exact hl'⟩
        · exact ⟨l, by rw [Function.update_of_ne hlk]; exact hl⟩

/-- **An instance goes and the view drops its name**, when no other instance has that name. -/
theorem Exact.drop [DecidableEq I] {i : I} (h : Exact name own live view)
    (hone : ∀ l r, l ≠ k → live l = some r → name r ≠ i)
    (hold : ∀ q, live k = some q → name q = i ∨ name q = own) :
    Exact name own (Function.update live k none) (Function.update view i none) := by
  refine ⟨fun j => ?_, fun j r hr => ?_⟩
  -- the name is gone from the view, and no instance has it any more
  · by_cases hj : j = i
    · rw [hj, Function.update_self]
      refine ⟨fun hf => (Bool.false_ne_true hf).elim, ?_⟩
      rintro ⟨-, l, r, hl, hname⟩
      by_cases hlk : l = k
      · rw [hlk, Function.update_self] at hl
        cases hl
      · rw [Function.update_of_ne hlk] at hl
        exact absurd hname (hone l r hlk hl)
    -- any other name is shown as before, by an instance that stays
    · rw [Function.update_of_ne hj, h.names]
      refine and_congr_right fun hne => ⟨?_, ?_⟩
      · rintro ⟨l, r, hl, rfl⟩
        by_cases hlk : l = k
        · obtain heq | heq := hold r (hlk ▸ hl)
          · exact absurd heq hj
          · exact absurd heq hne
        · exact ⟨l, r, by rw [Function.update_of_ne hlk]; exact hl, rfl⟩
      · rintro ⟨l, r, hl, rfl⟩
        by_cases hlk : l = k
        · rw [hlk, Function.update_self] at hl
          cases hl
        · rw [Function.update_of_ne hlk] at hl
          exact ⟨l, r, hl, rfl⟩
  · by_cases hj : j = i
    · rw [hj, Function.update_self] at hr
      cases hr
    · rw [Function.update_of_ne hj] at hr
      obtain ⟨hname, l, hl⟩ := h.current j r hr
      refine ⟨hname, l, ?_⟩
      by_cases hlk : l = k
      · obtain heq | heq := hold r (hlk ▸ hl)
        · exact absurd (hname.symm.trans heq) hj
        · exact absurd (hname.symm.trans heq)
            ((h.names j).mp (Option.isSome_iff_exists.mpr ⟨r, hr⟩)).1
      · rw [Function.update_of_ne hlk]
        exact hl

end Roster
