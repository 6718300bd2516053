import Mathlib.Data.List.Basic
import Mathlib.Data.List.Nodup

/-! # Keyed lists

A list of records that each have a key, used as a finite map: looked up by the first record of a key,
or copied into a map of which the last one stays. As long as the keys are distinct the order does not
matter, and replacing or appending a record, or dropping a key, does to the lookup what it does to a
map.

`find` is the lookup, `put` replaces the first record of a key or appends, and `drop` filters a key
out. The lookup of the result is given in closed form (`find_put`, `find_drop`), so that a store that
is kept as a list is compared with the map it stands for one operation at a time; that keys stay
distinct is shown beside them. With distinct keys the lookup finds what is in the list and nothing
else (`find_eq_some_iff`), so that it depends on the list only up to its order (`find_perm`). -/

namespace Keyed

variable {α κ υ : Type*} [DecidableEq κ] (key : α → κ)

/-- The record of a key: the first one in the list, if there are several. -/
def find (k : κ) (l : List α) : Option α := l.find? fun x => key x == k

/-- Replace the first record of the key, or append the new one. -/
def put (x : α) : List α → List α
  | [] => [x]
  | y :: ys => if key y = key x then x :: ys else y :: put x ys

/-- The list without the records of a key, the others in their order. -/
def drop (k : κ) (l : List α) : List α := l.filter fun x => key x != k

variable {key} {l : List α} {x y : α} {k : κ}

/-! ## Lookup -/

/-- A search looks at the first entry first. -/
theorem find_cons (x : α) (l : List α) (k : κ) :
    find key k (x :: l) = if key x = k then some x else find key k l := by
  rw [find, List.find?_cons]
  by_cases hk : key x = k
  · simp [hk]
  · have hne : (key x == k) = false := by simpa using hk
    rw [hne, if_neg hk]
    rfl

/-- A record that is found under a key is in the list and has that key. -/
theorem mem_of_find (h : find key k l = some x) : x ∈ l ∧ key x = k :=
  ⟨List.mem_of_find?_eq_some h, beq_iff_eq.mp (List.find?_some (p := fun x => key x == k) h)⟩

/-- **With distinct keys, what is there is found**: the record of a key is exactly the one in the list
that has it. -/
theorem find_eq_some_iff (hl : (l.map key).Nodup) : find key k l = some x ↔ x ∈ l ∧ key x = k := by
  constructor
  · exact mem_of_find
  · rintro ⟨hx, rfl⟩
    cases h : find key (key x) l with
    | none =>
        have hnone := List.find?_eq_none.mp h x hx
        simp at hnone
    | some y =>
        obtain ⟨hy, hkey⟩ := mem_of_find h
        rw [List.inj_on_of_nodup_map hl hy hx hkey]

/-- A key that no record of the list has is not found. -/
theorem find_eq_none (h : k ∉ l.map key) : find key k l = none := by
  refine List.find?_eq_none.mpr fun x hx => ?_
  rw [beq_iff_eq]
  rintro rfl
  exact h (List.mem_map_of_mem hx)

omit [DecidableEq κ] in
/-- Keys that are distinct are so in whatever order. -/
theorem nodup_reverse (hl : (l.map key).Nodup) : (l.reverse.map key).Nodup := by
  rw [List.map_reverse]
  exact List.nodup_reverse.mpr hl

/-- **With distinct keys the order does not matter**: a permutation of the list has the same
lookup. -/
theorem find_perm {l' : List α} (h : l'.Perm l) (hl : (l.map key).Nodup) (k : κ) :
    find key k l' = find key k l := by
  apply Option.ext
  intro x
  show find key k l' = some x ↔ find key k l = some x
  rw [find_eq_some_iff ((h.map key).nodup_iff.mpr hl), find_eq_some_iff hl, h.mem_iff]

/-- With distinct keys the last record of a key is the first. -/
theorem find_reverse (hl : (l.map key).Nodup) (k : κ) : find key k l.reverse = find key k l :=
  find_perm (List.reverse_perm l) hl k

/-- Records that are changed but keep their keys are found as before. -/
theorem find_map {f : α → α} (hf : ∀ x, key (f x) = key x) (l : List α) (k : κ) :
    find key k (l.map f) = (find key k l).map f := by
  rw [find, List.find?_map, find]
  congr 2
  funext x
  exact congrArg (· == k) (hf x)

/-- A map filled with the records that have a value, first or last, has for each key the value of its
record. -/
theorem lookup_filterMap (hl : (l.map key).Nodup) (value : α → Option υ) (k : κ) :
    (l.filterMap fun x => (value x).map fun v => (key x, v)).lookup k = (find key k l).bind value := by
  induction l with
  | nil => rfl
  | cons y ys ih =>
      obtain ⟨hfirst, hrest⟩ := List.nodup_cons.mp hl
      rw [List.filterMap_cons, find_cons]
      by_cases hk : key y = k
      · subst hk
        rw [if_pos rfl]
        cases hv : value y with
        | none =>
            -- the one record of this key is left out
            have hrec := ih hrest
            rw [find_eq_none hfirst] at hrec
            rw [Option.bind_some, hv]
            exact hrec
        | some v => simp [hv]
      · rw [if_neg hk]
        cases value y with
        | none => exact ih hrest
        | some v =>
            have hne : (k == key y) = false := by simpa using fun h => hk (Eq.symm h)
            show List.lookup k ((key y, v) :: _) = _
            rw [List.lookup_cons, hne]
            exact ih hrest

/-- A table made of the entries' values, looked up from its end, has the value of the entry with
that key. -/
theorem lookup_reverse_filterMap (hl : (l.map key).Nodup) (value : α → Option υ) (k : κ) :
    (l.filterMap fun x => (value x).map fun v => (key x, v)).reverse.lookup k =
      (find key k l).bind value := by
  rw [← List.filterMap_reverse, lookup_filterMap (nodup_reverse hl), find_reverse hl]

/-! ## Put -/

/-- **A put changes one key**: under the key of the new record it is found, and under any other what
was found before. -/
theorem find_put (x : α) (l : List α) (k : κ) :
    find key k (put key x l) = if key x = k then some x else find key k l := by
  induction l with
  | nil =>
      rw [put, find, List.find?_singleton]
      simp [find]
  | cons y ys ih =>
      rw [put]
      by_cases hy : key y = key x
      · rw [if_pos hy, find_cons, find_cons, hy]
        split <;> rfl
      · rw [if_neg hy, find_cons, find_cons, ih]
        split
        · next hk =>
          have hne : ¬ key x = k := fun h => hy (hk.trans h.symm)
          rw [if_neg hne]
        · rfl

/-- A put brings in no key but that of its record. -/
theorem mem_map_put {x : α} {k : κ} (h : k ∈ (put key x l).map key) : k = key x ∨ k ∈ l.map key := by
  induction l with
  | nil => exact Or.inl (List.mem_singleton.mp h)
  | cons y ys ih =>
      rw [put] at h
      split at h
      · rcases List.mem_cons.mp h with h | h
        · exact Or.inl h
        · exact Or.inr (List.mem_cons_of_mem _ h)
      · rcases List.mem_cons.mp h with rfl | h
        · exact Or.inr List.mem_cons_self
        · rcases ih h with h | h
          · exact Or.inl h
          · exact Or.inr (List.mem_cons_of_mem _ h)

/-- What is there after a put is its record or was there before. -/
theorem mem_put {y : α} (h : y ∈ put key x l) : y = x ∨ y ∈ l := by
  induction l with
  | nil => exact Or.inl (List.mem_singleton.mp h)
  | cons z zs ih =>
      rw [put] at h
      split at h
      · exact (List.mem_cons.mp h).imp_right (List.mem_cons_of_mem _)
      · rcases List.mem_cons.mp h with rfl | h
        · exact Or.inr List.mem_cons_self
        · exact (ih h).imp_right (List.mem_cons_of_mem _)

/-- Putting an entry keeps the keys distinct. -/
theorem nodup_put (hl : (l.map key).Nodup) (x : α) : ((put key x l).map key).Nodup := by
  induction l with
  | nil => exact List.nodup_singleton _
  | cons y ys ih =>
      obtain ⟨hfirst, hrest⟩ := List.nodup_cons.mp hl
      rw [put]
      split
      · next hy =>
        rw [List.map_cons, ← hy]
        exact hl
      · next hy =>
        refine List.nodup_cons.mpr ⟨fun h => ?_, ih hrest⟩
        rcases mem_map_put h with h | h
        · exact hy h
        · exact hfirst h

/-! ## Drop -/

/-- **A drop takes one key out**: nothing is found under it, and under any other key what was found
before. -/
theorem find_drop (k : κ) (l : List α) (k' : κ) :
    find key k' (drop key k l) = if k = k' then none else find key k' l := by
  rw [find, drop, List.find?_filter]
  by_cases hk : k = k'
  · subst hk
    rw [if_pos rfl]
    refine List.find?_eq_none.mpr fun x _ => ?_
    simp
  · rw [if_neg hk, find]
    congr 1
    funext x
    by_cases hx : key x = k'
    · have hne : k' ≠ k := fun h => hk h.symm
      simp [hx, hne]
    · simp [hx]

/-- Dropping a key keeps the others distinct. -/
theorem nodup_drop (hl : (l.map key).Nodup) (k : κ) : ((drop key k l).map key).Nodup :=
  (List.Sublist.map key List.filter_sublist).nodup hl

/-- The list gets shorter exactly if the key had a record. -/
theorem length_drop_ne_iff : (drop key k l).length ≠ l.length ↔ (find key k l).isSome = true := by
  rw [Ne, drop, List.length_filter_eq_length_iff, find, List.find?_isSome]
  simp

end Keyed
