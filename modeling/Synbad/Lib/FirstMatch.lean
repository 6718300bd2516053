import Mathlib.Data.List.Perm.Basic
import Mathlib.Data.List.Nodup

/-! # Serving requests from a stream

Each request asks for the first item of a stream that has its key. The stream is read once: an item
goes to a request that waits for it, which then waits no longer, and items nobody waits for are
skipped. The waiting requests are kept in a vector that a request leaves by `swap_remove`, so their
order is lost; as their keys are distinct, it does not matter.

`serve` is the loop. Its three rules are the whole of what a user needs: every request is served or
left waiting, and none twice (`serve_perm`); one that is served got the first item with its key
(`find?_of_mem_serve`); and one that is left waiting has no item at all in the stream
(`label_ne_of_mem_left`). Together they say what was served without mentioning the order of the
vector. An extraction of named files from an archive is such a loop. -/

namespace FirstMatch

variable {α β κ : Type*}

/-- `Vec::swap_remove`: the last element takes the place of the one that is taken out. There is
nothing to take out past the end. -/
def swapRemove (l : List β) (i : ℕ) : Option (β × List β) :=
  match l[i]?, l.getLast? with
  | some b, some last => some (b, (l.set i last).dropLast)
  | _, _ => none

/-- The first element that fits, and the vector after it was taken out with `swap_remove`; nothing if
none fits. -/
def take (p : β → Bool) (l : List β) : Option (β × List β) := (l.findIdx? p).bind (swapRemove l)

variable {p : β → Bool} {l rest : List β} {b : β} {i : ℕ}

/-- Taking an element out loses nothing: it and the others are what was there, in some order. -/
theorem swapRemove_perm (h : swapRemove l i = some (b, rest)) : (b :: rest).Perm l := by
  unfold swapRemove at h
  split at h
  case h_2 => cases h
  next c last hc hlast =>
  obtain ⟨rfl, rfl⟩ := Prod.mk.inj (Option.some.inj h)
  obtain ⟨init, rfl⟩ := List.getLast?_eq_some_iff.mp hlast
  by_cases hi : i < init.length
  · -- an element before the last: it changes places with the last
    rw [List.set_append_left _ _ hi, List.dropLast_concat]
    rw [List.getElem?_append_left hi, List.getElem?_eq_getElem hi, Option.some.injEq] at hc
    have hswap := List.getD_set_perm_cons init i last
    rw [List.getElem?_eq_getElem hi, Option.getD_some, hc] at hswap
    exact hswap.trans (List.perm_append_singleton last init).symm
  · have hlength : i = init.length := by
      have hlt := (List.getElem?_eq_some_iff.mp hc).1
      rw [List.length_append, List.length_singleton] at hlt
      omega
    subst hlength
    rw [List.getElem?_concat_length, Option.some.injEq] at hc
    subst hc
    simp only [List.set_append_right _ _ (Nat.le_refl _), Nat.sub_self, List.set_cons_zero,
      List.dropLast_concat]
    exact (List.perm_append_singleton last init).symm

/-- Nothing is taken exactly if nothing fits. -/
theorem take_eq_none_iff : take p l = none ↔ ∀ b ∈ l, p b = false := by
  rw [← List.findIdx?_eq_none_iff]
  cases hi : l.findIdx? p with
  | none => simp [take, hi]
  | some i =>
      obtain ⟨hlt, -⟩ := List.findIdx?_eq_some_iff_getElem.mp hi
      have hne : l ≠ [] := List.ne_nil_of_length_pos (Nat.zero_lt_of_lt hlt)
      simp [take, hi, swapRemove, List.getElem?_eq_getElem hlt, List.getLast?_eq_some_getLast hne]

/-- What is taken fits, and with what is left it is all there was. -/
theorem take_eq_some (h : take p l = some (b, rest)) : p b = true ∧ (b :: rest).Perm l := by
  obtain ⟨i, hi, hremove⟩ := Option.bind_eq_some_iff.mp h
  refine ⟨?_, swapRemove_perm hremove⟩
  obtain ⟨hlt, hfits, -⟩ := List.findIdx?_eq_some_iff_getElem.mp hi
  unfold swapRemove at hremove
  rw [List.getElem?_eq_getElem hlt] at hremove
  split at hremove
  · next c last hc _ =>
    obtain ⟨rfl, -⟩ := Prod.mk.inj (Option.some.inj hremove)
    rwa [← Option.some.inj hc]
  · cases hremove

/-! ## The stream -/

variable [DecidableEq κ] (label : α → Option κ) (key : β → κ)

/-- The requests that are served, each with its item and in the order of the stream, and those that
are still waiting at the end. An item without a label is for nobody. -/
def serve : List α → List β → List (β × α) × List β
  | [], waiting => ([], waiting)
  | a :: items, waiting =>
      match take (fun b => label a = some (key b)) waiting with
      | none => serve items waiting
      | some (b, rest) => ((b, a) :: (serve items rest).1, (serve items rest).2)

/-- When nothing waits any more, nothing more is served and nothing is left, whatever is still to
come. -/
theorem serve_nil (items : List α) : serve label key items [] = ([], []) := by
  induction items with
  | nil => rfl
  | cons a items ih => exact ih

/-- **Every request is either served or left waiting**, and none twice. -/
theorem serve_perm (items : List α) (requests : List β) :
    ((serve label key items requests).1.map Prod.fst ++ (serve label key items requests).2).Perm
      requests := by
  induction items generalizing requests with
  | nil => exact List.Perm.refl _
  | cons a items ih =>
      unfold serve
      split
      · exact ih requests
      · next b rest h => exact ((ih rest).cons b).trans (take_eq_some h).2

variable {requests : List β}

/-- Every request is served, or is left at the end. -/
theorem mem_or_mem_of_serve (items : List α) (h : b ∈ requests) :
    (∃ a, (b, a) ∈ (serve label key items requests).1) ∨
      b ∈ (serve label key items requests).2 := by
  have hmem := (serve_perm label key items requests).mem_iff.mpr h
  rw [List.mem_append, List.mem_map] at hmem
  obtain ⟨⟨c, a⟩, hserved, rfl⟩ | hleft := hmem
  · exact Or.inl ⟨a, hserved⟩
  · exact Or.inr hleft

variable {label key} {a : α} {items : List α}

/-- What is served was asked for. -/
theorem mem_of_mem_serve (h : (b, a) ∈ (serve label key items requests).1) : b ∈ requests :=
  (serve_perm label key items requests).subset
    (List.mem_append_left _ (List.mem_map_of_mem (f := Prod.fst) h))

/-- What is left was asked for. -/
theorem mem_of_mem_left (h : b ∈ (serve label key items requests).2) : b ∈ requests :=
  (serve_perm label key items requests).subset (List.mem_append_right _ h)

/-- **A request that is served gets the first item with its key.** -/
theorem find?_of_mem_serve (hkeys : (requests.map key).Nodup)
    (h : (b, a) ∈ (serve label key items requests).1) :
    items.find? (fun a => label a = some (key b)) = some a := by
  induction items generalizing requests with
  | nil => cases h
  | cons a' items ih =>
      have hb := mem_of_mem_serve h
      unfold serve at h
      split at h
      · next hnone =>
        rw [List.find?_cons_of_neg (by simpa using take_eq_none_iff.mp hnone b hb)]
        exact ih hkeys h
      · next c rest hsome =>
        obtain ⟨hlabel, hperm⟩ := take_eq_some hsome
        have hrest : (key c :: rest.map key).Nodup := (hperm.map key).nodup_iff.mpr hkeys
        rw [List.nodup_cons] at hrest
        rcases List.mem_cons.mp h with heq | h
        · obtain ⟨rfl, rfl⟩ := Prod.mk.inj heq
          exact List.find?_cons_of_pos hlabel
        · -- the item went to another request, so it does not have this one's key
          have hne : key c ≠ key b := by
            intro heq
            exact hrest.1 (heq ▸ List.mem_map_of_mem (mem_of_mem_serve h))
          rw [List.find?_cons_of_neg (by simp [of_decide_eq_true hlabel, hne])]
          exact ih hrest.2 h

/-- **A request that is left waiting has no item.** -/
theorem label_ne_of_mem_left (hkeys : (requests.map key).Nodup)
    (h : b ∈ (serve label key items requests).2) (ha : a ∈ items) : label a ≠ some (key b) := by
  induction items generalizing requests with
  | nil => cases ha
  | cons a' items ih =>
      have hb := mem_of_mem_left h
      unfold serve at h
      split at h
      · next hnone =>
        rcases List.mem_cons.mp ha with rfl | ha
        · simpa using take_eq_none_iff.mp hnone b hb
        · exact ih hkeys h ha
      · next c rest hsome =>
        obtain ⟨hlabel, hperm⟩ := take_eq_some hsome
        have hrest : (key c :: rest.map key).Nodup := (hperm.map key).nodup_iff.mpr hkeys
        rw [List.nodup_cons] at hrest
        rcases List.mem_cons.mp ha with rfl | ha
        · rw [of_decide_eq_true hlabel]
          intro heq
          exact hrest.1 (Option.some.inj heq ▸ List.mem_map_of_mem (mem_of_mem_left h))
        · exact ih hrest.2 h ha

/-- Served are exactly the requests whose item is in the stream, with the first such item. -/
theorem mem_serve_iff (hkeys : (requests.map key).Nodup) :
    (b, a) ∈ (serve label key items requests).1 ↔
      b ∈ requests ∧ items.find? (fun a => label a = some (key b)) = some a := by
  constructor
  · exact fun h => ⟨mem_of_mem_serve h, find?_of_mem_serve hkeys h⟩
  · rintro ⟨hb, hfind⟩
    rcases mem_or_mem_of_serve label key items hb with ⟨a', h⟩ | h
    · rw [find?_of_mem_serve hkeys h] at hfind
      rwa [← Option.some.inj hfind]
    · have hlabel := List.find?_some hfind
      exact absurd (of_decide_eq_true hlabel)
        (label_ne_of_mem_left hkeys h (List.mem_of_find?_eq_some hfind))

/-- Left waiting are exactly those whose item is not. -/
theorem mem_left_iff (hkeys : (requests.map key).Nodup) :
    b ∈ (serve label key items requests).2 ↔
      b ∈ requests ∧ items.find? (fun a => label a = some (key b)) = none := by
  constructor
  · intro h
    refine ⟨mem_of_mem_left h, List.find?_eq_none.mpr fun a ha => ?_⟩
    simpa using label_ne_of_mem_left hkeys h ha
  · rintro ⟨hb, hfind⟩
    rcases mem_or_mem_of_serve label key items hb with ⟨a, h⟩ | h
    · rw [find?_of_mem_serve hkeys h] at hfind
      cases hfind
    · exact h

end FirstMatch
