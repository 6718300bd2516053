import Mathlib.Order.Lattice
import Mathlib.Order.MinMax
import Mathlib.Data.Set.Insert
import Mathlib.Order.Monotone.Basic

/-! # Last-write-wins registers

A register holds a value together with the stamp of the write that put it there. Joining two registers
keeps the one with the larger stamp. This file relates a register to the *set of writes* it has
absorbed: `Latest W r` says that `r` is the write of `W` with the largest stamp. Absorbing a newer
write, absorbing nothing new, and joining two registers all keep that description, and when stamps
identify writes (`Coherent`) the description determines the register. Hence two registers that
absorbed the same writes, in whatever order and along whatever route, are equal (`Latest.unique`).

The last section follows one register over time. If no step lowers its stamp and every change of its
value raises it, then a stamp that is the same at both ends of a stretch shows that nothing happened
in between (`Reg.eq_of_stamp_eq`): the converse of what a version number is for. -/

namespace Lww

/-- A register: a value and the stamp of the write that put it there. -/
@[ext] structure Reg (T V : Type*) where
  stamp : T
  value : V

variable {T V : Type*} [LinearOrder T]

/-- Keep the register with the larger stamp, the left one on a tie. -/
def Reg.join (a b : Reg T V) : Reg T V := if a.stamp < b.stamp then b else a

/-- The stamp of a join is the larger stamp. -/
theorem Reg.join_stamp (a b : Reg T V) : (a.join b).stamp = max a.stamp b.stamp := by
  by_cases h : a.stamp < b.stamp
  · rw [join, if_pos h, max_eq_right h.le]
  · rw [join, if_neg h, max_eq_left (not_lt.mp h)]

/-- A join is one of its two sides, value and stamp together: it never mixes them. -/
theorem Reg.join_choice (a b : Reg T V) : a.join b = a ∨ a.join b = b := by
  by_cases h : a.stamp < b.stamp
  · exact Or.inr (if_pos h)
  · exact Or.inl (if_neg h)

/-- Stamps identify writes: two writes of the set with the same stamp are the same write, its value
included. -/
def Coherent (W : Set (Reg T V)) : Prop := ∀ x ∈ W, ∀ y ∈ W, x.stamp = y.stamp → x = y

/-- The register is the write of `W` with the largest stamp. -/
structure Latest (W : Set (Reg T V)) (r : Reg T V) : Prop where
  mem : r ∈ W
  ge : ∀ w ∈ W, w.stamp ≤ r.stamp

namespace Latest

variable {W X : Set (Reg T V)} {a b r w : Reg T V}

/-- A register that has absorbed one write holds it. -/
theorem singleton (r : Reg T V) : Latest {r} r :=
  ⟨rfl, fun w hw => by rw [Set.mem_singleton_iff.mp hw]⟩

/-- A write that is newer than the register replaces it: of the set with that write the register is
then the latest. -/
theorem insert (h : Latest W r) (hlt : r.stamp < w.stamp) : Latest (insert w W) w := by
  refine ⟨Set.mem_insert w W, ?_⟩
  rintro x (rfl | hx)
  · exact le_rfl
  · exact (h.ge x hx).trans hlt.le

/-- **Joining two registers absorbs the union of their writes.** -/
theorem join (ha : Latest W a) (hb : Latest X b) : Latest (W ∪ X) (a.join b) := by
  constructor
  · rcases a.join_choice b with h | h <;> rw [h]
    · exact Or.inl ha.mem
    · exact Or.inr hb.mem
  · intro w hw
    rw [Reg.join_stamp]
    rcases hw with hw | hw
    · exact (ha.ge w hw).trans (le_max_left _ _)
    · exact (hb.ge w hw).trans (le_max_right _ _)

/-- **Same writes, same register**: where stamps identify writes, two registers that are the latest of
one set are equal. -/
theorem unique (hW : Coherent W) (ha : Latest W a) (hb : Latest W b) : a = b :=
  hW a ha.mem b hb.mem (le_antisymm (hb.ge a ha.mem) (ha.ge b hb.mem))

end Latest

/-! ## One register over time -/

/-- **Nothing happens unseen**: if no step lowers the stamp and every change of the value raises it,
then a register with the same stamp at both ends of a stretch was the same all along. -/
theorem Reg.eq_of_stamp_eq {r : ℕ → Reg T V} (hmono : ∀ j, (r j).stamp ≤ (r (j + 1)).stamp)
    (hvalue : ∀ j, (r j).value ≠ (r (j + 1)).value → (r j).stamp < (r (j + 1)).stamp) {d t k : ℕ}
    (hdt : d ≤ t) (htk : t ≤ k) (h : (r d).stamp = (r k).stamp) : r t = r k := by
  have hrise : Monotone fun j => (r j).stamp := monotone_nat_of_le_succ hmono
  induction htk with
  | refl => rfl
  | @step k htk ih =>
      have hlow : (r d).stamp ≤ (r k).stamp := hrise (hdt.trans htk)
      have hstamp : (r k).stamp = (r (k + 1)).stamp :=
        le_antisymm (hmono k) (h.symm.le.trans hlow)
      have hlast : r k = r (k + 1) := by
        refine Reg.ext hstamp (not_not.mp fun hne => ?_)
        exact absurd hstamp (hvalue k hne).ne
      exact (ih (h.trans hstamp.symm)).trans hlast

end Lww
