import Mathlib.Order.Bounds.Basic

/-! # Signed 32-bit arithmetic that remembers whether it was exact

A machine integer is kept as the number it stands for, together with whether every conversion,
addition and subtraction on the way to it gave the exact result. An inexact addition or subtraction is
where a checked build stops and an unchecked one goes on with the wrapped number; an inexact
conversion wraps in both.

A definition over `Tracked` numbers is therefore both builds at once: the value is what the unchecked
one computes, and the flag says whether the checked one gets there. For each operation there is a pair
of lemmas. One says when the result is exact, which is when the operands are and the true result fits;
the other says that an exact result is the true one. A property of the computed numbers then follows
from the property of the true ones, wherever no step of the computation wrapped. -/

namespace I32

/-- `i32::MIN`, the least number that 32 signed bits can hold. -/
def MIN : ℤ := -2147483648

/-- `i32::MAX`, the greatest number that 32 signed bits can hold. -/
def MAX : ℤ := 2147483647

/-- The number is one that 32 signed bits can hold. -/
def Fits (n : ℤ) : Prop := MIN ≤ n ∧ n ≤ MAX

/-- Whether an integer fits can be computed. -/
instance (n : ℤ) : Decidable (Fits n) := inferInstanceAs (Decidable (_ ∧ _))

/-- What 32 signed bits keep of a number: the one that fits and is congruent to it modulo `2 ^ 32`. -/
def wrap (n : ℤ) : ℤ := Int.bmod n 4294967296

/-- A number that fits is kept as it is by the 32 bits. -/
theorem wrap_of_fits {n : ℤ} (h : Fits n) : wrap n = n := by
  obtain ⟨hlow, hhigh⟩ := h
  unfold MIN at hlow
  unfold MAX at hhigh
  exact Int.bmod_eq_of_le (by omega) (by omega)

/-- A machine number, and whether every step on the way to it was exact. -/
structure Tracked where
  value : ℤ
  exact : Bool
  deriving DecidableEq, Repr

namespace Tracked

/-- A number that was read and not computed, which is exact. -/
def given (n : ℤ) : Tracked := ⟨n, true⟩

/-- `n as i32`, for an unsigned number: exact if it fits, and wrapped otherwise. -/
def asI32 (n : ℤ) : Tracked := ⟨wrap n, decide (Fits n)⟩

/-- Signed addition: exact if both sides are and the sum fits. What is kept is the wrapped sum in any
case. -/
def add (a b : Tracked) : Tracked :=
  ⟨wrap (a.value + b.value), a.exact && b.exact && decide (Fits (a.value + b.value))⟩

/-- Signed subtraction: exact if both sides are and the difference fits. What is kept is the wrapped
difference in any case. -/
def sub (a b : Tracked) : Tracked :=
  ⟨wrap (a.value - b.value), a.exact && b.exact && decide (Fits (a.value - b.value))⟩

/-- `a as u32`: a negative number comes out as its complement. -/
def asU32 (a : Tracked) : Tracked := ⟨a.value % 4294967296, a.exact && decide (0 ≤ a.value)⟩

/-- The larger of two numbers, which is exact if both are: there is nothing to wrap. -/
def max (a b : Tracked) : Tracked := ⟨Max.max a.value b.value, a.exact && b.exact⟩

variable {a b : Tracked} {n : ℤ}

@[simp] theorem value_given : (given n).value = n := rfl

@[simp] theorem exact_given : (given n).exact = true := rfl

@[simp] theorem value_max : (a.max b).value = Max.max a.value b.value := rfl

/-- A conversion is exact on the numbers that fit. -/
@[simp] theorem exact_asI32 : (asI32 n).exact = true ↔ Fits n := decide_eq_true_iff

/-- A conversion that is recorded as exact keeps the number. -/
theorem value_asI32 (h : (asI32 n).exact = true) : (asI32 n).value = n :=
  wrap_of_fits (exact_asI32.mp h)

@[simp] theorem exact_max : (a.max b).exact = true ↔ a.exact = true ∧ b.exact = true :=
  Bool.and_eq_true_iff

/-- A sum is exact when its parts are and it fits. -/
@[simp] theorem exact_add :
    (a.add b).exact = true ↔ (a.exact = true ∧ b.exact = true) ∧ Fits (a.value + b.value) := by
  rw [add, Bool.and_eq_true, Bool.and_eq_true, decide_eq_true_iff]

/-- A sum that is recorded as exact is the sum of the two numbers. -/
theorem value_add (h : (a.add b).exact = true) : (a.add b).value = a.value + b.value :=
  wrap_of_fits (exact_add.mp h).2

/-- A difference is exact when its parts are and it fits. -/
@[simp] theorem exact_sub :
    (a.sub b).exact = true ↔ (a.exact = true ∧ b.exact = true) ∧ Fits (a.value - b.value) := by
  rw [sub, Bool.and_eq_true, Bool.and_eq_true, decide_eq_true_iff]

/-- A difference that is recorded as exact is the difference of the two numbers. -/
theorem value_sub (h : (a.sub b).exact = true) : (a.sub b).value = a.value - b.value :=
  wrap_of_fits (exact_sub.mp h).2

/-- Losing the sign is exact on what has none. -/
@[simp] theorem exact_asU32 : a.asU32.exact = true ↔ a.exact = true ∧ 0 ≤ a.value := by
  rw [asU32, Bool.and_eq_true, decide_eq_true_iff]

/-- An exact loss of the sign keeps a number that was in range. -/
theorem value_asU32 (h : a.asU32.exact = true) (hfits : Fits a.value) : a.asU32.value = a.value := by
  obtain ⟨-, hsign⟩ := exact_asU32.mp h
  have hhigh : a.value ≤ 2147483647 := hfits.2
  show a.value % 4294967296 = a.value
  omega

end Tracked

end I32
