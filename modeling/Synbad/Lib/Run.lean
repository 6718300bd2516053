import Mathlib.Order.Monotone.Basic
import Mathlib.Data.List.Basic

/-! # Runs of a machine driven by a list of inputs

A machine is a step function `σ → α → σ`; a run feeds it a list of inputs. `Run.after` is the state
after the first `n` inputs, so that a statement about "every state the run passes through" is a
statement about every `n`. The rules here turn what one step preserves, raises or leaves alone into
what a whole run does, and compare a property of all states with a condition on all steps.

`Run.invariant` is the invariant rule, in the form in which only the steps this run really takes have
to preserve the property; `Run.monotone` is the same for a quantity that no step lowers.
`Run.forall_iff` is the rule behind theorems that say exactly when a run is good: if a step from a
good state leads to a good state precisely when a condition on that step holds, then a run is good
throughout precisely when all of its steps meet the condition. -/

namespace Run

variable {σ α β : Type*} (step : σ → α → σ) (s : σ) (acts : List α)

/-- The state after the first `n` inputs of the run, and at its end once `n` is past the last of
them. -/
def after (n : ℕ) : σ := (acts.take n).foldl step s

/-- The state after as many inputs as there are is the state at the end of the run. -/
theorem after_length : after step s acts acts.length = acts.foldl step s := by
  rw [after, List.take_length]

variable {step s acts}

/-- The state after one more input is what the step makes of the state before it and that input. -/
theorem after_succ {n : ℕ} {a : α} (h : acts[n]? = some a) :
    after step s acts (n + 1) = step (after step s acts n) a := by
  rw [after, List.take_add_one, h, Option.toList_some, List.foldl_append]
  rfl

/-- Past the last input the state stays as it is. -/
theorem after_succ_none {n : ℕ} (h : acts[n]? = none) :
    after step s acts (n + 1) = after step s acts n := by
  rw [after, List.take_add_one, h, Option.toList_none, List.append_nil, after]

/-- **Invariant rule**: a property of the start that every step of this run preserves holds in
every state of the run. -/
theorem invariant {P : σ → Prop} (start : P s)
    (next : ∀ n a, acts[n]? = some a → P (after step s acts n) → P (step (after step s acts n) a))
    (n : ℕ) : P (after step s acts n) := by
  induction n with
  | zero => exact start
  | succ n ih =>
      cases h : acts[n]? with
      | none => rwa [after_succ_none h]
      | some a =>
          rw [after_succ h]
          exact next n a h ih

/-- **Monotone rule**: a quantity no step of this run lowers never falls along it. -/
theorem monotone [Preorder β] {f : σ → β}
    (next : ∀ n a, acts[n]? = some a →
      f (after step s acts n) ≤ f (step (after step s acts n) a)) :
    Monotone fun n => f (after step s acts n) := by
  refine monotone_nat_of_le_succ fun n => ?_
  cases h : acts[n]? with
  | none => exact (congrArg f (after_succ_none h)).ge
  | some a =>
      rw [after_succ h]
      exact next n a h

/-- **Exactness rule**: if from a good state a step leads to a good state exactly when a condition
on that step holds, then a run from a good state passes through good states only exactly when all
its steps meet the condition. -/
theorem forall_iff {P : σ → Prop} {C : σ → α → Prop} (start : P s)
    (exact : ∀ t a, P t → (P (step t a) ↔ C t a)) :
    (∀ n, P (after step s acts n)) ↔
      ∀ n a, acts[n]? = some a → C (after step s acts n) a := by
  constructor
  · intro h n a ha
    have hnext := h (n + 1)
    rw [after_succ ha] at hnext
    exact (exact _ a (h n)).mp hnext
  · intro h
    exact invariant start fun n a ha hP => (exact _ a hP).mpr (h n a ha)

end Run
