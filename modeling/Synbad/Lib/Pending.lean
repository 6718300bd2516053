import Synbad.Lib.Run

/-! # Publishing what has changed

A publisher derives a value from its state and has published one. Publishing may fail, so a flag
remembers that the published value may be behind the derived one. A step either publishes, or leaves
the published value alone; in that case the flag has to be up wherever the derived value moved, and it
must not come down. Then nothing is ever forgotten.

`Covered` is the invariant: the published value is the derived one, unless the flag is up.
`Step.covered` says that a step of either kind keeps it, and `flag_stays` that a flag comes down only
in a step that publishes. With a step that publishes whenever the flag is up and publishing works,
these two give convergence: after the first publication that works, what is published is what is
derived from then on, until the state moves again. -/

namespace Pending

variable {σ α β : Type*} (flag : σ → Bool) (derived published : σ → β)

/-- The published value is the derived one, unless the flag is up. -/
def Covered (s : σ) : Prop := flag s = false → published s = derived s

/-- What a step may do: publish the value it then derives; or leave the published value alone, with
the flag up afterwards unless it was down before and the derived value has not moved. -/
inductive Step (s s' : σ) : Prop where
  | publish (current : published s' = derived s')
  | defer (same : published s' = published s)
      (remembered : flag s' = false → flag s = false ∧ derived s' = derived s)

variable {flag derived published} {s s' : σ}

/-- A step of either kind keeps the published value the derived one wherever the flag is down. -/
theorem Step.covered (step : Step flag derived published s s')
    (h : Covered flag derived published s) : Covered flag derived published s' := by
  intro hflag
  cases step with
  | publish current => exact current
  | defer same remembered =>
      obtain ⟨hdown, hderived⟩ := remembered hflag
      rw [same, h hdown, hderived]

/-- **A flag stays up** until a step publishes: as long as the steps in between can only defer. -/
theorem flag_stays {step : σ → α → σ} {acts : List α} {i j : ℕ} (hij : i ≤ j)
    (up : flag (Run.after step s acts i) = true)
    (defer : ∀ k a, i ≤ k → k < j → acts[k]? = some a →
      flag (step (Run.after step s acts k) a) = false → flag (Run.after step s acts k) = false) :
    flag (Run.after step s acts j) = true := by
  induction j, hij using Nat.le_induction with
  | base => exact up
  | succ j hij ih =>
      have hj := ih fun k a hik hkj => defer k a hik (Nat.lt_succ_of_lt hkj)
      cases ha : acts[j]? with
      | none => rwa [Run.after_succ_none ha]
      | some a =>
          rw [Run.after_succ ha]
          -- were it down after this step, it would have been down before
          by_contra hdown
          rw [Bool.not_eq_true] at hdown
          rw [defer j a hij (Nat.lt_succ_self j) ha hdown] at hj
          cases hj

end Pending
