import Synbad.Sync.Versioned
import Synbad.Lib.Run

/-! # A network of gossiping replicas

Replicas edit their own documents, take snapshots of them, and merge any snapshot that was ever taken
into any replica. A snapshot stays available for ever, so a run covers delay, duplication, reordering
and loss, and forwarding through third replicas is a snapshot of a replica that merged one. `History`
runs along and records which initial states and local edits each replica and each snapshot has
absorbed.

The history is not part of the program: nothing in the network reads it, and it is computed from the
same list of steps. It is what statements about convergence are made of, as "having seen the same
writes" is a property of the run and not of the states. The two lemmas `step_replica` and `step_sent`
say what one step may do to one replica and to the snapshots; with them an invariant of the network is
shown in three cases, a state that stays, an edit, and a merge. -/

namespace Synbad

/-- One step of a network of replicas `ι`: an edit, a snapshot, or the merge of a snapshot that was
taken before. -/
inductive Action (ι : Type) where
  /-- A local edit, stamped with the replica's own machine id. -/
  | edit (i : ι) (config : Config)
  /-- Take a snapshot of a replica's state, which is there for anybody to merge from now on. -/
  | snapshot (i : ι)
  /-- Merge the `k`-th snapshot ever taken into a replica. -/
  | deliver (k : ℕ) (i : ι)

/-- The states of all replicas, and every snapshot taken so far. -/
structure Net (ι : Type) where
  replica : ι → VersionedConfig
  sent : List VersionedConfig

namespace Net

variable {ι : Type} [DecidableEq ι]

/-- Every replica starts with `VersionedConfig::initial` of a document of its own, and no snapshot has
been taken. -/
def start (machineId : ι → String) (configs : ι → Config) : Net ι :=
  ⟨fun i => VersionedConfig.initial (configs i) (machineId i), []⟩

/-- Replace one replica's state and leave the others alone. -/
def set (net : Net ι) (i : ι) (v : VersionedConfig) : Net ι :=
  { net with replica := Function.update net.replica i v }

/-- One step of the network: an edit goes through `apply_local`, and a snapshot that is delivered
through `merge`. -/
def step (machineId : ι → String) (net : Net ι) : Action ι → Net ι
  | .edit i c => net.set i ((net.replica i).applyLocal c (machineId i)).1
  | .snapshot i => { net with sent := net.sent ++ [net.replica i] }
  | .deliver k i =>
      match net.sent[k]? with
      | none => net
      | some v => net.set i ((net.replica i).merge v).1

/-- The network after the first `n` steps of a run. -/
def after (machineId : ι → String) (configs : ι → Config) (acts : List (Action ι)) (n : ℕ) : Net ι :=
  Run.after (step machineId) (start machineId configs) acts n

@[simp] theorem set_replica_self (net : Net ι) (i : ι) (v : VersionedConfig) :
    (net.set i v).replica i = v := Function.update_self ..

/-- Replacing the state of one replica leaves every other one alone. -/
theorem set_replica_of_ne (net : Net ι) {i j : ι} (v : VersionedConfig) (h : j ≠ i) :
    (net.set i v).replica j = net.replica j := Function.update_of_ne h ..

/-- **What one step does to one replica**: it keeps its state, edits it, or merges a snapshot. -/
theorem step_replica (machineId : ι → String) (net : Net ι) (a : Action ι) (j : ι) :
    (net.step machineId a).replica j = net.replica j ∨
      (∃ c, a = .edit j c ∧
        (net.step machineId a).replica j = ((net.replica j).applyLocal c (machineId j)).1) ∨
      ∃ k v, a = .deliver k j ∧ net.sent[k]? = some v ∧
        (net.step machineId a).replica j = ((net.replica j).merge v).1 := by
  cases a with
  | edit i c =>
      by_cases h : j = i
      · subst h
        exact Or.inr (Or.inl ⟨c, rfl, set_replica_self ..⟩)
      · exact Or.inl (set_replica_of_ne _ _ h)
  | snapshot i => exact Or.inl rfl
  | deliver k i =>
      cases hk : net.sent[k]? with
      | none => simp [step, hk]
      | some v =>
          by_cases h : j = i
          · subst h
            refine Or.inr (Or.inr ⟨k, v, rfl, hk, ?_⟩)
            simp [step, hk]
          · refine Or.inl ?_
            simp [step, hk, set_replica_of_ne _ _ h]

/-- **What one step does to the snapshots**: it keeps them, or adds the state of a replica. -/
theorem step_sent (machineId : ι → String) (net : Net ι) (a : Action ι) :
    (net.step machineId a).sent = net.sent ∨
      ∃ i, a = .snapshot i ∧ (net.step machineId a).sent = net.sent ++ [net.replica i] := by
  cases a with
  | edit i c => exact Or.inl rfl
  | snapshot i => exact Or.inr ⟨i, rfl, rfl⟩
  | deliver k i =>
      left
      rw [step]
      split <;> rfl

end Net

/-! ## Absorbed history -/

/-- Where a state's contents come from: a replica's initial document, or the edit made by the
`n`-th step of the run. -/
inductive Origin (ι : Type) where
  | initial (i : ι)
  | edit (n : ℕ)

/-- What each replica and each snapshot has absorbed, directly or through others. -/
structure History (ι : Type) where
  absorbed : ι → Set (Origin ι)
  sent : List (Set (Origin ι))
  length : ℕ

namespace History

variable {ι : Type} [DecidableEq ι]

/-- At first a replica has absorbed its own initial document. -/
def start : History ι := ⟨fun i => {.initial i}, [], 0⟩

/-- Record one step: an edit absorbs itself, a snapshot carries what its replica has absorbed, and
a merge absorbs all a snapshot carries. -/
def step (h : History ι) : Action ι → History ι
  | .edit i _ =>
      { h with
        absorbed := Function.update h.absorbed i (insert (.edit h.length) (h.absorbed i))
        length := h.length + 1 }
  | .snapshot i => { h with sent := h.sent ++ [h.absorbed i], length := h.length + 1 }
  | .deliver k i =>
      { h with
        absorbed :=
          match h.sent[k]? with
          | none => h.absorbed
          | some s => Function.update h.absorbed i (h.absorbed i ∪ s)
        length := h.length + 1 }

/-- The history after the first `n` steps of a run. -/
def after (acts : List (Action ι)) (n : ℕ) : History ι := Run.after step start acts n

/-- The length of the history counts the steps taken. -/
theorem length_after {acts : List (Action ι)} {n : ℕ} (hn : n ≤ acts.length) :
    (after acts n).length = n := by
  induction n with
  | zero => rfl
  | succ n ih =>
      have hlt : n < acts.length := hn
      rw [after, Run.after_succ (List.getElem?_eq_getElem hlt), ← after]
      have hstep : ∀ (h : History ι) (a : Action ι), (h.step a).length = h.length + 1 := by
        intro h a
        cases a <;> rfl
      rw [hstep, ih hlt.le]

end History

end Synbad
