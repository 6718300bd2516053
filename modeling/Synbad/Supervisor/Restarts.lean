import Synbad.Supervisor.Files
import Synbad.Sync.Convergence
import Synbad.Sync.Stamping
import Mathlib.Logic.Function.Basic

/-! # Stamps across restarts

Several machines, each with its daemon and its files. Daemons exchange the states they hand to sync
sessions; any of them may be killed between two file operations, have a save fail, find its sidecar
gone or its document edited, and be launched again. A value and its stamp live in two files that are
written one after the other, and nothing checks on load that they belong together. This module says
what a launch must find for stamps to go on identifying values.

A `Cluster` is all daemons, with every state that one of them has held. It is `Coherent` if a stamp
identifies the value of a field among all these states. An edit is grounded (`Grounded.applyLocal`):
what it changes takes a stamp that no state has held, since a machine knows a bound on its own stamps.
A merge is grounded because every field is ours or theirs (`Grounded.merge`). What breaks coherence is
said by `Breaks`: the rollback of a rejected merge, a counter that wraps around, and a launch from
files that do not continue what has been held.

`coherent_across_restarts` says of every run of a cluster that without such an action stamps and
values stay coherent; the two runs after it are a relaunch that is in order, and one after an edit
while the daemon was down. -/

namespace Synbad

/-! ## Machines and their daemons -/

namespace Daemon

/-- The machine the daemon runs on, up or down. -/
def host : Daemon → Host
  | .up s => s.host
  | .down host _ _ => host

/-- The state in memory, if the daemon is up. -/
def versioned? : Daemon → Option VersionedConfig
  | .up s => some s.versioned
  | .down _ _ _ => none

/-- The process is killed while it takes a step: its file operations up to that point stay, its
replies are not sent. -/
def killedIn (before after : Daemon) : Daemon := .down before.host after.disk before.effects

end Daemon

/-- The daemons of a set of machines. `held` is every state one of them has been in. -/
structure Cluster (ι : Type*) where
  node : ι → Daemon
  held : List VersionedConfig

namespace Cluster

variable {ι : Type*}

/-- What reaches a machine: an input of its own, or a state that some machine has held. -/
inductive Cause (ι : Type*) where
  /-- Anything but a state of another machine. -/
  | input (i : Input)
  /-- The `k`-th state that the daemon of `j` handed to a sync session. -/
  | deliver (j : ι) (k : ℕ)

/-- One action: what reaches which machine, and whether the process is killed over it. A kill after
the first of two file operations is one over a step in which the second fails. -/
structure Act (ι : Type*) where
  target : ι
  env : Env
  cause : Cause ι
  killed : Bool

/-- The input of the daemon, if there is one: states come in by delivery only. -/
def input (c : Cluster ι) : Cause ι → Option Input
  | .input (.event (.syncOp (.merge _ _))) => none
  | .input i => some i
  | .deliver j k =>
      (Effect.replies (c.node j).effects)[k]?.map fun v =>
        .event (.syncOp (.merge (c.node j).host.machineId v))

/-- The daemon after an input, killed over it or not. -/
def react (d : Daemon) (env : Env) (i : Input) (killed : Bool) : Daemon :=
  if killed then d.killedIn (d.step (env, i)) else d.step (env, i)

variable [DecidableEq ι]

/-- The daemon of one machine moves on, and the state it is in then is among those held. -/
def advance (c : Cluster ι) (i : ι) (d : Daemon) : Cluster ι :=
  ⟨Function.update c.node i d, c.held ++ d.versioned?.toList⟩

/-- One action, at the machine it reaches. -/
def step (c : Cluster ι) (a : Act ι) : Cluster ι :=
  match c.input a.cause with
  | none => c
  | some i => c.advance a.target (react (c.node a.target) a.env i a.killed)

/-- All machines before their first launch, with their files and no state held yet. -/
def installed (hosts : ι → Host) (disks : ι → Disk) : Cluster ι :=
  ⟨fun i => .down (hosts i) (disks i) [], []⟩

end Cluster

/-! ## Coherence -/

/-- Within these states, a stamp identifies the value of a field. -/
def Agree (held : List VersionedConfig) : Prop :=
  ∀ v ∈ held, ∀ w ∈ held, ∀ f, v.stamp f = w.stamp f → v.value f = w.value f

/-- **Stamps and values are coherent**: the states in memory and those handed to sessions are among
all those held so far, and these agree. -/
structure Cluster.Coherent {ι : Type*} (c : Cluster ι) : Prop where
  current : ∀ i s, c.node i = .up s → s.versioned ∈ c.held
  sent : ∀ i, ∀ v ∈ Effect.replies (c.node i).effects, v ∈ c.held
  agree : Agree c.held

namespace VersionedConfig

/-- Every stamp of this machine in these states is within the bound. -/
def Covers (v : VersionedConfig) (machineId : String) (held : List VersionedConfig) : Prop :=
  ∀ w ∈ held, ∀ f, (w.stamp f).origin = machineId → (w.stamp f).counter ≤ v.bound

/-- Every field is as some state has held it, or has a stamp of this machine that no state has
held. -/
def Grounded (v : VersionedConfig) (machineId : String) (held : List VersionedConfig) : Prop :=
  ∀ f, (∃ w ∈ held, w.reg f = v.reg f) ∨
    (v.stamp f).origin = machineId ∧ ∀ w ∈ held, w.stamp f ≠ v.stamp f

end VersionedConfig

/-! ## What a launch finds -/

namespace Disk

/-- The document that a launch from these files starts with. -/
def document (d : Disk) : Config :=
  match d.config with
  | .parsed c => c
  | _ => Config.default

/-- The stamps and the clock that a launch reads back. -/
def readSidecar (d : Disk) (env : Env) : Option (FieldStamps × ℕ) :=
  if env.sidecarLoadFails then none
  else
    match d.sidecar with
    | .parsed stamps clock => some (stamps, clock)
    | _ => none

/-- **The files continue what has been held so far.** Each stamp in the sidecar stands next to the
value it was held with, and no stamp of this machine is beyond the clock; or there is no readable
sidecar, and the machine has never issued a stamp. -/
def Continues (d : Disk) (env : Env) (machineId : String) (held : List VersionedConfig) : Prop :=
  match d.readSidecar env with
  | some (stamps, clock) =>
      (∀ f, ∃ w ∈ held, w.stamp f = stamps.stamp f ∧ w.value f = d.document.value f) ∧
        ∀ w ∈ held, ∀ f, (w.stamp f).origin = machineId →
          (w.stamp f).counter ≤ max clock stamps.maxCounter
  | none => ∀ w ∈ held, ∀ f, (w.stamp f).origin ≠ machineId

end Disk

/-- The event makes the supervisor put the file's values under the stamps of a rejected merge. -/
def Supervisor.RollsBack (s : Supervisor) (env : Env) : LoopEvent → Prop
  | .syncOp (.merge _ incoming) =>
      (s.versioned.merge incoming).2 = .updated ∧ ¬ (s.versioned.merge incoming).1.config.Valid ∧
        ∃ c, s.disk.loadConfig env = .ok (some c)
  | _ => False

namespace Cluster

variable {ι : Type*}

/-- **The action may break coherence**: a rejected merge is rolled back, a counter is about to wrap
around, or a daemon is launched from files that do not continue what has been held. -/
def Breaks (c : Cluster ι) (a : Act ι) : Prop :=
  a.killed = false ∧ ∃ i, c.input a.cause = some i ∧
    match c.node a.target, i with
    | .up s, .event e => s.RollsBack a.env e ∨ u64Max ≤ s.versioned.bound
    | .down host disk _, .launch _ => ¬ disk.Continues a.env host.machineId c.held
    | _, _ => False

end Cluster

/-! ## Edits and merges are grounded -/

namespace VersionedConfig

variable {v other : VersionedConfig} {machineId : String} {held : List VersionedConfig}

/-- A state that has been held is grounded, as each of its fields has been held so. -/
theorem Grounded.of_mem (h : v ∈ held) : v.Grounded machineId held :=
  fun _ => Or.inl ⟨v, h, rfl⟩

/-- A state with a larger bound covers what one with a smaller bound covers. -/
theorem Covers.mono (h : v.Covers machineId held) (hle : v.bound ≤ other.bound) :
    other.Covers machineId held :=
  fun w hw f horigin => (h w hw f horigin).trans hle

/-- **An edit is grounded**: what it leaves alone has been held, and what it changes takes a stamp
beyond every stamp of this machine. -/
theorem Grounded.applyLocal (hv : v ∈ held) (hcov : v.Covers machineId held)
    (h : v.bound < u64Max) (c : Config) : (v.applyLocal c machineId).1.Grounded machineId held := by
  intro f
  rw [applyLocal_reg]
  by_cases hsame : v.value f = c.value f
  · rw [if_pos hsame]
    exact Or.inl ⟨v, hv, rfl⟩
  · -- a stamp one beyond the bound has not been held: the bound covers all of ours
    right
    have hstamp : (v.applyLocal c machineId).1.stamp f = ⟨v.nextCounter, machineId⟩ := by
      rw [applyLocal_stamp, if_neg hsame]
    rw [hstamp, nextCounter_of_lt h]
    refine ⟨rfl, fun w hw heq => ?_⟩
    have hle := hcov w hw f (by rw [heq])
    rw [heq] at hle
    exact absurd hle (Nat.not_succ_le_self _)

/-- **A merge is grounded**: every field is ours or theirs. -/
theorem Grounded.merge (hv : v ∈ held) (ho : other ∈ held) :
    (v.merge other).1.Grounded machineId held := by
  intro f
  left
  rw [merge_reg]
  rcases (v.reg f).join_choice (other.reg f) with h | h
  · exact ⟨v, hv, h.symm⟩
  · exact ⟨other, ho, h.symm⟩

end VersionedConfig

/-! ## One event -/

/-- What the documents after an event have to be. -/
structure Docs.Extends (d d' : Docs) (held : List VersionedConfig) : Prop where
  host : d'.host = d.host
  grounded : d'.versioned.Grounded d.host.machineId held
  covers : d'.versioned.Covers d.host.machineId held
  replies : ∀ v ∈ d'.replies, v ∈ d.replies ∨ v = d'.versioned

/-- Handing out the state extends what has been held, as the state itself does. -/
theorem Docs.Extends.reply {d d' : Docs} {held : List VersionedConfig} (h : d.Extends d' held)
    (hreplies : d'.replies = d.replies) : d.Extends d'.reply held where
  host := h.host
  grounded := h.grounded
  covers := h.covers
  replies := by
    intro v hv
    rcases List.mem_append.mp hv with hv | hv
    · rw [hreplies] at hv
      exact Or.inl hv
    · exact Or.inr (List.mem_singleton.mp hv)

/-- **One event** that rolls nothing back and wraps no counter around extends what has been
held. -/
theorem Supervisor.handle_extends {s : Supervisor} {held : List VersionedConfig}
    (hv : s.versioned ∈ held) (hcov : s.versioned.Covers s.host.machineId held) {env : Env}
    {e : LoopEvent} (hsent : ∀ peer v, e = .syncOp (.merge peer v) → v ∈ held)
    (hroll : ¬ s.RollsBack env e) (hwrap : s.versioned.bound < u64Max) :
    s.docs.Extends (s.handle env e).docs held := by
  have hkeep : ∀ disk, s.docs.Extends { s.docs with disk := disk } held :=
    fun disk => ⟨rfl, .of_mem hv, hcov, fun v hv => Or.inl hv⟩
  have hedit : ∀ disk c, s.docs.Extends (s.docs.edit disk c) held :=
    fun disk c => ⟨rfl, .applyLocal hv hcov hwrap c,
      hcov.mono (VersionedConfig.bound_le_applyLocal hwrap c), fun v hv => Or.inl hv⟩
  have hmerge : ∀ peer incoming config disk, e = .syncOp (.merge peer incoming) →
      s.docs.Extends { s.docs with
        versioned := (s.versioned.merge incoming).1, config := config, disk := disk }.reply held := by
    intro peer incoming config disk asked
    refine Docs.Extends.reply ⟨rfl, .merge hv (hsent peer incoming asked),
      hcov.mono (VersionedConfig.bound_le_merge _ _), fun v hv => Or.inl hv⟩ rfl
  have hmoves := Supervisor.handle_moves s env e
  generalize (s.handle env e).docs = d at hmoves
  cases hmoves with
  | keep userStopped => exact hkeep _
  | snapshot asked => exact (hkeep s.disk).reply rfl
  | edit c asked valid saved => exact hedit _ c
  | reload c asked loaded differs => exact hedit _ c
  | stale peer incoming asked outcome => exact hmerge peer incoming s.config s.disk asked
  | adopt peer incoming asked outcome valid => exact hmerge peer incoming _ _ asked
  | rollBack peer incoming asked outcome invalid c loaded =>
      subst asked
      exact absurd ⟨outcome, invalid, c, loaded⟩ hroll
  | strand peer incoming asked invalid unloaded => exact hmerge peer incoming s.config s.disk asked

/-- An event that ends the loop answers no session. -/
theorem Supervisor.handle_replies_of_leavesLoop {s t : Supervisor} {env : Env} {e : LoopEvent}
    (h : t.leavesLoop e = true) :
    Effect.replies (s.handle env e).effects = Effect.replies s.effects := by
  have hquiet : ∀ op, e ≠ .syncOp op := by
    rintro op rfl
    cases h
  have hmoves := Supervisor.handle_moves s env e
  show (s.handle env e).docs.replies = s.docs.replies
  generalize (s.handle env e).docs = d at hmoves
  cases hmoves with
  | keep userStopped => rfl
  | snapshot asked => exact absurd asked (hquiet _)
  | edit c asked valid saved => rfl
  | reload c asked loaded differs => rfl
  | stale peer incoming asked outcome => exact absurd asked (hquiet _)
  | adopt peer incoming asked outcome valid => exact absurd asked (hquiet _)
  | rollBack peer incoming asked outcome invalid c loaded => exact absurd asked (hquiet _)
  | strand peer incoming asked invalid unloaded => exact absurd asked (hquiet _)

/-! ## A launch -/

/-- What `Supervisor::new` reads from the files: the stamps of the sidecar, or the first ones. -/
theorem Supervisor.newVersioned_eq (host : Host) (disk : Disk) (env : Env) (config : Config) :
    (newVersioned host disk env config).1 =
      match disk.readSidecar env with
      | some (stamps, clock) => VersionedConfig.fromParts config stamps clock
      | none => VersionedConfig.initial config host.machineId := by
  simp only [newVersioned, Disk.readSidecar]
  split
  · rfl
  · cases disk.sidecar <;> rfl

/-- What is loaded is the document of the files. -/
theorem Disk.loadConfig_document {disk : Disk} {env : Env} {loaded : Option Config}
    (h : disk.loadConfig env = .ok loaded) : loaded.getD Config.default = disk.document := by
  unfold Disk.document
  cases hfile : disk.config with
  | parsed c =>
      rw [Disk.loadConfig_of_parsed hfile h]
      rfl
  | missing =>
      unfold Disk.loadConfig at h
      rw [hfile] at h
      split at h <;> cases h
      rfl
  | _ =>
      unfold Disk.loadConfig at h
      rw [hfile] at h
      split at h <;> cases h

/-- Seeding leaves the sidecar alone and does not change the document a launch starts with. -/
theorem Daemon.seedConfig_document {disk disk' : Disk} {seed : Env}
    (h : seedConfig disk seed = .ok disk') :
    disk'.document = disk.document ∧ disk'.sidecar = disk.sidecar := by
  unfold seedConfig at h
  split at h
  · cases h
  · cases h
    exact ⟨rfl, rfl⟩
  · next hnone =>
    have hdefault : Config.default = disk.document := Disk.loadConfig_document hnone
    have hvalid : Config.default.validate = .ok () := Config.valid_default
    simp only [Disk.saveConfig, hvalid] at h
    split at h
    · next hsaved =>
      cases h
      split at hsaved
      · cases hsaved
      · cases hsaved
        exact ⟨hdefault, rfl⟩
    · cases h

/-- **A launch** from files that continue what has been held extends it. -/
theorem Supervisor.new_extends {host : Host} {disk disk' : Disk} {seed env : Env}
    {effects : List Effect} {s : Supervisor} {held : List VersionedConfig}
    (hseed : Daemon.seedConfig disk seed = .ok disk') (hnew : new host disk' env effects = .ok s)
    (h : disk.Continues env host.machineId held) :
    s.host = host ∧ Effect.replies s.effects = Effect.replies effects ∧
      s.versioned.Grounded host.machineId held ∧ s.versioned.Covers host.machineId held := by
  obtain ⟨loaded, hload, hdocs⟩ := new_docs hnew
  obtain ⟨hdoc, hsidecar⟩ := Daemon.seedConfig_document hseed
  have hread : disk'.readSidecar env = disk.readSidecar env := by
    unfold Disk.readSidecar
    rw [hsidecar]
  have hversioned : s.versioned = (newVersioned host disk' env disk.document).1 := by
    have hv : s.docs.versioned = _ := congrArg Docs.versioned hdocs
    rw [Disk.loadConfig_document hload, hdoc] at hv
    exact hv
  refine ⟨congrArg Docs.host hdocs, congrArg Docs.replies hdocs, ?_⟩
  rw [hversioned, newVersioned_eq, hread]
  unfold Disk.Continues at h
  -- the sidecar is of this document: its stamps are those of states held before
  split
  · next stamps clock hs =>
    rw [hs] at h
    obtain ⟨hheld, hclock⟩ := h
    refine ⟨fun f => ?_, hclock⟩
    obtain ⟨w, hw, hstamp, hvalue⟩ := hheld f
    exact Or.inl ⟨w, hw, Lww.Reg.ext hstamp hvalue⟩
  -- there is none that can be used, so all stamps are new, and no one has held any of this
  -- machine's
  · next hs =>
    rw [hs] at h
    constructor
    · intro f
      have hstamp : (VersionedConfig.initial disk.document host.machineId).stamp f =
          ⟨1, host.machineId⟩ := by
        cases f <;> rfl
      refine Or.inr ⟨by rw [hstamp], fun w hw heq => h w hw f ?_⟩
      rw [heq, hstamp]
    · intro w hw f horigin
      exact absurd horigin (h w hw f)

/-! ## Runs -/

namespace Cluster

variable {ι : Type*} [DecidableEq ι] {hosts : ι → Host} {c : Cluster ι}

/-- **The invariant**: coherence, and every running machine knows a bound on its own stamps. -/
structure Inv (hosts : ι → Host) (c : Cluster ι) : Prop where
  host : ∀ i, (c.node i).host = hosts i
  coherent : c.Coherent
  own : ∀ i s, c.node i = .up s → s.versioned.Covers (hosts i).machineId c.held

/-- Machines have ids of their own. -/
def Distinct (hosts : ι → Host) : Prop := Function.Injective fun i => (hosts i).machineId

/-- The machine that is stepped is in its new state. -/
theorem advance_node_self (c : Cluster ι) (i : ι) (d : Daemon) : (c.advance i d).node i = d := by
  simp only [advance, Function.update_self]

/-- And the other machines are as they were. -/
theorem advance_node_of_ne (c : Cluster ι) {i j : ι} (h : j ≠ i) (d : Daemon) :
    (c.advance i d).node j = c.node j := by
  simp only [advance, Function.update_of_ne h]

/-- A property of every daemon, from what it is for the one that moves. -/
theorem forall_advance {P : ι → Daemon → Prop} {i : ι} {d : Daemon} (hd : P i d)
    (h : ∀ j, j ≠ i → P j (c.node j)) (j : ι) : P j ((c.advance i d).node j) := by
  by_cases hji : j = i
  · subst hji
    rw [advance_node_self]
    exact hd
  · rw [advance_node_of_ne c hji]
    exact h j hji

/-- A daemon that goes down, or stays there, keeps the invariant. -/
theorem Inv.goDown (h : c.Inv hosts) {i : ι} {host : Host} {disk : Disk} {effects : List Effect}
    (hhost : host = hosts i) (hsent : ∀ v ∈ Effect.replies effects, v ∈ c.held) :
    (c.advance i (.down host disk effects)).Inv hosts := by
  have hheld : (c.advance i (.down host disk effects)).held = c.held := List.append_nil _
  have hdown : ∀ s, Daemon.down host disk effects ≠ .up s := fun s hs => Daemon.noConfusion hs
  refine ⟨?_, ⟨?_, ?_, ?_⟩, ?_⟩
  · exact forall_advance (P := fun j d => d.host = hosts j) hhost fun j _ => h.host j
  · rw [hheld]
    exact forall_advance (P := fun _ d => ∀ s, d = .up s → s.versioned ∈ c.held)
      (fun s hs => absurd hs (hdown s)) fun j _ => h.coherent.current j
  · rw [hheld]
    exact forall_advance (P := fun _ d => ∀ v ∈ Effect.replies d.effects, v ∈ c.held) hsent
      fun j _ => h.coherent.sent j
  · rw [hheld]
    exact h.coherent.agree
  · rw [hheld]
    exact forall_advance (P := fun j d => ∀ s, d = .up s →
      s.versioned.Covers (hosts j).machineId c.held) (fun s hs => absurd hs (hdown s))
      fun j _ => h.own j

/-- A grounded state joins the states held so far. -/
theorem agree_append {held : List VersionedConfig} {v : VersionedConfig} {machineId : String}
    (h : Agree held) (hv : v.Grounded machineId held) : Agree (held ++ [v]) := by
  -- `v` against an older state: its register has been held, or its stamp has not
  have hnew : ∀ w ∈ held, ∀ f, w.stamp f = v.stamp f → w.value f = v.value f := by
    intro w hw f heq
    rcases hv f with ⟨x, hx, hreg⟩ | ⟨-, hnever⟩
    · have hstamp : x.stamp f = v.stamp f := congrArg Lww.Reg.stamp hreg
      have hvalue : x.value f = v.value f := congrArg Lww.Reg.value hreg
      rw [← hvalue]
      exact h w hw x hx f (heq.trans hstamp.symm)
    · exact absurd heq (hnever w hw)
  intro w hw x hx f heq
  rcases List.mem_append.mp hw with hw | hw <;> rcases List.mem_append.mp hx with hx | hx
  · exact h w hw x hx f heq
  · rw [List.mem_singleton.mp hx] at heq ⊢
    exact hnew w hw f heq
  · rw [List.mem_singleton.mp hw] at heq ⊢
    exact (hnew x hx f heq.symm).symm
  · rw [List.mem_singleton.mp hw, List.mem_singleton.mp hx]

/-- A daemon is up in a grounded state that covers its own stamps. -/
theorem Inv.goUp (hids : Distinct hosts) (h : c.Inv hosts) {i : ι} {s : Supervisor}
    (hhost : s.host = hosts i)
    (hsent : ∀ v ∈ Effect.replies s.effects, v ∈ c.held ∨ v = s.versioned)
    (hground : s.versioned.Grounded (hosts i).machineId c.held)
    (hcov : s.versioned.Covers (hosts i).machineId c.held) : (c.advance i (.up s)).Inv hosts := by
  have hself : s.versioned ∈ c.held ++ [s.versioned] := List.mem_append_right _ List.mem_cons_self
  have hmono : ∀ {v}, v ∈ c.held → v ∈ c.held ++ [s.versioned] := List.mem_append_left _
  refine ⟨?_, ⟨?_, ?_, ?_⟩, ?_⟩
  -- the machine has the host it had, and its new state joins what has been held
  · exact forall_advance (P := fun j d => d.host = hosts j) hhost fun j _ => h.host j
  · refine forall_advance (P := fun _ d => ∀ t, d = .up t → t.versioned ∈ c.held ++ [s.versioned])
      ?_ fun j _ t hj => hmono (h.coherent.current j t hj)
    rintro t ⟨⟩
    exact hself
  · refine forall_advance (P := fun _ d => ∀ v ∈ Effect.replies d.effects,
      v ∈ c.held ++ [s.versioned]) ?_ fun j _ v hv => hmono (h.coherent.sent j v hv)
    intro v hv
    rcases hsent v hv with hv | rfl
    · exact hmono hv
    · exact hself
  · exact agree_append h.coherent.agree hground
  · -- the new state is one more that every bound must cover
    refine forall_advance (P := fun j d => ∀ t, d = .up t →
      t.versioned.Covers (hosts j).machineId (c.held ++ [s.versioned])) ?_ ?_
    · rintro t ⟨⟩ w hw f horigin
      rcases List.mem_append.mp hw with hold | hnew
      · exact hcov w hold f horigin
      · rw [List.mem_singleton.mp hnew]
        exact Supervisor.stamp_counter_le s.versioned f
    · intro j hji t hj w hw f horigin
      rcases List.mem_append.mp hw with hold | hnew
      · exact h.own j t hj w hold f horigin
      · -- another machine's stamp in the new state has been held before
        rw [List.mem_singleton.mp hnew] at horigin ⊢
        rcases hground f with ⟨x, hx, hreg⟩ | ⟨hours, -⟩
        · have hstamp : x.stamp f = s.versioned.stamp f := congrArg Lww.Reg.stamp hreg
          rw [← hstamp] at horigin ⊢
          exact h.own j t hj x hx f horigin
        · exact absurd (hids (horigin.symm.trans hours)) hji

/-- A running daemon stays as it is, its files apart. -/
theorem Inv.stay (hids : Distinct hosts) (h : c.Inv hosts) {i : ι} {s : Supervisor}
    (hi : c.node i = .up s) (disk : Disk) :
    (c.advance i (.up { s with disk := disk })).Inv hosts := by
  have hhost := h.host i
  rw [hi] at hhost
  have hsent := h.coherent.sent i
  rw [hi] at hsent
  exact h.goUp hids (s := { s with disk := disk }) hhost (fun v hv => Or.inl (hsent v hv))
    (.of_mem (h.coherent.current i s hi)) (h.own i s hi)

/-- An event of the loop that rolls nothing back and wraps no counter keeps the invariant of the
cluster. -/
theorem Inv.event (hids : Distinct hosts) (h : c.Inv hosts) {i : ι} {s : Supervisor}
    (hi : c.node i = .up s) {env : Env} {e : LoopEvent}
    (hsent : ∀ peer v, e = .syncOp (.merge peer v) → v ∈ c.held) (hroll : ¬ s.RollsBack env e)
    (hwrap : s.versioned.bound < u64Max) : (c.advance i (Daemon.stepUp s env e)).Inv hosts := by
  have hhost : s.host = hosts i := by
    have hh := h.host i
    rw [hi] at hh
    exact hh
  have hreplies : ∀ v ∈ Effect.replies s.effects, v ∈ c.held := by
    have hr := h.coherent.sent i
    rw [hi] at hr
    exact hr
  have hcov : s.versioned.Covers s.host.machineId c.held := by
    rw [hhost]
    exact h.own i s hi
  have hext := Supervisor.handle_extends (h.coherent.current i s hi) hcov hsent hroll hwrap
  simp only [Daemon.stepUp]
  split
  · -- the loop ends: the child is stopped, and nothing is handed out any more
    next hleaves =>
    have hdocs : (s.handle env e).stopCore.docs = (s.handle env e).docs :=
      Supervisor.stopCore_docs _
    refine h.goDown ?_ ?_
    · exact (congrArg Docs.host hdocs).trans (hext.host.trans hhost)
    · intro v hv
      have hsame : Effect.replies (s.handle env e).stopCore.effects = Effect.replies s.effects :=
        (congrArg Docs.replies hdocs).trans (Supervisor.handle_replies_of_leavesLoop hleaves)
      exact hreplies v (hsame ▸ hv)
  -- the loop goes on, and what it has handed out is the state it is in
  · refine h.goUp hids (hext.host.trans hhost) ?_ ?_ ?_
    · intro v hv
      rcases hext.replies v hv with hold | hnew
      · exact Or.inl (hreplies v hold)
      · exact Or.inr hnew
    · exact hhost ▸ hext.grounded
    · exact hhost ▸ hext.covers

/-- A launch from files that continue what has been held. -/
theorem Inv.launch (hids : Distinct hosts) (h : c.Inv hosts) {i : ι} {host : Host} {disk : Disk}
    {effects : List Effect} (hi : c.node i = .down host disk effects) {seed env : Env}
    (hcont : disk.Continues env host.machineId c.held) :
    (c.advance i (Daemon.launch host disk effects seed env)).Inv hosts := by
  have hhost := h.host i
  rw [hi] at hhost
  have hsent := h.coherent.sent i
  rw [hi] at hsent
  unfold Daemon.launch
  split
  · exact h.goDown hhost hsent
  · next disk' hseed =>
    split
    · exact h.goDown hhost hsent
    · next s hnew =>
      obtain ⟨hs, hreplies, hground, hcov⟩ := Supervisor.new_extends hseed hnew hcont
      have hid : host.machineId = (hosts i).machineId := congrArg Host.machineId hhost
      rw [hid] at hground hcov
      refine h.goUp hids (hs.trans hhost) (fun v hv => Or.inl (hsent v ?_)) hground hcov
      rw [hreplies] at hv
      exact hv

omit [DecidableEq ι] in
/-- A merge that comes in carries a state that has been held. -/
theorem Inv.held_of_input (h : c.Inv hosts) {cause : Cause ι} {peer : String}
    {v : VersionedConfig} (hc : c.input cause = some (.event (.syncOp (.merge peer v)))) :
    v ∈ c.held := by
  cases cause with
  | deliver j k =>
      simp only [input, Option.map_eq_some_iff] at hc
      obtain ⟨w, hw, heq⟩ := hc
      cases heq
      exact h.coherent.sent j _ (List.mem_of_getElem? hw)
  | input i =>
      have hi : i = .event (.syncOp (.merge peer v)) := by
        unfold input at hc
        split at hc
        · cases hc
        · next heq =>
          cases heq
          exact Option.some.inj hc
        · next heq => cases heq
      subst hi
      cases hc

/-- **One action** that does not break coherence preserves the invariant. -/
theorem Inv.step (hids : Distinct hosts) (h : c.Inv hosts) {a : Act ι} (ha : ¬ c.Breaks a) :
    (c.step a).Inv hosts := by
  unfold Cluster.step
  split
  · exact h
  next i hi =>
  have hsent := h.coherent.sent a.target
  have hhost := h.host a.target
  unfold react
  split
  · -- killed: only the files have changed
    exact h.goDown hhost hsent
  next hlives =>
  have hkilled : a.killed = false := by simpa using hlives
  cases hnode : c.node a.target with
  | up s =>
      rw [hnode] at hsent hhost
      cases i with
      | event e =>
          -- a step that breaks nothing neither rolls back nor meets a clock at its end
          have hbreaks : ¬ (s.RollsBack a.env e ∨ u64Max ≤ s.versioned.bound) := by
            intro hb
            refine ha ⟨hkilled, .event e, hi, ?_⟩
            rw [hnode]
            exact hb
          rw [not_or, not_le] at hbreaks
          refine h.event hids hnode ?_ hbreaks.1 hbreaks.2
          rintro peer v rfl
          exact h.held_of_input hi
      | launch seed => exact h.stay hids hnode s.disk
      | crash => exact h.goDown hhost hsent
      | editConfig file => exact h.stay hids hnode { s.disk with config := file }
      | editSidecar file => exact h.stay hids hnode { s.disk with sidecar := file }
  | down host disk effects =>
      rw [hnode] at hsent hhost
      cases i with
      | launch seed =>
          -- a launch that would come up with stamps of another document would break it
          refine h.launch hids hnode ?_
          by_contra hcont
          refine ha ⟨hkilled, .launch seed, hi, ?_⟩
          rw [hnode]
          exact hcont
      | _ => exact h.goDown hhost hsent

/-- **Stamps and values stay coherent across restarts**: for any set of machines with ids of their
own, from any files, whatever edits, deliveries, failing saves, kills, outside changes of the files
and launches follow in whatever order, as long as no action breaks it, no two states ever held show
different values of a field under one stamp. -/
theorem coherent_across_restarts (hids : Distinct hosts) (disks : ι → Disk) (acts : List (Act ι))
    (hsafe : ∀ n a, acts[n]? = some a →
      ¬ (Run.after step (installed hosts disks) acts n).Breaks a) (n : ℕ) :
    (Run.after step (installed hosts disks) acts n).Coherent := by
  have hstart : (installed hosts disks).Inv hosts := by
    refine ⟨fun _ => rfl, ⟨fun i s hs => Daemon.noConfusion hs, ?_, ?_⟩,
      fun i s hs => Daemon.noConfusion hs⟩
    · intro i v hv
      exact absurd hv List.not_mem_nil
    · intro v hv
      exact absurd hv List.not_mem_nil
  have hinv : (Run.after step (installed hosts disks) acts n).Inv hosts :=
    Run.invariant hstart (fun n a hn h => h.step hids (hsafe n a hn)) n
  exact hinv.coherent

/-- One machine with a default document, before its first launch. -/
def single : Cluster Unit := installed (fun _ => Daemon.seededHost) fun _ => Daemon.seeded

/-- Something happens on that machine, with nothing failing and nobody killed. -/
def happens (i : Input) : Act Unit := ⟨(), .calm 0 100, .input i, false⟩

/-- The port is changed, and the daemon launched again after a crash. -/
def relaunched : List (Act Unit) :=
  [happens (.launch (.calm 0 100)),
    happens (.event (.request (.setConfig { Config.default with port := 24801 }))),
    happens .crash, happens (.launch (.calm 0 100))]

/-- The second launch finds the port next to its stamp. -/
theorem coherent_across_restarts_relaunched :
    (Run.after step single relaunched 4).held.map (fun v => (v.stamp .port, v.config.port)) =
        [(⟨1, "a"⟩, 24800), (⟨2, "a"⟩, 24801), (⟨2, "a"⟩, 24801)] ∧
      (Run.after step single relaunched 4).Coherent := by
  have hids : Distinct fun _ : Unit => Daemon.seededHost := fun _ _ _ => rfl
  refine ⟨rfl, coherent_across_restarts hids (fun _ => Daemon.seeded) relaunched ?_ 4⟩
  intro n a hn
  -- one step after the other: a first launch, an edit, a crash and a launch that reads the sidecar
  match n with
  | 0 =>
      cases hn
      rintro ⟨-, i, hi, hbreaks⟩
      cases hi
      exact hbreaks fun w hw => absurd hw List.not_mem_nil
  | 1 =>
      cases hn
      rintro ⟨-, i, hi, hbreaks⟩
      cases hi
      rcases hbreaks with hroll | hwrap
      · exact hroll
      · exact absurd hwrap (by decide)
  | 2 =>
      cases hn
      rintro ⟨-, i, hi, hbreaks⟩
      cases hi
      exact hbreaks
  | 3 =>
      cases hn
      rintro ⟨-, i, hi, hbreaks⟩
      cases hi
      refine hbreaks ⟨fun f => ⟨_, List.mem_cons_of_mem _ List.mem_cons_self, ?_, ?_⟩, ?_⟩
      · cases f <;> rfl
      · cases f <;> rfl
      · intro w hw f _
        rcases List.mem_cons.mp hw with rfl | hw
        · cases f <;> decide
        · rw [List.mem_singleton.mp hw]
          cases f <;> decide

/-- The port is changed in the file while the daemon is down. -/
def editedOffline : List (Act Unit) :=
  [happens (.launch (.calm 0 100)), happens .crash,
    happens (.editConfig (.parsed { Config.default with port := 24801 })),
    happens (.launch (.calm 0 100))]

/-- The old stamp comes back with the new port. -/
theorem offline_edit_reuses_stamp :
    (Run.after step single editedOffline 4).held.map (fun v => (v.stamp .port, v.config.port)) =
        [(⟨1, "a"⟩, 24800), (⟨1, "a"⟩, 24801)] ∧
      ¬ (Run.after step single editedOffline 4).Coherent := by
  refine ⟨rfl, fun h => ?_⟩
  have hport : (24800 : ℕ) = 24801 :=
    h.agree _ List.mem_cons_self _ (List.mem_cons_of_mem _ List.mem_cons_self) .port rfl
  exact absurd hport (by decide)

end Cluster

end Synbad
