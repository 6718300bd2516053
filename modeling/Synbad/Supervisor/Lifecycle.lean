import Synbad.Supervisor.Documents

/-! # The life of the Core

An abstract machine for the Core's life, over the few fields that decide it, and the four phases it
can be in: off, resolving, owning a child, or waiting for an armed restart. Every handler of the
supervisor is matched by an operation of this machine, so that the phases are an invariant of every
run of the daemon.

`CoreState` has the run intent, the child with its handle, the resolution in flight, the armed restart
and what is shown, and `Supervisor.core` reads it off a supervisor. Its operations are `want`,
`start`, `stop`, `restart`, `resolved`, `park`, `own` and `retire`; for each handler one lemma says
which of them it is (`startCore_core`, `launchCore_core`, `coreResolved_core`, `handleChildExit_core`,
and so on). Events that edit the document leave the Core alone or bounce a wanted one (`Bounces`),
whatever else they do.

That the operations lead from phases to phases is shown on the abstract machine, where it is a matter
of few cases. `handle_phased` puts both together for every event of the loop; a valid document is
needed only where a launch must not end with neither a child nor a restart. -/

namespace Synbad

/-! ## The abstract machine -/

/-- The part of the supervisor that decides whether a Core runs. -/
structure CoreState where
  state : Ipc.DaemonState
  desiredRunning : Bool
  childKill : Option Pid
  restartAt : Option ℕ
  childPid : Option Pid
  coreResolving : Bool
  /-- How many resolution tasks are in flight; a task that is superseded still reports. -/
  tasks : ℕ
  coreReadyAt : Option ℕ
  coreConnectDeadline : Option ℕ
  /-- The user-stopped marker is on disk, where the next launch finds it. -/
  userStopped : Bool
  /-- The children spawned so far, over all runs of the daemon. -/
  spawns : List Pid

namespace CoreState

/-- The guard that keeps a second child from being started. -/
def busy (c : CoreState) : Bool := c.state.hasChild || c.childKill.isSome

/-- Set the run intent, and the marker as far as it could be written. -/
def want (c : CoreState) (desired marker : Bool) : CoreState :=
  { c with desiredRunning := desired, userStopped := marker }

/-- Start, unless busy: one resolution is in flight afterwards. -/
def start (c : CoreState) : CoreState :=
  if c.busy then { c with restartAt := none }
  else
    { c with
      restartAt := none, state := .starting, coreResolving := true
      tasks := if c.coreResolving then c.tasks else c.tasks + 1 }

/-- Let go of everything but a resolution in flight. -/
def stop (c : CoreState) : CoreState :=
  { c with
    state := .stopped, childKill := none, restartAt := none, childPid := none
    coreReadyAt := none, coreConnectDeadline := none }

/-- Bounce: stop, and start again. -/
def restart (c : CoreState) : CoreState := c.stop.start

/-- A resolution task has reported, and is no longer in flight. -/
def resolved (c : CoreState) : CoreState := { c with coreResolving := false, tasks := c.tasks - 1 }

/-- Wait for a restart at time `t`, showing `state`; `spawned` is a child that came and went. -/
def park (c : CoreState) (t : ℕ) (state : Ipc.DaemonState) (spawned : List Pid) : CoreState :=
  { c with restartAt := some t, state := state, spawns := c.spawns ++ spawned }

/-- Own a new child, to be connected by time `t`. -/
def own (c : CoreState) (pid : Pid) (t : ℕ) : CoreState :=
  { c with
    state := .running pid, childKill := some pid, childPid := some pid
    coreReadyAt := none, coreConnectDeadline := some t, spawns := c.spawns ++ [pid] }

/-- The child has exited, and with it goes what is known of its progress. -/
def retire (c : CoreState) : CoreState :=
  { c with childKill := none, childPid := none, coreReadyAt := none, coreConnectDeadline := none }

/-- **The four phases**: off, resolving, owning a child, and waiting for an armed restart. -/
inductive Phased : CoreState → Prop
  /-- Nothing is wanted; a resolution started earlier may still be in flight. -/
  | off (stale marker : Bool) (spawns : List Pid) :
      Phased ⟨.stopped, false, none, none, none, stale, stale.toNat, none, none, marker, spawns⟩
  /-- Exactly one resolution is in flight, and nothing is owned or armed. -/
  | resolving (marker : Bool) (spawns : List Pid) :
      Phased ⟨.starting, true, none, none, none, true, 1, none, none, marker, spawns⟩
  /-- A child is owned; its kill handle may have been used. -/
  | owning (pid : Pid) (kill : Option Pid) (ready deadline : Option ℕ) (marker : Bool)
      (spawns : List Pid) :
      Phased ⟨.running pid, true, kill, none, some pid, false, 0, ready, deadline, marker, spawns⟩
  /-- A restart is armed, nothing is in flight or owned, and what is shown is no running child. -/
  | armed (state : Ipc.DaemonState) (idle : state.hasChild = false) (t : ℕ) (marker : Bool)
      (spawns : List Pid) :
      Phased ⟨state, true, none, some t, none, false, 0, none, none, marker, spawns⟩

namespace Phased

variable {c : CoreState}

/-- Wanting a Core and starting it leads to a phase. -/
theorem start (h : c.Phased) (marker : Bool) : (c.want true marker).start.Phased := by
  cases h with
  | off stale m spawns => cases stale <;> exact .resolving marker spawns
  | resolving m spawns => exact .resolving marker spawns
  | owning pid kill ready deadline m spawns => exact .owning pid kill ready deadline marker spawns
  | armed state idle t m spawns =>
      -- only here does the guard depend on more than the phase's constants
      have hfree : (CoreState.want ⟨state, true, none, some t, none, false, 0, none, none, m, spawns⟩
          true marker).busy = false := by
        simp [CoreState.want, CoreState.busy, idle]
      rw [CoreState.start, hfree]
      exact .resolving marker spawns

/-- Starting a Core that is wanted already leads to a phase. -/
theorem start_wanted (h : c.Phased) (hd : c.desiredRunning = true) : c.start.Phased := by
  have hsame : c.want true c.userStopped = c := by
    rw [CoreState.want, ← hd]
  rw [← hsame]
  exact h.start c.userStopped

/-- Giving up on the Core leads to a phase, with a resolution in flight perhaps. -/
theorem stop (h : c.Phased) (marker : Bool) : (c.want false marker).stop.Phased := by
  cases h with
  | off stale m spawns => exact .off stale marker spawns
  | resolving m spawns => exact .off true marker spawns
  | owning pid kill ready deadline m spawns => exact .off false marker spawns
  | armed state idle t m spawns => exact .off false marker spawns

/-- Wanting a Core and bouncing it leads to a phase. -/
theorem restart (h : c.Phased) (marker : Bool) : (c.want true marker).restart.Phased := by
  cases h with
  | off stale m spawns => cases stale <;> exact .resolving marker spawns
  | resolving m spawns => exact .resolving marker spawns
  | owning pid kill ready deadline m spawns => exact .resolving marker spawns
  | armed state idle t m spawns => exact .resolving marker spawns

/-- Bouncing a Core that is wanted already leads to a phase. -/
theorem restart_wanted (h : c.Phased) (hd : c.desiredRunning = true) : c.restart.Phased := by
  have hsame : c.want true c.userStopped = c := by
    rw [CoreState.want, ← hd]
  rw [← hsame]
  exact h.restart c.userStopped

end Phased

end CoreState

/-- The spawns of two runs of effects are those of the one and then of the other. -/
@[simp] theorem Effect.spawns_append (l k : List Effect) :
    Effect.spawns (l ++ k) = Effect.spawns l ++ Effect.spawns k :=
  List.filterMap_append

namespace Supervisor

/-- The abstract state of a supervisor, which reads the fields that decide and counts the rest. -/
def core (s : Supervisor) : CoreState where
  state := s.state
  desiredRunning := s.desiredRunning
  childKill := s.childKill
  restartAt := s.restartAt
  childPid := s.childPid
  coreResolving := s.coreResolving
  tasks := s.resolveTasks.length
  coreReadyAt := s.coreReadyAt
  coreConnectDeadline := s.coreConnectDeadline
  userStopped := s.disk.userStopped
  spawns := Effect.spawns s.effects

/-! ## The supervisor follows the machine -/

/-- A new state is what the lifecycle has of it. -/
theorem setState_core (s : Supervisor) (new : Ipc.DaemonState) :
    (s.setState new).core = { s.core with state := new } := rfl

/-- A log line is nothing to the lifecycle. -/
theorem recordLog_core (s : Supervisor) (line : String) : (s.recordLog line).core = s.core := by
  simp only [core, recordLog]

/-- An effect that is no spawn leaves the machine alone. -/
theorem act_core (s : Supervisor) {e : Effect} (h : Effect.spawns [e] = []) :
    (s.act e).core = s.core := by
  simp only [core, act, Effect.spawns_append, h, List.append_nil]

/-- `startCore` is `start` on the abstract state. -/
theorem startCore_core (s : Supervisor) : s.startCore.core = s.core.start := by
  have hbusy : (s.state.hasChild || s.childKill.isSome) = s.core.busy := rfl
  simp only [startCore, CoreState.start, hbusy]
  split
  · rfl
  · rw [show s.core.coreResolving = s.coreResolving from rfl]
    cases hr : s.coreResolving
    · simp only [setState, hr, Bool.false_eq_true, if_false, core, List.length_append,
        List.length_singleton]
    · simp only [setState, hr, if_true, core]

/-- `stopCore` is `stop` on the abstract state. -/
theorem stopCore_core (s : Supervisor) : s.stopCore.core = s.core.stop := by
  simp only [stopCore]
  rw [setState_core]
  cases hk : s.childKill with
  | none => simp only [core, CoreState.stop, hk]
  | some child =>
      simp only []
      rw [act_core _ rfl, act_core _ rfl]
      rfl

/-- `restartCore` is `restart` on the abstract state. -/
theorem restartCore_core (s : Supervisor) : s.restartCore.core = s.core.restart := by
  rw [restartCore, startCore_core, stopCore_core]
  rfl

/-- `killChild` only uses up the kill handle; the child stays owned until its exit. -/
theorem killChild_core (s : Supervisor) : s.killChild.core = { s.core with childKill := none } := by
  unfold killChild
  split
  · next h => simp only [core, h]
  · rw [act_core _ rfl]
    rfl

/-- A failed start parks the Core: a restart is armed at some time, and the failure is shown. -/
theorem startFailed_core (s : Supervisor) (env : Env) (what : String) :
    ∃ t, (s.startFailed env what).core = s.core.park t (.crashed none) [] := by
  refine ⟨env.now +
    { s with fastFailCount := saturatingSucc s.fastFailCount }.restartDelay, ?_⟩
  rw [startFailed, setState_core, recordLog_core]
  simp only [core, CoreState.park, scheduleRestart, List.append_nil]

/-- Writing the Core's files is nothing to the lifecycle. -/
theorem writeCoreArtefacts_core (s : Supervisor) (env : Env) :
    (s.writeCoreArtefacts env).1.core = s.core := by
  unfold writeCoreArtefacts
  split
  · rfl
  · simp only []
    split <;> rfl

/-- A spawn ends with an owned child, or with none and an error; a child whose log cannot be opened
has been spawned all the same. -/
theorem spawnChild_core (s : Supervisor) (env : Env) (program : PathBuf) (args : List String) :
    (∃ pid t, (s.spawnChild env program args).2 = .ok () ∧
        (s.spawnChild env program args).1.core = s.core.own pid t) ∨
      ∃ e spawned, (s.spawnChild env program args).2 = .error e ∧
        (s.spawnChild env program args).1.core =
          { s.core with spawns := s.core.spawns ++ spawned } := by
  unfold spawnChild
  split
  · refine Or.inr ⟨_, [], rfl, ?_⟩
    simp only [core, List.append_nil]
  · next pid _ =>
    simp only []
    split
    · refine Or.inr ⟨_, [pid], rfl, ?_⟩
      rw [act_core _ rfl]
      simp only [core, act, Effect.spawns_append]
      rfl
    · refine Or.inl ⟨pid, env.now + coreConnectTimeout, rfl, ?_⟩
      simp only [core, act, setState, Effect.spawns_append, CoreState.own]
      rfl

/-- **A launch with a valid document** ends with an owned child or an armed restart, never with
neither: the command line can be built. -/
theorem launchCore_core {s : Supervisor} (hvalid : s.config.Valid) (env : Env)
    (resolved : ResolvedCore) :
    (∃ pid t, (s.launchCore env resolved).core = s.core.own pid t) ∨
      ∃ t spawned, (s.launchCore env resolved).core = s.core.park t (.crashed none) spawned := by
  have hwrite := writeCoreArtefacts_core s env
  have hdocs := writeCoreArtefacts_docs s env
  unfold launchCore
  split
  · next w e hw =>
    rw [hw] at hwrite
    obtain ⟨t, ht⟩ := startFailed_core w env e
    right
    refine ⟨t, [], ?_⟩
    rw [ht, hwrite]
  · next w hw =>
    rw [hw] at hwrite hdocs
    have hconfig : w.config = s.config := congrArg Docs.config hdocs
    split
    · next e he =>
      -- a valid document always yields a command line
      have hw : w.config.Valid := hconfig ▸ hvalid
      obtain ⟨_, _, hcmd⟩ := buildCommand_ok hw resolved w.host.generatedConf
        w.host.generatedSettings
      rw [hcmd] at he
      cases he
    · next program args _ =>
      rcases spawnChild_core w env program args with ⟨pid, t, hok, hcore⟩ | ⟨e, spawned, herr, hcore⟩
      · left
        refine ⟨pid, t, ?_⟩
        split
        · next hs =>
          rw [hs] at hcore
          rw [hcore, hwrite]
        · next hs =>
          rw [hs] at hok
          cases hok
      · right
        split
        · next hs =>
          rw [hs] at herr
          cases herr
        · next v e' hs =>
          rw [hs] at hcore
          obtain ⟨t, ht⟩ := startFailed_core v env e'
          refine ⟨t, spawned, ?_⟩
          rw [ht, hcore, hwrite]
          simp only [CoreState.park, List.append_nil]

/-- **The end of a resolution**: ignored when there is none, dropped when nothing wants it, and
otherwise a child or an armed restart. -/
theorem coreResolved_core {s : Supervisor} (hvalid : s.config.Valid) (env : Env)
    (fetched : Except String ResolvedCore) :
    (s.core.tasks = 0 ∧ (s.coreResolved env fetched).core = s.core) ∨
      (s.core.tasks ≠ 0 ∧ (s.core.desiredRunning = false ∨ s.core.busy = true) ∧
        (s.coreResolved env fetched).core = s.core.resolved) ∨
      (s.core.tasks ≠ 0 ∧ s.core.desiredRunning = true ∧
        ((∃ pid t, (s.coreResolved env fetched).core = s.core.resolved.own pid t) ∨
          ∃ t spawned, (s.coreResolved env fetched).core =
            s.core.resolved.park t (.crashed none) spawned)) := by
  unfold coreResolved
  split
  · next hnil => exact Or.inl ⟨congrArg List.length hnil, rfl⟩
  · next config rest hcons =>
    right
    have htasks : s.core.tasks ≠ 0 := by
      show s.resolveTasks.length ≠ 0
      rw [hcons]
      exact Nat.succ_ne_zero _
    have hresolved : { s with resolveTasks := rest, coreResolving := false }.core =
        s.core.resolved := by
      simp only [core, CoreState.resolved, hcons, List.length_cons, Nat.add_sub_cancel]
    simp only [onCoreResolved]
    -- The guards of `on_core_resolved` in the source's order: not wanted, already busy, failed.
    split
    · next hd => exact Or.inl ⟨htasks, Or.inl (by simpa [core] using hd), hresolved⟩
    · next hd =>
      have hdesired : s.core.desiredRunning = true := by simpa [core] using hd
      split
      · next hbusy => exact Or.inl ⟨htasks, Or.inr hbusy, hresolved⟩
      · refine Or.inr ⟨htasks, hdesired, ?_⟩
        split
        · next reason _ =>
          obtain ⟨t, ht⟩ := startFailed_core
            { s with resolveTasks := rest, coreResolving := false } env
            ("could not obtain Deskflow Core: " ++ reason)
          right
          refine ⟨t, [], ?_⟩
          rw [ht, hresolved]
        · next resolved _ =>
          have hlaunch := launchCore_core
            (s := { s with resolveTasks := rest, coreResolving := false }) hvalid env resolved
          rw [hresolved] at hlaunch
          exact hlaunch

/-! ## Exits, timers and log lines -/

/-- A child that is retired is retired in the lifecycle. -/
theorem retireChild_core (s : Supervisor) (env : Env) (pid : Pid) (status : ExitStatus) :
    (s.retireChild env pid status).core = s.core.retire := by
  simp only [retireChild, recordLog, core, CoreState.retire]

/-- After an exit a restart is armed at some time, and what is shown is no running child. -/
theorem retryAfterExit_core (s : Supervisor) (env : Env) (status : ExitStatus) :
    ∃ t state, state.hasChild = false ∧
      (s.retryAfterExit env status).core = s.core.park t state [] := by
  have hlog : (s.logFastFails status).core = s.core := by
    unfold logFastFails
    split
    · rw [recordLog_core]
    · rfl
  have hpark : ∀ state, { ((s.logFastFails status).scheduleRestart env).core with state := state } =
      s.core.park (env.now + (s.logFastFails status).restartDelay) state [] := by
    intro state
    rw [← hlog, CoreState.park, List.append_nil]
    rfl
  simp only [retryAfterExit]
  split
  · refine ⟨_, _, ?_, (recordLog_core _ _).trans (hpark _)⟩
    rfl
  · exact ⟨_, .crashed status.code, rfl, hpark _⟩

/-- **An exit** of any child but the owned one is ignored; that of the owned one arms a restart, or
ends in `Stopped` when nothing is wanted. -/
theorem handleChildExit_core (s : Supervisor) (env : Env) (pid : Pid) (status : ExitStatus) :
    (s.core.childPid ≠ some pid ∧ (s.handleChildExit env pid status).core = s.core) ∨
      (s.core.childPid = some pid ∧ s.core.desiredRunning = true ∧
        ∃ t state, state.hasChild = false ∧
          (s.handleChildExit env pid status).core = s.core.retire.park t state []) ∨
      (s.core.childPid = some pid ∧ s.core.desiredRunning = false ∧
        (s.handleChildExit env pid status).core = { s.core.retire with state := .stopped }) := by
  unfold handleChildExit
  split
  · next hpid => exact Or.inl ⟨hpid, rfl⟩
  · next hpid =>
    have howned : s.core.childPid = some pid := not_not.mp hpid
    split
    · next hd =>
      obtain ⟨t, state, hstate, ht⟩ := retryAfterExit_core (s.retireChild env pid status) env status
      rw [retireChild_core] at ht
      exact Or.inr (Or.inl ⟨howned, hd, t, state, hstate, ht⟩)
    · next hd =>
      refine Or.inr (Or.inr ⟨howned, by simpa [core] using hd, ?_⟩)
      rw [setState_core, retireChild_core]

/-- The stall timer gives up the deadline and uses the kill handle. -/
theorem coreStalled_core (s : Supervisor) (env : Env) :
    (s.coreStalled env).core = s.core ∨
      (s.coreStalled env).core = { s.core with coreConnectDeadline := none, childKill := none } := by
  unfold coreStalled
  split
  · exact Or.inl rfl
  · simp only []
    split
    · exact Or.inl rfl
    · right
      rw [killChild_core, recordLog_core]
      rfl

/-- The restart timer starts a wanted Core, disarms what is not wanted, and does nothing before its
time. -/
theorem restartDue_core (s : Supervisor) (env : Env) :
    (s.restartDue env).core = s.core ∨
      (s.core.desiredRunning = true ∧ (s.restartDue env).core = s.core.start) ∨
      (s.core.desiredRunning = false ∧
        (s.restartDue env).core = { s.core with restartAt := none }) := by
  unfold restartDue
  split
  · exact Or.inl rfl
  · simp only []
    split
    · exact Or.inl rfl
    · right
      split
      · next hd =>
        refine Or.inl ⟨hd, ?_⟩
        rw [startCore_core]
        rfl
      · next hd => exact Or.inr ⟨by simpa [core] using hd, rfl⟩

/-- A log line of the owned child can set its ready time, clear its deadline and use its kill
handle; one of any other child changes nothing. -/
theorem handleCoreLog_core (s : Supervisor) (env : Env) (pid : Pid) (line : String) :
    (s.handleCoreLog env pid line).core = s.core ∨
      (s.core.childPid = some pid ∧ ∃ kill ready deadline,
        (s.handleCoreLog env pid line).core =
          { s.core with childKill := kill, coreReadyAt := ready, coreConnectDeadline := deadline }) := by
  have hforce : ∀ t : Supervisor,
      ∃ kill, (t.maybeForceReconnect line).core = { t.core with childKill := kill } := by
    intro t
    unfold maybeForceReconnect
    split
    · exact ⟨t.childKill, rfl⟩
    split
    · exact ⟨t.childKill, rfl⟩
    split
    · exact ⟨t.childKill, rfl⟩
    · exact ⟨none, killChild_core t⟩
  unfold handleCoreLog
  split
  · next hpid =>
    obtain ⟨kill, hkill⟩ := hforce (s.noteProgress env line)
    refine Or.inr ⟨hpid, kill, (s.noteProgress env line).coreReadyAt,
      (s.noteProgress env line).coreConnectDeadline, ?_⟩
    rw [recordLog_core, hkill]
    rfl
  · left
    rw [recordLog_core]

/-! ## Edits and requests -/

/-- The Core is left alone, or it was wanted and is bounced. -/
def Bounces (s t : Supervisor) : Prop :=
  t.core = s.core ∨ s.core.desiredRunning = true ∧ t.core = s.core.restart

/-- Writing the sidecar leaves the marker alone, whether or not it works. -/
theorem saveSidecar_userStopped (d : Disk) (env : Env) (v : VersionedConfig) :
    (d.saveSidecar env v).userStopped = d.userStopped := by
  unfold Disk.saveSidecar
  split <;> rfl

/-- Writing the document leaves the marker alone, whether or not it works. -/
theorem saveConfig_userStopped (d : Disk) (env : Env) (c : Config) :
    (d.saveConfig env c).1.userStopped = d.userStopped := by
  unfold Disk.saveConfig
  split
  · rfl
  · split <;> rfl

/-- A restart because of new inputs bounces the Core or does nothing. -/
theorem restartIfWanted_bounces (s : Supervisor) (inputsDiffer : Bool) :
    s.Bounces (s.restartIfWanted inputsDiffer) := by
  unfold restartIfWanted
  split
  · next h =>
    right
    exact ⟨(Bool.and_eq_true_iff.mp h).1, restartCore_core s⟩
  · exact Or.inl rfl

/-- Whether the Core is left alone or bounced depends on the abstract state only. -/
theorem Bounces.congr {s s' t t' : Supervisor} (h : s.Bounces t) (hs : s.core = s'.core)
    (ht : t'.core = t.core) : s'.Bounces t' := by
  rw [Bounces, ← hs, ht]
  exact h

/-- A local edit leaves the Core alone or bounces a wanted one. -/
theorem applyLocalEdit_bounces (s : Supervisor) (env : Env) (c : Config) (restartIfRunning : Bool) :
    s.Bounces (s.applyLocalEdit env c restartIfRunning) := by
  have hswap : (s.swapDocument env c).core = s.core := by
    have hmarker : (s.swapDocument env c).disk.userStopped = s.disk.userStopped := by
      simp only [swapDocument, emit]
      split
      · exact saveSidecar_userStopped s.disk env _
      · rfl
    simp only [core, hmarker]
    rfl
  simp only [applyLocalEdit]
  split
  · exact (restartIfWanted_bounces _ _).congr hswap (act_core _ rfl)
  · exact (restartIfWanted_bounces _ _).congr hswap rfl

/-- `setConfig` leaves the Core alone or bounces a wanted one, also when it is refused. -/
theorem setConfig_bounces (s : Supervisor) (env : Env) (c : Config) :
    s.Bounces (s.setConfig env c).1 := by
  unfold setConfig
  split
  · exact Or.inl rfl
  · have hsave := saveConfig_userStopped s.disk env c
    split
    · exact Or.inl rfl
    · next disk hd =>
      rw [hd] at hsave
      have hcore : { s with disk := disk }.core = s.core := by
        simp only [core]
        rw [show disk.userStopped = s.disk.userStopped from hsave]
      exact (applyLocalEdit_bounces { s with disk := disk } env c true).congr hcore rfl

/-- A reload leaves the Core alone or bounces a wanted one. -/
theorem handleConfigChanged_bounces (s : Supervisor) (env : Env) :
    s.Bounces (s.handleConfigChanged env) := by
  unfold handleConfigChanged
  split
  · split
    · exact Or.inl rfl
    · exact applyLocalEdit_bounces s env _ true
  · exact Or.inl rfl
  · exact Or.inl rfl

/-- A merge leaves the Core alone or bounces a wanted one, whichever of its three ends it has. -/
theorem handleMerge_bounces (s : Supervisor) (env : Env) (incoming : VersionedConfig) :
    s.Bounces (s.handleMerge env incoming) := by
  rcases handleMerge_cases s env incoming with ⟨-, h⟩ | ⟨-, h⟩ | ⟨-, h⟩
  · rw [h]
    exact Or.inl rfl
  · rw [h]
    have hmarker := (saveSidecar_userStopped
      (s.disk.saveConfig env (s.merging incoming).versioned.config).1 env
      (s.merging incoming).versioned).trans (saveConfig_userStopped s.disk env _)
    simp only [adoptMerged]
    refine (restartIfWanted_bounces _ _).congr ?_ rfl
    simp only [core, emit, merging] at hmarker ⊢
    rw [hmarker]
  · rw [h]
    left
    unfold rollBack
    split <;> rfl

/-! ## Every event keeps the phases -/

/-- The end of a resolution leads from a phase to a phase, if the document is valid. -/
theorem coreResolved_phased {s : Supervisor} (h : s.core.Phased) (hvalid : s.config.Valid)
    (env : Env) (fetched : Except String ResolvedCore) :
    (s.coreResolved env fetched).core.Phased := by
  rcases coreResolved_core hvalid env fetched with
    ⟨-, heq⟩ | ⟨htasks, hdrop, heq⟩ | ⟨htasks, hdesired, hend⟩
  · rw [heq]
    exact h
  · rw [heq]
    generalize s.core = c at h htasks hdrop
    cases h with
    | off stale marker spawns => cases stale <;> exact .off false marker spawns
    | resolving marker spawns => rcases hdrop with hd | hd <;> cases hd
    | owning => exact absurd rfl htasks
    | armed => exact absurd rfl htasks
  · generalize s.core = c at h htasks hdesired hend
    cases h with
    | off => cases hdesired
    | resolving marker spawns =>
        rcases hend with ⟨pid, t, heq⟩ | ⟨t, spawned, heq⟩
        · rw [heq]
          exact .owning pid _ _ _ marker _
        · rw [heq]
          exact .armed _ rfl t marker _
    | owning => exact absurd rfl htasks
    | armed => exact absurd rfl htasks

/-- An exit leads from a phase to a phase, whichever child it is of. -/
theorem handleChildExit_phased {s : Supervisor} (h : s.core.Phased) (env : Env) (pid : Pid)
    (status : ExitStatus) : (s.handleChildExit env pid status).core.Phased := by
  rcases handleChildExit_core s env pid status with
    ⟨-, heq⟩ | ⟨hpid, -, t, state, hstate, heq⟩ | ⟨hpid, hdesired, -⟩
  · rw [heq]
    exact h
  · rw [heq]
    generalize s.core = c at h hpid
    cases h with
    | owning => exact .armed state hstate t _ _
    | _ => cases hpid
  · -- nothing is owned when nothing is wanted
    generalize s.core = c at h hpid hdesired
    cases h with
    | owning => cases hdesired
    | _ => cases hpid

/-- A log line leads from a phase to a phase; it may use up the kill handle of a client. -/
theorem handleCoreLog_phased {s : Supervisor} (h : s.core.Phased) (env : Env) (pid : Pid)
    (line : String) : (s.handleCoreLog env pid line).core.Phased := by
  rcases handleCoreLog_core s env pid line with heq | ⟨hpid, kill, ready, deadline, heq⟩
  · rw [heq]
    exact h
  · rw [heq]
    generalize s.core = c at h hpid
    cases h with
    | owning => exact .owning _ kill ready deadline _ _
    | _ => cases hpid

/-- The stall timer leads from a phase to a phase; it may use up the kill handle. -/
theorem coreStalled_phased {s : Supervisor} (h : s.core.Phased) (env : Env) :
    (s.coreStalled env).core.Phased := by
  rcases coreStalled_core s env with heq | heq
  · rw [heq]
    exact h
  · rw [heq]
    generalize s.core = c at h
    cases h with
    | off stale marker spawns => exact .off stale marker spawns
    | resolving marker spawns => exact .resolving marker spawns
    | owning => exact .owning _ none _ none _ _
    | armed state idle t => exact .armed state idle t _ _

/-- The restart timer leads from a phase to a phase, due or not. -/
theorem restartDue_phased {s : Supervisor} (h : s.core.Phased) (env : Env) :
    (s.restartDue env).core.Phased := by
  rcases restartDue_core s env with heq | ⟨hdesired, heq⟩ | ⟨hdesired, heq⟩
  · rw [heq]
    exact h
  · rw [heq]
    exact h.start_wanted hdesired
  · rw [heq]
    generalize s.core = c at h hdesired
    cases h with
    | off stale marker spawns => exact .off stale marker spawns
    | _ => cases hdesired

/-- An edit or a merge leads from a phase to a phase. -/
theorem Bounces.phased {s t : Supervisor} (hb : s.Bounces t) (h : s.core.Phased) :
    t.core.Phased := by
  rcases hb with heq | ⟨hdesired, heq⟩
  · rw [heq]
    exact h
  · rw [heq]
    exact h.restart_wanted hdesired

/-- A request leads from a phase to a phase. -/
theorem handleRequest_phased {s : Supervisor} (h : s.core.Phased) (env : Env) (r : Request) :
    (s.handleRequest env r).1.core.Phased := by
  cases r with
  | getStatus => exact h
  | getConfig => exact h
  | setConfig c => exact (setConfig_bounces s env c).phased h
  | start =>
      simp only [handleRequest]
      rw [startCore_core]
      exact h.start _
  | stop =>
      simp only [handleRequest]
      rw [stopCore_core]
      exact h.stop _
  | restart =>
      simp only [handleRequest]
      rw [restartCore_core]
      exact h.restart _
  | setAudioConfig audio => exact (setConfig_bounces s env _).phased h
  | shutdown => exact h

/-- A sync operation leads from a phase to a phase. -/
theorem handleSyncOp_phased {s : Supervisor} (h : s.core.Phased) (env : Env) (op : SyncOp) :
    (s.handleSyncOp env op).core.Phased := by
  cases op with
  | snapshot =>
      rw [handleSyncOp, sendReply, act_core _ rfl]
      exact h
  | merge peer incoming =>
      rw [handleSyncOp, sendReply, act_core _ rfl]
      exact (handleMerge_bounces s env incoming).phased h

/-- **One event**: with a valid document, every event leads from a phase to a phase. -/
theorem handle_phased {s : Supervisor} (h : s.core.Phased) (hvalid : s.config.Valid) (env : Env)
    (e : LoopEvent) : (s.handle env e).core.Phased := by
  cases e with
  | request r => exact handleRequest_phased h env r
  | fsChanged => exact (handleConfigChanged_bounces s env).phased h
  | syncOp op => exact handleSyncOp_phased h env op
  | coreResolved fetched => exact coreResolved_phased h hvalid env fetched
  | childExit pid status => exact handleChildExit_phased h env pid status
  | restartDue => exact restartDue_phased h env
  | coreStalled => exact coreStalled_phased h env
  | coreLog pid line => exact handleCoreLog_phased h env pid line
  | log line =>
      simp only [handle]
      rw [recordLog_core]
      exact h
  | signal => exact h

end Supervisor

end Synbad
