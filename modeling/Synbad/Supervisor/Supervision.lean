import Synbad.Supervisor.Lifecycle
import Mathlib.Tactic.IntervalCases

/-! # Supervision of the Core over whole runs

Two guarantees about every run of the daemon: a wanted Core always has exactly one thing pending (a
child, a resolution or an armed restart), and a Stop is final, across relaunches too, until the next
Start or Restart.

The first is the invariant `Supervised`. It follows from the four phases (`Phased.supervised`), which
a launch leads to and every event keeps, so it holds after any events, failures, launches and crashes
in any order (`supervised_always`). Nothing in it depends on the clock: that an armed restart comes
due, and a resolution reports, is for the outside to say.

The second is about a stretch of a run without a request that wants the Core. A supervisor is `Quiet`
if nothing is wanted and the marker says so; then no event spawns a child (`handle_quiet`), a
resolution that is still in flight included, and a launch that finds the marker leaves the Core alone
(`step_quiet`). `stop_is_final` needs that the marker could be written, since a daemon that is
relaunched knows of the stop by nothing else. -/

namespace Synbad

/-! ## Nothing is ever stranded -/

namespace CoreState

/-- A child is owned, and shown as running under its pid. -/
def OwnsChild (c : CoreState) : Prop := ∃ p, c.childPid = some p ∧ c.state = .running p

/-- **The supervision invariant**: a wanted Core has exactly one thing pending, and one that is not
wanted has no child and no restart. -/
structure Supervised (c : CoreState) : Prop where
  /-- A wanted Core has exactly one of the three things pending. -/
  wanted : c.desiredRunning = true →
    (c.OwnsChild ∧ c.coreResolving = false ∧ c.restartAt = none) ∨
      (¬ c.OwnsChild ∧ c.coreResolving = true ∧ c.restartAt = none) ∨
      (¬ c.OwnsChild ∧ c.coreResolving = false ∧ c.restartAt.isSome = true)
  /-- A Core that is not wanted leaves nothing behind. -/
  unwanted : c.desiredRunning = false →
    c.childPid = none ∧ c.childKill = none ∧ c.restartAt = none ∧ c.state = .stopped
  /-- What belongs to a child is there only with the child. -/
  owned : c.childKill.isSome = true ∨ c.coreConnectDeadline.isSome = true ∨
    c.coreReadyAt.isSome = true → c.childPid.isSome = true
  /-- The state shows the owned child, and only that. -/
  running : ∀ p, c.state = .running p ↔ c.childPid = some p

/-- Nothing is owned where there is no pid. -/
theorem not_ownsChild {c : CoreState} (h : c.childPid = none) : ¬ c.OwnsChild := by
  rintro ⟨p, hp, -⟩
  rw [h] at hp
  cases hp

/-- Every phase meets the supervision invariant. -/
theorem Phased.supervised {c : CoreState} (h : c.Phased) : c.Supervised := by
  cases h with
  | off stale marker spawns => exact ⟨nofun, fun _ => ⟨rfl, rfl, rfl, rfl⟩, by simp, by simp⟩
  | resolving marker spawns =>
      exact ⟨fun _ => Or.inr (Or.inl ⟨not_ownsChild rfl, rfl, rfl⟩), nofun, by simp, by simp⟩
  | owning pid kill ready deadline marker spawns =>
      refine ⟨fun _ => Or.inl ⟨⟨pid, rfl, rfl⟩, rfl, rfl⟩, nofun, fun _ => rfl, fun p => ?_⟩
      simp only [Ipc.DaemonState.running.injEq, Option.some.injEq]
  | armed state idle t marker spawns =>
      refine ⟨fun _ => Or.inr (Or.inr ⟨not_ownsChild rfl, rfl, rfl⟩), nofun, by simp, fun p => ?_⟩
      refine iff_of_false ?_ nofun
      rintro rfl
      cases idle

end CoreState

/-- A launch leads to a phase, with a valid document. -/
theorem Supervisor.new_phased {host : Host} {disk : Disk} {env : Env} {effects : List Effect}
    {s : Supervisor} (h : Supervisor.new host disk env effects = .ok s) :
    s.core.Phased ∧ s.config.Valid := by
  obtain ⟨disk', config, versioned, hvalid, -, -, rfl⟩ := Supervisor.new_cases h
  have hfresh : (Supervisor.fresh host disk' config versioned effects).core.Phased :=
    .off false disk'.userStopped _
  split
  · exact ⟨hfresh, hvalid⟩
  · constructor
    · rw [Supervisor.startCore_core]
      exact hfresh.start disk'.userStopped
    · have hconfig : ∀ t : Supervisor, t.startCore.config = t.config :=
        fun t => congrArg Docs.config (Supervisor.startCore_docs t)
      rw [hconfig]
      exact hvalid

namespace Daemon

/-- The running supervisor, if any, is in a phase and runs on a valid document. -/
def Phased : Daemon → Prop
  | .up s => s.core.Phased ∧ s.config.Valid
  | .down _ _ _ => True

/-- One step of the daemon keeps the running supervisor in a phase, with a valid document. -/
theorem step_phased {d : Daemon} (h : d.Phased) (input : Env × Input) : (d.step input).Phased := by
  obtain ⟨env, i⟩ := input
  cases d with
  | up s =>
      obtain ⟨hphase, hvalid⟩ := h
      cases i with
      | event e =>
          simp only [step, stepUp]
          split
          · trivial
          · exact ⟨Supervisor.handle_phased hphase hvalid env e, Supervisor.handle_valid hvalid env e⟩
      | launch seed => exact ⟨hphase, hvalid⟩
      | crash => trivial
      | editConfig file => exact ⟨hphase, hvalid⟩
      | editSidecar file => exact ⟨hphase, hvalid⟩
  | down host disk effects =>
      cases i with
      | launch seed =>
          simp only [step, launch]
          split
          · trivial
          · split
            · trivial
            · next hs => exact Supervisor.new_phased hs
      | _ => trivial

/-- The supervision invariant holds of the running supervisor, if any. -/
def Supervised : Daemon → Prop
  | .up s => s.core.Supervised
  | .down _ _ _ => True

/-- **A wanted Core is never stranded.** From any files, whatever events, failures, launches and
crashes follow in whatever order, the supervision invariant holds between any two of them. -/
theorem supervised_always (host : Host) (disk : Disk) (inputs : List (Env × Input)) (n : ℕ) :
    (Run.after step (.down host disk []) inputs n).Supervised := by
  have hphase : (Run.after step (.down host disk []) inputs n).Phased :=
    Run.invariant trivial (fun _ input _ h => step_phased h input) n
  cases hd : Run.after step (.down host disk []) inputs n with
  | up s =>
      rw [hd] at hphase
      exact hphase.1.supervised
  | down => trivial

end Daemon

/-! ## A Stop is final -/

namespace CoreState

/-- Nothing is wanted, the marker says so, and these children have been spawned. -/
structure Quiet (c : CoreState) (spawns : List Pid) : Prop where
  unwanted : c.desiredRunning = false
  marked : c.userStopped = true
  spawns : c.spawns = spawns

end CoreState

/-- The event is a request to run the Core. -/
def LoopEvent.WantsCore : LoopEvent → Prop
  | .request .start => True
  | .request .restart => True
  | _ => False

namespace Supervisor

/-- An edit or a merge never wakes a quiet supervisor. -/
theorem Bounces.quiet {s t : Supervisor} {spawns : List Pid} (hb : s.Bounces t)
    (h : s.core.Quiet spawns) : t.core.Quiet spawns := by
  rcases hb with heq | ⟨hdesired, -⟩
  · rw [heq]
    exact h
  · rw [h.unwanted] at hdesired
    cases hdesired

/-- The end of a resolution never wakes a quiet supervisor. -/
theorem onCoreResolved_quiet {s : Supervisor} {spawns : List Pid} (h : s.core.Quiet spawns)
    (env : Env) (outcome : Except String ResolvedCore) :
    (s.onCoreResolved env outcome).core.Quiet spawns := by
  have hd : s.desiredRunning = false := h.unwanted
  simp only [onCoreResolved, hd, Bool.not_false, if_true]
  exact ⟨rfl, h.marked, h.spawns⟩

/-- Stop makes a supervisor quiet if the marker is written or there already, and spawns nothing. -/
theorem stop_quiet (s : Supervisor) {env : Env}
    (hmarker : env.markerFails = false ∨ s.disk.userStopped = true) :
    (s.handleRequest env .stop).1.core.Quiet s.core.spawns := by
  have hmarked : (s.disk.persistUserStopped env true).userStopped = true := by
    unfold Disk.persistUserStopped
    split
    · next hfails =>
      rcases hmarker with h | h
      · rw [h] at hfails
        cases hfails
      · exact h
    · rfl
  simp only [handleRequest]
  rw [stopCore_core]
  exact ⟨rfl, hmarked, rfl⟩

/-- A request that does not want the Core leaves a quiet supervisor quiet. -/
theorem handleRequest_quiet {s : Supervisor} {spawns : List Pid} (h : s.core.Quiet spawns)
    (env : Env) {r : Request} (hr : ¬ (LoopEvent.request r).WantsCore) :
    (s.handleRequest env r).1.core.Quiet spawns := by
  cases r with
  | getStatus => exact h
  | getConfig => exact h
  | setConfig c => exact (setConfig_bounces s env c).quiet h
  | start => exact absurd trivial hr
  | stop =>
      have hstop := stop_quiet s (Or.inr h.marked : env.markerFails = false ∨ _)
      rw [h.spawns] at hstop
      exact hstop
  | restart => exact absurd trivial hr
  | setAudioConfig audio => exact (setConfig_bounces s env _).quiet h
  | shutdown => exact h

/-- **One event** other than Start and Restart leaves a quiet supervisor quiet: nothing is
spawned. -/
theorem handle_quiet {s : Supervisor} {spawns : List Pid} (h : s.core.Quiet spawns) (env : Env)
    {e : LoopEvent} (he : ¬ e.WantsCore) : (s.handle env e).core.Quiet spawns := by
  have hsame : ∀ {t : Supervisor}, t.core = s.core → t.core.Quiet spawns := by
    intro t ht
    rw [ht]
    exact h
  have hunwanted : s.core.desiredRunning ≠ true := by
    rw [h.unwanted]
    decide
  -- The remaining fields of the Core's state do not matter to a quiet supervisor.
  have hkept : ∀ {t : Supervisor} (state : Ipc.DaemonState) (pid kill : Option Pid)
      (restart ready deadline : Option ℕ), t.core = { s.core with
        state := state, childPid := pid, childKill := kill, restartAt := restart
        coreReadyAt := ready, coreConnectDeadline := deadline } → t.core.Quiet spawns := by
    intro t state pid kill restart ready deadline ht
    rw [ht]
    exact ⟨h.unwanted, h.marked, h.spawns⟩
  cases e with
  | request r => exact handleRequest_quiet h env he
  | fsChanged => exact (handleConfigChanged_bounces s env).quiet h
  | syncOp op =>
      cases op with
      | snapshot => exact hsame (act_core s rfl)
      | merge peer incoming =>
          simp only [handle]
          rw [handleSyncOp, sendReply, act_core _ rfl]
          exact (handleMerge_bounces s env incoming).quiet h
  | coreResolved fetched =>
      simp only [handle, coreResolved]
      split
      · exact h
      · -- A resolution begun before the Stop: its result is dropped.
        next config rest _ =>
        exact onCoreResolved_quiet (s := { s with resolveTasks := rest })
          ⟨h.unwanted, h.marked, h.spawns⟩ env _
  | childExit pid status =>
      simp only [handle]
      rcases handleChildExit_core s env pid status with ⟨-, heq⟩ | ⟨-, hd, -⟩ | ⟨-, -, heq⟩
      · exact hsame heq
      · exact absurd hd hunwanted
      · exact hkept _ _ _ _ _ _ heq
  | restartDue =>
      simp only [handle]
      rcases restartDue_core s env with heq | ⟨hd, -⟩ | ⟨-, heq⟩
      · exact hsame heq
      · exact absurd hd hunwanted
      · exact hkept _ _ _ _ _ _ heq
  | coreStalled =>
      simp only [handle]
      rcases coreStalled_core s env with heq | heq
      · exact hsame heq
      · exact hkept _ _ _ _ _ _ heq
  | coreLog pid line =>
      simp only [handle]
      rcases handleCoreLog_core s env pid line with heq | ⟨-, kill, ready, deadline, heq⟩
      · exact hsame heq
      · exact hkept _ _ _ _ _ _ heq
  | log line =>
      simp only [handle]
      exact hsame (recordLog_core s line)
  | signal => exact h

end Supervisor

/-- The input is a request to run the Core. -/
def Input.WantsCore : Input → Prop
  | .event e => e.WantsCore
  | _ => False

namespace Daemon

/-- The marker is on disk, these children have been spawned, and nothing is wanted. -/
def Quiet (spawns : List Pid) : Daemon → Prop
  | .up s => s.core.Quiet spawns
  | .down _ disk effects => disk.userStopped = true ∧ Effect.spawns effects = spawns

/-- A quiet daemon, up or down, has spawned just these children. -/
theorem Quiet.spawns_eq {spawns : List Pid} {d : Daemon} (h : d.Quiet spawns) :
    Effect.spawns d.effects = spawns := by
  cases d with
  | up s => exact h.spawns
  | down host disk effects => exact h.2

/-- Seeding the files leaves the marker alone. -/
theorem seedConfig_userStopped {disk disk' : Disk} {env : Env}
    (h : seedConfig disk env = .ok disk') : disk'.userStopped = disk.userStopped := by
  unfold seedConfig at h
  split at h
  · cases h
  · cases h
    rfl
  · have hsave := Supervisor.saveConfig_userStopped disk env Config.default
    split at h
    · next hs =>
      cases h
      rw [hs] at hsave
      exact hsave
    · cases h

/-- A launch with the marker on disk starts nothing. -/
theorem launch_quiet {host : Host} {disk : Disk} {effects : List Effect} {spawns : List Pid}
    (hmarker : disk.userStopped = true) (hspawns : Effect.spawns effects = spawns)
    (seed env : Env) : (launch host disk effects seed env).Quiet spawns := by
  unfold launch
  split
  · exact ⟨hmarker, hspawns⟩
  · next disk' hseed =>
    have hmarker' : disk'.userStopped = true := (seedConfig_userStopped hseed).trans hmarker
    split
    · exact ⟨hmarker', hspawns⟩
    · next s hnew =>
      obtain ⟨disk'', config, versioned, -, -, hdisk, rfl⟩ := Supervisor.new_cases hnew
      -- `Supervisor::new` reads the marker and skips its initial start.
      rw [if_pos hmarker']
      exact ⟨rfl, hdisk.trans hmarker', hspawns⟩

/-- The teardown after an event keeps the daemon quiet. -/
theorem stepUp_quiet {s : Supervisor} {spawns : List Pid} {env : Env} {e : LoopEvent}
    (h : (s.handle env e).core.Quiet spawns) : (stepUp s env e).Quiet spawns := by
  simp only [stepUp]
  split
  · have hstop : ((s.handle env e).stopCore).core.Quiet spawns := by
      rw [Supervisor.stopCore_core]
      exact ⟨h.unwanted, h.marked, h.spawns⟩
    exact ⟨hstop.marked, hstop.spawns⟩
  · exact h

/-- **One step** of a quiet daemon, Start and Restart apart, leaves it quiet. -/
theorem step_quiet {spawns : List Pid} {d : Daemon} (h : d.Quiet spawns) {input : Env × Input}
    (hi : ¬ input.2.WantsCore) : (d.step input).Quiet spawns := by
  obtain ⟨env, i⟩ := input
  cases d with
  | up s =>
      cases i with
      | event e => exact stepUp_quiet (Supervisor.handle_quiet h env hi)
      | launch seed => exact h
      | crash => exact ⟨h.marked, h.spawns⟩
      | editConfig file => exact ⟨h.unwanted, h.marked, h.spawns⟩
      | editSidecar file => exact ⟨h.unwanted, h.marked, h.spawns⟩
  | down host disk effects =>
      cases i with
      | launch seed => exact launch_quiet h.1 h.2 seed env
      | _ => exact h

/-- **A Stop is final**: once a Stop is handled and its marker written, no child is spawned for as
long as no Start or Restart is requested, whatever else happens in whatever order, relaunches of the
daemon included. -/
theorem stop_is_final (d : Daemon) (inputs : List (Env × Input)) {n : ℕ} {env : Env}
    {s : Supervisor} (hup : Run.after step d inputs n = .up s)
    (hstop : inputs[n]? = some (env, .event (.request .stop))) (hmarker : env.markerFails = false)
    {m : ℕ} (hnm : n < m)
    (hrest : ∀ k input, n < k → k < m → inputs[k]? = some input → ¬ input.2.WantsCore) :
    Effect.spawns (Run.after step d inputs m).effects = Effect.spawns s.effects := by
  -- By induction from the step after the Stop: a quiet daemon stays quiet.
  have hquiet : ∀ k, n < k → k ≤ m →
      (Run.after step d inputs k).Quiet (Effect.spawns s.effects) := by
    intro k hnk
    induction k, hnk using Nat.le_induction with
    | base =>
        intro _
        rw [Run.after_succ hstop, hup]
        exact stepUp_quiet (Supervisor.stop_quiet s (Or.inl hmarker))
    | succ k hnk ih =>
        intro hkm
        have hk := ih (by omega)
        cases hinput : inputs[k]? with
        | none =>
            rw [Run.after_succ_none hinput]
            exact hk
        | some input =>
            rw [Run.after_succ hinput]
            exact step_quiet hk (hrest k input hnk (by omega) hinput)
  exact (hquiet m hnm le_rfl).spawns_eq

/-- A machine on which the daemon has not run yet. -/
def installed : Daemon :=
  .down ⟨"a", ⟨"/state/synergy.conf"⟩, ⟨"/state/settings.ini"⟩, .ascii⟩
    ⟨.parsed Config.default, .missing, false⟩ []

/-- A child is running when Stop arrives; its late exit, a crash, a relaunch and a stray resolution
follow. -/
def stopThenRelaunch : List (Env × Input) :=
  [(.calm 0 100, .launch (.calm 0 100)),
    (.calm 1 100, .event (.coreResolved (.ok ⟨.unified ⟨"/bin/deskflow-core"⟩⟩))),
    (.calm 2 101, .event (.request .stop)),
    (.calm 3 101, .event (.childExit 100 ⟨some 0, "exit status: 0"⟩)),
    (.calm 4 101, .crash),
    (.calm 5 101, .launch (.calm 5 101)),
    (.calm 6 101, .event (.coreResolved (.ok ⟨.unified ⟨"/bin/deskflow-core"⟩⟩)))]

/-- In that run no second child is spawned, as the general theorem has it. -/
theorem stop_is_final_relaunch :
    ∃ s, Run.after step installed stopThenRelaunch 2 = .up s ∧ Effect.spawns s.effects = [100] ∧
      Effect.spawns (Run.after step installed stopThenRelaunch 7).effects =
        Effect.spawns s.effects := by
  obtain ⟨s, hup⟩ : ∃ s, Run.after step installed stopThenRelaunch 2 = .up s := ⟨_, rfl⟩
  have hspawned : Effect.spawns (Run.after step installed stopThenRelaunch 2).effects = [100] := rfl
  rw [hup] at hspawned
  have hstop : stopThenRelaunch[2]? = some (.calm 2 101, .event (.request .stop)) := rfl
  refine ⟨s, hup, hspawned, stop_is_final installed stopThenRelaunch hup hstop rfl (by decide) ?_⟩
  intro k input hnk hkm hk
  interval_cases k <;> cases hk <;> exact not_false

end Daemon

end Synbad
