import Synbad.Supervisor.Supervision

/-! # The Core's children

Is a new child spawned only when the one before it is known to be gone? The answer is read off the
history of a run, in which the exits received by the loop stand between the effects of the handlers. A
stop waits for its child only if the kill handle is still there, and two other handlers use the handle
without waiting.

`OneAtATime` is the property of a history; `Last` is an automaton that watches it and knows of the
last child whether it is gone. `Crew` is the part of a supervisor that concerns children, and
`CrewMoves` what one event does to it, with the guards of the code. So the question comes down to
which moves let a child go that may still live: `Orphans` says it of an event, a stop of a child whose
handle is used up, or a resolution that spawns a child whose log cannot be opened while Synbad is
wanted.

A step that orphans no child keeps the history in order (`step_ordered`), hence so does a run, after any
launch and with any events in any order (`one_core_at_a_time`). The run at the end is one that orphans a
child. -/

namespace Synbad

/-! ## What happens to children -/

/-- What can be seen of the Core's children, in the order in which it happens. -/
inductive ChildEvent where
  | spawned (pid : Pid)
  | killSent (pid : Pid)
  /-- `stop_core` waited for this child, until its exit or for its two seconds. -/
  | graceWaited (pid : Option Pid)
  /-- The exit of a child was received on `exit_rx`. -/
  | exited (pid : Pid)
  deriving DecidableEq

/-- The part of an effect that concerns a child. -/
def Effect.child? : Effect → Option ChildEvent
  | .spawned pid _ _ => some (.spawned pid)
  | .killSent pid => some (.killSent pid)
  | .graceWaited pid => some (.graceWaited pid)
  | _ => none

/-- The effects that concern children, in the order of the history. -/
def Effect.children (effects : List Effect) : List ChildEvent := effects.filterMap Effect.child?

/-- The child is known to be gone: its exit was received, or it was sent the kill signal and waited
for. -/
def Gone (pid : Pid) (events : List ChildEvent) : Prop :=
  .exited pid ∈ events ∨
    ∃ before between after, events =
      before ++ .killSent pid :: between ++ .graceWaited (some pid) :: after

/-- **Never two live Cores**: between any two successive spawns the first child is known to be
gone. -/
def OneAtATime (history : List ChildEvent) : Prop :=
  ∀ before p between q after, history = before ++ .spawned p :: between ++ .spawned q :: after →
    (∀ r, .spawned r ∉ between) → Gone p between

/-! ## Watching the last child -/

/-- What is known of the child spawned last: that it is gone, that it may live, or that it was sent
the kill signal. -/
inductive Last where
  | gone
  | alive (pid : Pid)
  | killed (pid : Pid)
  deriving DecidableEq

namespace Last

/-- One more event, and what is known of the last child after it. A wait counts as its end only for a
child that was sent the signal. -/
def see : Last → ChildEvent → Last
  | _, .spawned pid => .alive pid
  | .alive pid, .killSent pid' => if pid = pid' then .killed pid else .alive pid
  | .killed pid, .graceWaited pid' => if some pid = pid' then .gone else .killed pid
  | .alive pid, .exited pid' => if pid = pid' then .gone else .alive pid
  | .killed pid, .exited pid' => if pid = pid' then .gone else .killed pid
  | last, _ => last

/-- What is known of the last child after these events. -/
def watch (last : Last) (events : List ChildEvent) : Last := events.foldl see last

/-- Every spawn in these events finds the last child gone. -/
def Alone (last : Last) : List ChildEvent → Prop
  | [] => True
  | e :: events => ((∃ pid, e = .spawned pid) → last = .gone) ∧ (last.see e).Alone events

/-- Watching two runs of events is watching the one and then the other. -/
theorem watch_append (last : Last) (l k : List ChildEvent) :
    last.watch (l ++ k) = (last.watch l).watch k := List.foldl_append

/-- No two children at once over two runs of events: not in the first, and not in the second from
where that ends. -/
theorem alone_append {last : Last} {l k : List ChildEvent} :
    last.Alone (l ++ k) ↔ last.Alone l ∧ (last.watch l).Alone k := by
  induction l generalizing last with
  | nil => simp [Alone, watch]
  | cons e l ih => simp [Alone, ih, watch, and_assoc]

/-- Where nothing is spawned there is nothing to check. -/
theorem alone_of_no_spawn {last : Last} {events : List ChildEvent}
    (h : ∀ pid, .spawned pid ∉ events) : last.Alone events := by
  induction events generalizing last with
  | nil => trivial
  | cons e events ih =>
      refine ⟨?_, ih fun pid hpid => h pid (List.mem_cons_of_mem e hpid)⟩
      rintro ⟨pid, rfl⟩
      exact absurd List.mem_cons_self (h pid)

/-- A child that was killed and of which nothing is known any more was waited for or has exited. -/
theorem gone_of_killed {pid : Pid} {events : List ChildEvent} (hno : ∀ r, .spawned r ∉ events)
    (h : (killed pid).watch events = .gone) :
    .exited pid ∈ events ∨ ∃ before after, events = before ++ .graceWaited (some pid) :: after := by
  -- along the events: only a wait for this child, or its exit, ends what is known of it
  induction events with
  | nil => cases h
  | cons e events ih =>
      have hrest : ∀ r, .spawned r ∉ events := fun r hr => hno r (List.mem_cons_of_mem e hr)
      have hnext : (killed pid).watch events = .gone → _ := ih hrest
      have hlater : (killed pid).watch events = .gone →
          .exited pid ∈ e :: events ∨
            ∃ before after, e :: events = before ++ .graceWaited (some pid) :: after := by
        intro hgone
        rcases hnext hgone with hexit | ⟨before, after, heq⟩
        · exact Or.inl (List.mem_cons_of_mem e hexit)
        · exact Or.inr ⟨e :: before, after, by rw [heq, List.cons_append]⟩
      cases e with
      | spawned r => exact absurd List.mem_cons_self (hno r)
      | killSent r => exact hlater h
      | graceWaited r =>
          by_cases hr : some pid = r
          · subst hr
            exact Or.inr ⟨[], events, rfl⟩
          · refine hlater ?_
            rw [watch, List.foldl_cons, see, if_neg hr] at h
            exact h
      | exited r =>
          by_cases hr : pid = r
          · subst hr
            exact Or.inl List.mem_cons_self
          · refine hlater ?_
            rw [watch, List.foldl_cons, see, if_neg hr] at h
            exact h

/-- A child that was alive and of which nothing is known any more is gone. -/
theorem gone_of_alive {pid : Pid} {events : List ChildEvent} (hno : ∀ r, .spawned r ∉ events)
    (h : (alive pid).watch events = .gone) : Gone pid events := by
  -- along the events: it is alive until it exits or is killed, and then it is as above
  induction events with
  | nil => cases h
  | cons e events ih =>
      have hrest : ∀ r, .spawned r ∉ events := fun r hr => hno r (List.mem_cons_of_mem e hr)
      have hlater : (alive pid).watch events = .gone → Gone pid (e :: events) := by
        intro hgone
        rcases ih hrest hgone with hexit | ⟨before, between, after, heq⟩
        · exact Or.inl (List.mem_cons_of_mem e hexit)
        · exact Or.inr ⟨e :: before, between, after, by rw [heq]; rfl⟩
      cases e with
      | spawned r => exact absurd List.mem_cons_self (hno r)
      | graceWaited r => exact hlater h
      | killSent r =>
          by_cases hr : pid = r
          · subst hr
            rw [watch, List.foldl_cons, see, if_pos rfl] at h
            rcases gone_of_killed hrest h with hexit | ⟨between, after, heq⟩
            · exact Or.inl (List.mem_cons_of_mem _ hexit)
            · exact Or.inr ⟨[], between, after, by rw [heq]; rfl⟩
          · refine hlater ?_
            rw [watch, List.foldl_cons, see, if_neg hr] at h
            exact h
      | exited r =>
          by_cases hr : pid = r
          · subst hr
            exact Or.inl List.mem_cons_self
          · refine hlater ?_
            rw [watch, List.foldl_cons, see, if_neg hr] at h
            exact h

/-- A history in which every spawn finds the last child gone has one child at a time. -/
theorem Alone.oneAtATime {history : List ChildEvent} (h : gone.Alone history) :
    OneAtATime history := by
  rintro before p between q after rfl hno
  rw [List.append_assoc, alone_append, List.cons_append] at h
  obtain ⟨-, -, h⟩ := h
  rw [alone_append] at h
  exact gone_of_alive hno (h.2.1 ⟨q, rfl⟩)

end Last

/-! ## The supervisor and its child -/

/-- What the supervisor holds of its child, and what has happened to children so far. -/
structure Crew where
  childKill : Option Pid
  childPid : Option Pid
  seen : List ChildEvent

namespace Crew

/-- What a stop does to the child, seen from outside: nothing if the kill handle is used up. -/
def farewell (c : Crew) : List ChildEvent :=
  match c.childKill with
  | none => []
  | some pid => [.killSent pid, .graceWaited c.childPid]

/-- Nothing is spawned as a supervisor goes. -/
theorem spawned_not_mem_farewell (c : Crew) (pid : Pid) : .spawned pid ∉ c.farewell := by
  unfold farewell
  split <;> simp

/-- The child is stopped as far as a stop goes, and is no longer owned. -/
def letGo (c : Crew) : Crew := ⟨none, none, c.seen ++ c.farewell⟩

/-- The kill handle is used, if it is there; the child stays owned until its exit. -/
def kill (c : Crew) : Crew :=
  match c.childKill with
  | none => c
  | some pid => ⟨none, c.childPid, c.seen ++ [.killSent pid]⟩

/-- The child has exited, and is no longer owned. -/
def retire (c : Crew) : Crew := ⟨none, none, c.seen⟩

/-- A child is spawned and owned, with its kill handle. -/
def own (c : Crew) (pid : Pid) : Crew := ⟨some pid, some pid, c.seen ++ [.spawned pid]⟩

/-- A child is spawned and dropped at once; what is owned stays as it is. -/
def drop (c : Crew) (pid : Pid) : Crew := { c with seen := c.seen ++ [.spawned pid] }

end Crew

/-- The events about children of two runs of effects are those of the one and then of the other. -/
@[simp] theorem Effect.children_append (l k : List Effect) :
    Effect.children (l ++ k) = Effect.children l ++ Effect.children k :=
  List.filterMap_append

namespace Supervisor

/-- The crew of a supervisor: its kill handle, the child it owns, and the history of its children. -/
def crew (s : Supervisor) : Crew := ⟨s.childKill, s.childPid, Effect.children s.effects⟩

/-- A new state is nothing about children. -/
theorem setState_crew (s : Supervisor) (new : Ipc.DaemonState) : (s.setState new).crew = s.crew := rfl

/-- A log line is nothing about children. -/
theorem recordLog_crew (s : Supervisor) (line : String) : (s.recordLog line).crew = s.crew := by
  simp only [crew, recordLog]

/-- An effect that concerns no child changes nothing of the crew. -/
theorem act_crew (s : Supervisor) {e : Effect} (h : e.child? = none) : (s.act e).crew = s.crew := by
  have hnone : Effect.children [e] = [] := by
    simp only [Effect.children, List.filterMap_cons, h, List.filterMap_nil]
  simp only [crew, act, Effect.children_append, hnone, List.append_nil]

/-- A start only asks for a Core: no child is there yet. -/
theorem startCore_crew (s : Supervisor) : s.startCore.crew = s.crew := by
  simp only [startCore]
  split
  · rfl
  split
  · rw [setState_crew]
    rfl
  · rfl

/-- A stop lets the child go. -/
theorem stopCore_crew (s : Supervisor) : s.stopCore.crew = s.crew.letGo := by
  simp only [stopCore]
  rw [setState_crew]
  cases hk : s.childKill with
  | none => simp only [crew, Crew.letGo, Crew.farewell, hk, List.append_nil]
  | some child =>
      simp only [crew, Crew.letGo, Crew.farewell, hk, act, Effect.children_append, List.append_assoc]
      rfl

/-- A restart lets the child go. -/
theorem restartCore_crew (s : Supervisor) : s.restartCore.crew = s.crew.letGo := by
  rw [restartCore, startCore_crew, stopCore_crew]
  rfl

/-- A child that is killed is ours until it is gone, and cannot be killed twice. -/
theorem killChild_crew (s : Supervisor) : s.killChild.crew = s.crew.kill := by
  unfold killChild
  cases hk : s.childKill with
  | none => simp only [crew, Crew.kill, hk]
  | some child =>
      simp only [crew, Crew.kill, hk, act, Effect.children_append]
      rfl

/-- A start that fails is nothing about children. -/
theorem startFailed_crew (s : Supervisor) (env : Env) (what : String) :
    (s.startFailed env what).crew = s.crew := by
  rw [startFailed, setState_crew, recordLog_crew]
  rfl

/-- Writing the Core's files is nothing about children, and keeps the log. -/
theorem writeCoreArtefacts_crew (s : Supervisor) (env : Env) :
    (s.writeCoreArtefacts env).1.crew = s.crew ∧
      (s.writeCoreArtefacts env).1.coreDiskLog = s.coreDiskLog := by
  unfold writeCoreArtefacts
  split
  · exact ⟨rfl, rfl⟩
  · simp only []
    split <;> exact ⟨rfl, rfl⟩

/-- A child spawned now would get this pid and be dropped, because its log cannot be opened. -/
def DropsChild (s : Supervisor) (env : Env) (pid : Pid) : Prop :=
  env.spawn = .ok pid ∧ s.coreDiskLog = false ∧ ∃ e, env.openCoreLog = .error e

/-- A spawn: no child, an owned child, or one that is dropped at once. -/
theorem spawnChild_crew (s : Supervisor) (env : Env) (program : PathBuf) (args : List String) :
    (s.spawnChild env program args).1.crew = s.crew ∨
      (∃ pid, (s.spawnChild env program args).1.crew = s.crew.own pid) ∨
      ∃ pid, s.DropsChild env pid ∧ (s.spawnChild env program args).1.crew = s.crew.drop pid := by
  unfold spawnChild
  split
  · exact Or.inl rfl
  · next pid hspawn =>
    right
    simp only []
    split
    · next e hlog =>
      refine Or.inr ⟨pid, ?_, ?_⟩
      · split at hlog
        · cases hlog
        · next hdisk => exact ⟨hspawn, by simpa [act] using hdisk, e, hlog⟩
      · rw [act_crew _ rfl]
        simp only [crew, act, Crew.drop, Effect.children_append]
        rfl
    · refine Or.inl ⟨pid, ?_⟩
      simp only [crew, act, setState, Crew.own, Effect.children_append]
      rfl

/-- A launch of the Core spawns a child, and keeps it or drops it; or it fails before that. -/
theorem launchCore_crew (s : Supervisor) (env : Env) (resolved : ResolvedCore) :
    (s.launchCore env resolved).crew = s.crew ∨
      (∃ pid, (s.launchCore env resolved).crew = s.crew.own pid) ∨
      ∃ pid, s.DropsChild env pid ∧ (s.launchCore env resolved).crew = s.crew.drop pid := by
  have hwrite := writeCoreArtefacts_crew s env
  unfold launchCore
  split
  · next w e hw =>
    rw [hw] at hwrite
    -- the files could not be written, and nothing was spawned
    left
    rw [startFailed_crew, hwrite.1]
  · next w hw =>
    rw [hw] at hwrite
    obtain ⟨hcrew, hlog⟩ := hwrite
    split
    · left
      rw [setState_crew, recordLog_crew, hcrew]
    · next program args _ =>
      have hspawn := spawnChild_crew w env program args
      rw [hcrew] at hspawn
      -- the log is the same one, so a child is dropped there or here
      have hsame : ∀ {pid}, w.DropsChild env pid → s.DropsChild env pid := by
        intro pid h
        exact ⟨h.1, hlog.symm.trans h.2.1, h.2.2⟩
      split
      · next v hv =>
        rw [hv] at hspawn
        exact hspawn.imp id (Or.imp id fun ⟨pid, h, heq⟩ => ⟨pid, hsame h, heq⟩)
      · next v e hv =>
        rw [hv] at hspawn
        rw [startFailed_crew]
        exact hspawn.imp id (Or.imp id fun ⟨pid, h, heq⟩ => ⟨pid, hsame h, heq⟩)

/-- The resolution that ends now has found a binary: the override of the document it was started with,
or what was fetched. -/
def FindsBinary (s : Supervisor) (fetched : Except String ResolvedCore) : Prop :=
  ∃ config rest resolved, s.resolveTasks = config :: rest ∧
    resolveCore config fetched = .ok resolved

/-- The end of a resolution: nothing, or a spawn when a binary is found and no child is owned. -/
theorem coreResolved_crew (s : Supervisor) (env : Env) (fetched : Except String ResolvedCore) :
    (s.coreResolved env fetched).crew = s.crew ∨
      s.desiredRunning = true ∧ s.core.busy = false ∧ s.FindsBinary fetched ∧
        ((∃ pid, (s.coreResolved env fetched).crew = s.crew.own pid) ∨
          ∃ pid, s.DropsChild env pid ∧ (s.coreResolved env fetched).crew = s.crew.drop pid) := by
  unfold coreResolved
  split
  · exact Or.inl rfl
  · next config rest htasks =>
    simp only [onCoreResolved]
    split
    · exact Or.inl rfl
    next hdesired =>
    split
    · exact Or.inl rfl
    · next hbusy =>
      have hwanted : s.desiredRunning = true := by simpa using hdesired
      have hfree : s.core.busy = false := by
        simpa [CoreState.busy, core] using hbusy
      split
      · left
        rw [startFailed_crew]
        rfl
      · next resolved hresolved =>
        rcases launchCore_crew { s with resolveTasks := rest, coreResolving := false } env resolved with
          h | h
        · exact Or.inl h
        · exact Or.inr ⟨hwanted, hfree, ⟨config, rest, resolved, htasks, hresolved⟩, h⟩

/-- A child that has exited is gone. -/
theorem retireChild_crew (s : Supervisor) (env : Env) (pid : Pid) (status : ExitStatus) :
    (s.retireChild env pid status).crew = s.crew.retire := by
  simp only [retireChild, recordLog, crew, Crew.retire]

/-- What is decided after an exit is nothing about children. -/
theorem retryAfterExit_crew (s : Supervisor) (env : Env) (status : ExitStatus) :
    (s.retryAfterExit env status).crew = s.crew := by
  have hlog : (s.logFastFails status).crew = s.crew := by
    unfold logFastFails
    split
    · rw [recordLog_crew]
    · rfl
  simp only [retryAfterExit]
  split
  · rw [recordLog_crew, setState_crew]
    exact hlog
  · rw [setState_crew]
    exact hlog

/-- An exit is that of our child, or of one that we no longer have. -/
theorem handleChildExit_crew (s : Supervisor) (env : Env) (pid : Pid) (status : ExitStatus) :
    (s.handleChildExit env pid status).crew =
      if s.childPid = some pid then s.crew.retire else s.crew := by
  unfold handleChildExit
  by_cases h : s.childPid = some pid
  · rw [if_neg (not_not.mpr h), if_pos h]
    split
    · rw [retryAfterExit_crew, retireChild_crew]
    · rw [setState_crew, retireChild_crew]
  · rw [if_pos h, if_neg h]

/-- A Core that stalls is killed, or nothing happens. -/
theorem coreStalled_crew (s : Supervisor) (env : Env) :
    (s.coreStalled env).crew = s.crew ∨ (s.coreStalled env).crew = s.crew.kill := by
  unfold coreStalled
  split
  · exact Or.inl rfl
  · simp only []
    split
    · exact Or.inl rfl
    · right
      rw [killChild_crew, recordLog_crew]
      rfl

/-- A restart that is due only asks for a Core. -/
theorem restartDue_crew (s : Supervisor) (env : Env) : (s.restartDue env).crew = s.crew := by
  unfold restartDue
  split
  · rfl
  · simp only []
    split
    · rfl
    split
    · rw [startCore_crew]
      rfl
    · rfl

/-- A line of the log may show a stall, and then the child is killed. -/
theorem handleCoreLog_crew (s : Supervisor) (env : Env) (pid : Pid) (line : String) :
    (s.handleCoreLog env pid line).crew = s.crew ∨
      (s.handleCoreLog env pid line).crew = s.crew.kill := by
  have hforce : ∀ t : Supervisor, (t.maybeForceReconnect line).crew = t.crew ∨
      (t.maybeForceReconnect line).crew = t.crew.kill := by
    intro t
    unfold maybeForceReconnect
    split
    · exact Or.inl rfl
    split
    · exact Or.inl rfl
    split
    · exact Or.inl rfl
    · exact Or.inr (killChild_crew t)
  unfold handleCoreLog
  split
  · rw [recordLog_crew]
    exact hforce (s.noteProgress env line)
  · rw [recordLog_crew]
    exact Or.inl rfl

/-! ## Which events stop the Core -/

/-- An edit to this document would bounce the Core. -/
def EditBounces (s : Supervisor) (c : Config) : Prop :=
  s.desiredRunning = true ∧ s.config.coreInputsDiffer c = true

/-- The event calls `stop_core`: an explicit Stop or Restart, or an edit, a reload or a merge that is
accepted and changes what a wanted Core consumes. -/
def StopsCore (s : Supervisor) (env : Env) : LoopEvent → Prop
  | .request .stop => True
  | .request .restart => True
  | .request (.setConfig c) => c.Valid ∧ env.saveFails = false ∧ s.EditBounces c
  | .request (.setAudioConfig audio) =>
      { s.config with audio := audio }.Valid ∧ env.saveFails = false ∧
        s.EditBounces { s.config with audio := audio }
  | .fsChanged =>
      ∃ c, s.disk.loadConfig env = .ok (some c) ∧ c.eq s.config = false ∧ s.EditBounces c
  | .syncOp (.merge _ incoming) =>
      (s.versioned.merge incoming).1.config.Valid ∧
        s.EditBounces (s.versioned.merge incoming).1.config
  | _ => False

/-- What a stop does if the condition for it holds, or nothing. -/
def Crew.MayLetGo (stops : Prop) (c c' : Crew) : Prop := c' = c ∨ stops ∧ c' = c.letGo

/-- A restart because of new inputs may let the child go, only if Synbad is to run and they differ.
-/
theorem restartIfWanted_crew (s : Supervisor) (inputsDiffer : Bool) :
    Crew.MayLetGo (s.desiredRunning = true ∧ inputsDiffer = true) s.crew
      (s.restartIfWanted inputsDiffer).crew := by
  unfold restartIfWanted
  split
  · next h => exact Or.inr ⟨Bool.and_eq_true_iff.mp h, restartCore_crew s⟩
  · exact Or.inl rfl

/-- An edit lets go of the child only if it bounces the Core. -/
theorem applyLocalEdit_crew (s : Supervisor) (env : Env) (c : Config) :
    Crew.MayLetGo (s.EditBounces c) s.crew (s.applyLocalEdit env c true).crew := by
  have hedit : Crew.MayLetGo (s.EditBounces c) s.crew
      ((s.swapDocument env c).restartIfWanted (true && s.config.coreInputsDiffer c)).crew :=
    restartIfWanted_crew (s.swapDocument env c) _
  simp only [applyLocalEdit]
  split
  · rw [act_crew _ rfl]
    exact hedit
  · exact hedit

/-- A `SetConfig` may let the child go, only if it is taken and bounces the Core. -/
theorem setConfig_crew (s : Supervisor) (env : Env) (c : Config) :
    Crew.MayLetGo (c.Valid ∧ env.saveFails = false ∧ s.EditBounces c) s.crew
      (s.setConfig env c).1.crew := by
  unfold setConfig
  split
  · exact Or.inl rfl
  · next hv =>
    split
    · exact Or.inl rfl
    · next disk hd =>
      have hsaved : env.saveFails = false := by
        unfold Disk.saveConfig at hd
        rw [hv] at hd
        cases hf : env.saveFails
        · rfl
        · simp [hf] at hd
      rcases applyLocalEdit_crew { s with disk := disk } env c with h | ⟨hstop, h⟩
      · exact Or.inl h
      · exact Or.inr ⟨⟨hv, hsaved, hstop⟩, h⟩

/-- A changed file may let the child go, only if it is taken and bounces the Core. -/
theorem handleConfigChanged_crew (s : Supervisor) (env : Env) :
    Crew.MayLetGo (s.StopsCore env .fsChanged) s.crew (s.handleConfigChanged env).crew := by
  unfold handleConfigChanged
  split
  · next c hc =>
    split
    · exact Or.inl rfl
    · next hne =>
      rcases applyLocalEdit_crew s env c with h | ⟨hstop, h⟩
      · exact Or.inl h
      · exact Or.inr ⟨⟨c, hc, by simpa using hne, hstop⟩, h⟩
  · exact Or.inl rfl
  · exact Or.inl rfl

/-- A merge may let the child go, only if it is accepted and bounces the Core. -/
theorem handleMerge_crew (s : Supervisor) (env : Env) (peer : String) (incoming : VersionedConfig) :
    Crew.MayLetGo (s.StopsCore env (.syncOp (.merge peer incoming))) s.crew
      (s.handleMerge env incoming).crew := by
  rcases handleMerge_cases s env incoming with ⟨-, h⟩ | ⟨hv, h⟩ | ⟨-, h⟩
  · rw [h]
    exact Or.inl rfl
  · rw [h]
    simp only [adoptMerged]
    rcases restartIfWanted_crew (emit { s.merging incoming with
        config := (s.merging incoming).versioned.config
        disk := ((s.merging incoming).disk.saveConfig env
          (s.merging incoming).versioned.config).1.saveSidecar env (s.merging incoming).versioned }
        .configChanged)
      ((s.merging incoming).config.coreInputsDiffer (s.merging incoming).versioned.config) with
      heq | ⟨hstop, heq⟩
    · exact Or.inl heq
    · exact Or.inr ⟨⟨hv, hstop⟩, heq⟩
  · rw [h]
    left
    unfold rollBack
    split <;> rfl

/-- A request may let the child go, only if it stops the Core. -/
theorem handleRequest_crew (s : Supervisor) (env : Env) (r : Request) :
    Crew.MayLetGo (s.StopsCore env (.request r)) s.crew (s.handleRequest env r).1.crew := by
  cases r with
  | getStatus => exact Or.inl rfl
  | getConfig => exact Or.inl rfl
  | setConfig c => exact setConfig_crew s env c
  | start =>
      left
      simp only [handleRequest]
      rw [startCore_crew]
      rfl
  | stop =>
      refine Or.inr ⟨trivial, ?_⟩
      simp only [handleRequest]
      rw [stopCore_crew]
      rfl
  | restart =>
      refine Or.inr ⟨trivial, ?_⟩
      simp only [handleRequest]
      rw [restartCore_crew]
      rfl
  | setAudioConfig audio => exact setConfig_crew s env _
  | shutdown => exact Or.inl rfl

/-- A launch owns no child, and its history is that of the runs before. -/
theorem new_crew {host : Host} {disk : Disk} {env : Env} {effects : List Effect} {s : Supervisor}
    (h : new host disk env effects = .ok s) : s.crew = ⟨none, none, Effect.children effects⟩ := by
  obtain ⟨disk', config, versioned, -, -, -, rfl⟩ := new_cases h
  split
  · rfl
  · rw [startCore_crew]
    rfl

/-! ## One event -/

/-- **What one event does to the crew**: nothing, or one of five things, each under the condition on
which the code does it. -/
inductive CrewMoves (s : Supervisor) (env : Env) (e : LoopEvent) : Crew → Prop
  | idle : CrewMoves s env e s.crew
  | letGo (stops : s.StopsCore env e) : CrewMoves s env e s.crew.letGo
  | kill : CrewMoves s env e s.crew.kill
  | retire (pid : Pid) (status : ExitStatus) (exit : e = .childExit pid status)
      (owned : s.childPid = some pid) : CrewMoves s env e s.crew.retire
  | own (pid : Pid) (fetched : Except String ResolvedCore) (resolved : e = .coreResolved fetched)
      (free : s.core.busy = false) : CrewMoves s env e (s.crew.own pid)
  | drop (pid : Pid) (fetched : Except String ResolvedCore) (resolved : e = .coreResolved fetched)
      (wanted : s.desiredRunning = true) (free : s.core.busy = false)
      (found : s.FindsBinary fetched) (drops : s.DropsChild env pid) : CrewMoves s env e (s.crew.drop pid)

/-- **What an event does to the children**, of all there are. -/
theorem handle_crew (s : Supervisor) (env : Env) (e : LoopEvent) :
    s.CrewMoves env e (s.handle env e).crew := by
  have hstop : ∀ {c : Crew}, Crew.MayLetGo (s.StopsCore env e) s.crew c → s.CrewMoves env e c := by
    rintro c (rfl | ⟨h, rfl⟩)
    · exact .idle
    · exact .letGo h
  have hkill : ∀ {c : Crew}, c = s.crew ∨ c = s.crew.kill → s.CrewMoves env e c := by
    rintro c (rfl | rfl)
    · exact .idle
    · exact .kill
  cases e with
  | request r => exact hstop (handleRequest_crew s env r)
  | fsChanged => exact hstop (handleConfigChanged_crew s env)
  | syncOp op =>
      cases op with
      | snapshot =>
          simp only [handle, handleSyncOp, sendReply]
          rw [act_crew _ rfl]
          exact .idle
      | merge peer incoming =>
          simp only [handle, handleSyncOp, sendReply]
          rw [act_crew _ rfl]
          exact hstop (handleMerge_crew s env peer incoming)
  | coreResolved fetched =>
      simp only [handle]
      -- no spawn, a child that is kept, or one whose log cannot be opened
      rcases coreResolved_crew s env fetched with
        h | ⟨hwanted, hfree, hfound, ⟨pid, h⟩ | ⟨pid, hdrops, h⟩⟩
      · rw [h]
        exact .idle
      · rw [h]
        exact .own pid fetched rfl hfree
      · rw [h]
        exact .drop pid fetched rfl hwanted hfree hfound hdrops
  | childExit pid status =>
      simp only [handle]
      rw [handleChildExit_crew]
      -- the exit of a child that is not the owned one is ignored
      split
      · next h => exact .retire pid status rfl h
      · exact .idle
  | restartDue =>
      simp only [handle]
      rw [restartDue_crew]
      exact .idle
  | coreStalled => exact hkill (coreStalled_crew s env)
  | coreLog pid line => exact hkill (handleCoreLog_crew s env pid line)
  | log line =>
      simp only [handle]
      rw [recordLog_crew]
      exact .idle
  | signal => exact .idle

/-- **The event orphans a child**: it lets go of a child whose kill handle is used up, so that
nothing waits for the exit, or it ends a resolution that has found a binary, while the Core is wanted
and no child is owned, and spawns a child only to drop it because the log file does not open. -/
def Orphans (s : Supervisor) (env : Env) (e : LoopEvent) : Prop :=
  (s.childPid.isSome = true ∧ s.childKill = none ∧ s.StopsCore env e) ∨
    ((∃ fetched, e = .coreResolved fetched ∧ s.FindsBinary fetched) ∧
      s.desiredRunning = true ∧ s.core.busy = false ∧ ∃ pid, s.DropsChild env pid)

end Supervisor

/-! ## Following the last child -/

namespace Crew

/-- The supervisor holds what is known of the last child. -/
def Follows (c : Crew) : Last → Prop
  | .gone => c.childPid = none ∧ c.childKill = none
  | .alive pid => c.childPid = some pid ∧ c.childKill = some pid
  | .killed pid => c.childPid = some pid ∧ c.childKill = none

/-- From one crew to another by events in which every spawn finds the last child gone, and which
the new crew follows. -/
def Leads (last : Last) (c c' : Crew) : Prop :=
  ∃ news, c'.seen = c.seen ++ news ∧ last.Alone news ∧ c'.Follows (last.watch news)

variable {c : Crew} {last : Last}

/-- A supervisor that does nothing leads its children as before. -/
theorem Follows.idle (h : c.Follows last) : Leads last c c :=
  ⟨[], (List.append_nil _).symm, trivial, h⟩

/-- A stop that finds the kill handle of its child. -/
theorem Follows.letGo (h : c.Follows last) (hhandle : ¬ (c.childPid.isSome = true ∧ c.childKill = none)) :
    Leads last c c.letGo := by
  refine ⟨c.farewell, rfl, ?_⟩
  cases last with
  | gone =>
      obtain ⟨-, hkill⟩ := h
      simp only [farewell, hkill]
      exact ⟨trivial, rfl, rfl⟩
  | alive pid =>
      obtain ⟨hpid, hkill⟩ := h
      simp [farewell, hkill, hpid, Last.Alone, Last.watch, Last.see, Follows, Crew.letGo]
  | killed pid =>
      -- an owned child without its handle: nothing would wait for it
      obtain ⟨hpid, hkill⟩ := h
      exact absurd ⟨by rw [hpid]; rfl, hkill⟩ hhandle

/-- One that kills its child waits for it. -/
theorem Follows.kill (h : c.Follows last) : Leads last c c.kill := by
  cases last with
  | gone =>
      have hsame : c.kill = c := by simp only [Crew.kill, h.2]
      rw [hsame]
      exact h.idle
  | alive pid =>
      obtain ⟨hpid, hkill⟩ := h
      refine ⟨[.killSent pid], by simp only [Crew.kill, hkill], ⟨nofun, trivial⟩, ?_⟩
      simp only [Crew.kill, hkill, Last.watch, Last.see, List.foldl_cons, List.foldl_nil, if_true]
      exact ⟨hpid, rfl⟩
  | killed pid =>
      have hsame : c.kill = c := by simp only [Crew.kill, h.2]
      rw [hsame]
      exact h.idle

/-- A spawn where no child is owned finds the last one gone, and the supervisor follows the new
one. -/
theorem Follows.own (h : c.Follows last) (hfree : c.childPid = none) (pid : Pid) :
    Leads last c (c.own pid) := by
  have hgone : last = .gone := by
    cases last with
    | gone => rfl
    | alive p => rw [h.1] at hfree; cases hfree
    | killed p => rw [h.1] at hfree; cases hfree
  subst hgone
  exact ⟨[.spawned pid], rfl, ⟨fun _ => rfl, trivial⟩, rfl, rfl⟩

/-- An exit: of the owned child, or of one that does not matter any more. -/
theorem Follows.exit (h : c.Follows last) (pid : Pid) :
    (if c.childPid = some pid then c.retire else c).Follows (last.see (.exited pid)) := by
  cases last with
  | gone => rw [if_neg (by rw [h.1]; nofun)]; exact h
  | alive p =>
      obtain ⟨hpid, hkill⟩ := h
      simp only [hpid, Option.some.injEq, Last.see]
      split
      · exact ⟨rfl, rfl⟩
      · exact ⟨hpid, hkill⟩
  | killed p =>
      obtain ⟨hpid, hkill⟩ := h
      simp only [hpid, Option.some.injEq, Last.see]
      split
      · exact ⟨rfl, rfl⟩
      · exact ⟨hpid, hkill⟩

end Crew

/-- Nothing is owned in a phase in which a child may be spawned. -/
theorem CoreState.Phased.childPid_of_not_busy {c : CoreState} (h : c.Phased)
    (hfree : c.busy = false) : c.childPid = none := by
  cases h with
  | owning pid kill ready deadline marker spawns => cases hfree
  | _ => rfl

/-- One event that orphans no child, an exit apart. -/
theorem Supervisor.handle_leads {s : Supervisor} (hphase : s.core.Phased) {last : Last}
    (h : s.crew.Follows last) {env : Env} {e : LoopEvent} (he : ¬ s.Orphans env e)
    (hexit : ∀ pid status, e ≠ .childExit pid status) :
    Crew.Leads last s.crew (s.handle env e).crew := by
  have hmoves := Supervisor.handle_crew s env e
  generalize (s.handle env e).crew = c at hmoves
  cases hmoves with
  | idle => exact h.idle
  | letGo stops => exact h.letGo fun hheld => he (Or.inl ⟨hheld.1, hheld.2, stops⟩)
  | kill => exact h.kill
  | retire pid status exit owned => exact absurd exit (hexit pid status)
  | own pid fetched resolved free =>
      have hnone : s.childPid = none := hphase.childPid_of_not_busy free
      exact h.own hnone pid
  | drop pid fetched resolved wanted free found drops =>
      exact absurd (Or.inr ⟨⟨fetched, resolved, found⟩, wanted, free, pid, drops⟩) he

/-! ## The history of a run -/

/-- A daemon together with everything that has happened to its children. -/
structure Watched where
  daemon : Daemon
  history : List ChildEvent

namespace Watched

/-- The exit that the loop receives with this event. -/
def received : Daemon → LoopEvent → List ChildEvent
  | .up _, .childExit pid _ => [.exited pid]
  | _, _ => []

/-- What was done to children between two states of the daemon. -/
def done (d d' : Daemon) : List ChildEvent :=
  (Effect.children d'.effects).drop (Effect.children d.effects).length

/-- The loop picks up an event: an exit is on record before it is acted upon. -/
def step (w : Watched) (input : Env × LoopEvent) : Watched :=
  let next := w.daemon.step (input.1, .event input.2)
  ⟨next, w.history ++ received w.daemon input.2 ++ done w.daemon next⟩

/-- The event orphans a child of the running supervisor. -/
def Orphans (w : Watched) (input : Env × LoopEvent) : Prop :=
  ∃ s, w.daemon = .up s ∧ s.Orphans input.1 input.2

/-- Every spawn so far found the last child gone, and the running supervisor follows the last
child. -/
structure Ordered (w : Watched) : Prop where
  alone : Last.gone.Alone w.history
  follows : ∀ s, w.daemon = .up s →
    s.core.Phased ∧ s.config.Valid ∧ s.crew.Follows (Last.gone.watch w.history)

/-- What was done to children, from what the crews have seen. -/
theorem done_eq {d d' : Daemon} {news : List ChildEvent}
    (h : Effect.children d'.effects = Effect.children d.effects ++ news) : done d d' = news := by
  rw [done, h, List.drop_left]

/-- What the teardown does to children is what a stop does, after what the event has done. -/
theorem done_teardown {s t : Supervisor} {news : List ChildEvent}
    (h : t.crew.seen = s.crew.seen ++ news) :
    done (.up s) (Daemon.halt t.stopCore) = news ++ t.crew.farewell := by
  have hstop : t.stopCore.crew.seen = t.crew.seen ++ t.crew.farewell :=
    congrArg Crew.seen (Supervisor.stopCore_crew t)
  rw [h, List.append_assoc] at hstop
  exact done_eq hstop

/-- An exit that is received keeps the children in order: it is on record before it is acted upon. -/
theorem step_exit {s : Supervisor} {history : List ChildEvent} (h : Ordered ⟨.up s, history⟩)
    (env : Env) (pid : Pid) (status : Supervisor.ExitStatus) :
    (step ⟨.up s, history⟩ (env, .childExit pid status)).Ordered := by
  obtain ⟨hphase, hvalid, hfollows⟩ := h.follows s rfl
  have hcrew := Supervisor.handleChildExit_crew s env pid status
  have hdone : done (.up s) (.up (s.handleChildExit env pid status)) = [] := by
    refine done_eq ?_
    have hseen := congrArg Crew.seen hcrew
    split at hseen <;> rw [List.append_nil] <;> exact hseen
  have hstep : step ⟨.up s, history⟩ (env, .childExit pid status) =
      ⟨.up (s.handleChildExit env pid status), history ++ [.exited pid] ++ []⟩ :=
    congrArg (Watched.mk (.up (s.handleChildExit env pid status)))
      (congrArg (history ++ [.exited pid] ++ ·) hdone)
  rw [hstep, List.append_nil]
  constructor
  · exact Last.alone_append.mpr ⟨h.alone, nofun, trivial⟩
  · rintro t ⟨⟩
    refine ⟨Supervisor.handle_phased hphase hvalid env (.childExit pid status),
      Supervisor.handle_valid hvalid env (.childExit pid status), ?_⟩
    rw [Last.watch_append, hcrew]
    exact hfollows.exit pid

/-- Any other event that orphans no child keeps the children in order. -/
theorem step_event {s : Supervisor} {history : List ChildEvent} (h : Ordered ⟨.up s, history⟩)
    {env : Env} {e : LoopEvent} (he : ¬ s.Orphans env e)
    (hexit : ∀ pid status, e ≠ .childExit pid status) :
    (step ⟨.up s, history⟩ (env, e)).Ordered := by
  obtain ⟨hphase, hvalid, hfollows⟩ := h.follows s rfl
  obtain ⟨news, hseen, halone, hnext⟩ := Supervisor.handle_leads hphase hfollows he hexit
  have hreceived : received (.up s) e = [] := by
    cases e with
    | childExit pid status => exact absurd rfl (hexit pid status)
    | _ => rfl
  simp only [step, Daemon.step, Daemon.stepUp, hreceived, List.append_nil]
  split
  · -- The teardown after the loop sends its own farewell and leaves no supervisor.
    rw [done_teardown hseen]
    refine ⟨?_, fun t ht => Daemon.noConfusion ht⟩
    rw [Last.alone_append, Last.alone_append]
    exact ⟨h.alone, halone, Last.alone_of_no_spawn (Crew.spawned_not_mem_farewell _)⟩
  · have hdone : done (.up s) (.up (s.handle env e)) = news := done_eq hseen
    rw [hdone]
    refine ⟨Last.alone_append.mpr ⟨h.alone, halone⟩, ?_⟩
    rintro t ⟨⟩
    refine ⟨Supervisor.handle_phased hphase hvalid env e, Supervisor.handle_valid hvalid env e, ?_⟩
    rw [Last.watch_append]
    exact hnext

/-- **One step** that orphans no child keeps the children in order. -/
theorem step_ordered {w : Watched} (h : w.Ordered) {input : Env × LoopEvent}
    (ho : ¬ w.Orphans input) : (w.step input).Ordered := by
  obtain ⟨daemon, history⟩ := w
  obtain ⟨env, e⟩ := input
  cases daemon with
  | down host disk effects =>
      have hstep : step ⟨.down host disk effects, history⟩ (env, e) =
          ⟨.down host disk effects, history⟩ := by
        simp [step, Daemon.step, received, done]
      rw [hstep]
      exact h
  | up s =>
      have he : ¬ s.Orphans env e := fun hs => ho ⟨s, rfl, hs⟩
      cases e with
      | childExit pid status => exact step_exit h env pid status
      | _ => exact step_event h he (by simp)

/-- **Never two live Cores**: after any launch, whatever events follow in whatever order, as long as
none of them orphans a child, each child is spawned only after the one before it is known to be
gone. -/
theorem one_core_at_a_time {host : Host} {disk : Disk} {env : Env} {effects : List Effect}
    {s : Supervisor} (hnew : Supervisor.new host disk env effects = .ok s)
    (inputs : List (Env × LoopEvent))
    (hheld : ∀ n input, inputs[n]? = some input →
      ¬ (Run.after step ⟨.up s, []⟩ inputs n).Orphans input) (n : ℕ) :
    OneAtATime (Run.after step ⟨.up s, []⟩ inputs n).history := by
  have hstart : Ordered ⟨.up s, []⟩ := by
    refine ⟨trivial, ?_⟩
    rintro t ⟨⟩
    obtain ⟨hphase, hvalid⟩ := Supervisor.new_phased hnew
    refine ⟨hphase, hvalid, ?_⟩
    rw [Supervisor.new_crew hnew]
    exact ⟨rfl, rfl⟩
  have hordered : (Run.after step ⟨.up s, []⟩ inputs n).Ordered :=
    Run.invariant hstart (fun n input hn h => step_ordered h (hheld n input hn)) n
  exact hordered.alone.oneAtATime

/-- A machine on which the daemon has not run yet. -/
def installedHost : Host := ⟨"a", ⟨"/state/synergy.conf"⟩, ⟨"/state/settings.ini"⟩, .ascii⟩

/-- Its files: a default document, no sidecar and no marker. -/
def installedDisk : Disk := ⟨.parsed Config.default, .missing, false⟩

/-- The supervisor after the first start there, with a resolution in flight. -/
def launched : Supervisor :=
  { Supervisor.fresh installedHost (installedDisk.saveSidecar (.calm 0 100)
      (.initial Config.default "a")) Config.default (.initial Config.default "a") [] with
    desiredRunning := true }.startCore

/-- The sample supervisor comes up. -/
theorem new_launched :
    Supervisor.new installedHost installedDisk (.calm 0 100) [] = .ok launched := by
  rfl

/-- A Restart that bounces a running Core, and the resolution after it. -/
def restarted : List (Env × LoopEvent) :=
  [(.calm 0 100, .coreResolved (.ok ⟨.unified ⟨"/bin/deskflow-core"⟩⟩)),
    (.calm 1000 101, .request .restart),
    (.calm 3000 101, .coreResolved (.ok ⟨.unified ⟨"/bin/deskflow-core"⟩⟩))]

/-- In that run the first child is killed and waited for before the second one is spawned. -/
theorem one_core_at_a_time_restarted :
    (Run.after step ⟨.up launched, []⟩ restarted 3).history =
        [.spawned 100, .killSent 100, .graceWaited (some 100), .spawned 101] ∧
      OneAtATime (Run.after step ⟨.up launched, []⟩ restarted 3).history := by
  refine ⟨rfl, one_core_at_a_time new_launched restarted ?_ 3⟩
  intro n input hn horphans
  obtain ⟨s, hs, ⟨-, hkill, hstops⟩ | ⟨-, -, -, pid, -, -, e, he⟩⟩ := horphans
  · match n with
    | 0 => cases hn; exact hstops
    | 1 => cases hs; cases hkill
    | 2 => cases hn; exact hstops
  · match n with
    | 0 => cases hn; cases he
    | 1 => cases hn; cases he
    | 2 => cases hn; cases he

/-- A Core that has not connected in time is killed by the watchdog; a Restart arrives while it is
still shutting down. -/
def stalledThenRestarted : List (Env × LoopEvent) :=
  [(.calm 0 100, .coreResolved (.ok ⟨.unified ⟨"/bin/deskflow-core"⟩⟩)),
    (.calm 30000 101, .coreStalled),
    (.calm 30001 101, .request .restart),
    (.calm 30002 101, .coreResolved (.ok ⟨.unified ⟨"/bin/deskflow-core"⟩⟩))]

/-- The second child is spawned although nobody has waited for the first. -/
theorem stalled_core_overlaps :
    Supervisor.new installedHost installedDisk (.calm 0 100) [] = .ok launched ∧
      ¬ OneAtATime (Run.after step ⟨.up launched, []⟩ stalledThenRestarted 4).history := by
  refine ⟨new_launched, fun h => ?_⟩
  have hhistory : (Run.after step ⟨.up launched, []⟩ stalledThenRestarted 4).history =
      [.spawned 100, .killSent 100, .spawned 101] := rfl
  rw [hhistory] at h
  rcases h [] 100 [.killSent 100] 101 [] rfl (by simp) with hexit | ⟨before, between, after, heq⟩
  · simp at hexit
  · have hmem : ChildEvent.graceWaited (some 100) ∈ [ChildEvent.killSent 100] := by
      rw [heq]
      simp
    simp at hmem

end Watched

end Synbad
