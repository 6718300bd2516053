import Synbad.Supervisor.Daemon

/-! # Events and what they are about

The supervisor broadcasts an event for every change of its state, its connected peers and its active
screen, and each event says what the change is. So these three can be told from the events: `Tells`
relates two states of the supervisor by the events that lead from the one to the other, and every
handler of the loop is shown to be told by its events.

`CoreView.see` is what a listener makes of an event, and `Supervisor.coreView` what the supervisor
has. `Tells.emit`, `Tells.setState` and `Tells.recordLog` are the three ways in which a handler
changes either, and each handler is a sequence of them. `Tells.handle` covers the whole loop: no event
of it changes one of the three without saying so, and none says what has not happened. A client that
has a snapshot and then hears every event is therefore never out of step; how it gets both from the
daemon, and what it misses when it lags, is the matter of the modules on the socket and the window. -/

namespace Synbad

/-- What the events are about: the state of the daemon, the peers the Core reports as connected, and
the screen the pointer is on. -/
structure CoreView where
  state : Ipc.DaemonState
  connectedPeers : Finset String
  activeScreen : Option String
  deriving DecidableEq

namespace CoreView

/-- What an event says about it. A state that is not a running one ends all connections. -/
def see (v : CoreView) : Ipc.Event → CoreView
  | .state state => if state.isRunning then { v with state := state } else ⟨state, ∅, none⟩
  | .log _ => v
  | .configChanged => v
  | .peerConnected name => { v with connectedPeers := insert name v.connectedPeers }
  | .peerDisconnected name => { v with connectedPeers := v.connectedPeers.erase name }
  | .activeScreen name => { v with activeScreen := some name }

end CoreView

namespace Supervisor

/-- What the supervisor itself has of it. -/
def coreView (s : Supervisor) : CoreView := ⟨s.state, s.connectedPeers, s.activeScreen⟩

/-- The events from one state to the other tell what the other shows. -/
def Tells (s t : Supervisor) : Prop :=
  ∃ events, t.events = s.events ++ events ∧ t.coreView = events.foldl CoreView.see s.coreView

variable {s t u : Supervisor}

/-- What does nothing tells all there is to tell. -/
theorem Tells.refl (s : Supervisor) : s.Tells s := ⟨[], (List.append_nil _).symm, rfl⟩

/-- Two things that tell what they change do so one after the other. -/
theorem Tells.trans (h : s.Tells t) (h' : t.Tells u) : s.Tells u := by
  obtain ⟨events, hevents, hview⟩ := h
  obtain ⟨events', hevents', hview'⟩ := h'
  refine ⟨events ++ events', ?_, ?_⟩
  · rw [hevents', hevents, List.append_assoc]
  · rw [hview', hview, List.foldl_append]

/-- Broadcasting an event that says nothing about the view tells nothing new. -/
theorem Tells.emit (h : s.Tells t) {e : Ipc.Event} (he : ∀ v : CoreView, v.see e = v) :
    s.Tells (t.emit e) := by
  refine h.trans ⟨[e], rfl, ?_⟩
  exact (he t.coreView).symm

/-- `set_state` forgets exactly what its event says is over. -/
theorem Tells.setState (h : s.Tells t) (new : Ipc.DaemonState) : s.Tells (t.setState new) := by
  refine h.trans ?_
  by_cases hsame : t.state = new
  · refine ⟨[], ?_, ?_⟩
    · simp [Supervisor.setState, hsame]
    · simp [Supervisor.setState, coreView, hsame]
  · refine ⟨[.state new], ?_, ?_⟩
    · simp [Supervisor.setState, hsame]
    · cases hrunning : new.isRunning with
      | true => simp [Supervisor.setState, coreView, CoreView.see, hrunning]
      | false => simp [Supervisor.setState, coreView, CoreView.see, hsame, hrunning]

/-- The signals of the Core are not about the state. -/
theorem parse_ne_state (line : String) (state : Ipc.DaemonState) :
    LogParse.parse line ≠ some (.state state) := by
  intro h
  obtain ⟨name, hname⟩ | ⟨name, hname⟩ | ⟨name, hname⟩ := LogParse.parse_cases h <;> cases hname

/-- `record_log` broadcasts the signal it has applied, so what a line of the log changes is told. -/
theorem Tells.recordLog (h : s.Tells t) (line : String) : s.Tells (t.recordLog line) := by
  refine h.trans ?_
  cases hparse : LogParse.parse line with
  | none =>
      exact ⟨[.log line], by simp [Supervisor.recordLog, hparse],
        by simp [Supervisor.recordLog, coreView, CoreView.see, hparse]⟩
  | some e =>
      refine ⟨[e, .log line], by simp [Supervisor.recordLog, hparse], ?_⟩
      cases e with
      | state state => exact absurd hparse (parse_ne_state line state)
      | _ => simp [Supervisor.recordLog, coreView, CoreView.see, hparse]

/-! ## The handlers

Whatever else a handler writes is not in the view, so a state that differs in it is told by the same
events: a proof for the one is a proof for the other. -/

/-- A start tells the state it leaves. -/
theorem Tells.startCore (h : s.Tells t) : s.Tells t.startCore := by
  unfold Supervisor.startCore
  simp only
  split
  · exact h
  · have hstarting : s.Tells ({ t with restartAt := none }.setState .starting) :=
      Tells.setState (t := { t with restartAt := none }) h .starting
    split
    · exact hstarting
    · exact hstarting

/-- A stop tells the state it leaves. -/
theorem Tells.stopCore (h : s.Tells t) : s.Tells t.stopCore := by
  unfold Supervisor.stopCore
  refine Tells.setState ?_ .stopped
  simp only
  split <;> exact h

/-- A restart tells the states it goes through. -/
theorem Tells.restartCore (h : s.Tells t) : s.Tells t.restartCore :=
  Tells.startCore (Tells.stopCore (t := { t with fastFailCount := 0, backoff := minBackoff }) h)

/-- A start that fails tells so. -/
theorem Tells.startFailed (h : s.Tells t) (env : Env) (what : String) :
    s.Tells (t.startFailed env what) := by
  unfold Supervisor.startFailed
  refine Tells.setState (Tells.recordLog ?_ _) _
  exact h

/-- Writing the Core's files is told as the log lines it makes. -/
theorem Tells.writeCoreArtefacts (h : s.Tells t) (env : Env) :
    s.Tells (t.writeCoreArtefacts env).1 := by
  unfold Supervisor.writeCoreArtefacts
  split
  · exact h
  · simp only
    split <;> exact h

/-- A child that is spawned is told as a state. -/
theorem Tells.spawnChild (h : s.Tells t) (env : Env) (program : PathBuf) (args : List String) :
    s.Tells (t.spawnChild env program args).1 := by
  unfold Supervisor.spawnChild
  split
  · exact h
  · next pid _ =>
    simp only
    split
    · exact h
    · exact Tells.setState (t := { t.act (.spawned pid program args) with
        coreDiskLog := true, childKill := some pid, childPid := some pid }) h (.running pid)

/-- A launch of the Core tells what it changes, whether it goes well or not. -/
theorem Tells.launchCore (h : s.Tells t) (env : Env) (resolved : ResolvedCore) :
    s.Tells (t.launchCore env resolved) := by
  have hwritten := h.writeCoreArtefacts env
  unfold Supervisor.launchCore
  cases hwrite : t.writeCoreArtefacts env with
  | mk t' result =>
      rw [hwrite] at hwritten
      cases result with
      | error e => exact hwritten.startFailed env e
      | ok _ =>
          simp only
          split
          · exact (hwritten.recordLog _).setState _
          · next program args _ =>
            have hspawned := hwritten.spawnChild env program args
            split
            · next t'' hspawn =>
              rw [hspawn] at hspawned
              exact hspawned
            · next t'' e hspawn =>
              rw [hspawn] at hspawned
              exact hspawned.startFailed env e

/-- The end of a resolution tells what it changes. -/
theorem Tells.coreResolved (h : s.Tells t) (env : Env) (fetched : Except String ResolvedCore) :
    s.Tells (t.coreResolved env fetched) := by
  unfold Supervisor.coreResolved
  split
  · exact h
  · unfold onCoreResolved
    simp only
    split
    · exact h
    -- the Core is no longer wanted, or there is one already
    split
    · exact h
    split
    · exact Tells.startFailed (t := { t with resolveTasks := _, coreResolving := false }) h env _
    · exact Tells.launchCore (t := { t with resolveTasks := _, coreResolving := false }) h env _

/-- Killing the child changes nothing that is to be told. -/
theorem Tells.killChild (h : s.Tells t) : s.Tells t.killChild := by
  unfold Supervisor.killChild
  split <;> exact h

/-- A child that has exited is told, with what was decided about it. -/
theorem Tells.handleChildExit (h : s.Tells t) (env : Env) (pid : Pid) (status : ExitStatus) :
    s.Tells (t.handleChildExit env pid status) := by
  have hretired : s.Tells (t.retireChild env pid status) := by
    have hlogged := h.recordLog ("[synbad] Core " ++ toString pid ++ " exited: " ++
      status.display ++ "; diagnostics in core.log")
    unfold retireChild
    generalize t.recordLog _ = t' at hlogged ⊢
    exact hlogged
  unfold Supervisor.handleChildExit
  -- an exit of a child that is not the current one changes nothing
  split
  · exact h
  split
  · have hlogged : s.Tells ((t.retireChild env pid status).logFastFails status) := by
      unfold logFastFails
      split
      · exact hretired.recordLog _
      · exact hretired
    unfold retryAfterExit
    simp only
    split
    · exact Tells.recordLog (Tells.setState (t := scheduleRestart _ env) hlogged _) _
    · exact Tells.setState (t := scheduleRestart _ env) hlogged _
  · exact hretired.setState _

/-- A Core that stalls is told. -/
theorem Tells.coreStalled (h : s.Tells t) (env : Env) : s.Tells (t.coreStalled env) := by
  unfold Supervisor.coreStalled
  split
  · exact h
  split
  · exact h
  · exact Tells.killChild (Tells.recordLog (t := { t with coreConnectDeadline := none }) h _)

/-- A restart that is due is told. -/
theorem Tells.restartDue (h : s.Tells t) (env : Env) : s.Tells (t.restartDue env) := by
  unfold Supervisor.restartDue
  split
  · exact h
  split
  · exact h
  · simp only
    split
    · exact Tells.startCore (t := { t with restartAt := none }) h
    · exact h

/-- A line of the Core's log is told, with what it says. -/
theorem Tells.handleCoreLog (h : s.Tells t) (env : Env) (pid : Pid) (line : String) :
    s.Tells (t.handleCoreLog env pid line) := by
  unfold Supervisor.handleCoreLog
  split
  · refine Tells.recordLog ?_ line
    have hnoted : s.Tells (t.noteProgress env line) := h
    unfold maybeForceReconnect
    split
    · exact hnoted
    split
    · exact hnoted
    split
    · exact hnoted
    · exact hnoted.killChild
  · exact h.recordLog _

/-! ### The documents -/

/-- A restart because of new inputs is told. -/
theorem Tells.restartIfWanted (h : s.Tells t) (inputsDiffer : Bool) :
    s.Tells (t.restartIfWanted inputsDiffer) := by
  unfold Supervisor.restartIfWanted
  split
  · exact h.restartCore
  · exact h

/-- An edit is told as a new configuration, with the restart it makes. -/
theorem Tells.applyLocalEdit (h : s.Tells t) (env : Env) (config : Config)
    (restartIfRunning : Bool) : s.Tells (t.applyLocalEdit env config restartIfRunning) := by
  have hswapped : s.Tells (t.swapDocument env config) :=
    Tells.emit (e := .configChanged) (by exact h) fun _ => rfl
  unfold Supervisor.applyLocalEdit
  simp only
  split <;> exact hswapped.restartIfWanted _

/-- A `SetConfig` is told if it was taken. -/
theorem Tells.setConfig (h : s.Tells t) (env : Env) (config : Config) :
    s.Tells (t.setConfig env config).1 := by
  unfold Supervisor.setConfig
  split
  · exact h
  split
  · exact h
  · next disk _ => exact Tells.applyLocalEdit (t := { t with disk := disk }) h env config true

/-- A changed file is told if it was taken. -/
theorem Tells.handleConfigChanged (h : s.Tells t) (env : Env) :
    s.Tells (t.handleConfigChanged env) := by
  unfold Supervisor.handleConfigChanged
  split
  · split
    · exact h
    · exact h.applyLocalEdit env _ true
  · exact h
  · exact h

/-- A merge is told if it was accepted. -/
theorem Tells.handleMerge (h : s.Tells t) (env : Env) (incoming : VersionedConfig) :
    s.Tells (t.handleMerge env incoming) := by
  unfold Supervisor.handleMerge
  simp only
  split
  · exact h
  split
  · unfold rollBack
    split <;> exact h
  · unfold adoptMerged
    exact Tells.restartIfWanted (Tells.emit (e := .configChanged) (by exact h) fun _ => rfl) _

/-- A request tells what it changes. -/
theorem Tells.handleRequest (h : s.Tells t) (env : Env) (r : Request) :
    s.Tells (t.handleRequest env r).1 := by
  cases r with
  | getStatus => exact h
  | getConfig => exact h
  | setConfig config => exact h.setConfig env config
  | start => exact Tells.startCore (by exact h)
  | stop => exact Tells.stopCore (by exact h)
  | restart => exact Tells.restartCore (by exact h)
  | setAudioConfig audio => exact h.setConfig env _
  | shutdown => exact h

/-- **Every event of the loop** is told by what it broadcasts. -/
theorem Tells.handle (h : s.Tells t) (env : Env) (e : LoopEvent) : s.Tells (t.handle env e) := by
  cases e with
  | request r => exact h.handleRequest env r
  | fsChanged => exact h.handleConfigChanged env
  | syncOp op =>
      cases op with
      | snapshot => exact h
      | merge peer incoming => exact h.handleMerge env incoming
  | coreResolved fetched => exact h.coreResolved env fetched
  | childExit pid status => exact h.handleChildExit env pid status
  | restartDue => exact h.restartDue env
  | coreStalled => exact h.coreStalled env
  | coreLog pid line => exact h.handleCoreLog env pid line
  | log line => exact h.recordLog line
  | signal => exact h

end Supervisor

end Synbad
