import Synbad.Lib.Run
import Synbad.Supervisor.ConfigEdit

/-! # The daemon

`Supervisor::new`, the request dispatcher and the `select!` loop of `Supervisor::run` as one step
function. A daemon is up with a supervisor, or down with only its files; a run feeds it loop events in
any order, with launches, crashes and edits of the files from outside in between. Requests and loop
events about pairing, discovery, trust and audio do not touch the state modelled here and are left
out.

The loop is free to pick any of its events at any time, timers included: which one is ready is an
input, and the guards of a branch are in its handler. A shutdown request or a signal leaves the loop
and tears down what is there. A launch reads the document, or seeds it, restores the stamps from the
sidecar or bootstraps them, and starts the Core unless the marker of a user's stop is there;
`new_cases` says what it produces: one valid document in both copies, and a Core being started unless
the marker is there. Effects are kept over all runs of the daemon, so that statements about children
and files reach across restarts. -/

namespace Synbad

/-! ## Launch -/

namespace Supervisor

/-- The stamped document `Supervisor::new` starts with, and the files after the attempt to write
the bootstrap sidecar. -/
def newVersioned (host : Host) (disk : Disk) (env : Env) (config : Config) :
    VersionedConfig × Disk :=
  let initial := VersionedConfig.initial config host.machineId
  -- an unreadable or malformed sidecar is ignored and left where it is
  if env.sidecarLoadFails then (initial, disk)
  else
    match disk.sidecar with
    | .parsed stamps clock => (VersionedConfig.fromParts config stamps clock, disk)
    | .missing => (initial, disk.saveSidecar env initial)
    | .unreadable => (initial, disk)
    | .malformed => (initial, disk)

/-- The supervisor `Supervisor::new` builds before it looks at the user-stopped marker. -/
def fresh (host : Host) (disk : Disk) (config : Config) (versioned : VersionedConfig)
    (effects : List Effect) : Supervisor where
  host := host
  disk := disk
  config := config
  versioned := versioned
  state := .stopped
  connectedPeers := ∅
  activeScreen := none
  logTail := []
  events := []
  desiredRunning := false
  childKill := none
  backoff := minBackoff
  restartAt := none
  childPid := none
  coreResolving := false
  resolveTasks := []
  shutdown := false
  coreReadyAt := none
  coreConnectDeadline := none
  coreDiskLog := false
  fastFailCount := 0
  confWritten := none
  settingsWritten := none
  effects := effects

/-- `Supervisor::new`: load the document or take the default, restore or bootstrap the stamps, and
start the Core unless the user stopped it. `effects` is what earlier runs of the daemon did. -/
def new (host : Host) (disk : Disk) (env : Env) (effects : List Effect) :
    Except ConfigError Supervisor :=
  match disk.loadConfig env with
  | .error e => .error e
  | .ok loaded =>
      let config := loaded.getD Config.default
      let versioned := newVersioned host disk env config
      let s := fresh host versioned.2 config versioned.1 effects
      .ok (if s.disk.userStopped then s else { s with desiredRunning := true }.startCore)

/-- The document is kept as it is, and the marker is not touched. -/
theorem newVersioned_spec (host : Host) (disk : Disk) (env : Env) (config : Config) :
    (newVersioned host disk env config).1.config = config ∧
      (newVersioned host disk env config).2.userStopped = disk.userStopped := by
  have hsave : ∀ v, (disk.saveSidecar env v).userStopped = disk.userStopped := by
    intro v
    unfold Disk.saveSidecar
    split <;> rfl
  simp only [newVersioned]
  split
  · exact ⟨rfl, rfl⟩
  · split
    · exact ⟨rfl, rfl⟩
    · exact ⟨rfl, hsave _⟩
    · exact ⟨rfl, rfl⟩
    · exact ⟨rfl, rfl⟩

/-- **What a launch produces**: one valid document in both copies, and a Core being started unless
the marker is there. -/
theorem new_cases {host : Host} {disk : Disk} {env : Env} {effects : List Effect} {s : Supervisor}
    (h : new host disk env effects = .ok s) :
    ∃ (disk' : Disk) (config : Config) (versioned : VersionedConfig),
      config.Valid ∧ versioned.config = config ∧ disk'.userStopped = disk.userStopped ∧
      s = if disk.userStopped then fresh host disk' config versioned effects
        else { fresh host disk' config versioned effects with desiredRunning := true }.startCore := by
  unfold new at h
  split at h
  · cases h
  · next loaded hloaded =>
    have hvalid : (loaded.getD Config.default).Valid := by
      cases loaded with
      | none => exact Config.valid_default
      | some c => exact Disk.loadConfig_valid hloaded
    obtain ⟨hconfig, hmarker⟩ := newVersioned_spec host disk env (loaded.getD Config.default)
    refine ⟨_, _, _, hvalid, hconfig, hmarker, ?_⟩
    rw [← hmarker]
    exact (Except.ok.inj h).symm

end Supervisor

/-! ## Requests -/

/-- The requests that act on the modelled state, with what they carry. -/
inductive Request where
  | getStatus
  | getConfig
  | setConfig (config : Config)
  | start
  | stop
  | restart
  | setAudioConfig (audio : AudioConfig)
  | shutdown

/-- The replies to these requests, and the error that any of them may get. -/
inductive Response where
  | ok
  | status (state : Ipc.DaemonState) (recentLog : List String) (connectedPeers : Finset String)
      (activeScreen : Option String)
  | config (config : Config)
  | error (message : String)

namespace Supervisor

/-- The reply to an edit: `Ok`, or the reason why it was refused. -/
def editResponse : Except String Unit → Response
  | .ok () => .ok
  | .error message => .error message

/-- `handle_request`: what each request does to the supervisor, and its reply. -/
def handleRequest (s : Supervisor) (env : Env) : Request → Supervisor × Response
  | .getStatus => (s, .status s.state s.logTail s.connectedPeers s.activeScreen)
  | .getConfig => (s, .config s.config)
  | .setConfig config =>
      let (s, result) := s.setConfig env config
      (s, editResponse result)
  | .start =>
      ({ s with
          desiredRunning := true, disk := s.disk.persistUserStopped env false
          fastFailCount := 0, backoff := minBackoff }.startCore,
        .ok)
  | .stop =>
      ({ s with
          desiredRunning := false, disk := s.disk.persistUserStopped env true
          fastFailCount := 0 }.stopCore,
        .ok)
  | .restart =>
      ({ s with
          desiredRunning := true, disk := s.disk.persistUserStopped env false }.restartCore,
        .ok)
  | .setAudioConfig audio =>
      let (s, result) := s.updateAudioConfig env audio
      (s, editResponse result)
  | .shutdown => ({ s with shutdown := true }, .ok)

end Supervisor

/-! ## The loop -/

/-- The events of the `select!` loop, each with what it brings. -/
inductive LoopEvent where
  | request (r : Request)
  | fsChanged
  | syncOp (op : SyncOp)
  | coreResolved (fetched : Except String ResolvedCore)
  | childExit (pid : Pid) (status : Supervisor.ExitStatus)
  | restartDue
  | coreStalled
  | coreLog (pid : Pid) (line : String)
  | log (line : String)
  | signal

namespace Supervisor

/-- One iteration of the loop, as long as the loop goes on. -/
def handle (s : Supervisor) (env : Env) : LoopEvent → Supervisor
  | .request r => (s.handleRequest env r).1
  | .fsChanged => s.handleConfigChanged env
  | .syncOp op => s.handleSyncOp env op
  | .coreResolved fetched => s.coreResolved env fetched
  | .childExit pid status => s.handleChildExit env pid status
  | .restartDue => s.restartDue env
  | .coreStalled => s.coreStalled env
  | .coreLog pid line => s.handleCoreLog env pid line
  | .log line => s.recordLog line
  | .signal => s

/-- The loop returns after this event: a shutdown request or a signal. -/
def leavesLoop (s : Supervisor) : LoopEvent → Bool
  | .signal => true
  | .request _ => s.shutdown
  | _ => false

end Supervisor

/-- The daemon process: up with its supervisor, or down with what outlives it. -/
inductive Daemon where
  | up (s : Supervisor)
  | down (host : Host) (disk : Disk) (effects : List Effect)

/-- What can happen to the daemon, in any order. -/
inductive Input where
  /-- The loop picks up an event, and handles it to its end. -/
  | event (e : LoopEvent)
  /-- The process is started; `seed` decides the file operations of `run_daemon`'s seeding. -/
  | launch (seed : Env)
  /-- The process dies on the spot, and what is in memory is lost. -/
  | crash
  /-- Someone else writes or removes `config.toml`, whether or not the daemon runs. -/
  | editConfig (file : ConfigFile)
  /-- Someone else writes or removes the sidecar, whether or not the daemon runs. -/
  | editSidecar (file : SidecarFile)

namespace Daemon

/-- The first-run seeding of `run_daemon`: a missing `config.toml` is written with the default. -/
def seedConfig (disk : Disk) (env : Env) : Except ConfigError Disk :=
  match disk.loadConfig env with
  | .error e => .error e
  | .ok (some _) => .ok disk
  | .ok none =>
      match disk.saveConfig env Config.default with
      | (disk, .ok ()) => .ok disk
      | (_, .error e) => .error e

/-- `run_daemon` up to the loop: seed, then build the supervisor; an error leaves the daemon
down. -/
def launch (host : Host) (disk : Disk) (effects : List Effect) (seed env : Env) : Daemon :=
  match seedConfig disk seed with
  | .error _ => .down host disk effects
  | .ok disk =>
      match Supervisor.new host disk env effects with
      | .error _ => .down host disk effects
      | .ok s => .up s

/-- The process ends; its files stay, and the history of its effects. -/
def halt (s : Supervisor) : Daemon := .down s.host s.disk s.effects

/-- An event of the loop, followed by the teardown when the loop is left. -/
def stepUp (s : Supervisor) (env : Env) (e : LoopEvent) : Daemon :=
  let s := s.handle env e
  if s.leavesLoop e then halt s.stopCore else .up s

/-- Someone else changes the files, under a daemon that is up or down. -/
def editDisk (edit : Disk → Disk) : Daemon → Daemon
  | .up s => .up { s with disk := edit s.disk }
  | .down host disk effects => .down host (edit disk) effects

/-- One step of a run: an event of a daemon that is up, a launch of one that is down, a crash, or an
edit of the files. -/
def step (d : Daemon) (input : Env × Input) : Daemon :=
  match input.2, d with
  | .event e, .up s => stepUp s input.1 e
  | .launch seed, .down host disk effects => launch host disk effects seed input.1
  | .crash, .up s => halt s
  | .editConfig file, d => d.editDisk fun disk => { disk with config := file }
  | .editSidecar file, d => d.editDisk fun disk => { disk with sidecar := file }
  -- nobody listens, or the socket is taken
  | _, d => d

/-- The effects of all runs of the daemon so far. -/
def effects : Daemon → List Effect
  | .up s => s.effects
  | .down _ _ effects => effects

/-- The files of the daemon, up or down. -/
def disk : Daemon → Disk
  | .up s => s.disk
  | .down _ disk _ => disk

end Daemon

end Synbad
