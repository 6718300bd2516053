import Synbad.Config.Core
import Synbad.Ipc.LogParse
import Synbad.Sync.Versioned
import Mathlib.Data.Finset.Basic

/-! # The supervisor's state

The state owned by `synbadd`'s single supervisor task, the files it reads and writes, and what the
outside decides while one event is handled (`Env`): the time, which file operations fail, and how a
spawn ends. Handlers are functions from state to state. Time is counted in milliseconds.

A file is modelled by what a load can tell of it: it is missing, it cannot be read or parsed, or it
holds a document. Saving replaces a file as a whole or leaves the old one, as it writes a temporary
file first and renames it; the document is validated before it is written and after it is read
(`loadConfig_valid`).

What a handler does to the outside is appended to a list of effects, in order: children that are
spawned, signals, waits, states handed to sync sessions, pushes. The events that are broadcast are a
list as well. Neither is read by the code. They are what later modules speak of when they say what has
happened, and the projections at the end of this one (`Effect.spawns`, `Effect.replies`) pick out a
part of it. -/

namespace Synbad

/-- A process id, as the operating system gives it. -/
abbrev Pid := ℕ

/-! ## Files -/

/-- The content of `config.toml`, as far as `Config::load` can tell. -/
inductive ConfigFile where
  | missing
  | unreadable
  | malformed
  | parsed (config : Config)

/-- The content of the versions sidecar, as far as `load_sidecar` can tell. -/
inductive SidecarFile where
  | missing
  | unreadable
  | malformed
  | parsed (stamps : FieldStamps) (clock : ℕ)

/-- The files that outlive the daemon: the document, its sidecar, and the marker of a Stop. -/
structure Disk where
  config : ConfigFile
  sidecar : SidecarFile
  /-- The marker left by an explicit Stop exists, by which the next launch leaves the Core alone. -/
  userStopped : Bool

/-- Why `Config::load` or `Config::save` failed. -/
inductive ConfigError where
  | io
  | toml
  | invalid (e : Invalid)

/-- What the outside decides while one event is handled. -/
structure Env where
  now : ℕ
  /-- Reading `config.toml` fails, though it may be there. -/
  loadFails : Bool
  /-- Writing or renaming `config.toml` fails, and the old file stays. -/
  saveFails : Bool
  /-- Reading the sidecar fails, though it may be there. -/
  sidecarLoadFails : Bool
  /-- Writing or renaming the sidecar fails, and the old file stays. -/
  sidecarSaveFails : Bool
  /-- Writing or removing the user-stopped marker fails, and it stays as it was. -/
  markerFails : Bool
  /-- Writing the generated layout, and its error if it fails. -/
  writeConf : Except String Unit
  /-- Writing the generated settings, and its error if it fails. -/
  writeSettings : Except String Unit
  /-- The pid of the child, or why it could not be spawned. -/
  spawn : Except String Pid
  /-- Opening the Core's log file, and its error if it fails. -/
  openCoreLog : Except String Unit

/-- An outside in which nothing fails and the next child gets this pid. -/
def Env.calm (now : ℕ) (pid : Pid) : Env where
  now := now
  loadFails := false
  saveFails := false
  sidecarLoadFails := false
  sidecarSaveFails := false
  markerFails := false
  writeConf := .ok ()
  writeSettings := .ok ()
  spawn := .ok pid
  openCoreLog := .ok ()

namespace Disk

/-- `Config::load`: a missing file is no error, an unacceptable one is. -/
def loadConfig (d : Disk) (env : Env) : Except ConfigError (Option Config) :=
  if env.loadFails then .error .io
  else
    match d.config with
    | .missing => .ok none
    | .unreadable => .error .io
    | .malformed => .error .toml
    | .parsed c =>
        match c.validate with
        | .ok () => .ok (some c)
        | .error e => .error (.invalid e)

/-- `Config::save`: validated, then written to a temporary file and renamed, so that a failure
leaves the old file. -/
def saveConfig (d : Disk) (env : Env) (c : Config) : Disk × Except ConfigError Unit :=
  match c.validate with
  | .error e => (d, .error (.invalid e))
  | .ok () => if env.saveFails then (d, .error .io) else ({ d with config := .parsed c }, .ok ())

/-- `save_sidecar`, with its result dropped as its callers do. -/
def saveSidecar (d : Disk) (env : Env) (v : VersionedConfig) : Disk :=
  if env.sidecarSaveFails then d else { d with sidecar := .parsed v.stamps v.clock }

/-- `persist_user_stopped`: the marker is written or removed, and a failure is only logged. -/
def persistUserStopped (d : Disk) (env : Env) (stopped : Bool) : Disk :=
  if env.markerFails then d else { d with userStopped := stopped }

/-- A document that was loaded has been validated. -/
theorem loadConfig_valid {d : Disk} {env : Env} {c : Config}
    (h : d.loadConfig env = .ok (some c)) : c.Valid := by
  unfold loadConfig at h
  split at h
  · cases h
  · split at h
    · cases h
    · cases h
    · cases h
    · split at h
      · next hv =>
        cases h
        exact hv
      · cases h

end Disk

/-! ## The state -/

/-- Fixed facts about the machine: its id and where the generated files go. -/
structure Host where
  machineId : String
  generatedConf : PathBuf
  generatedSettings : PathBuf
  /-- The tables that the `{:?}` of its messages goes by. -/
  unicode : UnicodeTables

/-- What the supervisor did to the outside world, in order. -/
inductive Effect where
  /-- A Core child was spawned, with this program and these arguments. -/
  | spawned (pid : Pid) (program : PathBuf) (args : List String)
  /-- The child was dropped at once because its log could not be opened. -/
  | dropped (pid : Pid)
  /-- The kill signal was sent to a child, which may still live. -/
  | killSent (pid : Pid)
  /-- Up to two seconds were spent waiting for the exit of a child. -/
  | graceWaited (pid : Option Pid)
  /-- The state was pushed to every visible trusted peer. -/
  | pushedToPeers
  /-- A sync session was handed this state, and may send it to a peer. -/
  | replied (state : VersionedConfig)

/-- The state of the supervisor task, as far as the Core and the document go. -/
structure Supervisor where
  host : Host
  disk : Disk
  config : Config
  /-- The same document with its stamps; what sync sessions ship and merge into. -/
  versioned : VersionedConfig
  state : Ipc.DaemonState
  connectedPeers : Finset String
  activeScreen : Option String
  logTail : List String
  /-- The events broadcast so far, oldest first. -/
  events : List Ipc.Event
  desiredRunning : Bool
  /-- The kill handle, tagged with the child it terminates. -/
  childKill : Option Pid
  backoff : ℕ
  restartAt : Option ℕ
  childPid : Option Pid
  coreResolving : Bool
  /-- Resolution tasks in flight, each with the document it was started with. -/
  resolveTasks : List Config
  shutdown : Bool
  coreReadyAt : Option ℕ
  coreConnectDeadline : Option ℕ
  coreDiskLog : Bool
  fastFailCount : ℕ
  /-- The layout last written for the Core, which is what it reads. -/
  confWritten : Option String
  /-- The settings last written for the Core, which is what it reads. -/
  settingsWritten : Option String
  effects : List Effect

namespace Supervisor

/-- `LOG_TAIL`: how many lines of the log are kept for a new client. -/
def logTailMax : ℕ := 500

/-- `MIN_BACKOFF`, in milliseconds: the delay before the first restart. -/
def minBackoff : ℕ := 500

/-- `MAX_BACKOFF`, in milliseconds: the longest delay of a server. -/
def maxBackoff : ℕ := 30000

/-- `CLIENT_MAX_BACKOFF`, in milliseconds: the longest delay of a client. -/
def clientMaxBackoff : ℕ := 10000

/-- `MAX_FAST_FAILS`: after so many failures in a row the circuit breaker takes over. -/
def maxFastFails : ℕ := 5

/-- `CORE_CONNECT_TIMEOUT`, in milliseconds: how long a child may take to connect. -/
def coreConnectTimeout : ℕ := 30000

/-- `CORE_HEALTHY_WINDOW`, in milliseconds: a child that was ready for so long did not fail fast. -/
def coreHealthyWindow : ℕ := 60000

/-- `CIRCUIT_BREAKER_MAX`, in milliseconds: the longest delay there is. -/
def circuitBreakerMax : ℕ := 300000

/-- `u32::saturating_add(1)`: one more, up to the last number. -/
def saturatingSucc (n : ℕ) : ℕ := min (n + 1) (2 ^ 32 - 1)

/-- The `{:?}` form of a `Duration` of whole milliseconds. -/
def debugDuration (ms : ℕ) : String :=
  if ms = 0 then "0ns"
  else if ms < 1000 then toString ms ++ "ms"
  else if ms % 1000 = 0 then toString (ms / 1000) ++ "s"
  else
    let digits := (toString (1000 + ms % 1000)).toList.tail.reverse.dropWhile (· == '0')
    toString (ms / 1000) ++ "." ++ String.ofList digits.reverse ++ "s"

/-- The `{:?}` form of an exit code, which is an `Option`. -/
def debugExitCode : Option Int → String
  | none => "None"
  | some n => "Some(" ++ toString n ++ ")"

/-- `record_log`: keep a bounded tail, surface a structured signal, broadcast the line. -/
def recordLog (s : Supervisor) (line : String) : Supervisor :=
  let structured := LogParse.parse line
  { s with
    logTail := (if logTailMax ≤ s.logTail.length then s.logTail.tail else s.logTail) ++ [line]
    connectedPeers :=
      match structured with
      | some (.peerConnected name) => insert name s.connectedPeers
      | some (.peerDisconnected name) => s.connectedPeers.erase name
      | _ => s.connectedPeers
    activeScreen :=
      match structured with
      | some (.activeScreen name) => some name
      | _ => s.activeScreen
    events := s.events ++ structured.toList ++ [.log line] }

/-- `set_state`: nothing happens unless the state changes; leaving the running states forgets the
connected peers and the active screen. -/
def setState (s : Supervisor) (new : Ipc.DaemonState) : Supervisor :=
  { s with
    state := new
    connectedPeers := if s.state ≠ new ∧ new.isRunning = false then ∅ else s.connectedPeers
    activeScreen := if s.state ≠ new ∧ new.isRunning = false then none else s.activeScreen
    events := if s.state = new then s.events else s.events ++ [.state new] }

/-- Broadcast an event, behind those there have been. -/
def emit (s : Supervisor) (e : Ipc.Event) : Supervisor := { s with events := s.events ++ [e] }

/-- Record an effect, behind those there have been. -/
def act (s : Supervisor) (e : Effect) : Supervisor := { s with effects := s.effects ++ [e] }

end Supervisor

/-- The pids of the children spawned, in the order in which they were. -/
def Effect.spawns (effects : List Effect) : List Pid :=
  effects.filterMap fun
    | .spawned pid _ _ => some pid
    | _ => none

/-- The states handed to sync sessions, in the order in which they were. -/
def Effect.replies (effects : List Effect) : List VersionedConfig :=
  effects.filterMap fun
    | .replied v => some v
    | _ => none

end Synbad
