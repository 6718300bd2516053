import Synbad.Supervisor.State

/-! # The Core child process

`supervisor/core_proc.rs`: starting the Core (resolve, then spawn), stopping and restarting it, and
what happens when it exits. A resolution runs as a task of its own and reports once; the document it
was started with decides whether the configured override or a fetched release is used.

Everything is a function of the supervisor and of what the outside answers (`Env`), with the effects
appended to a list: a spawn, a signal, a wait. A child is owned by its pid, and may be killed by a
handle that is used up by the first who takes it; `stopCore`, the watchdog (`coreStalled`) and the
reconnect of a client (`maybeForceReconnect`) are the three that do. The wait of a stop is one
outcome, since both ways in which it can end leave the child no longer owned.

Retries are armed by `scheduleRestart`, with a backoff that doubles and, after too many fast failures,
a circuit breaker. The module is a translation; what it adds up to is shown in those that follow. -/

namespace Synbad

namespace Supervisor

/-! ## Retry delays -/

/-- `circuit_breaker_delay`: a minute, doubled for each failure past the fast ones, up to its
limit. -/
def circuitBreakerDelay (failures : ℕ) : ℕ :=
  min (60000 * 2 ^ min (failures - maxFastFails) 3) circuitBreakerMax

/-- `restart_backoff`: the delay to use now and the backoff for next time. -/
def restartBackoff (backoff : ℕ) (role : NodeRole) : ℕ × ℕ :=
  let cap :=
    match role with
    | .client => clientMaxBackoff
    | .server => maxBackoff
  let delay := min backoff cap
  (delay, min (delay * 2) cap)

/-- The delay `schedule_restart` arms: the circuit breaker's once there were too many fast failures,
and the backoff's otherwise. -/
def restartDelay (s : Supervisor) : ℕ :=
  if maxFastFails ≤ s.fastFailCount then circuitBreakerDelay s.fastFailCount
  else (restartBackoff s.backoff s.config.role).1

/-- `schedule_restart`: arm the restart timer and double the backoff. -/
def scheduleRestart (s : Supervisor) (env : Env) : Supervisor :=
  { s with
    backoff := (restartBackoff s.backoff s.config.role).2
    restartAt := some (env.now + s.restartDelay) }

/-! ## Starting -/

/-- `start_core`: supersede a pending restart, and unless a child is owned make sure one resolution
is in flight. -/
def startCore (s : Supervisor) : Supervisor :=
  let s := { s with restartAt := none }
  if s.state.hasChild || s.childKill.isSome then s
  else
    let s := s.setState .starting
    -- the task in flight will do
    if s.coreResolving then s
    else { s with coreResolving := true, resolveTasks := s.resolveTasks ++ [s.config] }

/-- `resolve_core`: an override of the document wins over the release that was fetched. -/
def resolveCore (config : Config) (fetched : Except String ResolvedCore) :
    Except String ResolvedCore :=
  match config.binaries.core with
  | some path => .ok ⟨.unified path⟩
  | none => fetched

/-- `write_core_artefacts`: the layout first and then the settings, each with an error of its own. -/
def writeCoreArtefacts (s : Supervisor) (env : Env) : Supervisor × Except String Unit :=
  match env.writeConf with
  | .error e => (s, .error ("writing " ++ debugStr s.host.unicode s.host.generatedConf.text ++ ": " ++ e))
  | .ok () =>
      let s := { s with confWritten := some s.config.generateSynergyConf }
      match env.writeSettings with
      | .error e => (s, .error ("writing " ++ debugStr s.host.unicode s.host.generatedSettings.text ++ ": " ++ e))
      | .ok () =>
          ({ s with
              settingsWritten := some (s.config.generateDeskflowSettings s.host.generatedConf) },
            .ok ())

/-- `start_failed`: count the failure, arm a retry, report it. -/
def startFailed (s : Supervisor) (env : Env) (what : String) : Supervisor :=
  let s := { s with fastFailCount := saturatingSucc s.fastFailCount }
  let delay := s.restartDelay
  let s := s.scheduleRestart env
  let s := s.recordLog ("[synbad] " ++ what ++ "; retrying in " ++ debugDuration delay)
  s.setState (.crashed none)

/-- `spawn_child`. A child whose log file cannot be opened is dropped, which kills it. -/
def spawnChild (s : Supervisor) (env : Env) (program : PathBuf) (args : List String) :
    Supervisor × Except String Unit :=
  match env.spawn with
  | .error e =>
      (s, .error ("failed to spawn " ++ program.text ++ ": " ++ e ++ ". Is the binary on PATH?"))
  | .ok pid =>
      let s := s.act (.spawned pid program args)
      -- the log file is opened once and kept over restarts
      match if s.coreDiskLog then .ok () else env.openCoreLog with
      | .error e => (s.act (.dropped pid), .error e)
      | .ok () =>
          let s := { s with coreDiskLog := true, childKill := some pid, childPid := some pid }
          let s := s.setState (.running pid)
          ({ s with
              coreReadyAt := none
              coreConnectDeadline := some (env.now + coreConnectTimeout) },
            .ok ())

/-- The rest of `on_core_resolved` once a binary is at hand: write the generated files, build the
command line from the current document, spawn. -/
def launchCore (s : Supervisor) (env : Env) (resolved : ResolvedCore) : Supervisor :=
  match s.writeCoreArtefacts env with
  | (s, .error e) => s.startFailed env e
  | (s, .ok ()) =>
      match buildCommand resolved s.config s.host.generatedConf s.host.generatedSettings with
      | .error e =>
          -- no retry: only a config edit can mend this
          (s.recordLog ("[synbad] bad Core command line: " ++ e)).setState (.crashed none)
      | .ok (program, args) =>
          match s.spawnChild env program args with
          | (s, .ok ()) => s
          | (s, .error e) => s.startFailed env e

/-- `on_core_resolved`, given what the task reported: nothing if Synbad is stopped or a child is owned
by then, and otherwise a launch or a failure. -/
def onCoreResolved (s : Supervisor) (env : Env) (outcome : Except String ResolvedCore) :
    Supervisor :=
  let s := { s with coreResolving := false }
  -- stopped, or superseded, while the resolution ran
  if !s.desiredRunning then s
  else if s.state.hasChild || s.childKill.isSome then s
  else
    match outcome with
    | .error reason => s.startFailed env ("could not obtain Deskflow Core: " ++ reason)
    | .ok resolved => s.launchCore env resolved

/-- A resolution task reports: the oldest one in flight, if any. -/
def coreResolved (s : Supervisor) (env : Env) (fetched : Except String ResolvedCore) :
    Supervisor :=
  match s.resolveTasks with
  | [] => s
  | config :: rest =>
      { s with resolveTasks := rest }.onCoreResolved env (resolveCore config fetched)

/-! ## Stopping -/

/-- `stop_core`. The wait for the child's exit drains exits of this and earlier children; either
way the child is no longer owned afterwards. -/
def stopCore (s : Supervisor) : Supervisor :=
  let pid := s.childPid
  let s := { s with
    restartAt := none, coreConnectDeadline := none, coreReadyAt := none, childPid := none }
  let s :=
    match s.childKill with
    | none => s
    | some child => ({ s with childKill := none }.act (.killSent child)).act (.graceWaited pid)
  s.setState .stopped

/-- `restart_core`: bounce the Core with a fresh retry budget. -/
def restartCore (s : Supervisor) : Supervisor :=
  { s with fastFailCount := 0, backoff := minBackoff }.stopCore.startCore

/-! ## Exits and timers -/

/-- An exit status: its code, if any, and its printed form. -/
structure ExitStatus where
  code : Option Int
  display : String

/-- The child had been ready for at least the healthy window. -/
def wasHealthy (s : Supervisor) (env : Env) : Bool :=
  match s.coreReadyAt with
  | none => false
  | some t => coreHealthyWindow ≤ env.now - t

/-- The first half of `handle_child_exit`: the exit is logged, the child is no longer owned, and
the failure is counted unless the child had been healthy. -/
def retireChild (s : Supervisor) (env : Env) (pid : Pid) (status : ExitStatus) : Supervisor :=
  let healthy := s.wasHealthy env
  { s.recordLog ("[synbad] Core " ++ toString pid ++ " exited: " ++ status.display ++
      "; diagnostics in core.log") with
    childPid := none, childKill := none, coreConnectDeadline := none, coreReadyAt := none
    fastFailCount := if healthy then 0 else saturatingSucc s.fastFailCount
    backoff := if healthy then minBackoff else s.backoff }

/-- The warning a server logs when its retry budget runs out. -/
def logFastFails (s : Supervisor) (status : ExitStatus) : Supervisor :=
  if s.config.role != .client && s.fastFailCount == maxFastFails then
    s.recordLog ("[synbad] core failed " ++ toString s.fastFailCount ++
      " consecutive times (exit " ++ debugExitCode status.code ++
      "); check runtime dependencies and whether the server port is in use. " ++
      "Retrying with capped backoff.")
  else s

/-- The second half of `handle_child_exit`: arm a restart and show what is going on. -/
def retryAfterExit (s : Supervisor) (env : Env) (status : ExitStatus) : Supervisor :=
  let s := s.logFastFails status
  let delay := s.restartDelay
  let s := s.scheduleRestart env
  if s.config.role == .client then
    let attempt := saturatingSucc s.fastFailCount
    (s.setState (.reconnecting attempt (delay / 1000))).recordLog
      ("[synbad] can't reach server (exit " ++ debugExitCode status.code ++ "); retrying in " ++
        debugDuration delay ++ " (attempt " ++ toString attempt ++ ")")
  else s.setState (.crashed status.code)

/-- `handle_child_exit`: the exit of a child that is no longer owned is ignored, and one of the owned
child leads to a retry if Synbad is to run. -/
def handleChildExit (s : Supervisor) (env : Env) (pid : Pid) (status : ExitStatus) : Supervisor :=
  -- a child that an earlier stop gave up on
  if s.childPid ≠ some pid then s
  else if s.desiredRunning then (s.retireChild env pid status).retryAfterExit env status
  else (s.retireChild env pid status).setState .stopped

/-- Take the kill handle and use it, if it is there. -/
def killChild (s : Supervisor) : Supervisor :=
  match s.childKill with
  | none => s
  | some child => { s with childKill := none }.act (.killSent child)

/-- The `core_stalled` branch of the loop, due once the connect deadline has passed. -/
def coreStalled (s : Supervisor) (env : Env) : Supervisor :=
  match s.coreConnectDeadline with
  | none => s
  | some t =>
      if env.now < t then s
      else
        let failure :=
          match s.config.role with
          | .client => "no input-sharing connection"
          | .server => "no ready input-sharing listener"
        let s := { s with coreConnectDeadline := none }
        let s := s.recordLog ("[synbad] Core made " ++ failure ++
          " within 30s; terminating stalled Core and retrying with backoff")
        s.killChild

/-- The `restart_due` branch of the loop, due once the restart time has passed. -/
def restartDue (s : Supervisor) (env : Env) : Supervisor :=
  match s.restartAt with
  | none => s
  | some t =>
      if env.now < t then s
      else
        let s := { s with restartAt := none }
        if s.desiredRunning then s.startCore else s

/-- `maybe_force_reconnect`: a client that lost its server without exiting is killed. -/
def maybeForceReconnect (s : Supervisor) (line : String) : Supervisor :=
  if (LogParse.stripPrefix "[synbad]" line.toList).isSome then s
  else if s.config.role != .client then s
  else if !LogParse.isClientServerDisconnect line then s
  else s.killChild

/-- What a line of the owned child says about its progress: the first ready line is timed, and a
connection (for a server, readiness) ends the wait for one. -/
def noteProgress (s : Supervisor) (env : Env) (line : String) : Supervisor :=
  { s with
    coreReadyAt :=
      if LogParse.isCoreReady line && s.coreReadyAt.isNone then some env.now else s.coreReadyAt
    coreConnectDeadline :=
      if LogParse.isClientConnected line || (s.config.role == .server && LogParse.isCoreReady line)
      then none
      else s.coreConnectDeadline }

/-- The `core_log_rx` branch of the loop: a line of the owned child counts as progress, and one of a
retired child is only recorded. -/
def handleCoreLog (s : Supervisor) (env : Env) (pid : Pid) (line : String) : Supervisor :=
  if s.childPid = some pid then ((s.noteProgress env line).maybeForceReconnect line).recordLog line
  else s.recordLog ("[synbad] retired Core " ++ toString pid ++ ": " ++ line)

end Supervisor

end Synbad
