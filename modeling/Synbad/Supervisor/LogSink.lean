import Synbad.Supervisor.Daemon
import Synbad.Ipc.LogGrammar
import Mathlib.Data.List.DropRight

/-! # The daemon's own log lines

What the daemon logs about itself goes to the same `record_log` as the lines of the Core, marked with
`[synbad]`: through `ChannelWriter` (`log_sink.rs`), which cuts an event at its newlines and marks
each part, and directly where the loop reports a line of a retired child. The parser of Core signals
drops the mark as it drops a timestamp, so a part that reads like a signal is taken for one.

`Mimics` is a text that reads like a signal once white space and one level are dropped from it, and
`parse_marked_eq_none_iff` says that a marked line is silent exactly if its text mimics none. What
silence means is said with two runs: `SameButLog` relates supervisors that differ only in the tail of
the log and in the raw lines that were broadcast, every event keeps it (`SameButLog.handle`), and
where a line of the daemon differs it is enough that both are silent. `daemon_lines_are_silent_iff`
puts the two together: a marked line leaves what is shown of the Core alone exactly if its text mimics
no signal, and in runs without such a line the text of the daemon's own lines has no influence. -/

namespace Synbad

/-! ## The writer -/

/-- `LINE_PREFIX`, the mark of the daemon's own lines. -/
def linePrefix : String := "[synbad] "

/-- `ChannelWriter`. What tracing writes is text, so bytes and characters split at the same places. -/
structure ChannelWriter where
  buf : List Char

namespace ChannelWriter

/-- `trim_end_matches('\r')`: the line without the carriage returns at its end. -/
def trimEnd (line : List Char) : List Char := line.rdropWhile (· == '\r')

/-- `io::Write::write`: the lines that are complete now are sent, each with the mark. -/
def write (w : ChannelWriter) : List Char → ChannelWriter × List String
  | [] => (w, [])
  | c :: cs =>
      if c == '\n' then
        let (w', lines) := write ⟨[]⟩ cs
        (w', (linePrefix ++ String.ofList (trimEnd w.buf)) :: lines)
      else write ⟨w.buf ++ [c]⟩ cs

/-- Every line that the writer sends begins with the mark. -/
theorem marked_of_mem_write {w : ChannelWriter} {text : List Char} {line : String}
    (h : line ∈ (w.write text).2) : ∃ part : String, line = linePrefix ++ part := by
  induction text generalizing w with
  | nil => cases h
  | cons c cs ih =>
      unfold write at h
      split at h
      · rcases List.mem_cons.mp h with rfl | h
        · exact ⟨_, rfl⟩
        · exact ih h
      · exact ih h

end ChannelWriter

/-! ## Marked lines -/

namespace LogParse

/-- A text that reads like a signal after white space and at most one level. -/
def Mimics (text : String) : Prop :=
  ∃ (space level body : List Char), text.toList = space ++ (level ++ body) ∧
    (∀ c ∈ space, isWhitespace c = true) ∧ level ∈ [] :: levelPrefixes.map String.toList ∧
      CoreSignal body

/-- **The mark is dropped like a timestamp**, and white space and a level after it. -/
theorem stripLogPrefix_marked (text : String) :
    stripLogPrefix (linePrefix ++ text) = stripLevel (trimStart text.toList) := by
  have hmark : stripTimestamp ("[synbad] ".toList ++ text.toList) = trimStart text.toList := rfl
  rw [stripLogPrefix, String.toList_append, linePrefix, hmark, stripLevel]

/-- **A marked line is silent exactly if its text mimics no signal.** -/
theorem parse_marked_eq_none_iff {text : String} :
    parse (linePrefix ++ text) = none ↔ ¬ Mimics text := by
  rw [← not_iff_not, not_not, ← ne_eq, parse_ne_none_iff, stripLogPrefix_marked]
  constructor
  · intro h
    obtain ⟨space, hsplit, hspace⟩ := exists_space text.toList
    obtain ⟨level, hlevel, heq⟩ := exists_level (trimStart text.toList)
    exact ⟨space, level, _, by rw [← heq, ← hsplit], hspace, hlevel, h⟩
  · rintro ⟨space, level, body, htext, hspace, hlevel, h⟩
    rw [htext, trimStart_append hspace hlevel h, stripLevel_append hlevel h]
    exact h

/-- What the loop writes in front of a line of a retired child is no signal, and nothing after it
counts. -/
theorem not_mimics_retired (line : String) : ¬ Mimics ("retired Core " ++ line) := by
  rintro ⟨space, level, body, htext, hspace, hlevel, h⟩
  rw [String.toList_append] at htext
  have htrim : trimStart ("retired Core ".toList ++ line.toList) =
      "retired Core ".toList ++ line.toList := rfl
  have hlevel' := stripLevel_append hlevel h
  rw [← trimStart_append hspace hlevel h, ← htext, htrim] at hlevel'
  -- neither is there a level to drop, nor a letter a signal starts with
  have hsame : stripLevel ("retired Core ".toList ++ line.toList) =
      "retired Core ".toList ++ line.toList := rfl
  obtain ⟨c, rest, rfl, hc⟩ := h.head
  rw [hsame] at hlevel'
  have hletter : 'r' = c := (List.cons.inj hlevel').1
  subst hletter
  revert hc
  decide

end LogParse

/-! ## Two runs -/

namespace Supervisor

/-- The event is not a raw line of the log but says what a line means, or something else. -/
def isSignal : Ipc.Event → Bool
  | .log _ => false
  | _ => true

/-- The events broadcast so far but the raw lines. -/
def signals (events : List Ipc.Event) : List Ipc.Event := events.filter isSignal

/-- **The same but for the log**: the tail that is kept and the lines that were broadcast. -/
def SameButLog (a b : Supervisor) : Prop :=
  ∃ tail events, b = { a with logTail := tail, events := events } ∧
    signals events = signals a.events

variable {a b : Supervisor}

/-- A supervisor is the same as itself. -/
theorem SameButLog.refl (a : Supervisor) : a.SameButLog a := ⟨a.logTail, a.events, rfl, rfl⟩

/-- What is read of neither the tail nor the events is the same. -/
theorem SameButLog.field {α : Type*} (h : a.SameButLog b) (f : Supervisor → α)
    (hf : ∀ tail events, f { a with logTail := tail, events := events } = f a) : f b = f a := by
  obtain ⟨tail, events, rfl, -⟩ := h
  exact hf tail events

/-- The signals of two runs of events are those of the one and then of the other. -/
theorem signals_append (xs ys : List Ipc.Event) : signals (xs ++ ys) = signals xs ++ signals ys :=
  List.filter_append ..

/-- Broadcasting the same events behind histories with the same signals leaves the same signals. -/
theorem signals_congr {xs ys : List Ipc.Event} (h : signals ys = signals xs)
    (zs : List Ipc.Event) : signals (ys ++ zs) = signals (xs ++ zs) := by
  rw [signals_append, signals_append, h]

/-- Two that are the same but for the log are so after the same new state. -/
theorem SameButLog.setState (h : a.SameButLog b) (new : Ipc.DaemonState) :
    (a.setState new).SameButLog (b.setState new) := by
  obtain ⟨tail, events, rfl, hevents⟩ := h
  refine ⟨tail, if a.state = new then events else events ++ [.state new], rfl, ?_⟩
  show _ = signals (if a.state = new then a.events else a.events ++ [.state new])
  by_cases hstate : a.state = new
  · rw [if_pos hstate, if_pos hstate]
    exact hevents
  · rw [if_neg hstate, if_neg hstate]
    exact signals_congr hevents _

/-- And after the same log line. -/
theorem SameButLog.recordLog (h : a.SameButLog b) (line : String) :
    (a.recordLog line).SameButLog (b.recordLog line) := by
  obtain ⟨tail, events, rfl, hevents⟩ := h
  refine ⟨_, events ++ (LogParse.parse line).toList ++ [.log line], rfl, ?_⟩
  show _ = signals (a.events ++ (LogParse.parse line).toList ++ [.log line])
  rw [List.append_assoc, List.append_assoc]
  exact signals_congr hevents _

/-- **Silent lines may differ**: recording two lines that are no signals keeps two supervisors the
same but for the log. -/
theorem SameButLog.recordLog_silent (h : a.SameButLog b) {line line' : String}
    (hline : LogParse.parse line = none) (hline' : LogParse.parse line' = none) :
    (a.recordLog line).SameButLog (b.recordLog line') := by
  obtain ⟨tail, events, rfl, hevents⟩ := h
  simp only [Supervisor.recordLog, hline, hline', Option.toList_none, List.append_nil]
  refine ⟨_, events ++ [.log line'], rfl, ?_⟩
  have hquiet : ∀ l, signals [.log l] = [] := fun l => rfl
  rw [signals_append, signals_append, hquiet, hquiet, hevents]

/-- And after the same event. -/
theorem SameButLog.emit (h : a.SameButLog b) (e : Ipc.Event) :
    (a.emit e).SameButLog (b.emit e) := by
  obtain ⟨tail, events, rfl, hevents⟩ := h
  exact ⟨tail, events ++ [e], rfl, signals_congr hevents _⟩

/-- And after the same effect. -/
theorem SameButLog.act (h : a.SameButLog b) (e : Effect) : (a.act e).SameButLog (b.act e) := by
  obtain ⟨tail, events, rfl, hevents⟩ := h
  exact ⟨tail, events, rfl, hevents⟩

/-- A condition that reads the same on both sides. -/
theorem SameButLog.ite {p : Prop} [Decidable p] {a a' b b' : Supervisor}
    (hpos : p → a.SameButLog b) (hneg : ¬ p → a'.SameButLog b') :
    (if p then a else a').SameButLog (if p then b else b') := by
  by_cases h : p
  · rw [if_pos h, if_pos h]
    exact hpos h
  · rw [if_neg h, if_neg h]
    exact hneg h

/-! ### The Core -/

/-- And after a start. -/
theorem SameButLog.startCore (h : a.SameButLog b) : a.startCore.SameButLog b.startCore := by
  obtain ⟨tail, events, rfl, hevents⟩ := h
  refine SameButLog.ite (fun _ => ⟨tail, events, rfl, hevents⟩) fun _ => ?_
  have hstarting : ({ a with restartAt := none }.setState .starting).SameButLog
      ({ a with restartAt := none, logTail := tail, events := events }.setState .starting) :=
    SameButLog.setState (a := { a with restartAt := none }) ⟨tail, events, rfl, hevents⟩ _
  refine SameButLog.ite (fun _ => hstarting) fun _ => ?_
  obtain ⟨tail', events', heq, hevents'⟩ := hstarting
  rw [heq]
  exact ⟨tail', events', rfl, hevents'⟩

/-- And after a start that fails. -/
theorem SameButLog.startFailed (h : a.SameButLog b) (env : Env) (what : String) :
    (a.startFailed env what).SameButLog (b.startFailed env what) := by
  obtain ⟨tail, events, rfl, hevents⟩ := h
  refine SameButLog.setState (SameButLog.recordLog ?_ _) _
  exact ⟨tail, events, rfl, hevents⟩

/-- And after a stop. -/
theorem SameButLog.stopCore (h : a.SameButLog b) : a.stopCore.SameButLog b.stopCore := by
  obtain ⟨tail, events, rfl, hevents⟩ := h
  refine SameButLog.setState ?_ _
  dsimp only
  cases a.childKill with
  | none => exact ⟨tail, events, rfl, hevents⟩
  | some child => exact ⟨tail, events, rfl, hevents⟩

/-- And after a restart. -/
theorem SameButLog.restartCore (h : a.SameButLog b) : a.restartCore.SameButLog b.restartCore := by
  obtain ⟨tail, events, rfl, hevents⟩ := h
  exact SameButLog.startCore (SameButLog.stopCore ⟨tail, events, rfl, hevents⟩)

/-- The generated files and the outcome do not depend on the log. -/
theorem SameButLog.writeCoreArtefacts (h : a.SameButLog b) (env : Env) :
    (a.writeCoreArtefacts env).1.SameButLog (b.writeCoreArtefacts env).1 ∧
      (b.writeCoreArtefacts env).2 = (a.writeCoreArtefacts env).2 := by
  obtain ⟨tail, events, rfl, hevents⟩ := h
  unfold Supervisor.writeCoreArtefacts
  dsimp only
  cases env.writeConf with
  | error e => exact ⟨⟨tail, events, rfl, hevents⟩, rfl⟩
  | ok u =>
      cases env.writeSettings with
      | error e => exact ⟨⟨tail, events, rfl, hevents⟩, rfl⟩
      | ok u => exact ⟨⟨tail, events, rfl, hevents⟩, rfl⟩

/-- And after a child has been spawned, with the same outcome. -/
theorem SameButLog.spawnChild (h : a.SameButLog b) (env : Env) (program : PathBuf)
    (args : List String) :
    (a.spawnChild env program args).1.SameButLog (b.spawnChild env program args).1 ∧
      (b.spawnChild env program args).2 = (a.spawnChild env program args).2 := by
  obtain ⟨tail, events, rfl, hevents⟩ := h
  unfold Supervisor.spawnChild
  cases env.spawn with
  | error e => exact ⟨⟨tail, events, rfl, hevents⟩, rfl⟩
  | ok pid =>
      dsimp only [Supervisor.act]
      generalize (if a.coreDiskLog then Except.ok () else env.openCoreLog) = opened
      cases opened with
      | error e => exact ⟨⟨tail, events, rfl, hevents⟩, rfl⟩
      | ok u =>
          refine ⟨?_, rfl⟩
          obtain ⟨tail', events', heq, hevents'⟩ := SameButLog.setState
            (a := { a with
              effects := a.effects ++ [.spawned pid program args], coreDiskLog := true,
              childKill := some pid, childPid := some pid })
            ⟨tail, events, rfl, hevents⟩ (.running pid)
          simp only
          rw [heq]
          exact ⟨tail', events', rfl, hevents'⟩

/-- And after a launch of the Core. -/
theorem SameButLog.launchCore (h : a.SameButLog b) (env : Env) (resolved : ResolvedCore) :
    (a.launchCore env resolved).SameButLog (b.launchCore env resolved) := by
  obtain ⟨hwritten, hresult⟩ := h.writeCoreArtefacts env
  unfold Supervisor.launchCore
  generalize a.writeCoreArtefacts env = wa at hwritten hresult ⊢
  generalize b.writeCoreArtefacts env = wb at hwritten hresult ⊢
  obtain ⟨a', ra⟩ := wa
  obtain ⟨b', rb⟩ := wb
  obtain rfl : rb = ra := hresult
  cases rb with
  | error e => exact hwritten.startFailed env e
  | ok u =>
      obtain ⟨tail, events, rfl, hevents⟩ := hwritten
      dsimp only
      cases buildCommand resolved a'.config a'.host.generatedConf a'.host.generatedSettings with
      | error e => exact SameButLog.setState (SameButLog.recordLog ⟨tail, events, rfl, hevents⟩ _) _
      | ok command =>
          obtain ⟨program, args⟩ := command
          obtain ⟨hspawned, hresult⟩ :=
            SameButLog.spawnChild (a := a') ⟨tail, events, rfl, hevents⟩ env program args
          dsimp only at hspawned hresult ⊢
          generalize a'.spawnChild env program args = sa at hspawned hresult ⊢
          generalize Supervisor.spawnChild _ env program args = sb at hspawned hresult ⊢
          obtain ⟨a'', ra⟩ := sa
          obtain ⟨b'', rb⟩ := sb
          obtain rfl : rb = ra := hresult
          cases rb with
          | ok u => exact hspawned
          | error e => exact hspawned.startFailed env e

/-- And after a Core has been resolved. -/
theorem SameButLog.onCoreResolved (h : a.SameButLog b) (env : Env)
    (outcome : Except String ResolvedCore) :
    (a.onCoreResolved env outcome).SameButLog (b.onCoreResolved env outcome) := by
  obtain ⟨tail, events, rfl, hevents⟩ := h
  unfold Supervisor.onCoreResolved
  dsimp only
  refine SameButLog.ite (fun _ => ⟨tail, events, rfl, hevents⟩) fun _ => ?_
  refine SameButLog.ite (fun _ => ⟨tail, events, rfl, hevents⟩) fun _ => ?_
  cases outcome with
  | error reason =>
      exact SameButLog.startFailed (a := { a with coreResolving := false })
        ⟨tail, events, rfl, hevents⟩ env _
  | ok resolved =>
      exact SameButLog.launchCore (a := { a with coreResolving := false })
        ⟨tail, events, rfl, hevents⟩ env resolved

/-- And after the end of a resolution. -/
theorem SameButLog.coreResolved (h : a.SameButLog b) (env : Env)
    (fetched : Except String ResolvedCore) :
    (a.coreResolved env fetched).SameButLog (b.coreResolved env fetched) := by
  unfold Supervisor.coreResolved
  rw [h.field (·.resolveTasks) fun _ _ => rfl]
  cases a.resolveTasks with
  | nil => exact h
  | cons config rest =>
      obtain ⟨tail, events, rfl, hevents⟩ := h
      exact SameButLog.onCoreResolved (a := { a with resolveTasks := rest })
        ⟨tail, events, rfl, hevents⟩ env _

/-- And after the child has been killed. -/
theorem SameButLog.killChild (h : a.SameButLog b) : a.killChild.SameButLog b.killChild := by
  unfold Supervisor.killChild
  rw [h.field (·.childKill) fun _ _ => rfl]
  cases a.childKill with
  | none => exact h
  | some child =>
      obtain ⟨tail, events, rfl, hevents⟩ := h
      exact ⟨tail, events, rfl, hevents⟩

/-- And after a Core has stalled. -/
theorem SameButLog.coreStalled (h : a.SameButLog b) (env : Env) :
    (a.coreStalled env).SameButLog (b.coreStalled env) := by
  unfold Supervisor.coreStalled
  rw [h.field (·.coreConnectDeadline) fun _ _ => rfl, h.field (·.config) fun _ _ => rfl]
  cases a.coreConnectDeadline with
  | none => exact h
  | some t =>
      obtain ⟨tail, events, rfl, hevents⟩ := h
      refine SameButLog.ite (fun _ => ⟨tail, events, rfl, hevents⟩) fun _ => ?_
      exact SameButLog.killChild (SameButLog.recordLog (a := { a with coreConnectDeadline := none })
        ⟨tail, events, rfl, hevents⟩ _)

/-- And after a restart that was due. -/
theorem SameButLog.restartDue (h : a.SameButLog b) (env : Env) :
    (a.restartDue env).SameButLog (b.restartDue env) := by
  unfold Supervisor.restartDue
  rw [h.field (·.restartAt) fun _ _ => rfl]
  cases a.restartAt with
  | none => exact h
  | some t =>
      obtain ⟨tail, events, rfl, hevents⟩ := h
      refine SameButLog.ite (fun _ => ⟨tail, events, rfl, hevents⟩) fun _ => ?_
      have hcleared : SameButLog { a with restartAt := none }
          { a with restartAt := none, logTail := tail, events := events } :=
        ⟨tail, events, rfl, hevents⟩
      exact SameButLog.ite (fun _ => hcleared.startCore) fun _ => hcleared

/-- And after a child has been retired. -/
theorem SameButLog.retireChild (h : a.SameButLog b) (env : Env) (pid : Pid) (status : ExitStatus) :
    (a.retireChild env pid status).SameButLog (b.retireChild env pid status) := by
  obtain ⟨tail, events, rfl, hevents⟩ := h
  obtain ⟨tail', events', heq, hevents'⟩ := SameButLog.recordLog (a := a)
    ⟨tail, events, rfl, hevents⟩ ("[synbad] Core " ++ toString pid ++ " exited: " ++
      status.display ++ "; diagnostics in core.log")
  unfold Supervisor.retireChild
  rw [heq]
  exact ⟨tail', events', rfl, hevents'⟩

/-- And after the lines about fast failures. -/
theorem SameButLog.logFastFails (h : a.SameButLog b) (status : ExitStatus) :
    (a.logFastFails status).SameButLog (b.logFastFails status) := by
  obtain ⟨tail, events, rfl, hevents⟩ := h
  refine SameButLog.ite (fun _ => ?_) fun _ => ⟨tail, events, rfl, hevents⟩
  exact SameButLog.recordLog ⟨tail, events, rfl, hevents⟩ _

/-- And after what is decided on an exit. -/
theorem SameButLog.retryAfterExit (h : a.SameButLog b) (env : Env) (status : ExitStatus) :
    (a.retryAfterExit env status).SameButLog (b.retryAfterExit env status) := by
  have hlogged := h.logFastFails status
  unfold Supervisor.retryAfterExit
  generalize a.logFastFails status = c at hlogged ⊢
  generalize b.logFastFails status = d at hlogged ⊢
  obtain ⟨tail, events, rfl, hevents⟩ := hlogged
  have hscheduled : (c.scheduleRestart env).SameButLog
      ({ c with logTail := tail, events := events }.scheduleRestart env) :=
    ⟨tail, events, rfl, hevents⟩
  exact SameButLog.ite (fun _ => (hscheduled.setState _).recordLog _)
    fun _ => hscheduled.setState _

/-- And after a child has exited. -/
theorem SameButLog.handleChildExit (h : a.SameButLog b) (env : Env) (pid : Pid)
    (status : ExitStatus) :
    (a.handleChildExit env pid status).SameButLog (b.handleChildExit env pid status) := by
  obtain ⟨tail, events, rfl, hevents⟩ := h
  have hretired := SameButLog.retireChild (a := a) ⟨tail, events, rfl, hevents⟩ env pid status
  refine SameButLog.ite (fun _ => ⟨tail, events, rfl, hevents⟩) fun _ => ?_
  exact SameButLog.ite (fun _ => hretired.retryAfterExit env status) fun _ => hretired.setState _

/-- The same line of the Core keeps two supervisors the same but for the log. -/
theorem SameButLog.handleCoreLog (h : a.SameButLog b) (env : Env) (pid : Pid) (line : String) :
    (a.handleCoreLog env pid line).SameButLog (b.handleCoreLog env pid line) := by
  obtain ⟨tail, events, rfl, hevents⟩ := h
  refine SameButLog.ite (fun _ => SameButLog.recordLog ?_ _) fun _ =>
    SameButLog.recordLog ⟨tail, events, rfl, hevents⟩ _
  have hnoted : (a.noteProgress env line).SameButLog
      ({ a with logTail := tail, events := events }.noteProgress env line) :=
    ⟨tail, events, rfl, hevents⟩
  refine SameButLog.ite (fun _ => hnoted) fun _ => ?_
  refine SameButLog.ite (fun _ => hnoted) fun _ => ?_
  exact SameButLog.ite (fun _ => hnoted) fun _ => hnoted.killChild

/-! ### The documents -/

/-- And after a restart because of new inputs. -/
theorem SameButLog.restartIfWanted (h : a.SameButLog b) (inputsDiffer : Bool) :
    (a.restartIfWanted inputsDiffer).SameButLog (b.restartIfWanted inputsDiffer) := by
  obtain ⟨tail, events, rfl, hevents⟩ := h
  exact SameButLog.ite (fun _ => SameButLog.restartCore ⟨tail, events, rfl, hevents⟩)
    fun _ => ⟨tail, events, rfl, hevents⟩

/-- And after an edit. -/
theorem SameButLog.applyLocalEdit (h : a.SameButLog b) (env : Env) (newConfig : Config)
    (restartIfRunning : Bool) : (a.applyLocalEdit env newConfig restartIfRunning).SameButLog
      (b.applyLocalEdit env newConfig restartIfRunning) := by
  obtain ⟨tail, events, rfl, hevents⟩ := h
  have hswapped : (a.swapDocument env newConfig).SameButLog
      ({ a with logTail := tail, events := events }.swapDocument env newConfig) :=
    ⟨tail, events ++ [.configChanged], rfl, signals_congr hevents _⟩
  exact SameButLog.ite (fun _ => (hswapped.restartIfWanted _).act _)
    fun _ => hswapped.restartIfWanted _

/-- And after a `SetConfig`. -/
theorem SameButLog.setConfig (h : a.SameButLog b) (env : Env) (newConfig : Config) :
    (a.setConfig env newConfig).1.SameButLog (b.setConfig env newConfig).1 := by
  obtain ⟨tail, events, rfl, hevents⟩ := h
  unfold Supervisor.setConfig
  cases newConfig.validate with
  | error e => exact ⟨tail, events, rfl, hevents⟩
  | ok u =>
      dsimp only
      cases a.disk.saveConfig env newConfig with
      | mk disk result =>
          cases result with
          | error e => exact ⟨tail, events, rfl, hevents⟩
          | ok u =>
              exact SameButLog.applyLocalEdit (a := { a with disk := disk })
                ⟨tail, events, rfl, hevents⟩ env newConfig true

/-- And after a changed file. -/
theorem SameButLog.handleConfigChanged (h : a.SameButLog b) (env : Env) :
    (a.handleConfigChanged env).SameButLog (b.handleConfigChanged env) := by
  obtain ⟨tail, events, rfl, hevents⟩ := h
  unfold Supervisor.handleConfigChanged
  dsimp only
  cases a.disk.loadConfig env with
  | error e => exact ⟨tail, events, rfl, hevents⟩
  | ok loaded =>
      cases loaded with
      | none => exact ⟨tail, events, rfl, hevents⟩
      | some c =>
          exact SameButLog.ite (fun _ => ⟨tail, events, rfl, hevents⟩) fun _ =>
            SameButLog.applyLocalEdit ⟨tail, events, rfl, hevents⟩ env c true

/-- And after a merge. -/
theorem SameButLog.handleMerge (h : a.SameButLog b) (env : Env) (incoming : VersionedConfig) :
    (a.handleMerge env incoming).SameButLog (b.handleMerge env incoming) := by
  obtain ⟨tail, events, rfl, hevents⟩ := h
  unfold Supervisor.handleMerge
  dsimp only
  cases (a.versioned.merge incoming).2 with
  | noChange => exact ⟨tail, events, rfl, hevents⟩
  | updated =>
      dsimp only
      cases (a.versioned.merge incoming).1.config.validate with
      | error e =>
          unfold Supervisor.rollBack
          dsimp only
          cases a.disk.loadConfig env with
          | error e => exact ⟨tail, events, rfl, hevents⟩
          | ok loaded => cases loaded <;> exact ⟨tail, events, rfl, hevents⟩
      | ok u =>
          refine SameButLog.restartIfWanted (SameButLog.emit ?_ _) _
          exact ⟨tail, events, rfl, hevents⟩

/-! ### Every event -/

/-- And after a request. -/
theorem SameButLog.handleRequest (h : a.SameButLog b) (env : Env) (r : Request) :
    (a.handleRequest env r).1.SameButLog (b.handleRequest env r).1 := by
  cases r with
  | getStatus => exact h
  | getConfig => exact h
  | setConfig config => exact h.setConfig env config
  | start =>
      obtain ⟨tail, events, rfl, hevents⟩ := h
      exact SameButLog.startCore ⟨tail, events, rfl, hevents⟩
  | stop =>
      obtain ⟨tail, events, rfl, hevents⟩ := h
      exact SameButLog.stopCore ⟨tail, events, rfl, hevents⟩
  | restart =>
      obtain ⟨tail, events, rfl, hevents⟩ := h
      exact SameButLog.restartCore ⟨tail, events, rfl, hevents⟩
  | setAudioConfig audio =>
      have hedit := h.setConfig env { a.config with audio := audio }
      obtain ⟨tail, events, rfl, hevents⟩ := h
      exact hedit
  | shutdown =>
      obtain ⟨tail, events, rfl, hevents⟩ := h
      exact ⟨tail, events, rfl, hevents⟩

/-- **What is logged has no influence**: the same event of the loop keeps two supervisors the same but
for the log. -/
theorem SameButLog.handle (h : a.SameButLog b) (env : Env) (e : LoopEvent) :
    (a.handle env e).SameButLog (b.handle env e) := by
  cases e with
  | request r => exact h.handleRequest env r
  | fsChanged => exact h.handleConfigChanged env
  | syncOp op =>
      cases op with
      | snapshot =>
          obtain ⟨tail, events, rfl, hevents⟩ := h
          exact ⟨tail, events, rfl, hevents⟩
      | merge peer incoming =>
          obtain ⟨tail, events, heq, hevents⟩ := h.handleMerge env incoming
          simp only [Supervisor.handle, Supervisor.handleSyncOp, heq]
          exact ⟨tail, events, rfl, hevents⟩
  | coreResolved fetched => exact h.coreResolved env fetched
  | childExit pid status => exact h.handleChildExit env pid status
  | restartDue => exact h.restartDue env
  | coreStalled => exact h.coreStalled env
  | coreLog pid line => exact h.handleCoreLog env pid line
  | log line => exact h.recordLog line
  | signal => exact h

/-! ### Lines that may differ -/

/-- Two inputs of the loop that are the same but for the text of a line of the daemon itself, or of a
retired child. -/
inductive AlikeButText (s : Supervisor) : Env × LoopEvent → Env × LoopEvent → Prop
  | same (input : Env × LoopEvent) : AlikeButText s input input
  | daemon (env : Env) (text text' : String) :
      AlikeButText s (env, .log (linePrefix ++ text)) (env, .log (linePrefix ++ text'))
  | retired (env : Env) (pid : Pid) (line line' : String) (gone : s.childPid ≠ some pid) :
      AlikeButText s (env, .coreLog pid line) (env, .coreLog pid line')

/-- The supervisor after the first `n` events of the loop. -/
def after (s : Supervisor) (inputs : List (Env × LoopEvent)) (n : ℕ) : Supervisor :=
  Run.after (fun s input => s.handle input.1 input.2) s inputs n

/-- Two runs from one state whose inputs are alike, one by one. -/
structure AlikeRuns (s : Supervisor) (inputs inputs' : List (Env × LoopEvent)) : Prop where
  length : inputs'.length = inputs.length
  alike : ∀ n input input', inputs[n]? = some input → inputs'[n]? = some input' →
    (s.after inputs n).AlikeButText input input'

/-- No line of the daemon mimics a signal of the Core. -/
def Silent (inputs : List (Env × LoopEvent)) : Prop :=
  ∀ env text, (env, LoopEvent.log (linePrefix ++ text)) ∈ inputs → ¬ LogParse.Mimics text

/-- What the Core's signals show: who is connected, the active screen, and the events other than raw
lines. -/
def view (s : Supervisor) : Finset String × Option String × List Ipc.Event :=
  (s.connectedPeers, s.activeScreen, signals s.events)

/-- Two that are the same but for the log look the same. -/
theorem SameButLog.view_eq (h : a.SameButLog b) : b.view = a.view := by
  obtain ⟨tail, events, rfl, hevents⟩ := h
  rw [view, view, hevents]

/-- A line of a retired child is recorded without a signal. -/
theorem handleCoreLog_retired {s : Supervisor} {pid : Pid} (hgone : s.childPid ≠ some pid)
    (env : Env) (line : String) : ∃ marked, LogParse.parse marked = none ∧
      s.handleCoreLog env pid line = s.recordLog marked := by
  refine ⟨linePrefix ++ ("retired Core " ++ (toString pid ++ ": " ++ line)),
    LogParse.parse_marked_eq_none_iff.mpr (LogParse.not_mimics_retired _), ?_⟩
  have htext : "[synbad] retired Core " ++ toString pid ++ ": " ++ line =
      linePrefix ++ ("retired Core " ++ (toString pid ++ ": " ++ line)) := by
    rw [← String.append_assoc, ← String.append_assoc, ← String.append_assoc]
    rfl
  rw [handleCoreLog, if_neg hgone, htext]

/-- **Step lemma**: alike inputs, silent where they differ, keep two supervisors the same but for the
log. -/
theorem SameButLog.step (h : a.SameButLog b) {input input' : Env × LoopEvent}
    (halike : a.AlikeButText input input') (hsilent : Silent [input]) (hsilent' : Silent [input']) :
    (a.handle input.1 input.2).SameButLog (b.handle input'.1 input'.2) := by
  cases halike with
  | same => exact h.handle _ _
  | daemon env text text' =>
      have hnone := LogParse.parse_marked_eq_none_iff.mpr (hsilent env text List.mem_cons_self)
      have hnone' := LogParse.parse_marked_eq_none_iff.mpr (hsilent' env text' List.mem_cons_self)
      exact h.recordLog_silent hnone hnone'
  | retired env pid line line' gone =>
      have hchild : b.childPid = a.childPid := h.field (·.childPid) fun _ _ => rfl
      obtain ⟨marked, hnone, heq⟩ := handleCoreLog_retired gone env line
      obtain ⟨marked', hnone', heq'⟩ := handleCoreLog_retired (hchild ▸ gone) env line'
      show (a.handleCoreLog env pid line).SameButLog (b.handleCoreLog env pid line')
      rw [heq, heq']
      exact h.recordLog_silent hnone hnone'

/-- **Run lemma**: two runs with alike inputs, silent where they differ, are the same but for the log
throughout. -/
theorem AlikeRuns.sameButLog {s : Supervisor} {inputs inputs' : List (Env × LoopEvent)}
    (h : s.AlikeRuns inputs inputs') (hsilent : Silent inputs) (hsilent' : Silent inputs') (n : ℕ) :
    (s.after inputs n).SameButLog (s.after inputs' n) := by
  induction n with
  | zero => exact .refl s
  | succ n ih =>
      by_cases hn : n < inputs.length
      · have hn' : n < inputs'.length := h.length.symm ▸ hn
        have hinput : inputs[n]? = some inputs[n] := List.getElem?_eq_getElem hn
        have hinput' : inputs'[n]? = some inputs'[n] := List.getElem?_eq_getElem hn'
        rw [after, after, Run.after_succ hinput, Run.after_succ hinput']
        refine ih.step (h.alike n _ _ hinput hinput') ?_ ?_
        · intro env text hmem
          exact hsilent env text (List.mem_singleton.mp hmem ▸ List.getElem_mem hn)
        · intro env text hmem
          exact hsilent' env text (List.mem_singleton.mp hmem ▸ List.getElem_mem hn')
      · -- both runs are over
        have hend : inputs[n]? = none := List.getElem?_eq_none (not_lt.mp hn)
        have hend' : inputs'[n]? = none := List.getElem?_eq_none (h.length ▸ not_lt.mp hn)
        rw [after, after, Run.after_succ_none hend, Run.after_succ_none hend']
        exact ih

/-- A signal that is recognised is broadcast. -/
theorem view_recordLog_of_ne_none (s : Supervisor) {line : String}
    (h : LogParse.parse line ≠ none) : (s.recordLog line).view ≠ s.view := by
  obtain ⟨e, he⟩ := Option.ne_none_iff_exists'.mp h
  have hsignal : isSignal e = true := by
    obtain ⟨name, rfl⟩ | ⟨name, rfl⟩ | ⟨name, rfl⟩ := LogParse.parse_cases he <;> rfl
  intro hview
  have hevents : signals (s.events ++ [e] ++ [.log line]) = signals s.events := by
    have hrecorded : (s.recordLog line).events = s.events ++ [e] ++ [.log line] := by
      rw [recordLog, he]
      rfl
    rw [← hrecorded]
    exact congrArg (fun v => v.2.2) hview
  have hlen := congrArg List.length hevents
  have hone : signals [e] = [e] := List.filter_cons_of_pos hsignal
  rw [List.append_assoc, signals_append, List.singleton_append,
    show signals (e :: [.log line]) = [e] from (List.filter_cons_of_pos hsignal).trans rfl,
    List.length_append, List.length_singleton] at hlen
  exact absurd hlen (Nat.succ_ne_self _)

/-- **The daemon's own lines, exactly.** A marked line leaves what the Core's signals show alone
exactly if its text mimics no signal, and every line the writer sends is marked; a line of a retired
child always leaves it alone. And two runs that differ only in such texts, none of which mimics a
signal, show the same all along. -/
theorem daemon_lines_are_silent_iff (s : Supervisor) (text : String) :
    ((s.recordLog (linePrefix ++ text)).view = s.view ↔ ¬ LogParse.Mimics text) ∧
    (∀ (w : ChannelWriter) (written : List Char), ∀ line ∈ (w.write written).2,
      ∃ part : String, line = linePrefix ++ part) ∧
    (∀ (env : Env) (pid : Pid) (line : String), s.childPid ≠ some pid →
      (s.handleCoreLog env pid line).view = s.view) ∧
    ∀ inputs inputs' : List (Env × LoopEvent), s.AlikeRuns inputs inputs' →
      Silent inputs → Silent inputs' → ∀ n, (s.after inputs n).view = (s.after inputs' n).view := by
  have hquiet : ∀ {line : String}, LogParse.parse line = none →
      (s.recordLog line).view = s.view := by
    intro line hnone
    simp only [view, recordLog, hnone, Option.toList_none, List.append_nil, signals_append]
    rw [show signals [.log line] = [] from rfl, List.append_nil]
  refine ⟨⟨?_, ?_⟩, fun w written line h => ChannelWriter.marked_of_mem_write h, ?_, ?_⟩
  · intro h hmimics
    have hne : LogParse.parse (linePrefix ++ text) ≠ none := fun hnone =>
      LogParse.parse_marked_eq_none_iff.mp hnone hmimics
    exact view_recordLog_of_ne_none s hne h
  · intro h
    exact hquiet (LogParse.parse_marked_eq_none_iff.mpr h)
  · intro env pid line hgone
    obtain ⟨marked, hnone, heq⟩ := handleCoreLog_retired hgone env line
    rw [heq]
    exact hquiet hnone
  · intro inputs inputs' halike hsilent hsilent' n
    exact (halike.sameButLog hsilent hsilent' n).view_eq.symm

/-- A name with a newline in it, logged by the daemon, makes a connected peer. -/
theorem logged_name_connects :
    ¬ ∀ (s : Supervisor) (w : ChannelWriter) (text : List Char), ∀ line ∈ (w.write text).2,
      (s.recordLog line).connectedPeers = s.connectedPeers := by
  intro h
  have hline := h (fresh ⟨"a", ⟨""⟩, ⟨""⟩, .ascii⟩ ⟨.missing, .missing, true⟩ Config.default
    (.initial Config.default "a") []) ⟨[]⟩
    "pairing with x\nclient \"evil\" has connected\n".toList
    "[synbad] client \"evil\" has connected" (by decide +kernel)
  revert hline
  decide +kernel

end Supervisor

end Synbad
