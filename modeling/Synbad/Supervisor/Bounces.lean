import Synbad.Config.CoreInputs
import Synbad.Supervisor.Children

/-! # Which edits bounce the Core

An edit or an accepted merge restarts a running Core exactly if `core_inputs_differ` says so. A
restart that is skipped never hides anything from the Core: its files, its program and its arguments
would have come out the same. The other direction fails, since the comparison reads more of the
document than the Core gets.

`RunsCore` is a state that a run of the daemon passes through and in which the Core is running, so
that the statements are about what can really happen and not about any record of fields.
`edits_not_swallowed` is the first direction: documents that compare as equal give the Core the same
files, override and command line, whatever release is at hand, and an edit or merge that is to reach
the Core bounces it. `bounces_iff` is the exact condition for the other: nothing is bounced for
nothing precisely if the two documents, which give the Core the same, are also written the same
(`SameAsWritten`). A monitor that is added to a screen is an edit that bounces the Core and reaches
none of its inputs. -/

namespace Synbad

/-! ## What a Core is run with -/

namespace Config

/-- The program and the arguments of the Core: those of the override, or of the fetched release. -/
def commandLine (c : Config) (fetched : Except String ResolvedCore)
    (confPath settingsPath : PathBuf) : Except String (PathBuf × List String) :=
  (Supervisor.resolveCore c fetched).bind fun resolved =>
    buildCommand resolved c confPath settingsPath

/-- The same command line: the same program, as paths are compared, with the same arguments, or the
same error. -/
def SameCommand : Except String (PathBuf × List String) → Except String (PathBuf × List String) → Prop
  | .ok (program, args), .ok (program', args') => program.eq program' = true ∧ args = args'
  | .error e, .error e' => e = e'
  | _, _ => False

/-- A command is the same as itself. -/
theorem SameCommand.refl (x : Except String (PathBuf × List String)) : SameCommand x x := by
  cases x with
  | error e => rfl
  | ok command => exact ⟨beq_self_eq_true _, rfl⟩

/-- **The Core would be run the same** from two documents. -/
structure SameRun (a b : Config) : Prop where
  outputs : SameOutputs a b
  commandLine : ∀ fetched confPath settingsPath,
    SameCommand (a.commandLine fetched confPath settingsPath)
      (b.commandLine fetched confPath settingsPath)

/-- A unified binary is run under its own path. -/
theorem buildCommand_unified (path : PathBuf) (c : Config) (confPath settingsPath : PathBuf) :
    buildCommand ⟨.unified path⟩ c confPath settingsPath =
      .ok (path, [match c.role with
        | .server => "server"
        | .client => "client", "-s", settingsPath.text]) := by
  cases hrole : c.role <;> simp only [buildCommand, hrole]

/-- With the same outputs, the same program is run with the same arguments. -/
theorem SameOutputs.sameRun {a b : Config} (h : SameOutputs a b) : SameRun a b := by
  refine ⟨h, fun fetched confPath settingsPath => ?_⟩
  have hcore := h.core
  unfold BinaryPaths.eq at hcore
  simp only [Config.commandLine, Supervisor.resolveCore]
  cases ha : a.binaries.core with
  | none =>
      cases hb : b.binaries.core with
      | none =>
          -- the fetched release: its command line is the same for every release
          cases fetched with
          | error e => rfl
          | ok resolved =>
              show SameCommand (buildCommand resolved a confPath settingsPath)
                (buildCommand resolved b confPath settingsPath)
              rw [h.command]
              exact .refl _
      | some q => simp [ha, hb] at hcore
  | some p =>
      cases hb : b.binaries.core with
      | none => simp [ha, hb] at hcore
      | some q =>
          show SameCommand (buildCommand ⟨.unified p⟩ a confPath settingsPath)
            (buildCommand ⟨.unified q⟩ b confPath settingsPath)
          rw [buildCommand_unified, buildCommand_unified, h.role_eq]
          refine ⟨?_, rfl⟩
          simpa [ha, hb] using hcore

/-- **The same document as far as the comparison reads it** beyond the outputs: the screens with their
positions and monitors, the links in their order and direction, the options, the clipboard switch and
the server address. -/
structure SameAsWritten (a b : Config) : Prop where
  serverAddress : a.serverAddress = b.serverAddress
  screens : a.screens = b.screens
  links : a.links = b.links
  options : a.options = b.options
  clipboardSharing : a.clipboardSharing = b.clipboardSharing

/-- Documents with the same outputs compare as equal exactly if they are written the same. -/
theorem SameOutputs.not_differ_iff_sameAsWritten {a b : Config} (h : SameOutputs a b) :
    a.coreInputsDiffer b = false ↔ SameAsWritten a b := by
  rw [h.not_differ_iff]
  constructor
  · rintro ⟨ha, hs, hl, ho, hc⟩
    exact ⟨ha, hs, hl, ho, hc⟩
  · rintro ⟨ha, hs, hl, ho, hc⟩
    exact ⟨ha, hs, hl, ho, hc⟩

end Config

/-! ## Edits and merges on a running Core -/

namespace Supervisor

variable {s : Supervisor} {pid : Pid}

/-- A run of the daemon passes through this state, and its Core is running. -/
def RunsCore (s : Supervisor) (pid : Pid) : Prop :=
  s.childPid = some pid ∧ ∃ (host : Host) (disk : Disk) (inputs : List (Env × Input)) (n : ℕ),
    Run.after Daemon.step (.down host disk []) inputs n = .up s

/-- The merge changes the document into one that is valid. -/
def Accepts (s : Supervisor) (incoming : VersionedConfig) : Prop :=
  (s.versioned.merge incoming).2 = .updated ∧ (s.versioned.merge incoming).1.config.Valid

/-- A Core that is running is wanted: a stop would have let go of it. -/
theorem RunsCore.desiredRunning (h : s.RunsCore pid) : s.desiredRunning = true := by
  obtain ⟨hpid, host, disk, inputs, n, hs⟩ := h
  have hsupervised := Daemon.supervised_always host disk inputs n
  rw [hs] at hsupervised
  rw [← Bool.not_eq_false]
  intro hoff
  have hnone : s.childPid = none := (hsupervised.unwanted hoff).1
  rw [hpid] at hnone
  cases hnone

/-- A bounce takes the child away, and nothing else of an edit does. -/
theorem restartIfWanted_childPid (s : Supervisor) (inputsDiffer : Bool) :
    (s.restartIfWanted inputsDiffer).childPid =
      if s.desiredRunning && inputsDiffer then none else s.childPid := by
  unfold restartIfWanted
  split
  · exact congrArg Crew.childPid (restartCore_crew s)
  · rfl

/-- After an edit that is saved the child is gone exactly if Synbad is to run and the Core's inputs
differ. -/
theorem applyLocalEdit_childPid (s : Supervisor) (env : Env) (c : Config) :
    (s.applyLocalEdit env c true).childPid =
      if s.desiredRunning && s.config.coreInputsDiffer c then none else s.childPid := by
  have hbounce := restartIfWanted_childPid (s.swapDocument env c) (s.config.coreInputsDiffer c)
  simp only [applyLocalEdit, Bool.true_and]
  split
  · exact hbounce
  · exact hbounce

/-- An accepted merge that changes the document is adopted. -/
theorem Accepts.handleMerge_eq {incoming : VersionedConfig} (h : s.Accepts incoming) (env : Env) :
    s.handleMerge env incoming = (s.merging incoming).adoptMerged env := by
  obtain ⟨hupdated, hvalid⟩ := h
  rcases handleMerge_cases s env incoming with ⟨ho, -⟩ | ⟨-, heq⟩ | ⟨hbad, -⟩
  · rw [hupdated] at ho
    cases ho
  · exact heq
  · exact absurd hvalid hbad

/-- After a merge that is accepted the child is gone exactly if Synbad is to run and the Core's
inputs differ. -/
theorem Accepts.handleMerge_childPid {incoming : VersionedConfig} (h : s.Accepts incoming)
    (env : Env) :
    (s.handleMerge env incoming).childPid =
      if s.desiredRunning && s.config.coreInputsDiffer (s.versioned.merge incoming).1.config then none
      else s.childPid := by
  rw [h.handleMerge_eq env]
  exact restartIfWanted_childPid _ _

/-- A merge that is accepted leaves the merged document. -/
theorem Accepts.handleMerge_config {incoming : VersionedConfig} (h : s.Accepts incoming)
    (env : Env) :
    (s.handleMerge env incoming).config = (s.versioned.merge incoming).1.config := by
  rw [h.handleMerge_eq env]
  exact congrArg Docs.config (adoptMerged_docs (s.merging incoming) env)

/-- A running Core outlives an edit exactly if the comparison finds nothing. -/
theorem RunsCore.kept_by_edit (h : s.RunsCore pid) (env : Env) (c : Config) :
    (s.applyLocalEdit env c true).childPid = some pid ↔ s.config.coreInputsDiffer c = false := by
  rw [applyLocalEdit_childPid, h.desiredRunning, Bool.true_and, h.1]
  cases s.config.coreInputsDiffer c <;> simp

/-- So it does an accepted merge: the Core is kept exactly if the comparison finds no difference. -/
theorem RunsCore.kept_by_merge (h : s.RunsCore pid) (env : Env) {incoming : VersionedConfig}
    (hm : s.Accepts incoming) :
    (s.handleMerge env incoming).childPid = some pid ↔
      s.config.coreInputsDiffer (s.versioned.merge incoming).1.config = false := by
  rw [hm.handleMerge_childPid, h.desiredRunning, Bool.true_and, h.1]
  cases s.config.coreInputsDiffer (s.versioned.merge incoming).1.config <;> simp

/-- **No edit is swallowed.** Documents that compare as equal give the Core the same files, the same
override and the same command line, wherever the files are and whatever release is resolved. So when
an edit or an accepted merge lets a running Core go on, the Core would be run the same from the
document it replaced. -/
theorem edits_not_swallowed :
    (∀ a b : Config, a.coreInputsDiffer b = false → Config.SameOutputs a b) ∧
      ∀ (s : Supervisor) (env : Env) (pid : Pid), s.RunsCore pid →
        (∀ c, (s.applyLocalEdit env c true).childPid = some pid →
          (s.applyLocalEdit env c true).config = c ∧ Config.SameRun s.config c) ∧
        ∀ incoming, s.Accepts incoming → (s.handleMerge env incoming).childPid = some pid →
          Config.SameRun s.config (s.handleMerge env incoming).config := by
  refine ⟨fun a b => Config.sameOutputs_of_not_differ, fun s env pid h => ⟨?_, ?_⟩⟩
  · intro c hkept
    refine ⟨congrArg Docs.config (applyLocalEdit_docs s env c true), ?_⟩
    exact (Config.sameOutputs_of_not_differ ((h.kept_by_edit env c).mp hkept)).sameRun
  · intro incoming hm hkept
    rw [hm.handleMerge_config env]
    exact (Config.sameOutputs_of_not_differ ((h.kept_by_merge env hm).mp hkept)).sameRun

/-- The daemon once its first Core has been spawned. -/
def running : Supervisor :=
  Watched.launched.coreResolved (.calm 0 100) (.ok ⟨.unified ⟨"/bin/deskflow-core"⟩⟩)

/-- The sample supervisor has a Core that runs. -/
theorem running_runsCore : running.RunsCore 100 := by
  refine ⟨rfl, Watched.installedHost, Watched.installedDisk,
    [(.calm 0 100, .launch (.calm 0 100)),
      (.calm 0 100, .event (.coreResolved (.ok ⟨.unified ⟨"/bin/deskflow-core"⟩⟩)))], 2, ?_⟩
  rfl

/-- The default document on another port of the daemon. -/
def movedSync : Config := { Config.default with syncPort := Config.default.syncPort + 1 }

/-- Moving the daemon's own port lets the Core go on, and it would be run the same. -/
theorem edits_not_swallowed_movedSync :
    (running.applyLocalEdit (.calm 1 101) movedSync true).childPid = some 100 ∧
      Config.SameRun Config.default movedSync :=
  ⟨rfl, ((edits_not_swallowed.2 running (.calm 1 101) 100 running_runsCore).1 movedSync rfl).2⟩

/-- **When nothing is bounced for nothing.** Documents that give the Core the same compare as equal
exactly if they are written the same. So an edit or an accepted merge that gives a running Core the
same lets it go on exactly then. -/
theorem bounces_iff {a b : Config} (h : Config.SameOutputs a b) :
    (a.coreInputsDiffer b = false ↔ Config.SameAsWritten a b) ∧
      ∀ (s : Supervisor) (env : Env) (pid : Pid), s.RunsCore pid → s.config = a →
        ((s.applyLocalEdit env b true).childPid = some pid ↔ Config.SameAsWritten a b) ∧
        ∀ incoming, s.Accepts incoming → (s.versioned.merge incoming).1.config = b →
          ((s.handleMerge env incoming).childPid = some pid ↔ Config.SameAsWritten a b) := by
  refine ⟨h.not_differ_iff_sameAsWritten, ?_⟩
  rintro s env pid hruns rfl
  constructor
  · rw [hruns.kept_by_edit env b]
    exact h.not_differ_iff_sameAsWritten
  · rintro incoming hm rfl
    rw [hruns.kept_by_merge env hm]
    exact h.not_differ_iff_sameAsWritten

/-- The default document with a monitor listed for its screen. -/
def withMonitor : Config :=
  { Config.default with
    screens := Config.default.screens.map fun s =>
      { s with monitors := [⟨0, 0, 1920, 1080, true⟩] } }

/-- The Core gets the same from both documents, as no output shows a monitor. -/
theorem sameOutputs_withMonitor : Config.SameOutputs Config.default withMonitor :=
  ⟨by decide, fun _ => rfl, by decide, fun _ _ _ => rfl⟩

/-- A monitor is attached: the running Core outlives that edit exactly if the two documents are
written the same. -/
theorem bounces_iff_withMonitor :
    (running.applyLocalEdit (.calm 1 101) withMonitor true).childPid = some 100 ↔
      Config.SameAsWritten Config.default withMonitor :=
  ((bounces_iff sameOutputs_withMonitor).2 running (.calm 1 101) 100 running_runsCore rfl).1

/-- Listing a monitor changes nothing the Core gets, and takes the running Core down. -/
theorem monitor_bounces_core :
    Config.SameOutputs Config.default withMonitor ∧
      Config.default.coreInputsDiffer withMonitor = true ∧
      running.RunsCore 100 ∧ running.config = Config.default ∧
      (running.applyLocalEdit (.calm 1 101) withMonitor true).childPid = none :=
  ⟨sameOutputs_withMonitor, by decide, running_runsCore, rfl, rfl⟩

end Supervisor

end Synbad
