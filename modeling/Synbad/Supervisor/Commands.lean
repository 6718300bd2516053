import Synbad.Supervisor.Children

/-! # The command line of the Core

A binary is resolved with the document of the moment at which the resolution starts; the command line
and the generated files are made from the document of the moment at which it ends. This module says
when the child nevertheless gets what the current document prescribes.

`Prescribes` is what that means: the program is that of the current override, or of the release that
was fetched; the arguments and both generated files are made from the current document. The one thing
that can be out of date is the override, which the resolution takes from the document it was started
with. `StaleOverride` is the event that ends such a resolution while it would spawn. A step without it
spawns only what is prescribed (`step_prescribes`), and so does a whole run
(`spawned_core_matches_config`), with edits, merges and reloads while a resolution is in flight. The
last run of the module sets an override in that time, and the child that is spawned is the release. -/

namespace Synbad

/-! ## Commands -/

/-- A child and the command line it was spawned with. -/
structure Command where
  pid : Pid
  program : PathBuf
  args : List String

/-- The command lines of the children spawned, in order. -/
def Effect.commands (effects : List Effect) : List Command :=
  effects.filterMap fun
    | .spawned pid program args => some ⟨pid, program, args⟩
    | _ => none

/-- The commands of two runs of effects are those of the one and then of the other. -/
theorem Effect.commands_append (l k : List Effect) :
    Effect.commands (l ++ k) = Effect.commands l ++ Effect.commands k :=
  List.filterMap_append

/-- The event is the spawn of a child. -/
def ChildEvent.isSpawn : ChildEvent → Bool
  | .spawned _ => true
  | _ => false

/-- There is one command line for each spawn in the effects. -/
theorem Effect.commands_length (l : List Effect) :
    (Effect.commands l).length = (Effect.children l).countP ChildEvent.isSpawn := by
  induction l with
  | nil => rfl
  | cons e l ih =>
      have hcommands : ∀ k, Effect.commands (e :: k) = Effect.commands [e] ++ Effect.commands k :=
        Effect.commands_append [e]
      have hchildren : ∀ k, Effect.children (e :: k) = Effect.children [e] ++ Effect.children k :=
        Effect.children_append [e]
      rw [hcommands, hchildren, List.length_append, List.countP_append, ih]
      congr 1
      cases e <;> rfl

/-- No child more than before: what was seen since then is no spawn. -/
theorem Effect.commands_length_eq {l k : List Effect} {news : List ChildEvent}
    (h : Effect.children k = Effect.children l ++ news) (hnews : ∀ pid, .spawned pid ∉ news) :
    (Effect.commands k).length = (Effect.commands l).length := by
  have hnone : news.countP ChildEvent.isSpawn = 0 := by
    rw [List.countP_eq_zero]
    intro e he hspawn
    cases e with
    | spawned pid => exact hnews pid he
    | _ => cases hspawn
  rw [Effect.commands_length, Effect.commands_length, h, List.countP_append, hnone, Nat.add_zero]

/-! ## What the document prescribes -/

namespace Supervisor

/-- **The program, the arguments and both generated files are those prescribed by the current
document**: its override if it has one, else the release the resolver fetched. -/
structure Prescribes (s : Supervisor) (fetched : Except String ResolvedCore) (command : Command) :
    Prop where
  binary : ∃ resolved, resolveCore s.config fetched = .ok resolved ∧
    buildCommand resolved s.config s.host.generatedConf s.host.generatedSettings =
      .ok (command.program, command.args)
  conf : s.confWritten = some s.config.generateSynergyConf
  settings : s.settingsWritten = some (s.config.generateDeskflowSettings s.host.generatedConf)

/-- The event ends a resolution that has found a binary, while the Core is wanted and no child is
owned, and the document it was started with has an override other than the current one. -/
def StaleOverride (s : Supervisor) : LoopEvent → Prop
  | .coreResolved fetched =>
      s.desiredRunning = true ∧ s.core.busy = false ∧
        ∃ config rest resolved, s.resolveTasks = config :: rest ∧
          resolveCore config fetched = .ok resolved ∧
          config.binaries.core ≠ s.config.binaries.core
  | _ => False

/-- Nothing is spawned, or one child with this command line. -/
def MaySpawn (s t : Supervisor) (command : Command → Prop) : Prop :=
  Effect.commands t.effects = Effect.commands s.effects ∨
    ∃ c, command c ∧ Effect.commands t.effects = Effect.commands s.effects ++ [c]

/-- Only the documents, the host and the generated files matter to what is prescribed. -/
theorem Prescribes.congr {s t : Supervisor} {fetched : Except String ResolvedCore}
    {command : Command} (h : s.Prescribes fetched command) (hconfig : t.config = s.config)
    (hhost : t.host = s.host) (hconf : t.confWritten = s.confWritten)
    (hsettings : t.settingsWritten = s.settingsWritten) : t.Prescribes fetched command := by
  obtain ⟨binary, conf, settings⟩ := h
  constructor
  · rw [hconfig, hhost]
    exact binary
  · rw [hconfig, hconf]
    exact conf
  · rw [hconfig, hsettings, hhost]
    exact settings

/-! ## The end of a resolution -/

/-- The parts of the state that a command line is made from, and the commands so far. -/
structure SameInputs (s t : Supervisor) : Prop where
  config : t.config = s.config
  host : t.host = s.host
  commands : Effect.commands t.effects = Effect.commands s.effects

/-- A start that fails changes neither the document nor what has been written. -/
theorem startFailed_commands (s : Supervisor) (env : Env) (what : String) :
    (s.startFailed env what).config = s.config ∧ (s.startFailed env what).host = s.host ∧
      (s.startFailed env what).confWritten = s.confWritten ∧
      (s.startFailed env what).settingsWritten = s.settingsWritten ∧
      (s.startFailed env what).effects = s.effects := by
  simp [startFailed, setState, recordLog, scheduleRestart]

/-- A failed start leaves what was spawned and written. -/
theorem MaySpawn.startFailed {s t : Supervisor} {fetched : Except String ResolvedCore}
    (h : MaySpawn s t (t.Prescribes fetched)) (env : Env) (what : String) :
    MaySpawn s (t.startFailed env what) ((t.startFailed env what).Prescribes fetched) := by
  obtain ⟨hconfig, hhost, hconf, hsettings, heffects⟩ := startFailed_commands t env what
  unfold MaySpawn at h ⊢
  rw [heffects]
  refine h.imp id ?_
  rintro ⟨c, hc, heq⟩
  exact ⟨c, hc.congr hconfig hhost hconf hsettings, heq⟩

/-- Both files are written from the current document, or the start fails. -/
theorem writeCoreArtefacts_commands (s : Supervisor) (env : Env) :
    SameInputs s (s.writeCoreArtefacts env).1 ∧
      ((s.writeCoreArtefacts env).2 = .ok () →
        (s.writeCoreArtefacts env).1.confWritten = some s.config.generateSynergyConf ∧
        (s.writeCoreArtefacts env).1.settingsWritten =
          some (s.config.generateDeskflowSettings s.host.generatedConf)) := by
  unfold writeCoreArtefacts
  split
  · exact ⟨⟨rfl, rfl, rfl⟩, nofun⟩
  · simp only []
    split
    · exact ⟨⟨rfl, rfl, rfl⟩, nofun⟩
    · exact ⟨⟨rfl, rfl, rfl⟩, fun _ => ⟨rfl, rfl⟩⟩

/-- A spawn uses the command line it is given and touches nothing it was made from. -/
theorem spawnChild_commands (s : Supervisor) (env : Env) (program : PathBuf) (args : List String) :
    (s.spawnChild env program args).1.config = s.config ∧
      (s.spawnChild env program args).1.host = s.host ∧
      (s.spawnChild env program args).1.confWritten = s.confWritten ∧
      (s.spawnChild env program args).1.settingsWritten = s.settingsWritten ∧
      MaySpawn s (s.spawnChild env program args).1
        fun c => c.program = program ∧ c.args = args := by
  unfold spawnChild MaySpawn
  split
  · simp
  · next pid _ =>
    simp only []
    split
    · refine ⟨rfl, rfl, rfl, rfl, Or.inr ⟨⟨pid, program, args⟩, ⟨rfl, rfl⟩, ?_⟩⟩
      simp only [act, Effect.commands_append]
      simp [Effect.commands]
    · refine ⟨rfl, rfl, rfl, rfl, Or.inr ⟨⟨pid, program, args⟩, ⟨rfl, rfl⟩, ?_⟩⟩
      simp only [act, setState, Effect.commands_append]
      rfl

/-- **A launch** with the binary that the current document prescribes. -/
theorem launchCore_commands (s : Supervisor) (env : Env) {fetched : Except String ResolvedCore}
    {resolved : ResolvedCore} (h : resolveCore s.config fetched = .ok resolved) :
    MaySpawn s (s.launchCore env resolved) ((s.launchCore env resolved).Prescribes fetched) := by
  obtain ⟨hsame, hfiles⟩ := writeCoreArtefacts_commands s env
  unfold launchCore
  split
  · next w e hw =>
    rw [hw] at hsame
    exact MaySpawn.startFailed (Or.inl hsame.commands) env e
  · next w hw =>
    rw [hw] at hsame hfiles
    obtain ⟨hconf, hsettings⟩ := hfiles rfl
    split
    · left
      simp only [setState, recordLog]
      exact hsame.commands
    · next program args hbuild =>
      obtain ⟨hc, hh, hcw, hsw, hspawn⟩ := spawnChild_commands w env program args
      have hmay : MaySpawn s (w.spawnChild env program args).1
          ((w.spawnChild env program args).1.Prescribes fetched) := by
        unfold MaySpawn at hspawn ⊢
        rw [hsame.commands] at hspawn
        -- the child is what was resolved, with the files that were just written
        refine hspawn.imp id ?_
        rintro ⟨c, ⟨rfl, rfl⟩, heq⟩
        refine ⟨c, ⟨⟨resolved, ?_, ?_⟩, ?_, ?_⟩, heq⟩
        · rw [hc, hsame.config]
          exact h
        · rw [hc, hh]
          exact hbuild
        · rw [hcw, hc, hsame.config]
          exact hconf
        · rw [hsw, hc, hh, hsame.config, hsame.host]
          exact hsettings
      split
      · next v hv =>
        rw [hv] at hmay
        exact hmay
      · next v e hv =>
        rw [hv] at hmay
        exact hmay.startFailed env e

/-- **The end of a resolution** that was started with the current override. -/
theorem coreResolved_commands {s : Supervisor} {fetched : Except String ResolvedCore}
    (h : ¬ s.StaleOverride (.coreResolved fetched)) (env : Env) :
    MaySpawn s (s.coreResolved env fetched) ((s.coreResolved env fetched).Prescribes fetched) := by
  unfold coreResolved
  split
  · exact Or.inl rfl
  · next config rest htasks =>
    simp only [onCoreResolved]
    split
    · exact Or.inl rfl
    next hdesired =>
    split
    · exact Or.inl rfl
    next hbusy =>
    have hnone : MaySpawn s { s with resolveTasks := rest, coreResolving := false }
        ({ s with resolveTasks := rest, coreResolving := false }.Prescribes fetched) := Or.inl rfl
    split
    · next reason _ =>
      exact hnone.startFailed env ("could not obtain Deskflow Core: " ++ reason)
    · next resolved hr =>
      -- a spawn is possible, so the override is the one the task was started with
      have hoverride : config.binaries.core = s.config.binaries.core := by
        by_contra hne
        exact h ⟨by simpa using hdesired, by simpa [CoreState.busy, core] using hbusy,
          config, rest, resolved, htasks, hr, hne⟩
      have hresolve : resolveCore config fetched = resolveCore s.config fetched := by
        simp only [resolveCore, hoverride]
      rw [hresolve] at hr
      exact launchCore_commands { s with resolveTasks := rest, coreResolving := false } env hr

/-- Every event but the end of a resolution spawns nothing. -/
theorem handle_commands_length (s : Supervisor) (env : Env) {e : LoopEvent}
    (he : ∀ fetched, e ≠ .coreResolved fetched) :
    (Effect.commands (s.handle env e).effects).length = (Effect.commands s.effects).length := by
  have hmoves := handle_crew s env e
  have hseen : ∀ news, (s.handle env e).crew.seen = s.crew.seen ++ news →
      (∀ pid, .spawned pid ∉ news) →
      (Effect.commands (s.handle env e).effects).length = (Effect.commands s.effects).length :=
    fun news h hnews => Effect.commands_length_eq h hnews
  generalize (s.handle env e).crew = c at hmoves hseen
  cases hmoves with
  | idle => exact hseen [] (List.append_nil _).symm (by simp)
  | letGo stops => exact hseen s.crew.farewell rfl (Crew.spawned_not_mem_farewell _)
  | kill =>
      cases hkill : s.crew.childKill with
      | none => exact hseen [] (by simp [Crew.kill, hkill]) (by simp)
      | some pid => exact hseen [.killSent pid] (by simp [Crew.kill, hkill]) (by simp)
  | retire pid status exit owned => exact hseen [] (List.append_nil _).symm (by simp)
  | own pid fetched resolved free => exact absurd resolved (he fetched)
  | drop pid fetched resolved wanted free found drops => exact absurd resolved (he fetched)

end Supervisor

/-! ## Runs -/

namespace Daemon

/-- The commands of the children spawned between two states of the daemon. -/
def newCommands (d d' : Daemon) : List Command :=
  (Effect.commands d'.effects).drop (Effect.commands d.effects).length

/-- The running supervisor's resolution finds a binary with an override other than the current one. -/
def StaleOverride : Daemon → Env × Input → Prop
  | .up s, (_, .event e) => s.StaleOverride e
  | _, _ => False

/-- A step after which there is no child more than before spawns none. -/
theorem newCommands_eq_nil {d d' : Daemon}
    (h : (Effect.commands d'.effects).length = (Effect.commands d.effects).length) :
    newCommands d d' = [] := by
  rw [newCommands, ← h, List.drop_length]

/-- An event that ends no resolution spawns nothing, and neither does the teardown. -/
theorem stepUp_newCommands (s : Supervisor) (env : Env) {e : LoopEvent}
    (he : ∀ fetched, e ≠ .coreResolved fetched) : newCommands (.up s) (stepUp s env e) = [] := by
  refine newCommands_eq_nil ?_
  have hlength := Supervisor.handle_commands_length s env he
  simp only [stepUp]
  split
  · have hstop : Effect.children (s.handle env e).stopCore.effects =
        Effect.children (s.handle env e).effects ++ (s.handle env e).crew.farewell :=
      congrArg Crew.seen (Supervisor.stopCore_crew _)
    exact (Effect.commands_length_eq hstop (Crew.spawned_not_mem_farewell _)).trans hlength
  · exact hlength

/-- A launch spawns nothing yet: it only starts a resolution. -/
theorem launch_newCommands (host : Host) (disk : Disk) (effects : List Effect) (seed env : Env) :
    newCommands (.down host disk effects) (launch host disk effects seed env) = [] := by
  refine newCommands_eq_nil ?_
  unfold launch
  split
  · rfl
  split
  · rfl
  · next s hs =>
    have hseen : Effect.children s.effects = Effect.children effects :=
      congrArg Crew.seen (Supervisor.new_crew hs)
    exact Effect.commands_length_eq (hseen.trans (List.append_nil _).symm) (by simp)

/-- The end of a resolution that is not stale. -/
theorem coreResolved_prescribes {s : Supervisor} {env : Env} {fetched : Except String ResolvedCore}
    (h : ¬ s.StaleOverride (.coreResolved fetched)) {c : Command}
    (hc : c ∈ newCommands (.up s) (.up (s.coreResolved env fetched))) :
    (s.coreResolved env fetched).Prescribes fetched c := by
  have hmay := Supervisor.coreResolved_commands h env
  generalize s.coreResolved env fetched = t at hmay hc ⊢
  rcases hmay with hsame | ⟨c', hc', heq⟩
  · have hnone : newCommands (.up s) (.up t) = [] := newCommands_eq_nil (congrArg List.length hsame)
    rw [hnone] at hc
    cases hc
  · have hone : newCommands (.up s) (.up t) = [c'] := by
      simp only [newCommands, effects, heq, List.drop_left]
    rw [hone, List.mem_singleton] at hc
    rw [hc]
    exact hc'

/-- **One step** whose resolution, if it is one, is not stale spawns only what the current document
prescribes. -/
theorem step_prescribes {d : Daemon} {input : Env × Input} (h : ¬ d.StaleOverride input)
    {c : Command} (hc : c ∈ newCommands d (d.step input)) :
    ∃ s fetched, d.step input = .up s ∧ input.2 = .event (.coreResolved fetched) ∧
      s.Prescribes fetched c := by
  obtain ⟨env, i⟩ := input
  have hsome : newCommands d (d.step (env, i)) ≠ [] := List.ne_nil_of_mem hc
  cases d with
  | down host disk effects =>
      cases i with
      | launch seed => exact absurd (launch_newCommands host disk effects seed env) hsome
      | _ => exact absurd (newCommands_eq_nil rfl) hsome
  | up s =>
      cases i with
      | event e =>
          by_cases hresolved : ∃ fetched, e = .coreResolved fetched
          · obtain ⟨fetched, rfl⟩ := hresolved
            exact ⟨s.coreResolved env fetched, fetched, rfl, rfl, coreResolved_prescribes h hc⟩
          · have he : ∀ fetched, e ≠ .coreResolved fetched := fun f hf => hresolved ⟨f, hf⟩
            exact absurd (stepUp_newCommands s env he) hsome
      | _ => exact absurd (newCommands_eq_nil rfl) hsome

/-- **A spawned Core matches the live document**: in every run in which no resolution finds a binary
with an override other than the current one, each child gets the program, the arguments and the generated
files that the document of that very moment prescribes. -/
theorem spawned_core_matches_config (d : Daemon) (inputs : List (Env × Input))
    (hfresh : ∀ n input, inputs[n]? = some input →
      ¬ (Run.after step d inputs n).StaleOverride input) (n : ℕ) (c : Command)
    (hc : c ∈ newCommands (Run.after step d inputs n) (Run.after step d inputs (n + 1))) :
    ∃ s env fetched, Run.after step d inputs (n + 1) = .up s ∧
      inputs[n]? = some (env, .event (.coreResolved fetched)) ∧ s.Prescribes fetched c := by
  cases hinput : inputs[n]? with
  | none =>
      rw [Run.after_succ_none hinput, newCommands_eq_nil rfl] at hc
      cases hc
  | some input =>
      rw [Run.after_succ hinput] at hc ⊢
      obtain ⟨env, i⟩ := input
      obtain ⟨s, fetched, hup, hi, hs⟩ := step_prescribes (hfresh n _ hinput) hc
      exact ⟨s, env, fetched, hup, by rw [← hi], hs⟩

/-- The release that the resolver fetches in the samples. -/
def release : ResolvedCore := ⟨.unified ⟨"/opt/deskflow-core"⟩⟩

/-- A document is set while the first resolution is in flight. -/
def editedInFlight (c : Config) : List (Env × Input) :=
  [(.calm 0 100, .launch (.calm 0 100)),
    (.calm 1 100, .event (.request (.setConfig c))),
    (.calm 2 100, .event (.coreResolved (.ok release)))]

/-- A new port is in the settings that the child reads, although the resolution is older. -/
theorem spawned_core_matches_config_port :
    ∃ s env fetched,
      Run.after step installed (editedInFlight { Config.default with port := 24801 }) 3 = .up s ∧
      (editedInFlight { Config.default with port := 24801 })[2]? =
        some (env, .event (.coreResolved fetched)) ∧
      s.Prescribes fetched ⟨100, ⟨"/opt/deskflow-core"⟩, ["server", "-s", "/state/settings.ini"]⟩ := by
  refine spawned_core_matches_config installed _ ?_ 2 _ ?_
  · intro n input hn
    match n with
    | 0 => exact not_false
    | 1 => cases hn; exact not_false
    | 2 =>
        cases hn
        rintro ⟨-, -, config, rest, resolved, htasks, -, hne⟩
        cases htasks
        exact hne rfl
  · exact List.mem_singleton.mpr rfl

/-- The default document with an override of the Core's binary. -/
def overridden : Config :=
  { Config.default with binaries := ⟨some ⟨"/home/a/deskflow-core"⟩⟩ }

/-- The user sets an override while the release is being fetched, and gets the release. -/
theorem release_runs_despite_override :
    ∃ c ∈ newCommands (Run.after step installed (editedInFlight overridden) 2)
        (Run.after step installed (editedInFlight overridden) 3),
      ¬ ∃ s env fetched, Run.after step installed (editedInFlight overridden) 3 = .up s ∧
        (editedInFlight overridden)[2]? = some (env, .event (.coreResolved fetched)) ∧
        s.Prescribes fetched c := by
  refine ⟨⟨100, ⟨"/opt/deskflow-core"⟩, ["server", "-s", "/state/settings.ini"]⟩,
    List.mem_singleton.mpr rfl, ?_⟩
  rintro ⟨s, env, fetched, hup, -, ⟨resolved, hresolved, hbuild⟩, -, -⟩
  cases hup
  cases hresolved
  simp only [buildCommand, Except.ok.injEq, Prod.mk.injEq, PathBuf.mk.injEq] at hbuild
  exact absurd hbuild.1 (by decide)

end Daemon

end Synbad
