import Synbad.Supervisor.Documents

/-! # The documents and their files

What one event of the loop does to the documents and to both files, path by path (`DocsMoves`), and
two things that follow. A reload is meant to pick up edits made by someone else; it tells them from
the daemon's own writes by comparing contents only. And a document that a client edits is taken as a
whole, so it brings along whatever the client had not seen yet.

For the first, the file mirrors memory as long as no accepted merge fails to be saved and no gain is
`NaN`, which is not equal to itself (`handle_mirrored`, `step_mirrored`). As long as they do not part,
no notification of the watcher makes the daemon take its own write for an edit
(`own_writes_are_no_edits`); a merge that could not be saved is overwritten by the next notification.

For the second, `MergedMeanwhile` describes a client that fetches the document, while a merge of
another field comes in before it sets its own. `concurrent_edits_survive_iff` says exactly when both
edits survive: if the client's own is accepted, saved and changes its field, its counter does not wrap
around, and the document it had fetched already had the merged value of the other field. -/

namespace Synbad

/-! ## What one event does -/

/-- The files after the second half of a local edit: the sidecar is saved if anything changed. -/
def Docs.editedDisk (d : Docs) (env : Env) (disk : Disk) (c : Config) : Disk :=
  let edit := d.versioned.applyLocal c d.host.machineId
  if edit.2 then disk.saveSidecar env edit.1 else disk

namespace Supervisor

/-- The document that a request wants to set, if it is one that edits. -/
def requested (s : Supervisor) : LoopEvent → Option Config
  | .request (.setConfig c) => some c
  | .request (.setAudioConfig audio) => some { s.config with audio := audio }
  | _ => none

/-- **What one event does to the documents and the files.** -/
inductive DocsMoves (s : Supervisor) (env : Env) (e : LoopEvent) : Docs → Prop
  /-- Nothing changes, the marker of a Stop apart. -/
  | keep (userStopped : Bool) :
      DocsMoves s env e { s.docs with disk := { s.disk with userStopped := userStopped } }
  /-- The state is handed to a session that asked for a snapshot. -/
  | snapshot (asked : e = .syncOp .snapshot) : DocsMoves s env e s.docs.reply
  /-- A request sets a document, which is on disk before it is applied. -/
  | edit (c : Config) (asked : s.requested e = some c) (valid : c.Valid)
      (saved : env.saveFails = false) :
      DocsMoves s env e
        (s.docs.edit (s.docs.editedDisk env { s.disk with config := .parsed c } c) c)
  /-- A reload takes up a document that differs from the current one. -/
  | reload (c : Config) (asked : e = .fsChanged) (loaded : s.disk.loadConfig env = .ok (some c))
      (differs : c.eq s.config = false) :
      DocsMoves s env e (s.docs.edit (s.docs.editedDisk env s.disk c) c)
  /-- A merge has nothing newer: the clock may rise, and the documents and files stay. -/
  | stale (peer : String) (incoming : VersionedConfig) (asked : e = .syncOp (.merge peer incoming))
      (outcome : (s.versioned.merge incoming).2 = .noChange) :
      DocsMoves s env e { s.docs with versioned := (s.versioned.merge incoming).1 }.reply
  /-- A merge is accepted: the merged document is ours, and both files are written as far as that
  works. -/
  | adopt (peer : String) (incoming : VersionedConfig) (asked : e = .syncOp (.merge peer incoming))
      (outcome : (s.versioned.merge incoming).2 = .updated)
      (valid : (s.versioned.merge incoming).1.config.Valid) :
      DocsMoves s env e { s.docs with
        versioned := (s.versioned.merge incoming).1
        config := (s.versioned.merge incoming).1.config
        disk := (s.disk.saveConfig env (s.versioned.merge incoming).1.config).1.saveSidecar env
          (s.versioned.merge incoming).1 }.reply
  /-- A merge is rejected and the file's document put in its place. -/
  | rollBack (peer : String) (incoming : VersionedConfig)
      (asked : e = .syncOp (.merge peer incoming))
      (outcome : (s.versioned.merge incoming).2 = .updated)
      (invalid : ¬ (s.versioned.merge incoming).1.config.Valid) (c : Config)
      (loaded : s.disk.loadConfig env = .ok (some c)) :
      DocsMoves s env e { s.docs with
        versioned := { (s.versioned.merge incoming).1 with config := c }, config := c }.reply
  /-- A merge is rejected and there is nothing to put in its place. -/
  | strand (peer : String) (incoming : VersionedConfig)
      (asked : e = .syncOp (.merge peer incoming))
      (invalid : ¬ (s.versioned.merge incoming).1.config.Valid)
      (unloaded : ∀ c, s.disk.loadConfig env ≠ .ok (some c)) :
      DocsMoves s env e { s.docs with versioned := (s.versioned.merge incoming).1 }.reply

/-- An event that leaves the documents and the files alone. -/
theorem DocsMoves.of_eq {s : Supervisor} {env : Env} {e : LoopEvent} {d : Docs} (h : d = s.docs) :
    s.DocsMoves env e d := by
  rw [h]
  exact .keep s.disk.userStopped

/-- A `SetConfig` moves the documents as an edit, if it is taken. -/
theorem setConfig_moves (s : Supervisor) (env : Env) {e : LoopEvent} {c : Config}
    (asked : s.requested e = some c) : s.DocsMoves env e (s.setConfig env c).1.docs := by
  unfold setConfig
  split
  · exact .of_eq rfl
  · next hv =>
    split
    · exact .of_eq rfl
    · next disk hdisk =>
      rw [applyLocalEdit_docs]
      unfold Disk.saveConfig at hdisk
      rw [hv] at hdisk
      cases hf : env.saveFails with
      | true => simp [hf] at hdisk
      | false =>
          simp only [hf, Bool.false_eq_true, if_false, Prod.mk.injEq, and_true] at hdisk
          rw [← hdisk]
          exact .edit c asked hv hf

/-- A changed file moves the documents as an edit, if it is taken. -/
theorem handleConfigChanged_moves (s : Supervisor) (env : Env) :
    s.DocsMoves env .fsChanged (s.handleConfigChanged env).docs := by
  unfold handleConfigChanged
  split
  · next c hc =>
    split
    · exact .of_eq rfl
    · next hne =>
      rw [applyLocalEdit_docs]
      exact .reload c rfl hc (by simpa using hne)
  · exact .of_eq rfl
  · exact .of_eq rfl

/-- A merge moves the documents as one, and replies with what they are then. -/
theorem handleMerge_moves (s : Supervisor) (env : Env) (peer : String)
    (incoming : VersionedConfig) :
    s.DocsMoves env (.syncOp (.merge peer incoming)) (s.handleMerge env incoming).sendReply.docs := by
  rw [sendReply_docs]
  cases ho : (s.versioned.merge incoming).2 with
  | noChange =>
      simp only [handleMerge, ho]
      exact .stale peer incoming rfl ho
  | updated =>
  -- the merged document is valid and adopted, or invalid and rolled back, if the file is there
  rcases handleMerge_cases s env incoming with ⟨hno, -⟩ | ⟨hv, h⟩ | ⟨hv, h⟩
  · rw [ho] at hno
    cases hno
  · rw [h, adoptMerged_docs]
    exact .adopt peer incoming rfl ho hv
  · rw [h]
    by_cases hc : ∃ c, s.disk.loadConfig env = .ok (some c)
    · obtain ⟨c, hc⟩ := hc
      have hload : (s.merging incoming).disk.loadConfig env = .ok (some c) := hc
      rw [rollBack_of_loaded hload]
      exact .rollBack peer incoming rfl ho hv c hc
    · have hnone : ∀ c, s.disk.loadConfig env ≠ .ok (some c) := fun c h => hc ⟨c, h⟩
      have hload : ∀ c, (s.merging incoming).disk.loadConfig env ≠ .ok (some c) := hnone
      rw [rollBack_of_not_loaded hload]
      exact .strand peer incoming rfl hv hnone

/-- A request moves the documents as it asks. -/
theorem handleRequest_moves (s : Supervisor) (env : Env) (r : Request) :
    s.DocsMoves env (.request r) (s.handleRequest env r).1.docs := by
  have hmarker : ∀ stopped, s.disk.persistUserStopped env stopped =
      { s.disk with userStopped := (s.disk.persistUserStopped env stopped).userStopped } := by
    intro stopped
    unfold Disk.persistUserStopped
    split <;> rfl
  cases r with
  | getStatus => exact .of_eq rfl
  | getConfig => exact .of_eq rfl
  | setConfig c => exact setConfig_moves s env rfl
  | start =>
      simp only [handleRequest, startCore_docs]
      rw [docs, hmarker]
      exact .keep _
  | stop =>
      simp only [handleRequest, stopCore_docs]
      rw [docs, hmarker]
      exact .keep _
  | restart =>
      simp only [handleRequest, restartCore_docs]
      rw [docs, hmarker]
      exact .keep _
  | setAudioConfig audio => exact setConfig_moves s env rfl
  | shutdown => exact .of_eq rfl

/-- **Every event moves the documents** in one of the ways there are. -/
theorem handle_moves (s : Supervisor) (env : Env) (e : LoopEvent) :
    s.DocsMoves env e (s.handle env e).docs := by
  cases e with
  | request r => exact handleRequest_moves s env r
  | fsChanged => exact handleConfigChanged_moves s env
  | syncOp op =>
      cases op with
      | snapshot =>
          simp only [handle, handleSyncOp, sendReply_docs]
          exact .snapshot rfl
      | merge peer incoming => exact handleMerge_moves s env peer incoming
  | coreResolved fetched => exact .of_eq (coreResolved_docs s env fetched)
  | childExit pid status => exact .of_eq (handleChildExit_docs s env pid status)
  | restartDue => exact .of_eq (restartDue_docs s env)
  | coreStalled => exact .of_eq (coreStalled_docs s env)
  | coreLog pid line => exact .of_eq (handleCoreLog_docs s env pid line)
  | log line => exact .of_eq (recordLog_docs s line)
  | signal => exact .of_eq rfl

end Supervisor

/-! ## A launch -/

namespace Disk

/-- A document that is in the file is the one that is loaded, if anything is. -/
theorem loadConfig_of_parsed {d : Disk} {env : Env} {c : Config} {loaded : Option Config}
    (hc : d.config = .parsed c) (h : d.loadConfig env = .ok loaded) : loaded = some c := by
  unfold loadConfig at h
  rw [hc] at h
  simp only [] at h
  split at h
  · cases h
  · split at h
    · exact (Except.ok.inj h).symm
    · cases h

/-- A document that is loaded is the one in the file. -/
theorem parsed_of_loadConfig {d : Disk} {env : Env} {c : Config}
    (h : d.loadConfig env = .ok (some c)) : d.config = .parsed c := by
  cases hfile : d.config with
  | parsed c' =>
      have heq := loadConfig_of_parsed hfile h
      rw [Option.some.inj heq]
  | _ =>
      unfold loadConfig at h
      rw [hfile] at h
      split at h <;> cases h

/-- Saving the sidecar leaves the document's file alone. -/
@[simp] theorem saveSidecar_config (d : Disk) (env : Env) (v : VersionedConfig) :
    (d.saveSidecar env v).config = d.config := by
  unfold saveSidecar
  split <;> rfl

end Disk

namespace Supervisor

/-- The documents a launch starts with: the file's, or the default, in both copies. -/
theorem new_docs {host : Host} {disk : Disk} {env : Env} {effects : List Effect} {s : Supervisor}
    (h : new host disk env effects = .ok s) :
    ∃ loaded, disk.loadConfig env = .ok loaded ∧
      s.docs = ⟨host, (newVersioned host disk env (loaded.getD Config.default)).2,
        loaded.getD Config.default, (newVersioned host disk env (loaded.getD Config.default)).1,
        Effect.replies effects⟩ := by
  unfold new at h
  split at h
  · cases h
  · next loaded hloaded =>
    refine ⟨loaded, hloaded, ?_⟩
    rw [← Except.ok.inj h]
    split
    · rfl
    · rw [startCore_docs]
      rfl

/-- A launch leaves `config.toml` alone, as it writes the sidecar only. -/
theorem newVersioned_file (host : Host) (disk : Disk) (env : Env) (config : Config) :
    (newVersioned host disk env config).2.config = disk.config := by
  simp only [newVersioned]
  split
  · rfl
  · split
    · rfl
    · exact Disk.saveSidecar_config disk env _
    · rfl
    · rfl

end Supervisor

/-! ## The daemon's own writes -/

/-- The file mirrors memory: a document in it is `==` to the current one. The gains of the copy for
sync, which merges are made from, are numbers. -/
structure Docs.Mirrored (d : Docs) : Prop where
  file : ∀ c, d.disk.config = .parsed c → c.eq d.config = true
  numeric : d.versioned.config.audio.Numeric

namespace Supervisor

/-- `handle_config_changed` takes the file for an edit and calls `apply_local_edit`. -/
def ReappliesFile (s : Supervisor) (env : Env) : Prop :=
  ∃ c, s.disk.loadConfig env = .ok (some c) ∧ c.eq s.config = false

/-- Where the file mirrors memory, a reload does nothing. -/
theorem handleConfigChanged_of_mirrored {s : Supervisor} (h : s.docs.Mirrored) (env : Env) :
    ¬ s.ReappliesFile env ∧ s.handleConfigChanged env = s := by
  have hfile : ∀ c, s.disk.loadConfig env = .ok (some c) → c.eq s.config = true :=
    fun c hc => h.file c (Disk.parsed_of_loadConfig hc)
  constructor
  · rintro ⟨c, hc, hne⟩
    rw [hfile c hc] at hne
    cases hne
  · unfold handleConfigChanged
    split
    · next c hc => rw [if_pos (hfile c hc)]
    · rfl
    · rfl

/-- An accepted merge is not saved, and differs from what is in the file. -/
def LosesMerge (s : Supervisor) (env : Env) : LoopEvent → Prop
  | .syncOp (.merge _ incoming) =>
      (s.versioned.merge incoming).2 = .updated ∧ (s.versioned.merge incoming).1.config.Valid ∧
        env.saveFails = true ∧
        ∃ c, s.disk.config = .parsed c ∧ c.eq (s.versioned.merge incoming).1.config = false
  | _ => False

/-- A request sets a document with a gain that is not a number. -/
def SetsNaN (s : Supervisor) (e : LoopEvent) : Prop :=
  ∃ c, s.requested e = some c ∧ ¬ c.audio.Numeric

/-- After it has been persisted, a local edit changes the sidecar only. -/
theorem editedDisk_config (d : Docs) (env : Env) (disk : Disk) (c : Config) :
    (d.editedDisk env disk c).config = disk.config := by
  simp only [Docs.editedDisk]
  split
  · exact Disk.saveSidecar_config disk env _
  · rfl

/-- Saving a valid document writes it, or leaves the file. -/
theorem saveConfig_config {d : Disk} {env : Env} {c : Config} (h : c.Valid) :
    (d.saveConfig env c).1.config = if env.saveFails then d.config else .parsed c := by
  have hv : c.validate = .ok () := h
  simp only [Disk.saveConfig, hv]
  split <;> rfl

/-- **One event** that loses no merge and sets no `NaN` leaves the file a mirror of memory. -/
theorem handle_mirrored {s : Supervisor} (h : s.docs.Mirrored) {env : Env} {e : LoopEvent}
    (hmerge : ¬ s.LosesMerge env e) (hnan : ¬ s.SetsNaN e) : (s.handle env e).docs.Mirrored := by
  have hmoves := handle_moves s env e
  generalize (s.handle env e).docs = d at hmoves
  cases hmoves with
  | keep userStopped => exact ⟨h.file, h.numeric⟩
  | snapshot asked => exact ⟨h.file, h.numeric⟩
  | edit c asked valid saved =>
      have hnumeric : c.audio.Numeric := by
        by_contra hc
        exact hnan ⟨c, asked, hc⟩
      constructor
      · -- the file has the document, and it is `==` to itself
        intro c' hc'
        have hfile := (editedDisk_config s.docs env { s.disk with config := .parsed c } c).symm.trans hc'
        rw [← ConfigFile.parsed.inj hfile]
        exact Config.eq_self hnumeric
      · -- an edit takes the document over or, if it is `==`, keeps the old one
        show (s.versioned.applyLocal c s.host.machineId).1.config.audio.Numeric
        rcases VersionedConfig.applyLocal_config s.versioned c s.host.machineId with hnew | ⟨hold, -⟩
        · rw [hnew]
          exact hnumeric
        · rw [hold]
          exact h.numeric
  | reload c asked loaded differs =>
      -- a file that mirrors memory is not taken for a change
      have hsame : c.eq s.config = true := h.file c (Disk.parsed_of_loadConfig loaded)
      rw [hsame] at differs
      cases differs
  | stale peer incoming asked outcome => exact ⟨h.file, h.numeric⟩
  | adopt peer incoming asked outcome valid =>
      have hnumeric : (s.versioned.merge incoming).1.config.audio.Numeric := h.numeric
      refine ⟨?_, hnumeric⟩
      intro c hc
      have hfile := (Disk.saveSidecar_config _ env _).symm.trans hc
      rw [saveConfig_config valid] at hfile
      split at hfile
      · next hfails =>
        -- the old document is still in the file, so it must be the merged one
        by_contra hne
        subst asked
        exact hmerge ⟨outcome, valid, hfails, c, hfile, Bool.eq_false_iff.mpr hne⟩
      · rw [← ConfigFile.parsed.inj hfile]
        exact Config.eq_self hnumeric
  | rollBack peer incoming asked outcome invalid c loaded =>
      have hfile : s.disk.config = .parsed c := Disk.parsed_of_loadConfig loaded
      have hnumeric : c.audio.Numeric := Config.numeric_of_eq (h.file c hfile)
      refine ⟨?_, hnumeric⟩
      intro c' hc'
      rw [← ConfigFile.parsed.inj (hfile.symm.trans hc')]
      exact Config.eq_self hnumeric
  | strand peer incoming asked invalid unloaded => exact ⟨h.file, h.numeric⟩

end Supervisor

namespace Daemon

/-- The file mirrors the memory of the running supervisor, if any. -/
def Mirrored : Daemon → Prop
  | .up s => s.docs.Mirrored
  | .down _ _ _ => True

/-- The step lets file and memory part: an accepted merge is not saved, or a document comes in with
a gain that is not a number, which is `==` to nothing. -/
def Parts : Daemon → Env × Input → Prop
  | .up s, (env, .event e) => s.LosesMerge env e ∨ s.SetsNaN e
  | .down _ disk _, (_, .launch _) => ∃ c, disk.config = .parsed c ∧ ¬ c.audio.Numeric
  | _, _ => False

/-- Seeding the files leaves `config.toml` as it was or puts the default there. -/
theorem seedConfig_config {disk disk' : Disk} {env : Env} (h : seedConfig disk env = .ok disk') :
    disk'.config = disk.config ∨ disk'.config = .parsed Config.default := by
  unfold seedConfig at h
  split at h
  · cases h
  · cases h
    exact Or.inl rfl
  · have hsave : (disk.saveConfig env Config.default).1.config = _ :=
      Supervisor.saveConfig_config Config.valid_default
    split at h
    · next hs =>
      cases h
      rw [hs] at hsave
      split at hsave
      · exact Or.inl hsave
      · exact Or.inr hsave
    · cases h

/-- A launch takes the document from the file, so the file mirrors memory after it. -/
theorem launch_mirrored {host : Host} {disk : Disk} {effects : List Effect} {seed env : Env}
    (hnumeric : ∀ c, disk.config = .parsed c → c.audio.Numeric) :
    (launch host disk effects seed env).Mirrored := by
  have hdefault : Config.default.audio.Numeric := ⟨rfl, rfl⟩
  unfold launch
  split
  · trivial
  next disk' hseed =>
  split
  · trivial
  next s hnew =>
  obtain ⟨loaded, hloaded, hdocs⟩ := Supervisor.new_docs hnew
  obtain ⟨hconfig, -⟩ := Supervisor.newVersioned_spec host disk' env (loaded.getD Config.default)
  -- the document is that of the file, which seeding has left alone or filled with the default
  have hfile : ∀ c, disk'.config = .parsed c → loaded = some c ∧ c.audio.Numeric := by
    intro c hc
    refine ⟨Disk.loadConfig_of_parsed hc hloaded, ?_⟩
    rcases seedConfig_config hseed with hold | hnew
    · exact hnumeric c (hold.symm.trans hc)
    · rw [← ConfigFile.parsed.inj (hnew.symm.trans hc)]
      exact hdefault
  show s.docs.Mirrored
  rw [hdocs]
  constructor
  · intro c hc
    obtain ⟨rfl, hgains⟩ := hfile c ((Supervisor.newVersioned_file host disk' env _).symm.trans hc)
    exact Config.eq_self hgains
  · show (Supervisor.newVersioned host disk' env _).1.config.audio.Numeric
    rw [hconfig]
    cases loaded with
    | none => exact hdefault
    | some c => exact (hfile c (Disk.parsed_of_loadConfig hloaded)).2

/-- **One step** in which nobody else writes the file and which does not let them part. -/
theorem step_mirrored {d : Daemon} (h : d.Mirrored) {input : Env × Input}
    (hown : ∀ file, input.2 ≠ .editConfig file) (hparts : ¬ d.Parts input) :
    (d.step input).Mirrored := by
  obtain ⟨env, i⟩ := input
  cases d with
  | up s =>
      cases i with
      | event e =>
          simp only [step, stepUp]
          split
          · trivial
          · exact Supervisor.handle_mirrored h (fun hm => hparts (Or.inl hm))
              fun hn => hparts (Or.inr hn)
      | launch seed => exact h
      | crash => trivial
      | editConfig file => exact absurd rfl (hown file)
      | editSidecar file => exact ⟨h.file, h.numeric⟩
  | down host disk effects =>
      cases i with
      | launch seed =>
          refine launch_mirrored fun c hc => ?_
          by_contra hnan
          exact hparts ⟨c, hc, hnan⟩
      | _ => trivial

/-- **The daemon does not take its own writes for an edit**: in a run in which nobody else writes
`config.toml` and file and memory never part, a notification of the watcher, whenever it is handled,
finds the file unchanged and changes nothing. -/
theorem own_writes_are_no_edits (host : Host) (disk : Disk) (inputs : List (Env × Input))
    (hown : ∀ (n : ℕ) (env : Env) (file : ConfigFile), inputs[n]? ≠ some (env, .editConfig file))
    (hparts : ∀ n input, inputs[n]? = some input →
      ¬ (Run.after step (.down host disk []) inputs n).Parts input)
    (n : ℕ) {s : Supervisor} (hup : Run.after step (.down host disk []) inputs n = .up s)
    (env : Env) : ¬ s.ReappliesFile env ∧ s.handle env .fsChanged = s := by
  have hmirrored : (Run.after step (.down host disk []) inputs n).Mirrored := by
    refine Run.invariant trivial ?_ n
    intro n input hn h
    refine step_mirrored h (fun file hfile => hown n input.1 file ?_) (hparts n input hn)
    rw [hn, ← hfile]
  rw [hup] at hmirrored
  exact Supervisor.handleConfigChanged_of_mirrored hmirrored env

/-- A machine with a default document on which the daemon has not run yet. -/
def seeded : Disk := ⟨.parsed Config.default, .missing, true⟩

/-- The state of a peer which has changed the port. -/
def peerPort : VersionedConfig := .initial { Config.default with port := 24801 } "b"

/-- The peer's state is merged; the files can be written, or not. -/
def portMerged (env : Env) : List (Env × Input) :=
  [(.calm 0 100, .launch (.calm 0 100)), (env, .event (.syncOp (.merge "b" peerPort)))]

/-- The host of the samples, with the paths of the generated files. -/
def seededHost : Host := ⟨"a", ⟨"/state/synergy.conf"⟩, ⟨"/state/settings.ini"⟩, .ascii⟩

/-- The watcher reports the daemon's own write of the merged port. -/
theorem own_writes_are_no_edits_port :
    ∃ s, Run.after step (.down seededHost seeded []) (portMerged (.calm 1 100)) 2 = .up s ∧
      s.config.port = 24801 ∧ ¬ s.ReappliesFile (.calm 2 100) ∧
      s.handle (.calm 2 100) .fsChanged = s := by
  refine ⟨_, rfl, rfl, own_writes_are_no_edits seededHost seeded (portMerged (.calm 1 100)) ?_ ?_ 2
    rfl (.calm 2 100)⟩
  · intro n env file hn
    match n with
    | 0 => cases hn
    | 1 => cases hn
  · intro n input hn
    match n with
    | 0 =>
        cases hn
        rintro ⟨c, hc, hnan⟩
        cases hc
        exact hnan ⟨rfl, rfl⟩
    | 1 =>
        cases hn
        rintro (⟨-, -, hfails, -⟩ | ⟨c, hc, -⟩)
        · cases hfails
        · cases hc

/-- The merged port could not be saved; a notification later the old port is back, stamped here. -/
theorem unsaved_merge_is_undone :
    ∃ s, Run.after step (.down seededHost seeded [])
        (portMerged { Env.calm 1 100 with saveFails := true }) 2 = .up s ∧
      s.versioned.value .port = (24801 : ℕ) ∧ s.versioned.stamp .port = ⟨1, "b"⟩ ∧
      s.ReappliesFile (.calm 2 100) ∧
      (s.handle (.calm 2 100) .fsChanged).versioned.value .port = (24800 : ℕ) ∧
      (s.handle (.calm 2 100) .fsChanged).versioned.stamp .port = ⟨2, "a"⟩ := by
  refine ⟨_, rfl, rfl, rfl, ⟨Config.default, rfl, rfl⟩, rfl, rfl⟩

end Daemon

/-! ## A document edited elsewhere -/

/-- The document with one shared field replaced by this value. -/
def Config.withValue (c : Config) : (f : SharedField) → f.Value → Config
  | .port, x => { c with port := x }
  | .screens, x => { c with screens := x }
  | .links, x => { c with links := x }
  | .options, x => { c with options := x }
  | .clipboardSharing, x => { c with clipboardSharing := x }

/-- A field that has been set has the value it was set to. -/
theorem Config.withValue_self (c : Config) (f : SharedField) (x : f.Value) :
    (c.withValue f x).value f = x := by
  cases f <;> rfl

/-- A field that has been set changes no other. -/
theorem Config.withValue_of_ne (c : Config) {f g : SharedField} (h : g ≠ f) (x : f.Value) :
    (c.withValue f x).value g = c.value g := by
  cases f <;> cases g <;> first | rfl | exact absurd rfl h

namespace Supervisor

/-- The supervisor once the loop has handled this event. -/
def next (s : Supervisor) (input : Env × LoopEvent) : Supervisor := s.handle input.1 input.2

/-- **A merge while a client was editing.** The client fetched the document of `s`; then these
events were handled, among them a merge that brought a newer `g`, which is still there at the
end. -/
structure MergedMeanwhile (s : Supervisor) (events : List (Env × LoopEvent))
    (incoming : VersionedConfig) (g : SharedField) : Prop where
  merged : ∃ n env peer, events[n]? = some (env, .syncOp (.merge peer incoming)) ∧
    (Run.after next s events n).versioned.stamp g < incoming.stamp g
  value : (Run.after next s events events.length).versioned.value g = incoming.value g
  stamp : (Run.after next s events events.length).versioned.stamp g = incoming.stamp g

/-- **Both edits survive**: `f` has the client's value under a fresh local stamp, and `g` is as the
peer sent it. `t` is the state the edit arrived in. -/
structure KeepsBoth (t u : Supervisor) (f : SharedField) (x : f.Value) (incoming : VersionedConfig)
    (g : SharedField) : Prop where
  edited : u.versioned.value f = x
  origin : (u.versioned.stamp f).origin = t.host.machineId
  fresh : max t.versioned.clock t.versioned.stamps.maxCounter < (u.versioned.stamp f).counter
  kept : u.versioned.value g = incoming.value g
  keptStamp : u.versioned.stamp g = incoming.stamp g

/-- A request to set a document: an edit, or nothing. -/
theorem setConfig_versioned (t : Supervisor) (env : Env) (c : Config) :
    (t.handle env (.request (.setConfig c))).versioned =
      if c.Valid ∧ env.saveFails = false then (t.versioned.applyLocal c t.host.machineId).1
      else t.versioned := by
  show (t.setConfig env c).1.versioned = _
  unfold setConfig
  cases hv : c.validate with
  | error e => rw [if_neg (by simp [Config.Valid, hv])]
  | ok _ =>
      simp only [Disk.saveConfig, hv]
      cases hf : env.saveFails with
      | true => simp
      | false =>
          simp only [Bool.false_eq_true, if_false, Config.Valid, hv, and_self, if_true]
          exact congrArg Docs.versioned (applyLocalEdit_docs _ env c true)

/-- The stamp of an edited field is fresh unless the counter wraps around. -/
theorem lt_nextCounter_iff (v : VersionedConfig) :
    max v.clock v.stamps.maxCounter < v.nextCounter ↔
      max v.clock v.stamps.maxCounter < u64Max := by
  unfold VersionedConfig.nextCounter
  generalize max v.clock v.stamps.maxCounter = m
  constructor
  · -- at the largest counter the next one is zero
    intro h
    by_contra hm
    have hlt : (m + 1) % (u64Max + 1) < u64Max + 1 := Nat.mod_lt _ (Nat.succ_pos _)
    rcases Nat.lt_or_eq_of_le (Nat.le_of_not_lt hm) with hgt | heq
    · omega
    · rw [← heq, Nat.mod_self] at h
      omega
  · intro h
    rw [Nat.mod_eq_of_lt (by omega)]
    omega

/-- The counter of a shared stamp is not beyond the clock. -/
theorem stamp_counter_le (v : VersionedConfig) (f : SharedField) :
    (v.stamp f).counter ≤ max v.clock v.stamps.maxCounter :=
  (FieldStamps.le_maxCounter (v.stamps.stamp_mem_counters f)).trans (le_max_right _ _)

/-- **Concurrent edits of different fields**: when a client sets the document it fetched earlier
with a new value of `f`, a `g` merged in the meantime survives exactly if the client's copy has the
peer's value of `g` already, that is, if there was nothing to lose. -/
theorem concurrent_edits_survive_iff {s t : Supervisor} {events : List (Env × LoopEvent)}
    {incoming : VersionedConfig} {f g : SharedField} (hne : g ≠ f)
    (hmerged : s.MergedMeanwhile events incoming g)
    (ht : t = Run.after next s events events.length) (env : Env) (x : f.Value) :
    KeepsBoth t (t.handle env (.request (.setConfig (s.config.withValue f x)))) f x incoming g ↔
      (s.config.withValue f x).Valid ∧ env.saveFails = false ∧ t.versioned.value f ≠ x ∧
        max t.versioned.clock t.versioned.stamps.maxCounter < u64Max ∧
        s.config.value g = incoming.value g := by
  have hvalue : t.versioned.value g = incoming.value g := ht ▸ hmerged.value
  have hstamp : t.versioned.stamp g = incoming.stamp g := ht ▸ hmerged.stamp
  have hf : (s.config.withValue f x).value f = x := s.config.withValue_self f x
  have hg : (s.config.withValue f x).value g = s.config.value g := s.config.withValue_of_ne hne x
  have hset := setConfig_versioned t env (s.config.withValue f x)
  by_cases hok : (s.config.withValue f x).Valid ∧ env.saveFails = false
  · rw [if_pos hok] at hset
    have hfstamp := VersionedConfig.applyLocal_stamp t.versioned (s.config.withValue f x)
      t.host.machineId f
    have hgstamp := VersionedConfig.applyLocal_stamp t.versioned (s.config.withValue f x)
      t.host.machineId g
    rw [hf] at hfstamp
    rw [hg, hvalue, hstamp] at hgstamp
    constructor
    · rintro ⟨hedited, horigin, hfresh, hkept, -⟩
      rw [hset] at hedited horigin hfresh hkept
      have hchanged : t.versioned.value f ≠ x := by
        -- a value that is not changed keeps its stamp, which is not fresh
        intro heq
        rw [hfstamp, if_pos heq] at hfresh
        exact absurd (stamp_counter_le t.versioned f) (Nat.not_le_of_lt hfresh)
      rw [hfstamp, if_neg hchanged] at hfresh
      rw [VersionedConfig.applyLocal_value, hg] at hkept
      exact ⟨hok.1, hok.2, hchanged, (lt_nextCounter_iff t.versioned).mp hfresh, hkept⟩
    · rintro ⟨-, -, hchanged, hcounter, hkept⟩
      rw [if_neg hchanged] at hfstamp
      rw [if_pos hkept.symm] at hgstamp
      constructor
      · rw [hset, VersionedConfig.applyLocal_value, hf]
      · rw [hset, hfstamp]
      · rw [hset, hfstamp]
        exact (lt_nextCounter_iff t.versioned).mpr hcounter
      · rw [hset, VersionedConfig.applyLocal_value, hg, hkept]
      · rw [hset, hgstamp]
  · -- a refused document leaves no fresh stamp
    rw [if_neg hok] at hset
    constructor
    · rintro ⟨-, -, hfresh, -, -⟩
      rw [hset] at hfresh
      exact absurd (stamp_counter_le t.versioned f) (Nat.not_le_of_lt hfresh)
    · rintro ⟨hvalid, hsaved, -⟩
      exact absurd ⟨hvalid, hsaved⟩ hok

/-- The supervisor whose document the client fetches, at its start. -/
def fetchedFrom : Supervisor :=
  fresh Daemon.seededHost Daemon.seeded Config.default (.initial Config.default "a") []

/-- A peer's state is merged while the client is editing. -/
def mergedFrom (v : VersionedConfig) : List (Env × LoopEvent) :=
  [(.calm 1 100, .syncOp (.merge "b" v))]

/-- The merge brings a port newer than the one fetched. -/
theorem mergedMeanwhile_port (v : VersionedConfig) (h : (⟨1, "a"⟩ : LamportTime) < v.stamp .port)
    (hvalue : (fetchedFrom.next (.calm 1 100, .syncOp (.merge "b" v))).versioned.value .port =
      v.value .port)
    (hstamp : (fetchedFrom.next (.calm 1 100, .syncOp (.merge "b" v))).versioned.stamp .port =
      v.stamp .port) :
    fetchedFrom.MergedMeanwhile (mergedFrom v) v .port :=
  ⟨⟨0, .calm 1 100, "b", rfl, h⟩, hvalue, hstamp⟩

/-- The peer has edited the port but not changed it: nothing is lost. -/
theorem concurrent_edits_survive_same_port :
    KeepsBoth (fetchedFrom.next (.calm 1 100, .syncOp (.merge "b" (.initial Config.default "b"))))
      ((fetchedFrom.next (.calm 1 100, .syncOp (.merge "b" (.initial Config.default "b")))).handle
        (.calm 2 100) (.request (.setConfig
          (fetchedFrom.config.withValue .clipboardSharing false))))
      .clipboardSharing false (.initial Config.default "b") .port := by
  have hne : SharedField.port ≠ .clipboardSharing := by decide
  have hnewer : (⟨1, "a"⟩ : LamportTime) < ⟨1, "b"⟩ :=
    LamportTime.lt_iff.mpr (Or.inr ⟨rfl, by decide⟩)
  refine (concurrent_edits_survive_iff hne
    (mergedMeanwhile_port (.initial Config.default "b") hnewer rfl rfl) rfl (.calm 2 100) _).mpr ?_
  exact ⟨rfl, rfl, nofun, by decide, rfl⟩

/-- The peer has changed the port: the client, who only switched the clipboard off, puts the old
port back under a stamp that beats the peer's. -/
theorem concurrent_port_edit_lost :
    fetchedFrom.MergedMeanwhile (mergedFrom Daemon.peerPort) Daemon.peerPort .port ∧
      ¬ KeepsBoth (fetchedFrom.next (.calm 1 100, .syncOp (.merge "b" Daemon.peerPort)))
        ((fetchedFrom.next (.calm 1 100, .syncOp (.merge "b" Daemon.peerPort))).handle
          (.calm 2 100) (.request (.setConfig
            (fetchedFrom.config.withValue .clipboardSharing false))))
        .clipboardSharing false Daemon.peerPort .port := by
  refine ⟨mergedMeanwhile_port Daemon.peerPort ?_ rfl rfl, ?_⟩
  · exact LamportTime.lt_iff.mpr (Or.inr ⟨rfl, by decide⟩)
  · rintro ⟨-, -, -, hkept, -⟩
    have hport : (24800 : ℕ) = 24801 := hkept
    exact absurd hport (by decide)

end Supervisor

end Synbad
