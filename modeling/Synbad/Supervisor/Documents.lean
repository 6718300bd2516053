import Synbad.Supervisor.Daemon

/-! # The two copies of the document

What the supervisor's handlers do to the document it keeps twice. The Core's side of the state never
touches it (the frame lemmas on `docs`), a local edit writes both copies, and so does a merge that is
accepted. A merge that is rejected is the exception: the copy sync works on has already absorbed the
peer's stamps, and the rollback restores values only, from a file that may not be there.

`Docs` is the part of the supervisor that is about the document, and `Docs.Sound` says that both
copies are one valid document, as was every state handed to a sync session. What everything but a
merge may do to it is `Docs.Edits`, which keeps it sound; the three ends of a merge are
`handleMerge_cases`. So the one event that can lead from sound documents to others is a merge whose
result is rejected while `config.toml` yields no document (`Strands`), and `handle_sound_iff` makes
that an equivalence for each event. The running document stays valid in any case (`handle_valid`). -/

namespace Synbad

/-- The same document: identical, or `==` where the two differ only in the spelling of a path or
the sign of a zero. -/
def Config.Same (a b : Config) : Prop := a = b ∨ a.eq b = true

/-- Two documents that are the same are accepted alike. -/
theorem Config.Same.valid_iff {a b : Config} (h : a.Same b) : a.Valid ↔ b.Valid := by
  rcases h with rfl | h
  · rfl
  · exact valid_of_eq h

/-- Two documents that are the same have the same shared values. -/
theorem Config.Same.value_eq {a b : Config} (h : a.Same b) (f : SharedField) :
    a.value f = b.value f := by
  rcases h with rfl | h
  · rfl
  · exact VersionedConfig.value_eq_of_eq h f

/-- The part of the supervisor that is about the document: both copies, the files, and the states
handed to sync sessions. -/
structure Docs where
  host : Host
  disk : Disk
  config : Config
  versioned : VersionedConfig
  replies : List VersionedConfig

namespace Docs

/-- **The documents are sound**: both copies are the same valid document, and so was every state
handed to a sync session. -/
structure Sound (d : Docs) : Prop where
  same : d.versioned.config.Same d.config
  valid : d.config.Valid
  replies : ∀ v ∈ d.replies, v.config.Valid

/-- In a sound state the copy for sync is valid too. -/
theorem Sound.versioned_valid {d : Docs} (h : d.Sound) : d.versioned.config.Valid :=
  h.same.valid_iff.mpr h.valid

/-- The document is replaced in both copies by a local edit. -/
def edit (d : Docs) (disk : Disk) (c : Config) : Docs :=
  { d with disk := disk, config := c, versioned := (d.versioned.applyLocal c d.host.machineId).1 }

/-- A session is handed the current state, which stays as it is. -/
def reply (d : Docs) : Docs := { d with replies := d.replies ++ [d.versioned] }

/-- A local edit to a valid document keeps the documents sound. -/
theorem Sound.edit {d : Docs} (h : d.Sound) {c : Config} (hc : c.Valid) (disk : Disk) :
    (d.edit disk c).Sound where
  same := by
    rcases VersionedConfig.applyLocal_config d.versioned c d.host.machineId with hnew | ⟨hold, heq⟩
    · exact Or.inl hnew
    · -- an edit to an `==` document leaves the old copy in `versioned`
      right
      show ((d.versioned.applyLocal c d.host.machineId).1.config).eq c = true
      rw [hold]
      exact heq
  valid := hc
  replies := h.replies

/-- Handing out the current state keeps the documents sound. -/
theorem Sound.reply {d : Docs} (h : d.Sound) : d.reply.Sound where
  same := h.same
  valid := h.valid
  replies := by
    intro v hv
    rcases List.mem_append.mp hv with hv | hv
    · exact h.replies v hv
    · rw [List.mem_singleton.mp hv]
      exact h.versioned_valid

end Docs

/-- The replies of two runs of effects are those of the one and then of the other. -/
@[simp] theorem Effect.replies_append (l k : List Effect) :
    Effect.replies (l ++ k) = Effect.replies l ++ Effect.replies k :=
  List.filterMap_append

namespace Supervisor

/-- The documents of a supervisor, with the files and the states it has handed out. -/
def docs (s : Supervisor) : Docs :=
  ⟨s.host, s.disk, s.config, s.versioned, Effect.replies s.effects⟩

/-! ## The Core's side leaves the documents alone -/

/-- A new state leaves the documents alone. -/
theorem setState_docs (s : Supervisor) (new : Ipc.DaemonState) :
    (s.setState new).docs = s.docs := rfl

/-- A log line leaves the documents alone. -/
theorem recordLog_docs (s : Supervisor) (line : String) :
    (s.recordLog line).docs = s.docs := by
  simp only [docs, recordLog]

/-- A restart that is scheduled leaves the documents alone. -/
theorem scheduleRestart_docs (s : Supervisor) (env : Env) :
    (s.scheduleRestart env).docs = s.docs := rfl

/-- A start that fails leaves the documents alone. -/
theorem startFailed_docs (s : Supervisor) (env : Env) (what : String) :
    (s.startFailed env what).docs = s.docs := by
  rw [startFailed, setState_docs, recordLog_docs, scheduleRestart_docs]
  rfl

/-- An effect that answers no session leaves the documents alone. -/
theorem act_docs (s : Supervisor) {e : Effect} (h : Effect.replies [e] = []) :
    (s.act e).docs = s.docs := by
  simp only [docs, act, Effect.replies_append, h, List.append_nil]

/-- Answering a session hands out the current state and changes no document. -/
theorem sendReply_docs (s : Supervisor) : s.sendReply.docs = s.docs.reply := by
  simp only [docs, sendReply, act, Effect.replies_append, Docs.reply]
  rfl

/-- A start leaves the documents alone. -/
theorem startCore_docs (s : Supervisor) : s.startCore.docs = s.docs := by
  simp only [startCore]
  split
  · rfl
  split
  · rfl
  · rfl

/-- Killing the child leaves the documents alone. -/
theorem killChild_docs (s : Supervisor) : s.killChild.docs = s.docs := by
  unfold killChild
  split
  · rfl
  · exact act_docs _ rfl

/-- A stop leaves the documents alone. -/
theorem stopCore_docs (s : Supervisor) : s.stopCore.docs = s.docs := by
  unfold stopCore
  rw [setState_docs]
  split
  · rfl
  · rw [act_docs _ rfl, act_docs _ rfl]
    rfl

/-- A restart leaves the documents alone. -/
theorem restartCore_docs (s : Supervisor) : s.restartCore.docs = s.docs := by
  rw [restartCore, startCore_docs, stopCore_docs]
  rfl

/-- Writing the Core's files leaves the documents alone. -/
theorem writeCoreArtefacts_docs (s : Supervisor) (env : Env) :
    (s.writeCoreArtefacts env).1.docs = s.docs := by
  unfold writeCoreArtefacts
  split
  · rfl
  · simp only []
    split <;> rfl

/-- Spawning a child leaves the documents alone. -/
theorem spawnChild_docs (s : Supervisor) (env : Env) (program : PathBuf)
    (args : List String) : (s.spawnChild env program args).1.docs = s.docs := by
  unfold spawnChild
  split
  · rfl
  · next pid _ =>
    have hspawned : (s.act (.spawned pid program args)).docs = s.docs := act_docs _ rfl
    simp only []
    split
    · rw [act_docs _ rfl, hspawned]
    · exact hspawned

/-- A launch of the Core leaves the documents alone. -/
theorem launchCore_docs (s : Supervisor) (env : Env) (resolved : ResolvedCore) :
    (s.launchCore env resolved).docs = s.docs := by
  have hwrite := writeCoreArtefacts_docs s env
  unfold launchCore
  split
  · next hw =>
    rw [hw] at hwrite
    rw [startFailed_docs, hwrite]
  · next t hw =>
    rw [hw] at hwrite
    split
    · rw [setState_docs, recordLog_docs, hwrite]
    · next program args _ =>
      have hspawn := spawnChild_docs t env program args
      split
      · next hs =>
        rw [hs] at hspawn
        rw [hspawn, hwrite]
      · next hs =>
        rw [hs] at hspawn
        rw [startFailed_docs, hspawn, hwrite]

/-- A Core that has been resolved leaves the documents alone. -/
theorem onCoreResolved_docs (s : Supervisor) (env : Env)
    (outcome : Except String ResolvedCore) : (s.onCoreResolved env outcome).docs = s.docs := by
  simp only [onCoreResolved]
  split
  · rfl
  split
  · rfl
  split
  · rw [startFailed_docs]
    rfl
  · rw [launchCore_docs]
    rfl

/-- The end of a resolution leaves the documents alone. -/
theorem coreResolved_docs (s : Supervisor) (env : Env)
    (fetched : Except String ResolvedCore) : (s.coreResolved env fetched).docs = s.docs := by
  unfold coreResolved
  split
  · rfl
  · rw [onCoreResolved_docs]
    rfl

/-- A child that is retired leaves the documents alone. -/
theorem retireChild_docs (s : Supervisor) (env : Env) (pid : Pid) (status : ExitStatus) :
    (s.retireChild env pid status).docs = s.docs := by
  unfold retireChild
  -- the text is irrelevant, and unfolding the parser on it is slow
  generalize "[synbad] Core " ++ toString pid ++ " exited: " ++ status.display ++
    "; diagnostics in core.log" = line
  exact recordLog_docs s line

/-- The lines about fast failures leave the documents alone. -/
theorem logFastFails_docs (s : Supervisor) (status : ExitStatus) :
    (s.logFastFails status).docs = s.docs := by
  unfold logFastFails
  split
  · rw [recordLog_docs]
  · rfl

/-- What is decided after an exit leaves the documents alone. -/
theorem retryAfterExit_docs (s : Supervisor) (env : Env) (status : ExitStatus) :
    (s.retryAfterExit env status).docs = s.docs := by
  simp only [retryAfterExit]
  split
  · rw [recordLog_docs, setState_docs, scheduleRestart_docs, logFastFails_docs]
  · rw [setState_docs, scheduleRestart_docs, logFastFails_docs]

/-- A child that has exited leaves the documents alone. -/
theorem handleChildExit_docs (s : Supervisor) (env : Env) (pid : Pid)
    (status : ExitStatus) : (s.handleChildExit env pid status).docs = s.docs := by
  unfold handleChildExit
  split
  · rfl
  split
  · rw [retryAfterExit_docs, retireChild_docs]
  · rw [setState_docs, retireChild_docs]

/-- A Core that stalls leaves the documents alone. -/
theorem coreStalled_docs (s : Supervisor) (env : Env) :
    (s.coreStalled env).docs = s.docs := by
  unfold coreStalled
  split
  · rfl
  · simp only []
    split
    · rfl
    · rw [killChild_docs, recordLog_docs]
      rfl

/-- A restart that is due leaves the documents alone. -/
theorem restartDue_docs (s : Supervisor) (env : Env) :
    (s.restartDue env).docs = s.docs := by
  unfold restartDue
  split
  · rfl
  · simp only []
    split
    · rfl
    split
    · rw [startCore_docs]
      rfl
    · rfl

/-- A forced reconnection leaves the documents alone. -/
theorem maybeForceReconnect_docs (s : Supervisor) (line : String) :
    (s.maybeForceReconnect line).docs = s.docs := by
  unfold maybeForceReconnect
  split
  · rfl
  split
  · rfl
  split
  · rfl
  · exact killChild_docs s

/-- A line of the Core's log leaves the documents alone. -/
theorem handleCoreLog_docs (s : Supervisor) (env : Env) (pid : Pid) (line : String) :
    (s.handleCoreLog env pid line).docs = s.docs := by
  unfold handleCoreLog
  split
  · rw [recordLog_docs, maybeForceReconnect_docs]
    rfl
  · rw [recordLog_docs]

/-- A restart because of new inputs leaves the documents alone. -/
theorem restartIfWanted_docs (s : Supervisor) (inputsDiffer : Bool) :
    (s.restartIfWanted inputsDiffer).docs = s.docs := by
  unfold restartIfWanted
  split
  · rw [restartCore_docs]
  · rfl

/-! ## Local edits -/

/-- A local edit writes both copies, and the files are those after swapping the document. -/
theorem applyLocalEdit_docs (s : Supervisor) (env : Env) (c : Config) (restartIfRunning : Bool) :
    (s.applyLocalEdit env c restartIfRunning).docs =
      s.docs.edit (s.swapDocument env c).disk c := by
  have hswap : (s.swapDocument env c).docs = s.docs.edit (s.swapDocument env c).disk c := rfl
  simp only [applyLocalEdit]
  split
  · rw [act_docs _ rfl, restartIfWanted_docs, hswap]
  · rw [restartIfWanted_docs, hswap]

end Supervisor

/-- What everything but a merge can do to the documents: change the files, or replace both copies
by a valid document. -/
def Docs.Edits (d d' : Docs) : Prop :=
  (∃ disk, d' = { d with disk := disk }) ∨ ∃ disk c, c.Valid ∧ d' = d.edit disk c

/-- A change of the files alone is one that everything but a merge may make. -/
theorem Docs.Edits.files {d d' : Docs} (disk : Disk) (h : d' = { d with disk := disk }) :
    d.Edits d' := Or.inl ⟨disk, h⟩

/-- No change at all is one that everything but a merge may make. -/
theorem Docs.Edits.of_eq {d d' : Docs} (h : d' = d) : d.Edits d' := Or.inl ⟨d.disk, h⟩

/-- A change that everything but a merge may make keeps the documents sound. -/
theorem Docs.Sound.of_edits {d d' : Docs} (h : d.Sound) (he : d.Edits d') : d'.Sound := by
  rcases he with ⟨disk, rfl⟩ | ⟨disk, c, hc, rfl⟩
  · exact ⟨h.same, h.valid, h.replies⟩
  · exact h.edit hc disk

namespace Supervisor

/-- `setConfig` does to the documents what everything but a merge may do. -/
theorem setConfig_edits (s : Supervisor) (env : Env) (c : Config) :
    s.docs.Edits (s.setConfig env c).1.docs := by
  unfold setConfig
  split
  · exact .of_eq rfl
  · next hv =>
    split
    · exact .of_eq rfl
    · next disk _ =>
      exact Or.inr ⟨_, c, hv, applyLocalEdit_docs { s with disk := disk } env c true⟩

/-- A reload does to the documents what everything but a merge may do. -/
theorem handleConfigChanged_edits (s : Supervisor) (env : Env) :
    s.docs.Edits (s.handleConfigChanged env).docs := by
  unfold handleConfigChanged
  split
  · next c hc =>
    split
    · exact .of_eq rfl
    · exact Or.inr ⟨_, c, Disk.loadConfig_valid hc, applyLocalEdit_docs s env c true⟩
  · exact .of_eq rfl
  · exact .of_eq rfl

/-- A request, of whatever kind, does to the documents what everything but a merge may do. -/
theorem handleRequest_edits (s : Supervisor) (env : Env) (r : Request) :
    s.docs.Edits (s.handleRequest env r).1.docs := by
  cases r with
  | getStatus => exact .of_eq rfl
  | getConfig => exact .of_eq rfl
  | setConfig c => exact setConfig_edits s env c
  | start => exact .files _ (startCore_docs _)
  | stop => exact .files _ (stopCore_docs _)
  | restart => exact .files _ (restartCore_docs _)
  | setAudioConfig audio => exact setConfig_edits s env _
  | shutdown => exact .of_eq rfl

/-! ## Merges -/

/-- Adopting a merged document writes it into both copies and both files. -/
theorem adoptMerged_docs (s : Supervisor) (env : Env) :
    (s.adoptMerged env).docs =
      { s.docs with
        disk := (s.disk.saveConfig env s.versioned.config).1.saveSidecar env s.versioned
        config := s.versioned.config } := by
  simp only [adoptMerged]
  rw [restartIfWanted_docs]
  rfl

/-- The state right after `merge`, before its outcome is looked at. -/
def merging (s : Supervisor) (incoming : VersionedConfig) : Supervisor :=
  { s with versioned := (s.versioned.merge incoming).1 }

/-- **The three ends of a merge**: without effect, adopted, or rolled back. -/
theorem handleMerge_cases (s : Supervisor) (env : Env) (incoming : VersionedConfig) :
    ((s.versioned.merge incoming).2 = .noChange ∧ s.handleMerge env incoming = s.merging incoming) ∨
      ((s.versioned.merge incoming).1.config.Valid ∧
        s.handleMerge env incoming = (s.merging incoming).adoptMerged env) ∨
      (¬ (s.versioned.merge incoming).1.config.Valid ∧
        s.handleMerge env incoming = (s.merging incoming).rollBack env) := by
  simp only [handleMerge]
  split
  · next ho => exact Or.inl ⟨ho, rfl⟩
  · split
    · next e hv =>
      refine Or.inr (Or.inr ⟨?_, rfl⟩)
      rw [Config.Valid, hv]
      exact fun h => by cases h
    · next hv => exact Or.inr (Or.inl ⟨hv, rfl⟩)

/-- A merge that changes nothing, or whose result is accepted, keeps the documents sound. -/
theorem handleMerge_sound {s : Supervisor} (h : s.docs.Sound) (env : Env)
    {incoming : VersionedConfig} (hv : (s.versioned.merge incoming).1.config.Valid) :
    (s.handleMerge env incoming).docs.Sound := by
  rcases handleMerge_cases s env incoming with ⟨ho, heq⟩ | ⟨-, heq⟩ | ⟨hbad, -⟩
  · rw [heq]
    have hconfig : (s.versioned.merge incoming).1.config = s.versioned.config :=
      VersionedConfig.merge_config_of_noChange (by rw [ho]; decide)
    refine ⟨?_, h.valid, h.replies⟩
    show Config.Same (s.versioned.merge incoming).1.config s.config
    rw [hconfig]
    exact h.same
  · rw [heq, adoptMerged_docs]
    exact ⟨Or.inl rfl, hv, h.replies⟩
  · exact absurd hv hbad

/-- From a sound state, a merge whose result is rejected ends in the rollback. -/
theorem handleMerge_rejected {s : Supervisor} (h : s.versioned.config.Valid) (env : Env)
    {incoming : VersionedConfig} (hv : ¬ (s.versioned.merge incoming).1.config.Valid) :
    s.handleMerge env incoming = (s.merging incoming).rollBack env := by
  rcases handleMerge_cases s env incoming with ⟨ho, -⟩ | ⟨hok, -⟩ | ⟨-, heq⟩
  · rw [VersionedConfig.merge_config_of_noChange (by rw [ho]; decide)] at hv
    exact absurd h hv
  · exact absurd hok hv
  · exact heq

/-- A rollback with a loadable file installs the file in both copies. -/
theorem rollBack_of_loaded {s : Supervisor} {env : Env} {c : Config}
    (hc : s.disk.loadConfig env = .ok (some c)) :
    s.rollBack env = { s with versioned := { s.versioned with config := c }, config := c } := by
  rw [rollBack, hc]

/-- A rollback without a loadable file does nothing, and leaves the merged document where it is. -/
theorem rollBack_of_not_loaded {s : Supervisor} {env : Env}
    (h : ∀ c, s.disk.loadConfig env ≠ .ok (some c)) : s.rollBack env = s := by
  unfold rollBack
  split
  · next c hc => exact absurd hc (h c)
  · rfl
  · rfl

/-! ## Which events keep the documents sound -/

/-- The event is a merge whose result is rejected while `config.toml` yields no document to roll
back to. -/
def Strands (s : Supervisor) (env : Env) : LoopEvent → Prop
  | .syncOp (.merge _ incoming) =>
      ¬ (s.versioned.merge incoming).1.config.Valid ∧
        ∀ c, s.disk.loadConfig env ≠ .ok (some c)
  | _ => False

/-- A merge keeps the documents sound unless it strands them. -/
theorem handleSyncOp_sound_iff {s : Supervisor} (h : s.docs.Sound) (env : Env) (op : SyncOp) :
    (s.handleSyncOp env op).docs.Sound ↔ ¬ s.Strands env (.syncOp op) := by
  cases op with
  | snapshot =>
      refine iff_of_true ?_ not_false
      rw [handleSyncOp, sendReply_docs]
      exact h.reply
  | merge peer incoming =>
      rw [handleSyncOp, sendReply_docs]
      by_cases hv : (s.versioned.merge incoming).1.config.Valid
      · exact iff_of_true (handleMerge_sound h env hv).reply fun hs => hs.1 hv
      · rw [handleMerge_rejected h.versioned_valid env hv]
        by_cases hl : ∃ c, s.disk.loadConfig env = .ok (some c)
        · obtain ⟨c, hc⟩ := hl
          refine iff_of_true ?_ fun hs => hs.2 c hc
          rw [rollBack_of_loaded (s := s.merging incoming) hc]
          have hcv := Disk.loadConfig_valid hc
          exact Docs.Sound.reply ⟨Or.inl rfl, hcv, h.replies⟩
        · -- the merged document stays in the copy for sync
          have hnone : ∀ c, s.disk.loadConfig env ≠ .ok (some c) := fun c hc => hl ⟨c, hc⟩
          refine iff_of_false ?_ fun hs => hs ⟨hv, hnone⟩
          rw [rollBack_of_not_loaded (s := s.merging incoming) hnone]
          intro hsound
          exact hv hsound.versioned_valid

/-- **One event**: from sound documents an event leads to sound documents exactly when it does not
strand them. -/
theorem handle_sound_iff {s : Supervisor} (h : s.docs.Sound) (env : Env) (e : LoopEvent) :
    (s.handle env e).docs.Sound ↔ ¬ s.Strands env e := by
  have hsame : ∀ {t : Supervisor}, t.docs = s.docs → t.docs.Sound := by
    intro t ht
    rw [ht]
    exact h
  cases e with
  | syncOp op => exact handleSyncOp_sound_iff h env op
  | request r => exact iff_of_true (h.of_edits (handleRequest_edits s env r)) not_false
  | fsChanged => exact iff_of_true (h.of_edits (handleConfigChanged_edits s env)) not_false
  | coreResolved fetched => exact iff_of_true (hsame (coreResolved_docs s env fetched)) not_false
  | childExit pid status =>
      exact iff_of_true (hsame (handleChildExit_docs s env pid status)) not_false
  | restartDue => exact iff_of_true (hsame (restartDue_docs s env)) not_false
  | coreStalled => exact iff_of_true (hsame (coreStalled_docs s env)) not_false
  | coreLog pid line => exact iff_of_true (hsame (handleCoreLog_docs s env pid line)) not_false
  | log line => exact iff_of_true (hsame (recordLog_docs s line)) not_false
  | signal => exact iff_of_true h not_false

/-! ## The running document is always valid -/

/-- Whatever a merge does to the copy for sync, the document the daemon runs on stays valid. -/
theorem handleMerge_valid {s : Supervisor} (h : s.config.Valid) (env : Env)
    (incoming : VersionedConfig) : (s.handleMerge env incoming).config.Valid := by
  rcases handleMerge_cases s env incoming with ⟨-, heq⟩ | ⟨hv, heq⟩ | ⟨-, heq⟩
  · rw [heq]
    exact h
  · have hd := adoptMerged_docs (s.merging incoming) env
    have hconfig : ((s.merging incoming).adoptMerged env).config =
        (s.versioned.merge incoming).1.config := congrArg Docs.config hd
    rw [heq, hconfig]
    exact hv
  · rw [heq]
    unfold rollBack
    split
    · next c hc => exact Disk.loadConfig_valid hc
    · exact h
    · exact h

/-- **One event** keeps the running document valid, stranded or not. -/
theorem handle_valid {s : Supervisor} (h : s.config.Valid) (env : Env) (e : LoopEvent) :
    (s.handle env e).config.Valid := by
  have hsame : ∀ {t : Supervisor}, t.docs = s.docs → t.config.Valid := by
    intro t ht
    rw [show t.config = s.config from congrArg Docs.config ht]
    exact h
  have hedits : ∀ {t : Supervisor}, s.docs.Edits t.docs → t.config.Valid := by
    rintro t (⟨disk, ht⟩ | ⟨disk, c, hc, ht⟩)
    · rw [show t.config = s.config from congrArg Docs.config ht]
      exact h
    · rw [show t.config = c from congrArg Docs.config ht]
      exact hc
  cases e with
  | request r => exact hedits (handleRequest_edits s env r)
  | fsChanged => exact hedits (handleConfigChanged_edits s env)
  | syncOp op =>
      cases op with
      | snapshot => exact h
      | merge peer incoming => exact handleMerge_valid h env incoming
  | coreResolved fetched => exact hsame (coreResolved_docs s env fetched)
  | childExit pid status => exact hsame (handleChildExit_docs s env pid status)
  | restartDue => exact hsame (restartDue_docs s env)
  | coreStalled => exact hsame (coreStalled_docs s env)
  | coreLog pid line => exact hsame (handleCoreLog_docs s env pid line)
  | log line => exact hsame (recordLog_docs s line)
  | signal => exact h

end Supervisor

end Synbad
