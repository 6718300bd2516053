import Synbad.Supervisor.Documents

/-! # Rejected merges

Whole runs of the daemon: the two copies of the document stay one valid document exactly as long as no
rejected merge finds `config.toml` unloadable. And what a rejected merge leaves behind even when the
file is there: the peer's newer stamps over the old values.

For the first, what was shown of one event is carried to a step of the daemon (`step_sound_iff`),
launches, crashes and edits of the files included, and from there to runs: `documents_sound_iff` is an
equivalence over every run from a new supervisor, between all states being sound and no step stranding
the documents. A run in which the user's editor has the file half written when a peer's state arrives
is one that strands them.

For the second, `RolledBack` is what one would expect of a rejected merge that is undone: values,
stamps and files are as before. `rejected_merge_keeps_stamps` says that it never is, whatever the
state and the offer. An update is rejected only if some shared field was newer at the peer; its stamp
stays, so the old value is from then on held under a stamp that belongs to another. -/

namespace Synbad

/-! ## Runs -/

namespace Supervisor

/-- A new supervisor starts with sound documents, if the states handed out before were valid. -/
theorem new_sound {host : Host} {disk : Disk} {env : Env} {effects : List Effect} {s : Supervisor}
    (h : Supervisor.new host disk env effects = .ok s)
    (hreplies : ∀ v ∈ Effect.replies effects, v.config.Valid) : s.docs.Sound := by
  obtain ⟨disk', config, versioned, hvalid, hconfig, -, rfl⟩ := new_cases h
  have hfresh : (fresh host disk' config versioned effects).docs.Sound :=
    ⟨Or.inl hconfig, hvalid, hreplies⟩
  split
  · exact hfresh
  · rw [startCore_docs]
    exact hfresh

end Supervisor

namespace Daemon

/-- The documents of a running daemon are sound, and every state handed to a session was valid. -/
def Sound : Daemon → Prop
  | .up s => s.docs.Sound
  | .down _ _ effects => ∀ v ∈ Effect.replies effects, v.config.Valid

/-- The input is a merge that strands the documents: its result is rejected, and `config.toml`
yields no document to roll back to. -/
def Strands : Daemon → Env × Input → Prop
  | .up s, (env, .event e) => s.Strands env e
  | _, _ => False

/-- An event of the loop, teardown included, leads to a sound daemon exactly if it does not strand the
documents. -/
theorem stepUp_sound_iff {s : Supervisor} (h : s.docs.Sound) (env : Env) (e : LoopEvent) :
    (stepUp s env e).Sound ↔ ¬ s.Strands env e := by
  have hevent := Supervisor.handle_sound_iff h env e
  simp only [stepUp]
  split
  · next hleaves =>
    -- only a request or a signal leaves the loop
    have hnot : ¬ s.Strands env e := by
      cases e with
      | request r => exact not_false
      | signal => exact not_false
      | _ => cases hleaves
    have hsound := hevent.mpr hnot
    rw [← Supervisor.stopCore_docs] at hsound
    exact iff_of_true hsound.replies hnot
  · exact hevent

/-- A launch starts with sound documents, or fails and leaves the daemon down. -/
theorem launch_sound {host : Host} {disk : Disk} {effects : List Effect} {seed env : Env}
    (h : ∀ v ∈ Effect.replies effects, v.config.Valid) :
    (launch host disk effects seed env).Sound := by
  unfold launch
  split
  · exact h
  · split
    · exact h
    · next hs => exact Supervisor.new_sound hs h

/-- **One step of the daemon**: from a sound state it leads to a sound state exactly when it does
not strand the documents. -/
theorem step_sound_iff (d : Daemon) (input : Env × Input) (h : d.Sound) :
    (d.step input).Sound ↔ ¬ d.Strands input := by
  obtain ⟨env, i⟩ := input
  cases d with
  | up s =>
      cases i with
      | event e => exact stepUp_sound_iff h env e
      | launch seed => exact iff_of_true h not_false
      | crash => exact iff_of_true (Docs.Sound.replies h) not_false
      | editConfig file =>
          exact iff_of_true (Docs.Sound.of_edits h (.files { s.disk with config := file } rfl))
            not_false
      | editSidecar file =>
          exact iff_of_true (Docs.Sound.of_edits h (.files { s.disk with sidecar := file } rfl))
            not_false
  | down host disk effects =>
      cases i with
      | launch seed => exact iff_of_true (launch_sound h) not_false
      | _ => exact iff_of_true h not_false

/-- **The two copies stay one valid document** along a run from a new supervisor, and every state
handed to a sync session is valid, exactly when no step of the run is a rejected merge that finds no
document on disk to roll back to. -/
theorem documents_sound_iff {host : Host} {disk : Disk} {env : Env} {s : Supervisor}
    (hnew : Supervisor.new host disk env [] = .ok s) (inputs : List (Env × Input)) :
    (∀ n, (Run.after step (.up s) inputs n).Sound) ↔
      ∀ n input, inputs[n]? = some input → ¬ (Run.after step (.up s) inputs n).Strands input := by
  have hstart : (Daemon.up s).Sound := by
    refine Supervisor.new_sound hnew ?_
    intro v hv
    exact absurd hv List.not_mem_nil
  exact Run.forall_iff hstart step_sound_iff

end Daemon

/-! ## A run that strands the documents -/

namespace Stranded

/-- A machine that has never synced, by its id and its paths. -/
def host : Host := ⟨"a", ⟨"/state/synergy.conf"⟩, ⟨"/state/settings.ini"⟩, .ascii⟩

/-- Nothing fails but the user's timing. -/
def calm : Env := .calm 0 100

/-- The files of a machine whose user has stopped sharing. -/
def disk : Disk := ⟨.parsed Config.default, .missing, true⟩

/-- The files once the bootstrap stamps are written to the sidecar. -/
def diskBooted : Disk := disk.saveSidecar calm (.initial Config.default "a")

/-- The supervisor it launches, with the document of its user. -/
def booted : Supervisor :=
  Supervisor.fresh host diskBooted Config.default (.initial Config.default "a") []

/-- The valid document of another machine, which has only its own screen. -/
def peerConfig : Config :=
  { Config.default with serverName := "b", screens := [⟨"b", [], ⟨0, 0, 160, 120⟩, []⟩] }

/-- The state that machine offers to a peer. -/
def offered : VersionedConfig := .initial peerConfig "b"

/-- The peer's state arrives while the user's editor has the file half written. -/
def inputs : List (Env × Input) :=
  [(calm, .editConfig .malformed), (calm, .event (.syncOp (.merge "b" offered)))]

/-- The copies part: what the session is handed, and keeps being handed, is not a valid
document. -/
theorem documents_part :
    Supervisor.new host disk calm [] = .ok booted ∧
      ¬ ∀ n, (Run.after Daemon.step (.up booted) inputs n).Sound := by
  refine ⟨rfl, fun h => ?_⟩
  have hsound : (Run.after Daemon.step (.up booted) inputs 2).Sound := h 2
  have hvalid := Docs.Sound.versioned_valid hsound
  exact absurd hvalid (by decide)

/-- With the file in place the same merge is rejected and the copies stay together. -/
theorem documents_stay :
    Supervisor.new host disk calm [] = .ok booted ∧
      ∀ n, (Run.after Daemon.step (.up booted)
        [(calm, .event (.syncOp (.merge "b" offered)))] n).Sound := by
  have hnew : Supervisor.new host disk calm [] = .ok booted := rfl
  refine ⟨hnew, (Daemon.documents_sound_iff hnew _).mpr ?_⟩
  intro n input hn
  match n with
  | 0 =>
      cases hn
      exact fun hs => hs.2 Config.default rfl
  | n + 1 => cases hn

end Stranded

/-! ## What a rejected merge leaves behind -/

namespace Supervisor

/-- `t` is `s` after a rejected merge that was undone: the document, the shared values, their
stamps and the files are as before, and the session is handed the old values under the old
stamps. The clock may have moved. -/
structure RolledBack (s t : Supervisor) : Prop where
  config : t.config = s.config
  values : ∀ f, t.versioned.value f = s.versioned.value f
  stamps : ∀ f, t.versioned.stamp f = s.versioned.stamp f
  files : t.disk = s.disk
  reply : ∃ v, t.effects = s.effects ++ [.replied v] ∧
    ∀ f, v.value f = s.versioned.value f ∧ v.stamp f = s.versioned.stamp f

/-- The rollback restores values and does not touch the stamps. -/
theorem rollBack_stamps (s : Supervisor) (env : Env) :
    (s.rollBack env).versioned.stamps = s.versioned.stamps := by
  unfold rollBack
  split <;> rfl

/-- A readable `config.toml` with a valid document loads as that document. -/
theorem loadConfig_parsed {d : Disk} {env : Env} {c : Config} (hd : d.config = .parsed c)
    (hc : c.Valid) (henv : env.loadFails = false) : d.loadConfig env = .ok (some c) := by
  have hv : c.validate = .ok () := hc
  rw [Disk.loadConfig, henv, hd]
  simp only [hv, Bool.false_eq_true, if_false]

/-- **A rejected merge is never rolled back**: whatever the state and the peer's offer, some shared
field is left under the peer's newer stamp; and when the file can be read, that field holds the old
value again. -/
theorem rejected_merge_keeps_stamps {s : Supervisor} {c : Config}
    (hsame : s.versioned.config.Same s.config) (hvalid : s.config.Valid)
    (hdisk : s.disk.config = .parsed c) (hfile : c.Same s.config) (env : Env) (peer : String)
    {incoming : VersionedConfig} (hrejected : ¬ (s.versioned.merge incoming).1.config.Valid) :
    let t := s.handleSyncOp env (.merge peer incoming)
    ¬ s.RolledBack t ∧
      ∃ f, s.versioned.stamp f < incoming.stamp f ∧ t.versioned.stamp f = incoming.stamp f ∧
        (env.loadFails = false → t.versioned.value f = s.versioned.value f) := by
  intro t
  have hold : s.versioned.config.Valid := hsame.valid_iff.mpr hvalid
  have ht : t = ((s.merging incoming).rollBack env).sendReply := by
    show (s.handleMerge env incoming).sendReply = _
    rw [handleMerge_rejected hold env hrejected]
  -- the merge took something, or the document would still be the old, valid one
  have hupdated : (s.versioned.merge incoming).2 = .updated := by
    by_contra hno
    rw [VersionedConfig.merge_config_of_noChange hno] at hrejected
    exact hrejected hold
  obtain ⟨f, hnewer⟩ := (VersionedConfig.merge_outcome s.versioned incoming).mp hupdated
  have hstamp : t.versioned.stamp f = incoming.stamp f := by
    rw [ht]
    show ((s.merging incoming).rollBack env).versioned.stamps.stamp f = _
    rw [rollBack_stamps]
    show (s.versioned.merge incoming).1.stamp f = _
    rw [VersionedConfig.merge_stamp, max_eq_right hnewer.le]
  refine ⟨fun h => ?_, f, hnewer, hstamp, fun henv => ?_⟩
  · have hkept := h.stamps f
    rw [hstamp] at hkept
    exact hnewer.ne' hkept
  · have hload := loadConfig_parsed hdisk (hfile.valid_iff.mpr hvalid) henv
    have hvalue : t.versioned.value f = c.value f := by
      rw [ht, rollBack_of_loaded (s := s.merging incoming) hload]
      rfl
    rw [hvalue, hfile.value_eq f]
    exact (hsame.value_eq f).symm

end Supervisor

namespace Stranded

/-- The old layout is filed under the peer's stamp, in the supervisor and in what the session is
handed. -/
theorem old_screens_under_peer_stamp :
    booted.versioned.config = booted.config ∧ booted.config.Valid ∧
      booted.disk.config = .parsed booted.config ∧
      ¬ (booted.versioned.merge offered).1.config.Valid ∧
      (booted.handleSyncOp calm (.merge "b" offered)).versioned.value .screens =
        booted.versioned.value .screens ∧
      booted.versioned.stamp .screens = ⟨1, "a"⟩ ∧
      (booted.handleSyncOp calm (.merge "b" offered)).versioned.stamp .screens = ⟨1, "b"⟩ ∧
      ¬ booted.RolledBack (booted.handleSyncOp calm (.merge "b" offered)) := by
  refine ⟨rfl, Config.valid_default, rfl, by decide, rfl, rfl, rfl, fun h => ?_⟩
  have hstamps := h.stamps .screens
  exact absurd hstamps (by decide)

/-- The general statement at that merge: the peer's stamps stay over the old values. -/
theorem rejected_merge_keeps_stamps_offered :
    ¬ booted.RolledBack (booted.handleSyncOp calm (.merge "b" offered)) :=
  (Supervisor.rejected_merge_keeps_stamps (c := Config.default) (Or.inl rfl) Config.valid_default rfl
    (Or.inl rfl) calm "b" (by decide)).1

end Stranded

end Synbad
