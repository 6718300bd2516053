import Synbad.Supervisor.CoreProc

/-! # Config edits

`supervisor/config_edit.rs`: every local edit (a `SetConfig` request, or a file change picked up by
the watcher) and every remote merge goes through here. The document is kept twice, as `config` and as
`versioned.config`, and the two copies are written separately on each path.

A local edit is stamped and swapped in by `swapDocument`, which is shared by its two callers; the Core
is bounced if its inputs have changed and the edit is one that may, and the peers are pushed to if the
head has moved. A merge is made first and validated afterwards. If the merged document is valid it is
adopted and both files are written; otherwise `rollBack` restores the documents from the file, if that
can be loaded. The stamps and the clock that the merge has taken stay, which later modules take up:
what a rollback leaves is neither the state before the merge nor the one after it. -/

namespace Synbad

/-- What a sync session asks of the supervisor: a snapshot, or the merge of a peer's state. -/
inductive SyncOp where
  | snapshot
  | merge (peerMachineId : String) (incoming : VersionedConfig)

namespace Supervisor

/-! ## Local edits -/

/-- Bounce a wanted Core if what it consumes has changed. -/
def restartIfWanted (s : Supervisor) (inputsDiffer : Bool) : Supervisor :=
  if s.desiredRunning && inputsDiffer then s.restartCore else s

/-- The first half of `apply_local_edit`: stamp the edit, swap the document, save the sidecar if
anything changed, and announce it. -/
def swapDocument (s : Supervisor) (env : Env) (newConfig : Config) : Supervisor :=
  let edit := s.versioned.applyLocal newConfig s.host.machineId
  { s with
    versioned := edit.1, config := newConfig
    disk := if edit.2 then s.disk.saveSidecar env edit.1 else s.disk }.emit .configChanged

/-- `apply_local_edit`: swap the document, bounce the Core if its inputs changed, and push if the
head moved. -/
def applyLocalEdit (s : Supervisor) (env : Env) (newConfig : Config) (restartIfRunning : Bool) :
    Supervisor :=
  -- both decided before the swap
  let coreInputsDiffer := s.config.coreInputsDiffer newConfig
  let changed := (s.versioned.applyLocal newConfig s.host.machineId).2
  let s := (s.swapDocument env newConfig).restartIfWanted (restartIfRunning && coreInputsDiffer)
  if changed then s.act .pushedToPeers else s

/-- `set_config`: the document is validated and persisted, and only then applied; if either fails
nothing changes. -/
def setConfig (s : Supervisor) (env : Env) (newConfig : Config) : Supervisor × Except String Unit :=
  match newConfig.validate with
  | .error e => (s, .error ("invalid config: " ++ e.message s.host.unicode))
  | .ok () =>
      match s.disk.saveConfig env newConfig with
      | (_, .error _) => (s, .error "persisting new config")
      | (disk, .ok ()) => ({ s with disk := disk }.applyLocalEdit env newConfig true, .ok ())

/-- `update_audio_config`: an edit of the audio section alone, of the current document. -/
def updateAudioConfig (s : Supervisor) (env : Env) (audio : AudioConfig) :
    Supervisor × Except String Unit :=
  s.setConfig env { s.config with audio := audio }

/-- `handle_config_changed`: a document on disk that differs from ours is a local edit. -/
def handleConfigChanged (s : Supervisor) (env : Env) : Supervisor :=
  match s.disk.loadConfig env with
  | .ok (some c) => if c.eq s.config then s else s.applyLocalEdit env c true
  | .ok none => s
  | .error _ => s

/-! ## Remote merges -/

/-- The rejection path of a merge: both documents are restored from the file, if it can be loaded.
The stamps of `versioned` are not touched. -/
def rollBack (s : Supervisor) (env : Env) : Supervisor :=
  match s.disk.loadConfig env with
  | .ok (some c) => { s with versioned := { s.versioned with config := c }, config := c }
  | .ok none => s
  | .error _ => s

/-- The acceptance path of a merge: the merged document becomes ours and both files are written. -/
def adoptMerged (s : Supervisor) (env : Env) : Supervisor :=
  let coreInputsDiffer := s.config.coreInputsDiffer s.versioned.config
  let s := { s with
    config := s.versioned.config
    disk := (s.disk.saveConfig env s.versioned.config).1.saveSidecar env s.versioned }
  (s.emit .configChanged).restartIfWanted coreInputsDiffer

/-- The `SyncOp::Merge` arm of `handle_sync_op`, up to its reply. -/
def handleMerge (s : Supervisor) (env : Env) (incoming : VersionedConfig) : Supervisor :=
  let merged := s.versioned.merge incoming
  -- in place: values and stamps are those of the merge before anything is checked
  let s := { s with versioned := merged.1 }
  match merged.2 with
  | .noChange => s
  | .updated =>
      match merged.1.config.validate with
      | .error _ => s.rollBack env
      | .ok () => s.adoptMerged env

/-- Hand the current state to the session that asked. -/
def sendReply (s : Supervisor) : Supervisor := s.act (.replied s.versioned)

/-- `handle_sync_op`: the session is answered with the state after the operation. -/
def handleSyncOp (s : Supervisor) (env : Env) : SyncOp → Supervisor
  | .snapshot => s.sendReply
  | .merge _ incoming => (s.handleMerge env incoming).sendReply

end Supervisor

end Synbad
