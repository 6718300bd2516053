import Synbad.Lib.Keyed
import Synbad.Sync.Session

/-! # The trust store as a finite map

The store is a list that is searched from the front, its file is that list, and the resolver of an
inbound session is a map in which the last entry of a machine stays. All three are the same finite map
as long as no machine has two entries, which every update keeps up. The map that is meant is a fold
over the history: what was said last about a machine counts (`TrustOp.entry`). `IsMap` relates a store
to it, and every operation of a history keeps that up, reloads included.

What a failed update leaves behind is the second part: before the rename nothing, after it the new
file beside the old list. So a failed pairing may be a pairing after the next restart, and a failed
revocation a revocation; `failed_update_unchanged_iff` says exactly when neither happens. -/

namespace Synbad

open TrustedPeerStore

/-! ## Histories -/

/-- What is done to a store over time: pairings, revocations, and restarts of the daemon. -/
inductive TrustOp where
  | upsert (peer : TrustedPeer)
  | remove (machineId : String)
  | reload

namespace TrustOp

/-- The store afterwards, if no file operation fails; a reload starts over from the file. -/
def step (s : TrustedPeerStore) : TrustOp → TrustedPeerStore
  | .upsert peer => (s.upsert peer none).1
  | .remove machineId => (s.remove machineId none).1
  | .reload =>
      match load s.file with
      | .ok reloaded => reloaded
      | .error _ => s

/-- The operation names this machine. A reload names none. -/
def Concerns (machineId : String) : TrustOp → Prop
  | .upsert peer => peer.machineId = machineId
  | .remove removed => removed = machineId
  | .reload => False

/-- The entry of a machine in the map that is meant. -/
def entry (machineId : String) (old : Option TrustedPeer) : TrustOp → Option TrustedPeer
  | .upsert peer => if peer.machineId = machineId then some peer else old
  | .remove removed => if removed = machineId then none else old
  | .reload => old

/-- An operation that names another machine leaves the entry. -/
theorem entry_of_not_concerns {machineId : String} {op : TrustOp} (h : ¬ op.Concerns machineId)
    (old : Option TrustedPeer) : op.entry machineId old = old := by
  cases op with
  | upsert peer => exact if_neg h
  | remove removed => exact if_neg h
  | reload => rfl

/-- An operation that names the machine decides the entry. -/
theorem entry_of_concerns {machineId : String} {op : TrustOp} {peer : TrustedPeer}
    (h : op.Concerns machineId) (old : Option TrustedPeer) :
    op.entry machineId old = some peer ↔ op = .upsert peer := by
  cases op with
  | upsert q =>
      have hq : q.machineId = machineId := h
      simp [entry, hq]
  | remove removed =>
      have hremoved : removed = machineId := h
      simp [entry, hremoved]
  | reload => cases h

/-- **The last word on a machine**: an upsert of it with nothing about it afterwards. -/
theorem foldl_entry_eq_some_iff {machineId : String} {ops : List TrustOp} {peer : TrustedPeer} :
    ops.foldl (fun old op => op.entry machineId old) none = some peer ↔
      peer.machineId = machineId ∧ ∃ before after, ops = before ++ .upsert peer :: after ∧
        ∀ op ∈ after, ¬ op.Concerns machineId := by
  -- from the last operation back
  induction ops using List.reverseRecOn with
  | nil => simp
  | append_singleton ops op ih =>
      rw [List.foldl_append, List.foldl_cons, List.foldl_nil]
      by_cases hop : op.Concerns machineId
      · rw [entry_of_concerns hop]
        constructor
        · rintro rfl
          exact ⟨hop, ops, [], rfl, by simp⟩
        · rintro ⟨-, before, after, heq, hafter⟩
          rcases List.eq_nil_or_concat after with rfl | ⟨init, last, rfl⟩
          · exact (List.cons.inj (List.append_inj_right' heq rfl)).1
          · -- the operation would be among those that do not name the machine
            have hlast : op = last := by
              rw [List.concat_eq_append, ← List.cons_append, ← List.append_assoc] at heq
              exact (List.cons.inj (List.append_inj_right' heq rfl)).1
            exact absurd hop (hafter op (by simp [hlast]))
      · rw [entry_of_not_concerns hop, ih]
        refine and_congr_right fun hpeer => ?_
        constructor
        · rintro ⟨before, after, rfl, hafter⟩
          refine ⟨before, after ++ [op], by simp, ?_⟩
          intro x hx
          rcases List.mem_append.mp hx with hx | hx
          · exact hafter x hx
          · rwa [List.mem_singleton.mp hx]
        · rintro ⟨before, after, heq, hafter⟩
          rcases List.eq_nil_or_concat after with rfl | ⟨init, last, rfl⟩
          · have hsame : op = .upsert peer := (List.cons.inj (List.append_inj_right' heq rfl)).1
            exact absurd (show op.Concerns machineId by rw [hsame]; exact hpeer) hop
          · rw [List.concat_eq_append, ← List.cons_append, ← List.append_assoc] at heq
            refine ⟨before, init, List.append_inj_left' heq rfl, fun x hx => hafter x ?_⟩
            simp [hx]

end TrustOp

/-! ## The store follows the map -/

/-- The list an update saves, as a keyed list. -/
theorem upsertPeers_eq_put (peer : TrustedPeer) (peers : List TrustedPeer) :
    upsertPeers peer peers = Keyed.put TrustedPeer.machineId peer peers := by
  induction peers with
  | nil => rfl
  | cons p ps ih => rw [upsertPeers, Keyed.put, ih]

namespace TrustedPeerStore

/-- A store contains the machines it finds, and no others. -/
theorem contains_eq (s : TrustedPeerStore) (machineId : String) :
    s.contains machineId = (s.get machineId).isSome := by
  rw [Bool.eq_iff_iff, contains_iff_get, Option.isSome_iff_exists]

/-- A removal drops the machine and saves, if it is there. -/
theorem remove_eq (s : TrustedPeerStore) (machineId : String) :
    s.remove machineId none =
      if s.contains machineId then
        (⟨.parsed (Keyed.drop TrustedPeer.machineId machineId s.peers),
          Keyed.drop TrustedPeer.machineId machineId s.peers⟩, .ok true)
      else (s, .ok false) := by
  have hlen : (Keyed.drop TrustedPeer.machineId machineId s.peers).length ≠ s.peers.length ↔
      s.contains machineId = true := by
    rw [contains_eq, Keyed.length_drop_ne_iff]
    rfl
  by_cases hc : s.contains machineId = true
  · rw [if_pos hc]
    exact if_pos (hlen.mpr hc)
  · rw [if_neg hc]
    exact if_neg fun h => hc (hlen.mp h)

end TrustedPeerStore

/-- **The store is this map**: every machine has at most one entry, a look-up is one in the map, and
the file gives the same store again. -/
structure TrustedPeerStore.IsMap (s : TrustedPeerStore) (trusted : String → Option TrustedPeer) :
    Prop where
  distinct : (s.peers.map TrustedPeer.machineId).Nodup
  get : ∀ machineId, s.get machineId = trusted machineId
  reload : load s.file = .ok s

namespace TrustedPeerStore.IsMap

variable {s : TrustedPeerStore} {trusted : String → Option TrustedPeer}

/-- No file is the empty map, which is where a new installation starts. -/
theorem missing : IsMap ⟨.missing, []⟩ fun _ => none :=
  ⟨List.nodup_nil, fun _ => rfl, rfl⟩

/-- An update that goes well enters its peer in the map. -/
theorem upsert (h : s.IsMap trusted) (peer : TrustedPeer) :
    (s.upsert peer none).1.IsMap fun machineId =>
      if peer.machineId = machineId then some peer else trusted machineId := by
  have hpeers : (s.upsert peer none).1 =
      ⟨.parsed (Keyed.put TrustedPeer.machineId peer s.peers),
        Keyed.put TrustedPeer.machineId peer s.peers⟩ := by
    rw [← upsertPeers_eq_put]
    rfl
  rw [hpeers]
  refine ⟨Keyed.nodup_put h.distinct peer, fun machineId => ?_, rfl⟩
  rw [← h.get machineId]
  exact Keyed.find_put peer s.peers machineId

/-- A removal that goes well takes its machine out of the map. -/
theorem remove (h : s.IsMap trusted) (removed : String) :
    (s.remove removed none).1.IsMap fun machineId =>
      if removed = machineId then none else trusted machineId := by
  rw [remove_eq]
  split
  · refine ⟨Keyed.nodup_drop h.distinct removed, fun machineId => ?_, rfl⟩
    rw [← h.get machineId]
    exact Keyed.find_drop removed s.peers machineId
  · next hc =>
    refine ⟨h.distinct, fun machineId => ?_, h.reload⟩
    split
    · next hm =>
      subst hm
      rw [contains_eq, Bool.not_eq_true, Option.isSome_eq_false_iff, Option.isNone_iff_eq_none] at hc
      exact hc
    · exact h.get machineId

/-- One operation of a history keeps it: the store is the map with that operation applied. -/
theorem step (h : s.IsMap trusted) (op : TrustOp) :
    (op.step s).IsMap fun machineId => op.entry machineId (trusted machineId) := by
  cases op with
  | upsert peer => exact h.upsert peer
  | remove removed => exact h.remove removed
  | reload =>
      rw [TrustOp.step, h.reload]
      exact h

/-- A whole history, from no file on: the store is the map that its operations make one after the
other. -/
theorem steps (ops : List TrustOp) :
    (ops.foldl TrustOp.step ⟨.missing, []⟩).IsMap fun machineId =>
      ops.foldl (fun old op => op.entry machineId old) none := by
  induction ops using List.reverseRecOn with
  | nil => exact missing
  | append_singleton ops op ih =>
      simp only [List.foldl_append, List.foldl_cons, List.foldl_nil]
      exact ih.step op

end TrustedPeerStore.IsMap

/-- The resolver of an inbound session finds the key of the machine's entry. -/
theorem TrustedPeerStore.IsMap.resolveIn {s : TrustedPeerStore}
    {trusted : String → Option TrustedPeer} (h : s.IsMap trusted) (hex : HexCodec)
    (machineId : String) :
    Synbad.resolveIn (trustSnapshot hex s) machineId =
      (s.get machineId).bind (TrustedPeer.publicKey hex) :=
  Keyed.lookup_reverse_filterMap h.distinct (TrustedPeer.publicKey hex) machineId

/-- **The store of a history**: one entry a machine; a look-up finds what was upserted last and not
removed since; a removal says whether there was an entry; an operation leaves the entries of other
machines; the file gives the same store again; the resolver has the keys of the entries. -/
structure TrustOp.Tracks (ops : List TrustOp) (s : TrustedPeerStore) : Prop where
  distinct : (s.peers.map TrustedPeer.machineId).Nodup
  get : ∀ machineId peer, s.get machineId = some peer ↔
    peer.machineId = machineId ∧ ∃ before after, ops = before ++ .upsert peer :: after ∧
      ∀ op ∈ after, ¬ op.Concerns machineId
  contains : ∀ machineId, s.contains machineId = (s.get machineId).isSome
  removed : ∀ machineId, (s.remove machineId none).2 = .ok (s.contains machineId)
  others : ∀ (op : TrustOp) machineId, ¬ op.Concerns machineId →
    (op.step s).get machineId = s.get machineId
  reload : load s.file = .ok s
  resolver : ∀ hex machineId,
    resolveIn (trustSnapshot hex s) machineId = (s.get machineId).bind (TrustedPeer.publicKey hex)

/-- **The trust store refines a finite map**, over every history from a missing file. -/
theorem trust_store_refines_map (ops : List TrustOp) :
    TrustOp.Tracks ops (ops.foldl TrustOp.step ⟨.missing, []⟩) := by
  have h := TrustedPeerStore.IsMap.steps ops
  refine ⟨h.distinct, fun machineId peer => ?_, contains_eq _, fun machineId => ?_,
    fun op machineId hop => ?_, h.reload, h.resolveIn⟩
  · rw [h.get machineId]
    exact TrustOp.foldl_entry_eq_some_iff
  · rw [remove_eq]
    split
    · next hc => rw [hc]
    · next hc => rw [Bool.not_eq_true _ |>.mp hc]
  · rw [(h.step op).get machineId, h.get machineId, TrustOp.entry_of_not_concerns hop]

/-! ## Updates that fail -/

namespace TrustedPeerStore

variable {s : TrustedPeerStore} {peer : TrustedPeer} {machineId : String} {fault : SaveFault}
  {e : TrustError}

/-- The file after a save that failed: the old one, unless the rename was done and the lists
differ. -/
theorem save_file_eq_iff (s : TrustedPeerStore) (peers : List TrustedPeer) (fault : SaveFault) :
    (s.save peers (some fault)).1 = s.file ↔
      fault.step.afterRename = false ∨ s.file = .parsed peers := by
  rw [save]
  cases fault.step.afterRename with
  | false => exact iff_of_true rfl (Or.inl rfl)
  | true =>
      show TrustFile.parsed peers = s.file ↔ _
      constructor
      · exact fun h => Or.inr h.symm
      · rintro (h | h)
        · cases h
        · exact h.symm

/-- An update that failed keeps the list and leaves the file to the save. -/
theorem upsert_of_error (s : TrustedPeerStore) (peer : TrustedPeer) (fault : SaveFault) :
    (s.upsert peer (some fault)).1 =
      { s with file := (s.save (upsertPeers peer s.peers) (some fault)).1 } := rfl

/-- So does a removal; it fails only where there was something to remove. -/
theorem remove_of_error (h : (s.remove machineId (some fault)).2 = .error e) :
    (s.remove machineId (some fault)).1 =
      { s with file :=
          (s.save (s.peers.filter fun p => p.machineId != machineId) (some fault)).1 } := by
  unfold remove at h ⊢
  by_cases hlen : (s.peers.filter fun p => p.machineId != machineId).length ≠ s.peers.length
  · simp only [if_pos hlen]
    rfl
  · simp only [if_neg hlen] at h
    cases h

/-- Nothing has changed: neither the list nor the file, so that a restart finds the same store. -/
structure Unchanged (s s' : TrustedPeerStore) : Prop where
  peers : s'.peers = s.peers
  file : s'.file = s.file

/-- **When a failed update changes nothing.** The list in memory is always the old one. The file is the
old one exactly if the step that failed is not one after the rename, or the file had the new list in it
before. -/
theorem failed_update_unchanged_iff (s : TrustedPeerStore) (fault : SaveFault) :
    (∀ peer e, (s.upsert peer (some fault)).2 = .error e →
      (s.Unchanged (s.upsert peer (some fault)).1 ↔
        fault.step.afterRename = false ∨ s.file = .parsed (upsertPeers peer s.peers))) ∧
    ∀ machineId e, (s.remove machineId (some fault)).2 = .error e →
      (s.Unchanged (s.remove machineId (some fault)).1 ↔
        fault.step.afterRename = false ∨
          s.file = .parsed (s.peers.filter fun p => p.machineId != machineId)) := by
  constructor
  · intro peer e _
    rw [upsert_of_error, ← save_file_eq_iff]
    exact ⟨fun h => h.file, fun h => ⟨rfl, h⟩⟩
  · intro machineId e h
    rw [remove_of_error h, ← save_file_eq_iff]
    exact ⟨fun h => h.file, fun h => ⟨rfl, h⟩⟩

/-- A machine that is paired, or is going to be. -/
def laptop : TrustedPeer := ⟨"b", "laptop", "00", "aaaa-bbbb-cccc-dddd", 1700000000⟩

/-- A full disk while the temporary file is written changes nothing. -/
theorem failed_update_unchanged_write :
    Unchanged ⟨.missing, []⟩ (upsert ⟨.missing, []⟩ laptop
      (some ⟨.write, "trusted-peers.json", "No space left on device"⟩)).1 :=
  ((failed_update_unchanged_iff ⟨.missing, []⟩
    ⟨.write, "trusted-peers.json", "No space left on device"⟩).1 laptop _ rfl).mpr (Or.inl rfl)

/-- The directory cannot be synced after the rename, so the save fails with the new file in place. -/
def syncFails : SaveFault := ⟨.syncDir, "trusted-peers.json", "I/O error"⟩

/-- A pairing that fails there: the machine is not trusted, but will be after a restart; -/
def paired : TrustedPeerStore × Except TrustError Unit :=
  upsert ⟨.parsed [], []⟩ laptop (some syncFails)

/-- and a revocation that fails there: the machine is still trusted, until a restart. -/
def revoked : TrustedPeerStore × Except TrustError Bool :=
  remove ⟨.parsed [laptop], [laptop]⟩ "b" (some syncFails)

/-- The machine whose pairing failed is trusted after a restart, and the one whose revocation failed is
not. -/
theorem failed_update_on_disk :
    (∃ e, paired.2 = .error e) ∧ ¬ Unchanged ⟨.parsed [], []⟩ paired.1 ∧
      paired.1.contains "b" = false ∧ load paired.1.file = .ok ⟨.parsed [laptop], [laptop]⟩ ∧
    (∃ e, revoked.2 = .error e) ∧ ¬ Unchanged ⟨.parsed [laptop], [laptop]⟩ revoked.1 ∧
      revoked.1.contains "b" = true ∧ load revoked.1.file = .ok ⟨.parsed [], []⟩ := by
  refine ⟨⟨_, rfl⟩, fun h => ?_, rfl, rfl, ⟨_, rfl⟩, fun h => ?_, rfl, rfl⟩
  · have hfile : TrustFile.parsed [laptop] = .parsed [] := h.file
    simp at hfile
  · have hfile : TrustFile.parsed [] = .parsed [laptop] := h.file
    simp at hfile

end TrustedPeerStore

end Synbad
