import Mathlib.Data.List.Basic

/-! # The trusted-peer store

`synbad-discovery/src/trust.rs`: the paired machines with their public keys, in memory and in
`trusted-peers.json`. An update builds the new list, saves it, and only then makes it the one in
memory. A save writes a temporary file and renames it, so the file is the old one until the rename and
the new one from then on, even if what comes after the rename fails.

The list is searched from the front and may hold more than one entry of a machine, as a file written
by hand may: `upsert` replaces the first of them, `remove` takes all. The lemmas say what a look-up
finds after each operation, of the machine it is about and of the others, whether it failed or not.
The daemon decides by those look-ups whom it talks to; what the store is as a whole is said in the
next module. -/

namespace Synbad

/-- `TrustedPeer`: a machine we have paired with, by its id, and the key it has shown then. -/
structure TrustedPeer where
  machineId : String
  displayName : String
  publicKeyHex : String
  fingerprint : String
  pairedAtUnix : ℕ
  deriving DecidableEq, Repr

/-- The content of `trusted-peers.json`, as far as `load` can tell. -/
inductive TrustFile where
  | missing
  | unreadable (path source : String)
  | malformed (e : String)
  | parsed (peers : List TrustedPeer)

/-- `TrustError`: the file could not be read or written, or what is in it is no list of peers. -/
inductive TrustError where
  | io (path source : String)
  | json (e : String)

/-- The `Display` of a `TrustError`, which the daemon logs and puts into its events. -/
def TrustError.message : TrustError → String
  | .io path source => "io at " ++ path ++ ": " ++ source
  | .json e => "malformed trusted-peers JSON: " ++ e

/-- The file operations of a save, in order; each may fail, and what comes after it is not done
then. -/
inductive SaveStep where
  | createDir
  | openTmp
  | write
  | syncTmp
  | rename
  | openDir
  | syncDir
  deriving DecidableEq

/-- The rename has been done before this step, so the file is the new one even if this fails. -/
def SaveStep.afterRename : SaveStep → Bool
  | .openDir => true
  | .syncDir => true
  | _ => false

/-- A file operation that fails: which one, on what path and why. -/
structure SaveFault where
  step : SaveStep
  path : String
  source : String

/-- `TrustedPeerStore`, with the file at its path: the list in memory is the one that is asked. -/
structure TrustedPeerStore where
  file : TrustFile
  peers : List TrustedPeer

/-- The list an `upsert` saves: the first entry of the machine is replaced, or the new one comes
last. -/
def upsertPeers (peer : TrustedPeer) : List TrustedPeer → List TrustedPeer
  | [] => [peer]
  | p :: ps => if p.machineId = peer.machineId then peer :: ps else p :: upsertPeers peer ps

namespace TrustedPeerStore

/-- `TrustedPeerStore::load`: no file is an empty store, and a file that cannot be parsed is an
error. -/
def load : TrustFile → Except TrustError TrustedPeerStore
  | .missing => .ok ⟨.missing, []⟩
  | .unreadable path source => .error (.io path source)
  | .malformed e => .error (.json e)
  | .parsed peers => .ok ⟨.parsed peers, peers⟩

/-- `contains`: there is an entry with this id. -/
def contains (s : TrustedPeerStore) (machineId : String) : Bool :=
  s.peers.any fun p => p.machineId == machineId

/-- `get`: the first entry with this id. -/
def get (s : TrustedPeerStore) (machineId : String) : Option TrustedPeer :=
  s.peers.find? fun p => p.machineId == machineId

/-- `save`, which may fail at one of its steps. -/
def save (s : TrustedPeerStore) (peers : List TrustedPeer) :
    Option SaveFault → TrustFile × Except TrustError Unit
  | none => (.parsed peers, .ok ())
  | some fault =>
      (if fault.step.afterRename then .parsed peers else s.file, .error (.io fault.path fault.source))

/-- `upsert`: the new list is saved, and kept in memory only if that went well. -/
def upsert (s : TrustedPeerStore) (peer : TrustedPeer) (fails : Option SaveFault) :
    TrustedPeerStore × Except TrustError Unit :=
  let peers := upsertPeers peer s.peers
  match s.save peers fails with
  | (file, .error e) => ({ s with file := file }, .error e)
  | (file, .ok ()) => (⟨file, peers⟩, .ok ())

/-- `remove`, and whether there was an entry to remove; without one nothing is saved. -/
def remove (s : TrustedPeerStore) (machineId : String) (fails : Option SaveFault) :
    TrustedPeerStore × Except TrustError Bool :=
  let peers := s.peers.filter fun p => p.machineId != machineId
  if peers.length ≠ s.peers.length then
    match s.save peers fails with
    | (file, .error e) => ({ s with file := file }, .error e)
    | (file, .ok ()) => (⟨file, peers⟩, .ok true)
  else (s, .ok false)

/-! ## What the operations do -/

variable {s : TrustedPeerStore} {peer : TrustedPeer} {machineId : String}

/-- An entry is found under its own machine id. -/
theorem machineId_of_get (h : s.get machineId = some peer) : peer.machineId = machineId := by
  simpa using List.find?_some h

/-- An entry that is found is not that of a machine without one. -/
theorem machineId_ne_of_get {removed : String} (hnone : s.get removed = none)
    (h : s.get machineId = some peer) : peer.machineId ≠ removed := by
  intro hsame
  rw [← machineId_of_get h, hsame, hnone] at h
  cases h

/-- A machine is contained when it has an entry. -/
theorem contains_iff_get : s.contains machineId = true ↔ ∃ peer, s.get machineId = some peer := by
  rw [contains, get, ← Option.isSome_iff_exists, List.find?_isSome, List.any_eq_true]

/-- After an update that failed the peers in memory are the old ones. -/
theorem upsert_peers_of_error {fails : Option SaveFault} {e : TrustError}
    (h : (s.upsert peer fails).2 = .error e) : (s.upsert peer fails).1.peers = s.peers := by
  cases fails with
  | none => cases h
  | some fault => rfl

/-- An update looks at no other machine: what is found for another one is what was found before. -/
theorem find?_upsertPeers_of_ne (peers : List TrustedPeer) (h : peer.machineId ≠ machineId) :
    (upsertPeers peer peers).find? (fun p => p.machineId == machineId) =
      peers.find? fun p => p.machineId == machineId := by
  -- along the list, up to the entry that is replaced or the end
  induction peers with
  | nil => simp [upsertPeers, h]
  | cons p ps ih =>
      by_cases hp : p.machineId = peer.machineId
      · simp [upsertPeers, hp, h]
      · rw [upsertPeers, if_neg hp, List.find?_cons, List.find?_cons, ih]

/-- An update of another machine changes no entry of this one. -/
theorem get_upsert_of_ne (fails : Option SaveFault) (h : peer.machineId ≠ machineId) :
    (s.upsert peer fails).1.get machineId = s.get machineId := by
  cases fails with
  | none => exact find?_upsertPeers_of_ne s.peers h
  | some fault => rfl

/-- An update that succeeded is found, wherever in the list it went. -/
theorem get_upsert_self (s : TrustedPeerStore) (peer : TrustedPeer) :
    (s.upsert peer none).1.get peer.machineId = some peer := by
  have hfind : ∀ peers : List TrustedPeer,
      (upsertPeers peer peers).find? (fun p => p.machineId == peer.machineId) = some peer := by
    intro peers
    induction peers with
    | nil => simp [upsertPeers]
    | cons p ps ih =>
        by_cases hp : p.machineId = peer.machineId
        · simp [upsertPeers, hp]
        · rw [upsertPeers, if_neg hp, List.find?_cons_of_neg (by simpa using hp), ih]
  exact hfind s.peers

/-- **A removed machine has no entry**, however many it had. -/
theorem get_remove_self {fails : Option SaveFault} (h : (s.remove machineId fails).2 = .ok true) :
    (s.remove machineId fails).1.get machineId = none := by
  unfold remove at h ⊢
  -- a list of the same length has had no entry of the machine, and the answer is `false`
  by_cases hlen : (s.peers.filter fun p => p.machineId != machineId).length ≠ s.peers.length
  · simp only [if_pos hlen] at h ⊢
    cases fails with
    | some fault => cases h
    | none => simp [save, get]
  · simp only [if_neg hlen] at h
    cases h

/-- A removal brings in nobody: a machine without an entry has none afterwards either, even if it
fails. -/
theorem get_remove_none {fails : Option SaveFault} (removed : String)
    (h : s.get machineId = none) : (s.remove removed fails).1.get machineId = none := by
  have hfilter : (s.peers.filter fun p => p.machineId != removed).find?
      (fun p => p.machineId == machineId) = none := by
    rw [List.find?_eq_none]
    intro p hp
    exact List.find?_eq_none.mp h p (List.mem_of_mem_filter hp)
  unfold remove
  by_cases hlen : (s.peers.filter fun p => p.machineId != removed).length ≠ s.peers.length
  · simp only [if_pos hlen]
    cases fails with
    | some fault => exact h
    | none => exact hfilter
  · simp only [if_neg hlen]
    exact h

end TrustedPeerStore

end Synbad
