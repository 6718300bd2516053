import Synbad.Discovery.Possession
import Mathlib.Data.Set.Basic

/-! # What the identity key signs

One ed25519 key serves three protocols: it signs the states of sync frames, the transcripts of pairing
sessions and the hashes of authenticated handshakes. Only the first of the three puts a domain
separator in front. The byte strings are kept apart all the same: a sync frame starts with a field of
14 bytes, a pairing transcript with the 64 digits of a key, and a handshake signs 32 bytes, fewer than
either. Within a protocol the lengths in front of the fields make the bytes readable.

This rests on what the code checks before it signs: both Hellos of a pairing show a key of 32 bytes
(`pairing_checked`). The signature itself is ideal (`Verifier.Ideal`): what verifies under a key is
what its owner has signed. From the two it follows what a verified signature says, in each of the
three protocols: it was made in that protocol, over this sender, nonce and state, this transcript or
this hash. -/

namespace Synbad

open Bytes (Arr utf8 pushField)

/-! ## The bytes of a sync frame -/

/-- The JSON of different states differs, so a state can be told by its text. -/
def SyncJson.Injective (json : SyncJson) : Prop :=
  ∀ s t b, json.stateToJson s = .ok b → json.stateToJson t = .ok b → s = t

/-- A state is written as an object with members, so more than a pair of braces. -/
def SyncJson.Objects (json : SyncJson) : Prop :=
  ∀ s b, json.stateToJson s = .ok b → 2 < b.length

/-- Every field of the signed bytes has a length that a `u32` holds. -/
structure FieldsFit (json : SyncJson) (machineId : String) (nonce : Bytes)
    (state : VersionedConfig) : Prop where
  machineId : (utf8 machineId).length < 2 ^ 32
  nonce : nonce.length < 2 ^ 32
  state : ∀ b, json.stateToJson state = .ok b → b.length < 2 ^ 32

section SyncFrames

variable {json : SyncJson} {m m' : String} {n n' : Bytes} {s s' : VersionedConfig} {bytes : Bytes}

/-- The signed bytes of a frame, field by field. -/
theorem canonicalStateBytes_ok : canonicalStateBytes json m n s = .ok bytes ↔
    ∃ b, json.stateToJson s = .ok b ∧
      bytes = pushField signDomain ++ (pushField (utf8 m) ++ (pushField n ++ (pushField b ++ []))) := by
  unfold canonicalStateBytes
  rw [except_bind_ok]
  constructor
  · rintro ⟨b, hb, h⟩
    cases h
    exact ⟨b, mapError_ok hb, by simp only [List.append_assoc, List.append_nil]⟩
  · rintro ⟨b, hb, rfl⟩
    refine ⟨b, by rw [hb]; rfl, ?_⟩
    simp only [List.append_assoc, List.append_nil]
    rfl

/-- **Signed bytes can be read back**: they determine the sender, the nonce and the state. -/
theorem canonicalStateBytes_inj (hjson : json.Injective) (hfit : FieldsFit json m n s)
    (hfit' : FieldsFit json m' n' s') (h : canonicalStateBytes json m n s = .ok bytes)
    (h' : canonicalStateBytes json m' n' s' = .ok bytes) : m = m' ∧ n = n' ∧ s = s' := by
  obtain ⟨b, hb, rfl⟩ := canonicalStateBytes_ok.mp h
  obtain ⟨b', hb', heq⟩ := canonicalStateBytes_ok.mp h'
  -- the fields come off one after the other
  have hdomain : signDomain.length < 2 ^ 32 := by decide
  obtain ⟨-, heq⟩ := Bytes.pushField_append_inj hdomain hdomain heq
  obtain ⟨hm, heq⟩ := Bytes.pushField_append_inj hfit.machineId hfit'.machineId heq
  obtain ⟨hn, heq⟩ := Bytes.pushField_append_inj hfit.nonce hfit'.nonce heq
  obtain ⟨hs, -⟩ := Bytes.pushField_append_inj (hfit.state b hb) (hfit'.state b' hb') heq
  subst hs
  exact ⟨Bytes.utf8_injective hm, hn, hjson s s' b hb hb'⟩

/-- The length of the signed bytes: the domain and four lengths make 30, and the three fields
follow. -/
theorem length_canonicalStateBytes (h : canonicalStateBytes json m n s = .ok bytes) :
    ∃ b, json.stateToJson s = .ok b ∧
      bytes.length = 30 + (utf8 m).length + n.length + b.length := by
  obtain ⟨b, hb, rfl⟩ := canonicalStateBytes_ok.mp h
  have hdomain : signDomain.length = 14 := by decide
  refine ⟨b, hb, ?_⟩
  simp only [List.length_append, Bytes.length_pushField, hdomain, List.length_nil]
  omega

end SyncFrames

/-! ## The uses of the key -/

/-- What a machine signs with its identity key, in any of the three protocols. -/
inductive KeyUse where
  /-- `sign_frame`: the state of a sync frame, with the nonce of the session. -/
  | sync (machineId : String) (nonce : Arr 16) (state : VersionedConfig)
  /-- `sign_transcript`, of the transcript of two Hellos, the signer's own named first. -/
  | pairing (ours theirs : PairHello)
  /-- `send_auth_frame`: the hash of a handshake, which is signed as it is. -/
  | handshake (transcript : Arr 32)

/-- The protocol a signature belongs to: there are three, under one key. -/
inductive Protocol where
  | sync
  | pairing
  | handshake
  deriving DecidableEq, Repr

/-- The Hello shows a key of 32 bytes, in the hex digits that can be decoded. -/
def PairHello.HasKey (hex : HexCodec) (hello : PairHello) : Prop :=
  ∃ pk : Arr 32, hex.decode hello.pubkeyHex = some pk.val

namespace KeyUse

/-- The protocol of a use, whatever is signed in it. -/
def protocol : KeyUse → Protocol
  | .sync _ _ _ => .sync
  | .pairing _ _ => .pairing
  | .handshake _ => .handshake

/-- The bytes that are signed, unless the state cannot be written as JSON. -/
def bytes (json : SyncJson) : KeyUse → Except ProtocolError Bytes
  | .sync m n s => canonicalStateBytes json m n.val s
  | .pairing a b => .ok (canonicalTranscript a b)
  | .handshake transcript => .ok transcript.val

/-- What the code has checked before it signs: both Hellos of a pairing show a key. -/
def Checked (hex : HexCodec) : KeyUse → Prop
  | .pairing a b => a.HasKey hex ∧ b.HasKey hex
  | _ => True

end KeyUse

/-! ## The transcript of a pairing -/

/-- Four fields of a Hello, each with its length. -/
theorem PairHello.length_fields (a : PairHello) : a.fields.length =
    16 + (utf8 a.pubkeyHex).length + (utf8 a.nonceHex).length + (utf8 a.machineId).length +
      (utf8 a.displayName).length := by
  simp only [PairHello.fields, List.length_append, Bytes.length_pushField]
  omega

/-- The key comes first of the fields, each with its length in front. -/
theorem PairHello.fields_eq (a : PairHello) (rest : Bytes) : a.fields ++ rest =
    pushField (utf8 a.pubkeyHex) ++ (pushField (utf8 a.nonceHex) ++
      (pushField (utf8 a.machineId) ++ (pushField (utf8 a.displayName) ++ rest))) := by
  simp only [PairHello.fields, List.append_assoc]

/-- A key of 32 bytes takes 64 digits, each of them one byte of the text. -/
theorem PairHello.HasKey.length {hex : HexCodec} {a : PairHello} (h : a.HasKey hex) :
    (utf8 a.pubkeyHex).length = 64 := by
  obtain ⟨pk, hpk⟩ := h
  rw [hex.length_utf8_of_decode hpk, Arr.length_val]

/-- A transcript of Hellos with keys starts with one of the keys. -/
theorem canonicalTranscript_starts {hex : HexCodec} {a b : PairHello} (ha : a.HasKey hex)
    (hb : b.HasKey hex) :
    ∃ key rest, canonicalTranscript a b = pushField key ++ rest ∧ key.length = 64 := by
  unfold canonicalTranscript
  split
  · exact ⟨_, _, a.fields_eq _, ha.length⟩
  · exact ⟨_, _, b.fields_eq _, hb.length⟩

/-- A transcript of two Hellos with keys is long: two times 64 digits, and the lengths of eight
fields. -/
theorem length_canonicalTranscript {hex : HexCodec} {a b : PairHello} (ha : a.HasKey hex)
    (hb : b.HasKey hex) :
    160 ≤ (canonicalTranscript a b).length := by
  have hka := ha.length
  have hkb := hb.length
  unfold canonicalTranscript
  split <;> simp only [List.length_append, PairHello.length_fields] <;> omega

/-! ## No bytes belong to two protocols -/

section Disjoint

variable {hex : HexCodec} {json : SyncJson} {m : String} {n : Bytes} {s : VersionedConfig}
  {a b : PairHello}

/-- A sync frame starts with a field of 14 bytes, a transcript with one of 64. -/
theorem canonicalStateBytes_ne_transcript (ha : a.HasKey hex) (hb : b.HasKey hex) :
    canonicalStateBytes json m n s ≠ .ok (canonicalTranscript a b) := by
  intro h
  obtain ⟨body, -, heq⟩ := canonicalStateBytes_ok.mp h
  obtain ⟨key, rest, hstart, hkey⟩ := canonicalTranscript_starts ha hb
  rw [hstart] at heq
  obtain ⟨hfield, -⟩ := Bytes.pushField_append_inj (by rw [hkey]; decide) (by decide) heq
  have hlen : key.length = signDomain.length := congrArg List.length hfield
  rw [hkey] at hlen
  exact absurd hlen (by decide)

/-- A sync frame with a nonce of 16 bytes is longer than a hash. -/
theorem canonicalStateBytes_ne_hash_of_nonce (hn : n.length = 16) (t : Arr 32) :
    canonicalStateBytes json m n s ≠ .ok t.val := by
  intro h
  obtain ⟨body, -, hlen⟩ := length_canonicalStateBytes h
  rw [t.length_val] at hlen
  omega

/-- With any nonce at all it is longer than a hash, for the JSON of its state is. -/
theorem canonicalStateBytes_ne_hash (hobjects : json.Objects) (t : Arr 32) :
    canonicalStateBytes json m n s ≠ .ok t.val := by
  intro h
  obtain ⟨body, hbody, hlen⟩ := length_canonicalStateBytes h
  have := hobjects s body hbody
  rw [t.length_val] at hlen
  omega

/-- A transcript is longer than a hash, so no signature is over both. -/
theorem canonicalTranscript_ne_hash (ha : a.HasKey hex) (hb : b.HasKey hex) (t : Arr 32) :
    canonicalTranscript a b ≠ t.val := by
  intro h
  have hlen := length_canonicalTranscript ha hb
  rw [h, t.length_val] at hlen
  omega

/-- **Each byte string belongs to one protocol**: what is signed in two uses is signed in two of the
same kind. -/
theorem KeyUse.protocol_eq {u v : KeyUse} (hu : u.Checked hex) (hv : v.Checked hex) {bytes : Bytes}
    (h : u.bytes json = .ok bytes) (h' : v.bytes json = .ok bytes) : u.protocol = v.protocol := by
  have hsame : u.bytes json = v.bytes json := h.trans h'.symm
  -- the pairs of different protocols, either way round
  cases u with
  | sync m n s =>
      cases v with
      | sync _ _ _ => rfl
      | pairing a b => exact absurd hsame (canonicalStateBytes_ne_transcript hv.1 hv.2)
      | handshake t => exact absurd hsame (canonicalStateBytes_ne_hash_of_nonce n.length_val t)
  | pairing a b =>
      cases v with
      | sync m n s => exact absurd hsame.symm (canonicalStateBytes_ne_transcript hu.1 hu.2)
      | pairing _ _ => rfl
      | handshake t =>
          exact absurd (Except.ok.inj hsame) (canonicalTranscript_ne_hash hu.1 hu.2 t)
  | handshake t =>
      cases v with
      | sync m n s =>
          exact absurd hsame.symm (canonicalStateBytes_ne_hash_of_nonce n.length_val t)
      | pairing a b =>
          exact absurd (Except.ok.inj hsame).symm (canonicalTranscript_ne_hash hv.1 hv.2 t)
      | handshake _ => rfl

end Disjoint

/-! ## What the code signs -/

/-- A sync frame carries the signature of its own bytes. -/
theorem signFrame_signs {ops : Primitives} {json : SyncJson} {signingKey : Arr 32}
    {machineId : String} {nonce : Arr 16} {state : VersionedConfig} {frame : SyncFrame}
    (h : signFrame ops json signingKey machineId nonce state = .ok frame) :
    ∃ bytes, (KeyUse.sync machineId nonce state).bytes json = .ok bytes ∧
      frame = ⟨machineId, ops.hex.encode nonce.val, state,
        ops.hex.encode (ops.sign signingKey bytes).val⟩ := by
  obtain ⟨bytes, hbytes, h⟩ := except_bind_ok.mp h
  cases h
  exact ⟨bytes, hbytes, rfl⟩

/-- **A pairing session signs only what it has checked**: our Hello shows our key, and the peer's
has passed the checks of a Hello. -/
theorem pairing_checked {deps : PairDeps} {nonce : Arr 16} {theirs : PairHello} {pk : Arr 32}
    (h : deps.checkHello theirs = .ok pk) :
    (KeyUse.pairing (deps.ourHello nonce) theirs).Checked deps.ops.hex :=
  ⟨⟨deps.publicKey, deps.ops.hex.decode_encode _⟩, ⟨pk, (PairDeps.checkHello_iff.mp h).2.2⟩⟩

/-! ## What a verified signature says -/

/-- Ideal ed25519 for one key: what verifies under it is what its owner has signed, in one of the
uses of the key. -/
def Verifier.Ideal (verify : Verifier) (json : SyncJson) (hex : HexCodec) (pk : Arr 32)
    (uses : Set KeyUse) : Prop :=
  (∀ u ∈ uses, u.Checked hex) ∧
    ∀ message sig, verify pk message sig = true → ∃ u ∈ uses, u.bytes json = .ok message

/-- What is found in a frame that verifies: the expected nonce, and a signature under the peer's key
over bytes that are read off the frame. -/
theorem verifyFrame_ok {ops : Primitives} {json : SyncJson} {peerPubkeyHex : String}
    {expectedNonceHex : Option String} {frame : SyncFrame}
    (h : verifyFrame ops json peerPubkeyHex expectedNonceHex frame = .ok ()) :
    (∀ e, expectedNonceHex = some e → frame.nonceHex = e) ∧
      ∃ (nonce bytes : Bytes) (pk : Arr 32) (sig : Arr 64), ops.hex.decode frame.nonceHex = some nonce ∧
        canonicalStateBytes json frame.fromMachineId nonce frame.state = .ok bytes ∧
        ops.hex.decode peerPubkeyHex = some pk.val ∧ ops.verify pk bytes sig = true := by
  unfold verifyFrame at h
  -- the nonce is looked at first, then what is decoded, then the signature
  by_cases hecho : (expectedNonceHex.isSome && expectedNonceHex != some frame.nonceHex) = true
  · rw [if_pos hecho] at h
    cases h
  · rw [if_neg hecho] at h
    obtain ⟨nonce, hnonce, h⟩ := except_bind_ok.mp h
    obtain ⟨bytes, hbytes, h⟩ := except_bind_ok.mp h
    obtain ⟨pkBytes, hpkBytes, h⟩ := except_bind_ok.mp h
    obtain ⟨pk, hpk, h⟩ := except_bind_ok.mp h
    by_cases hcurve : ops.onCurve pk = true
    · simp only [hcurve, Bool.not_true, Bool.false_eq_true, if_false] at h
      obtain ⟨sigBytes, -, h⟩ := except_bind_ok.mp h
      obtain ⟨sig, -, h⟩ := except_bind_ok.mp h
      refine ⟨?_, nonce, bytes, pk, sig, orError_ok hnonce, hbytes, ?_, ?_⟩
      · rintro e rfl
        have hsame : e = frame.nonceHex := by simpa using hecho
        exact hsame.symm
      · rw [orError_ok hpkBytes, Arr.val_of_ofBytes (orError_ok hpk)]
      · by_contra hverify
        rw [if_neg hverify] at h
        cases h
    · rw [Bool.not_eq_true] at hcurve
      simp only [hcurve, Bool.not_false, if_true] at h
      cases h

/-- **A frame that was made verifies** under its signer's key and its own nonce. -/
theorem verifyFrame_signFrame {ops : Primitives} {json : SyncJson} {signingKey : Arr 32}
    {machineId : String} {nonce : Arr 16} {state : VersionedConfig} {frame : SyncFrame}
    (hcurve : ops.onCurve (ops.verifyingKey signingKey) = true)
    (hverify : ∀ message, canonicalStateBytes json machineId nonce.val state = .ok message →
      ops.verify (ops.verifyingKey signingKey) message (ops.sign signingKey message) = true)
    (h : signFrame ops json signingKey machineId nonce state = .ok frame) :
    verifyFrame ops json (ops.hex.encode (ops.verifyingKey signingKey).val) (some frame.nonceHex) frame =
      .ok () := by
  obtain ⟨bytes, hbytes, rfl⟩ := signFrame_signs h
  unfold verifyFrame
  rw [if_neg (by simp)]
  refine except_bind_ok.mpr ⟨nonce.val, by rw [ops.hex.decode_encode, orError], ?_⟩
  refine except_bind_ok.mpr ⟨bytes, hbytes, ?_⟩
  refine except_bind_ok.mpr ⟨(ops.verifyingKey signingKey).val,
    by rw [ops.hex.decode_encode, orError], ?_⟩
  refine except_bind_ok.mpr ⟨ops.verifyingKey signingKey, by rw [Arr.ofBytes_val, orError], ?_⟩
  simp only [hcurve, Bool.not_true, Bool.false_eq_true, if_false]
  refine except_bind_ok.mpr ⟨(ops.sign signingKey bytes).val,
    by rw [ops.hex.decode_encode, orError], ?_⟩
  exact except_bind_ok.mpr ⟨ops.sign signingKey bytes, by rw [Arr.ofBytes_val, orError],
    if_pos (hverify bytes hbytes)⟩

/-- The fields of a signed frame have lengths that a `u32` holds. -/
def KeyUse.Fits (json : SyncJson) : KeyUse → Prop
  | .sync m n s => FieldsFit json m n.val s
  | _ => True

section Ideal

variable {json : SyncJson} {pk : Arr 32} {pubkeyHex : String} {uses : Set KeyUse}

/-- **A frame that verifies was signed as a frame**: with this sender, this nonce, this state. -/
theorem Verifier.Ideal.frame {ops : Primitives} (hideal : Verifier.Ideal ops.verify json ops.hex pk uses)
    (hjson : json.Injective) (hobjects : json.Objects) (hpk : ops.hex.decode pubkeyHex = some pk.val)
    (hfits : ∀ u ∈ uses, u.Fits json) {expected : Option String} {frame : SyncFrame}
    (hfit : ∀ n, ops.hex.decode frame.nonceHex = some n →
      FieldsFit json frame.fromMachineId n frame.state)
    (h : verifyFrame ops json pubkeyHex expected frame = .ok ()) :
    ∃ nonce : Arr 16, ops.hex.decode frame.nonceHex = some nonce.val ∧
      KeyUse.sync frame.fromMachineId nonce frame.state ∈ uses := by
  obtain ⟨-, nonce, bytes, pk', sig, hnonce, hbytes, hpk', hverify⟩ := verifyFrame_ok h
  obtain rfl : pk' = pk := Subtype.ext (Option.some.inj (hpk'.symm.trans hpk))
  obtain ⟨u, hu, hsigned⟩ := hideal.2 bytes sig hverify
  have hchecked := hideal.1 u hu
  -- the bytes are no transcript and no hash
  cases u with
  | sync m n s =>
      obtain ⟨rfl, rfl, rfl⟩ :=
        canonicalStateBytes_inj hjson (hfits _ hu) (hfit nonce hnonce) hsigned hbytes
      exact ⟨n, hnonce, hu⟩
  | pairing a b =>
      cases hsigned
      exact absurd hbytes (canonicalStateBytes_ne_transcript hchecked.1 hchecked.2)
  | handshake t =>
      cases hsigned
      exact absurd hbytes (canonicalStateBytes_ne_hash hobjects t)

/-- **A transcript whose signature verifies was signed in a pairing.** -/
theorem Verifier.Ideal.transcript {ops : Primitives} {verify : Verifier}
    (hideal : verify.Ideal json ops.hex pk uses) (hpk : ops.hex.decode pubkeyHex = some pk.val)
    {a b : PairHello} (ha : a.HasKey ops.hex) (hb : b.HasKey ops.hex) {sigHex : String}
    (h : verifySignature ops verify pubkeyHex (canonicalTranscript a b) sigHex = .ok ()) :
    ∃ ours theirs, KeyUse.pairing ours theirs ∈ uses ∧
      canonicalTranscript ours theirs = canonicalTranscript a b := by
  obtain ⟨pk', sig, hpk', hverify⟩ := verifySignature_ok h
  obtain rfl : pk' = pk := Subtype.ext (Option.some.inj (hpk'.symm.trans hpk))
  obtain ⟨u, hu, hsigned⟩ := hideal.2 _ sig hverify
  -- a frame starts with its domain, a transcript with a key, and a hash is too short for either
  cases u with
  | sync m n s => exact absurd hsigned (canonicalStateBytes_ne_transcript ha hb)
  | pairing ours theirs => exact ⟨ours, theirs, hu, Except.ok.inj hsigned⟩
  | handshake t =>
      exact absurd (Except.ok.inj hsigned).symm (canonicalTranscript_ne_hash ha hb t)

/-- **A hash whose signature verifies was signed in a handshake.** -/
theorem Verifier.Ideal.hash {ops : Primitives} {verify : Verifier}
    (hideal : verify.Ideal json ops.hex pk uses) {call : Call} {transcript : Arr 32} {body : Bytes}
    {machineId : String} (h : authenticatePeer ops verify call transcript body = .ok (machineId, pk)) :
    KeyUse.handshake transcript ∈ uses := by
  obtain ⟨-, sig, hverify⟩ := authenticatePeer_ok h
  obtain ⟨u, hu, hsigned⟩ := hideal.2 _ sig hverify
  have hchecked := hideal.1 u hu
  cases u with
  | sync m n s =>
      exact absurd hsigned (canonicalStateBytes_ne_hash_of_nonce n.length_val transcript)
  | pairing a b =>
      exact absurd (Except.ok.inj hsigned)
        (canonicalTranscript_ne_hash hchecked.1 hchecked.2 transcript)
  | handshake t =>
      obtain rfl : t = transcript := Subtype.ext (Except.ok.inj hsigned)
      exact hu

end Ideal

/-- **What the identity key signs is unambiguous.** Signed bytes of sync frames determine their
parts; a frame that verifies has the expected nonce and was signed as exactly this frame, and every
frame that was made verifies; no bytes belong to two of the three protocols, so a signature that
verifies in one of them was made in it. -/
theorem signed_bytes_unambiguous {json : SyncJson} (hjson : json.Injective)
    (hobjects : json.Objects) :
    (∀ m m' n n' s s' bytes, FieldsFit json m n s → FieldsFit json m' n' s' →
      canonicalStateBytes json m n s = .ok bytes → canonicalStateBytes json m' n' s' = .ok bytes →
        m = m' ∧ n = n' ∧ s = s') ∧
    (∀ (ops : Primitives) (pk : Arr 32) pubkeyHex uses expected frame,
      ops.hex.decode pubkeyHex = some pk.val → Verifier.Ideal ops.verify json ops.hex pk uses →
      (∀ u ∈ uses, u.Fits json) →
      (∀ n, ops.hex.decode frame.nonceHex = some n →
        FieldsFit json frame.fromMachineId n frame.state) →
      verifyFrame ops json pubkeyHex expected frame = .ok () →
        (∀ e, expected = some e → frame.nonceHex = e) ∧
          ∃ nonce : Arr 16, ops.hex.decode frame.nonceHex = some nonce.val ∧
            KeyUse.sync frame.fromMachineId nonce frame.state ∈ uses) ∧
    (∀ (ops : Primitives) signingKey machineId nonce state frame,
      ops.onCurve (ops.verifyingKey signingKey) = true →
      (∀ message, ops.verify (ops.verifyingKey signingKey) message
        (ops.sign signingKey message) = true) →
      signFrame ops json signingKey machineId nonce state = .ok frame →
        verifyFrame ops json (ops.hex.encode (ops.verifyingKey signingKey).val) (some frame.nonceHex)
          frame = .ok ()) ∧
    (∀ hex (u v : KeyUse) bytes, u.Checked hex → v.Checked hex → u.bytes json = .ok bytes →
      v.bytes json = .ok bytes → u.protocol = v.protocol) ∧
    (∀ ops (verify : Verifier) (pk : Arr 32) pubkeyHex uses a b sigHex,
      ops.hex.decode pubkeyHex = some pk.val → verify.Ideal json ops.hex pk uses → a.HasKey ops.hex → b.HasKey ops.hex →
      verifySignature ops verify pubkeyHex (canonicalTranscript a b) sigHex = .ok () →
        ∃ ours theirs, KeyUse.pairing ours theirs ∈ uses ∧
          canonicalTranscript ours theirs = canonicalTranscript a b) ∧
    ∀ ops (verify : Verifier) pk uses call transcript body machineId, verify.Ideal json ops.hex pk uses →
      authenticatePeer ops verify call transcript body = .ok (machineId, pk) →
        KeyUse.handshake transcript ∈ uses := by
  -- readable, verified as a frame, made and verified, and no bytes for two protocols; then the
  -- other two
  refine ⟨?_, ?_, ?_, ?_, ?_, ?_⟩
  · intro m m' n n' s s' bytes hfit hfit' h h'
    exact canonicalStateBytes_inj hjson hfit hfit' h h'
  · intro ops pk pubkeyHex uses expected frame hpk hideal hfits hfit h
    exact ⟨(verifyFrame_ok h).1, hideal.frame hjson hobjects hpk hfits hfit h⟩
  · intro ops signingKey machineId nonce state frame hcurve hverify h
    exact verifyFrame_signFrame hcurve (fun message _ => hverify message) h
  · intro hex u v bytes hu hv h h'
    exact KeyUse.protocol_eq hu hv h h'
  · intro ops verify pk pubkeyHex uses a b sigHex hpk hideal ha hb h
    exact hideal.transcript hpk ha hb h
  · intro ops verify pk uses call transcript body machineId hideal h
    exact hideal.hash h

/-! ### One signed frame -/

deriving instance DecidableEq for F32, PathBuf, BinaryPaths, AudioConfig, Config, VersionedConfig

namespace Sample

/-- The only state of the sample, that of a new machine. -/
def soleState : VersionedConfig := .initial Config.default "a"

/-- Stand-in JSON that can write that one state, and nothing else. -/
def soleJson : SyncJson where
  stateToJson s := if s = soleState then .ok (ascii "[1,\"a\"]") else .error "key must be a string"
  frameToJson _ := .error "key must be a string"
  frameFromJson _ := .error "EOF while parsing"

/-- The one thing the sample machine has ever signed. -/
def soleUse : KeyUse := .sync "a" (pad 16 [7]) soleState

/-- Its bytes, as they are put together from the domain and the three fields. -/
def soleBytes : Bytes :=
  pushField signDomain ++ pushField (utf8 "a") ++ pushField (pad 16 [7]).val ++
    pushField (ascii "[1,\"a\"]")

/-- The sample primitives, where nothing verifies but that signature. -/
def soleOps : Primitives :=
  { ops with
    verify := fun pk message sig =>
      pk = pad 32 [1] && message = soleBytes && sig = ops.sign (pad 32 [1]) soleBytes }

/-- The frame that carries it, with the nonce and the signature in hex. -/
def soleFrame : SyncFrame :=
  ⟨"a", soleOps.hex.encode (pad 16 [7]).val, soleState,
    soleOps.hex.encode (ops.sign (pad 32 [1]) soleBytes).val⟩

/-- What the stand-in JSON writes. -/
theorem soleJson_eq (s : VersionedConfig) : soleJson.stateToJson s =
    if s = soleState then .ok (ascii "[1,\"a\"]") else .error "key must be a string" := rfl

/-- Only the one state can be written. -/
theorem soleJson_ok {s : VersionedConfig} {b : Bytes} (h : soleJson.stateToJson s = .ok b) :
    s = soleState ∧ b = ascii "[1,\"a\"]" := by
  by_cases hs : s = soleState
  · rw [soleJson_eq, if_pos hs] at h
    exact ⟨hs, (Except.ok.inj h).symm⟩
  · rw [soleJson_eq, if_neg hs] at h
    cases h

/-- So different states have different texts. -/
theorem soleJson_injective : soleJson.Injective := fun _ _ _ hs ht =>
  (soleJson_ok hs).1.trans (soleJson_ok ht).1.symm

/-- And the text is more than a pair of braces. -/
theorem soleJson_objects : soleJson.Objects := fun _ _ h => by
  rw [(soleJson_ok h).2]
  decide

/-- The bytes of the one use. -/
theorem soleUse_bytes : soleUse.bytes soleJson = .ok soleBytes := by
  refine canonicalStateBytes_ok.mpr ⟨_, by rw [soleJson_eq, if_pos rfl], ?_⟩
  simp only [soleBytes, List.append_assoc, List.append_nil]

/-- Under the sample key nothing verifies but the one use. -/
theorem soleOps_ideal : Verifier.Ideal soleOps.verify soleJson soleOps.hex (pad 32 [1]) {soleUse} := by
  refine ⟨fun u hu => ?_, fun message sig h => ⟨soleUse, rfl, ?_⟩⟩
  · rw [Set.mem_singleton_iff.mp hu]
    trivial
  · have hmessage : message = soleBytes := by
      simp only [soleOps, Bool.and_eq_true, decide_eq_true_eq] at h
      exact h.1.2
    rw [hmessage, soleUse_bytes]

/-- The machine makes the frame, and it verifies under the machine's key. -/
theorem soleFrame_verifies : verifyFrame soleOps soleJson (soleOps.hex.encode (pad 32 [1]).val)
    (some soleFrame.nonceHex) soleFrame = .ok () := by
  have hframe : signFrame soleOps soleJson (pad 32 [1]) "a" (pad 16 [7]) soleState =
      .ok soleFrame := by
    rw [signFrame, show canonicalStateBytes soleJson "a" (pad 16 [7]).val soleState = .ok soleBytes
      from soleUse_bytes]
    rfl
  refine verifyFrame_signFrame rfl (fun message h => ?_) hframe
  obtain rfl : soleBytes = message := Except.ok.inj (soleUse_bytes.symm.trans h)
  show (decide (pad 32 [1] = pad 32 [1]) && decide (soleBytes = soleBytes) &&
    decide (ops.sign (pad 32 [1]) soleBytes = ops.sign (pad 32 [1]) soleBytes)) = true
  simp only [decide_true, Bool.and_self]

/-- The fields of the one use have lengths that a `u32` holds. -/
theorem soleUse_fits : FieldsFit soleJson "a" (pad 16 [7]).val soleState := by
  refine ⟨by decide +kernel, by decide, fun b h => ?_⟩
  rw [(soleJson_ok h).2]
  decide

end Sample

/-- The one frame verifies, and was signed: the theorem at the sample. -/
theorem signed_bytes_unambiguous_sample :
    verifyFrame Sample.soleOps Sample.soleJson (Sample.soleOps.hex.encode (Sample.pad 32 [1]).val)
        (some Sample.soleFrame.nonceHex) Sample.soleFrame = .ok () ∧
      ∃ nonce : Arr 16, Sample.soleOps.hex.decode Sample.soleFrame.nonceHex = some nonce.val ∧
        KeyUse.sync "a" nonce Sample.soleState ∈ ({Sample.soleUse} : Set KeyUse) := by
  refine ⟨Sample.soleFrame_verifies, ?_⟩
  obtain ⟨-, hframe, -⟩ :=
    signed_bytes_unambiguous Sample.soleJson_injective Sample.soleJson_objects
  refine (hframe Sample.soleOps (Sample.pad 32 [1]) _ {Sample.soleUse} _ Sample.soleFrame
    (HexCodec.decode_encode _ _) Sample.soleOps_ideal ?_ ?_ Sample.soleFrame_verifies).2
  · intro u hu
    rw [Set.mem_singleton_iff.mp hu]
    exact Sample.soleUse_fits
  · intro n hn
    obtain rfl : (Sample.pad 16 [7]).val = n :=
      Option.some.inj ((HexCodec.decode_encode _ _).symm.trans hn)
    exact Sample.soleUse_fits

end Synbad
