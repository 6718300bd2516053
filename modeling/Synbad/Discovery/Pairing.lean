import Synbad.Crypto.Sessions
import Synbad.Sync.Protocol

/-! # The pairing protocol

`synbad-discovery/src/pairing.rs`: the messages of a pairing session, the transcript both sides sign,
the code their users compare, and the check of a signature. The transcript puts the contributions in
the order of the keys, so it is the same whoever opened the connection.

Signing, hashing and the curve's points come with `Primitives`, as parameters. What a verified
signature says is proved for whatever verifier it is checked with: both texts were hex, of 32 and of
64 bytes, and the verifier accepted the signature over exactly this transcript. Whether the session
had all it needs by then is the matter of the session itself. -/

namespace Synbad

open Bytes (Arr utf8 pushField)

/-- `SAS_DOMAIN`, which is hashed after the transcript. -/
def sasDomain : Bytes := ascii "synbad-pair-sas-v1"

/-- `PairingError`: what a signature or a key may be rejected for. -/
inductive PairingError where
  | malformed (what : String)
  | badSignature
  | peerDeclined
  | badPublicKey
  deriving DecidableEq, Repr

/-- `PairHello`: the contribution of one side, as it is sent. -/
structure PairHello where
  pubkeyHex : String
  nonceHex : String
  machineId : String
  displayName : String
  deriving DecidableEq, Repr

/-- `PairConfirm`: one side's verdict, with its signature over the transcript if it is yes. -/
structure PairConfirm where
  accepted : Bool
  sigHex : String
  deriving DecidableEq, Repr

/-- One side's part of the transcript: its four fields, each with its length in front. -/
def PairHello.fields (side : PairHello) : Bytes :=
  pushField (utf8 side.pubkeyHex) ++ pushField (utf8 side.nonceHex) ++
    pushField (utf8 side.machineId) ++ pushField (utf8 side.displayName)

/-- `canonical_transcript`: the parts of both sides, the one with the smaller key first. -/
def canonicalTranscript (a b : PairHello) : Bytes :=
  -- in the order of the keys' texts, as bytes
  if utf8 a.pubkeyHex ≤ utf8 b.pubkeyHex then a.fields ++ b.fields else b.fields ++ a.fields

/-- A text with hyphens between groups of `n` characters, as in `ab-cd-ef`. -/
def hyphenated (n : ℕ) (s : String) : String :=
  String.ofList (s.toList.zipIdx.flatMap fun (c, i) => if 0 < i ∧ i % n = 0 then ['-', c] else [c])

/-- `sas_code`: what both users are shown, six bytes of the hash in groups of two digits. -/
def sasCode (ops : Primitives) (transcript : Bytes) : String :=
  hyphenated 2 (ops.hex.encode ((ops.sha256 (transcript ++ sasDomain)).val.take 6))

/-- `fingerprint_for`, of `identity.rs`: eight bytes of the key's hash in groups of four digits. -/
def fingerprintFor (ops : Primitives) (publicKey : Arr 32) : String :=
  hyphenated 4 (ops.hex.encode ((ops.sha256 publicKey.val).val.take 8))

/-- `sign_transcript`: the signature in hex, under the machine's own key. -/
def signTranscript (ops : Primitives) (signingKey : Arr 32) (transcript : Bytes) : String :=
  ops.hex.encode (ops.sign signingKey transcript).val

/-- `verify_signature`: the key and the signature are read, and then the one is checked with the
other. -/
def verifySignature (ops : Primitives) (verify : Verifier) (peerPubkeyHex : String)
    (transcript : Bytes) (sigHex : String) : Except PairingError Unit := do
  let pkBytes ← orError .badPublicKey (ops.hex.decode peerPubkeyHex)
  let pk ← orError .badPublicKey (Arr.ofBytes 32 pkBytes)
  if !ops.onCurve pk then throw .badPublicKey
  let sigBytes ← orError .badSignature (ops.hex.decode sigHex)
  let sig ← orError .badSignature (Arr.ofBytes 64 sigBytes)
  if verify pk transcript sig then return else throw .badSignature

/-! ## What a verified signature says -/

variable {ops : Primitives} {verify : Verifier} {peerPubkeyHex : String} {transcript : Bytes}

/-- A signature that was accepted is the one written there, and verifies under the key written
there. -/
theorem verifySignature_written {sigHex : String}
    (h : verifySignature ops verify peerPubkeyHex transcript sigHex = .ok ()) :
    ∃ pk : Arr 32, ∃ sig : Arr 64, ops.hex.decode peerPubkeyHex = some pk.val ∧
      ops.hex.decode sigHex = some sig.val ∧ verify pk transcript sig = true := by
  unfold verifySignature at h
  obtain ⟨pkBytes, hbytes, h⟩ := except_bind_ok.mp h
  obtain ⟨pk, hpk, h⟩ := except_bind_ok.mp h
  by_cases hcurve : ops.onCurve pk = true
  · simp only [hcurve, Bool.not_true, Bool.false_eq_true, if_false] at h
    obtain ⟨sigBytes, hsigBytes, h⟩ := except_bind_ok.mp h
    obtain ⟨sig, hsig, h⟩ := except_bind_ok.mp h
    refine ⟨pk, sig, ?_, ?_, ?_⟩
    · rw [orError_ok hbytes, Arr.val_of_ofBytes (orError_ok hpk)]
    · rw [orError_ok hsigBytes, Arr.val_of_ofBytes (orError_ok hsig)]
    · by_contra hverify
      rw [if_neg hverify] at h
      cases h
  · rw [Bool.not_eq_true] at hcurve
    simp only [hcurve, Bool.not_false, if_true] at h
    cases h

/-- A signature that was accepted verifies under the key that is written there. -/
theorem verifySignature_ok {sigHex : String}
    (h : verifySignature ops verify peerPubkeyHex transcript sigHex = .ok ()) :
    ∃ pk : Arr 32, ∃ sig, ops.hex.decode peerPubkeyHex = some pk.val ∧ verify pk transcript sig = true := by
  obtain ⟨pk, sig, hpk, -, hverify⟩ := verifySignature_written h
  exact ⟨pk, sig, hpk, hverify⟩

/-- **A signature that was made is accepted** under the key of its signer, however the key is
written. -/
theorem verifySignature_signTranscript {signingKey pk : Arr 32}
    (hpk : ops.hex.decode peerPubkeyHex = some pk.val) (hcurve : ops.onCurve pk = true)
    (hverify : verify pk transcript (ops.sign signingKey transcript) = true) :
    verifySignature ops verify peerPubkeyHex transcript
      (signTranscript ops signingKey transcript) = .ok () := by
  unfold verifySignature
  refine except_bind_ok.mpr ⟨pk.val, by rw [hpk, orError], ?_⟩
  refine except_bind_ok.mpr ⟨pk, by rw [Arr.ofBytes_val, orError], ?_⟩
  simp only [hcurve, Bool.not_true, Bool.false_eq_true, if_false]
  refine except_bind_ok.mpr ⟨(ops.sign signingKey transcript).val, ?_, ?_⟩
  · rw [signTranscript, ops.hex.decode_encode, orError]
  · exact except_bind_ok.mpr ⟨_, by rw [Arr.ofBytes_val, orError], if_pos hverify⟩

end Synbad
