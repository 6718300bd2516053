import Synbad.Crypto.Handshake
import Synbad.Sync.Versioned

/-! # Sync frames

`synbad-sync/src/protocol.rs`: the one signed message each side of a sync session sends. The signature
covers the sender's id, the nonce of the session and the state, each with its length in front. JSON
comes from a library and is a parameter, as the cryptographic primitives are, and so is the
hexadecimal text of nonce, key and signature.

A frame is verified against the key that the receiver has for the sender, not against one it names
itself. Every step of `verifyFrame` has its own error, in the order of the source, since a later
module asks which frames a session rejects and at which point: the nonce is decoded before the
signature is looked at, but only its text is compared, so a nonce of any length passes here. That it
has sixteen bytes is noticed by whoever makes a reply. -/

namespace Synbad

open Bytes (Arr utf8 pushField)

/-- `SIGN_DOMAIN`, the field that every signed text begins with. -/
def signDomain : Bytes := ascii "synbad-sync-v1"

/-- `ProtocolError`: why a frame could not be made or is not acceptable. -/
inductive ProtocolError where
  | malformed (what : String)
  | badSignature
  | badPublicKey
  | hex
  | json (e : String)
  deriving DecidableEq, Repr

/-- `SyncFrame`: the sender's id, the nonce of the session, the state, and the signature over the
three. -/
structure SyncFrame where
  fromMachineId : String
  nonceHex : String
  state : VersionedConfig
  sigHex : String

/-- JSON, as `serde_json` provides it, for what sync sessions send. -/
structure SyncJson where
  stateToJson : VersionedConfig → Except String Bytes
  frameToJson : SyncFrame → Except String Bytes
  frameFromJson : Bytes → Except String SyncFrame

/-- `canonical_state_bytes`: the bytes that are signed, four fields each with its length in front. -/
def canonicalStateBytes (json : SyncJson) (fromMachineId : String) (nonce : Bytes)
    (state : VersionedConfig) : Except ProtocolError Bytes := do
  let stateBytes ← (json.stateToJson state).mapError .json
  return pushField signDomain ++ pushField (utf8 fromMachineId) ++ pushField nonce ++
    pushField stateBytes

/-- `sign_frame`: the frame of this machine around a state, with the signature over its canonical
bytes. -/
def signFrame (ops : Primitives) (json : SyncJson) (signingKey : Arr 32) (fromMachineId : String)
    (nonce : Arr 16) (state : VersionedConfig) : Except ProtocolError SyncFrame := do
  let signedBytes ← canonicalStateBytes json fromMachineId nonce.val state
  return {
    fromMachineId := fromMachineId
    nonceHex := ops.hex.encode nonce.val
    state := state
    sigHex := ops.hex.encode (ops.sign signingKey signedBytes).val }

/-- A value, or this error where there is none. -/
def orError {ε α : Type} (e : ε) : Option α → Except ε α
  | none => .error e
  | some a => .ok a

/-- If asking for a value came through, the value was there. -/
theorem orError_ok {ε α : Type} {e : ε} {x : Option α} {a : α} (h : orError e x = .ok a) :
    x = some a := by
  cases x with
  | none => cases h
  | some b =>
      cases h
      rfl

/-- A value was there before its errors were renamed. -/
theorem mapError_ok {ε δ α : Type} {f : ε → δ} {x : Except ε α} {a : α}
    (h : x.mapError f = .ok a) : x = .ok a := by
  cases x with
  | error e => cases h
  | ok b =>
      cases h
      rfl

/-- `verify_frame`: the nonce is the expected one, if one is expected, and the signature verifies over
the frame's own bytes under the peer's key. -/
def verifyFrame (ops : Primitives) (json : SyncJson) (peerPubkeyHex : String)
    (expectedNonceHex : Option String) (frame : SyncFrame) : Except ProtocolError Unit := do
  if expectedNonceHex.isSome && expectedNonceHex != some frame.nonceHex then
    throw (.malformed "nonce echo mismatch")
  let nonce ← orError .hex (ops.hex.decode frame.nonceHex)
  let signedBytes ← canonicalStateBytes json frame.fromMachineId nonce frame.state
  let pkBytes ← orError .badPublicKey (ops.hex.decode peerPubkeyHex)
  let pk ← orError .badPublicKey (Arr.ofBytes 32 pkBytes)
  if !ops.onCurve pk then throw .badPublicKey
  let sigBytes ← orError .badSignature (ops.hex.decode frame.sigHex)
  let sig ← orError .badSignature (Arr.ofBytes 64 sigBytes)
  if ops.verify pk signedBytes sig then return else throw .badSignature

end Synbad
