import Synbad.Discovery.Pairing
import Synbad.Discovery.Trust

/-! # Pairing sessions

`run_session` with `run_session_inner`, of `synbadd/src/pairing.rs`. A session is modelled by where it
stands between two of its awaits, with the data it has in hand there, and by what it does when the
await it is at returns. Around it are the trust store, which the whole daemon shares, and everyone who
signs: this session, the rest of this machine, and whoever holds another key. The transport below is
anonymous, so any message may come from anyone.

The state has three fields that decide nothing and say what has happened: the Hellos, the verdict and
the entry that was saved. With the record of signatures they are what the results on pairing are
stated in. A signature counts as valid if it verifies and was made by somebody (`idealVerify`), which
is what is assumed of ed25519; the code only ever verifies. -/

namespace Synbad

open Bytes (Arr)

/-- `PairMessage`: what the two sides send each other, as JSON. -/
inductive PairMessage where
  | hello (hello : PairHello)
  | confirm (confirm : PairConfirm)
  deriving DecidableEq, Repr

/-- JSON, as `serde_json` provides it, for the messages of a session. -/
structure PairJson where
  toJson : PairMessage → Except String Bytes
  fromJson : Bytes → Except String PairMessage

/-- `SessionDeps`, the shared parts of the daemon apart, and whom the session was opened to. -/
structure PairDeps where
  ops : Primitives
  json : PairJson
  machineId : String
  signingKey : Arr 32
  displayName : String
  /-- `expected_peer_id`: whom the session was opened to, and none for one that was accepted. -/
  expectedPeerId : Option String

/-- `identity.public_key`, as it follows from the key we sign with. -/
def PairDeps.publicKey (deps : PairDeps) : Arr 32 := deps.ops.verifyingKey deps.signingKey

/-- Why a session ended without success; the supervisor is told so. -/
inductive PairFailure where
  /-- The transport fails at one of its operations, or the time is up. -/
  | transport (e : String)
  | serialize (e : String)
  | parse (e : String)
  | expectedHello (got : PairMessage)
  | wrongPeer (got expected : String)
  | selfPairing
  | badPubkeyHex
  | pubkeyWrongLength
  | confirmationDropped
  | expectedPeerConfirmation
  | expectedConfirm (got : PairMessage)
  | peerDeclined
  | userDeclined
  | pairing (e : PairingError)
  | persisting (e : TrustError)

/-- What a session tells the supervisor, which passes it on to the windows. -/
inductive PairEvent where
  | proposed (peerMachineId peerDisplayName peerFingerprint verificationCode : String)
  | completed (peer : TrustedPeer)
  | failed (e : PairFailure)

/-! ## Messages -/

/-- `send_msg`, up to the write: the message as JSON, or no message. -/
def PairJson.sendMsg (json : PairJson) (message : PairMessage) : Except PairFailure Bytes :=
  (json.toJson message).mapError .serialize

/-- `recv_msg`, from the bytes the channel delivers, which may be anything. -/
def PairJson.recvMsg (json : PairJson) (body : Bytes) : Except PairFailure PairMessage :=
  (json.fromJson body).mapError .parse

/-- A message that should be a Hello, and is an error if it is not. -/
def PairJson.recvHello (json : PairJson) (body : Bytes) : Except PairFailure PairHello := do
  match ← json.recvMsg body with
  | .hello hello => return hello
  | other => throw (.expectedHello other)

/-- A message that should be a Confirm; what else it is makes the error. -/
def PairJson.recvConfirm (json : PairJson) (error : PairMessage → PairFailure) (body : Bytes) :
    Except PairFailure PairConfirm := do
  match ← json.recvMsg body with
  | .confirm confirm => return confirm
  | other => throw (error other)

/-- `pubkey_from_hex`: hexadecimal digits of 32 bytes. Whether they are a point of the curve is not
asked. -/
def pubkeyFromHex (hex : HexCodec) (s : String) : Except PairFailure (Arr 32) := do
  let bytes ← orError .badPubkeyHex (hex.decode s)
  orError .pubkeyWrongLength (Arr.ofBytes 32 bytes)

/-! ## Hellos and Confirms -/

/-- The two Hellos of a session, ours and the peer's. -/
structure PairHellos where
  ours : PairHello
  theirs : PairHello
  deriving DecidableEq, Repr

/-- The transcript of a session, which both sides compute from the same two Hellos. -/
def PairHellos.transcript (h : PairHellos) : Bytes := canonicalTranscript h.ours h.theirs

/-- The Hello of this machine, with the nonce that has been drawn for the session. -/
def PairDeps.ourHello (deps : PairDeps) (nonce : Arr 16) : PairHello where
  pubkeyHex := deps.ops.hex.encode deps.publicKey.val
  nonceHex := deps.ops.hex.encode nonce.val
  machineId := deps.machineId
  displayName := deps.displayName

/-- The machine that answers is the one the session was opened to. -/
def expectPeer (expectedPeerId : Option String) (machineId : String) : Except PairFailure Unit :=
  match expectedPeerId with
  | none => .ok ()
  | some expected => if expected ≠ machineId then .error (.wrongPeer machineId expected) else .ok ()

/-- The checks of the peer's Hello, and the key in it. -/
def PairDeps.checkHello (deps : PairDeps) (theirs : PairHello) : Except PairFailure (Arr 32) := do
  expectPeer deps.expectedPeerId theirs.machineId
  -- a session with ourselves is recognised by the machine id
  if theirs.machineId = deps.machineId then throw .selfPairing
  pubkeyFromHex deps.ops.hex theirs.pubkeyHex

/-- `PairingProposed`: whom the user is asked about, with the code to compare. -/
def PairDeps.proposal (deps : PairDeps) (h : PairHellos) (pk : Arr 32) : PairEvent :=
  .proposed h.theirs.machineId h.theirs.displayName (fingerprintFor deps.ops pk)
    (sasCode deps.ops h.transcript)

/-- The Confirm of this machine: signed if the user accepted. -/
def PairDeps.ourConfirm (deps : PairDeps) (h : PairHellos) (ourAccept : Bool) : PairConfirm where
  accepted := ourAccept
  sigHex := if ourAccept then signTranscript deps.ops deps.signingKey h.transcript else ""

/-- The checks of the peer's Confirm: it says yes, and its signature is by the key of the peer's
Hello. -/
def PairDeps.checkConfirm (deps : PairDeps) (verify : Verifier) (h : PairHellos)
    (peerConfirm : PairConfirm) : Except PairFailure Unit :=
  if !peerConfirm.accepted then .error .peerDeclined
  else (verifySignature deps.ops verify h.theirs.pubkeyHex h.transcript peerConfirm.sigHex).mapError
    .pairing

/-- The entry a session makes: the machine and the key of the peer's Hello. -/
def PairDeps.trusted (deps : PairDeps) (theirs : PairHello) (now : ℕ) :
    Except PairFailure TrustedPeer := do
  let pk ← pubkeyFromHex deps.ops.hex theirs.pubkeyHex
  return {
    machineId := theirs.machineId
    displayName := theirs.displayName
    publicKeyHex := theirs.pubkeyHex
    fingerprint := fingerprintFor deps.ops pk
    pairedAtUnix := now }

/-! ## The session and what is around it -/

/-- Where a session stands between two of its awaits, with what it has in hand there. -/
inductive PairStage where
  | connecting
  | awaitsHello (ours : PairHello)
  /-- The user's verdict and the peer's Confirm are both waited for. -/
  | deciding (h : PairHellos)
  /-- The peer's Confirm came first, and is kept until the user has spoken. -/
  | awaitsVerdict (h : PairHellos) (early : PairConfirm)
  /-- Our Confirm is being written, and the peer's is in hand or still to come. -/
  | sending (h : PairHellos) (ourAccept : Bool) (body : Bytes) (early : Option PairConfirm)
  | awaitsConfirm (h : PairHellos)
  /-- The peer's Confirm is verified; the trust store is waited for. -/
  | persisting (h : PairHellos)
  | completed
  | failed (e : PairFailure)

/-- The session is over, with an entry or without. -/
def PairStage.isFinished : PairStage → Bool
  | .completed => true
  | .failed _ => true
  | _ => false

/-- Who made a signature, as far as it matters to a session. -/
inductive Signer where
  | thisSession
  /-- This machine, for another session or another purpose of the same key. -/
  | thisMachine
  | other
  deriving DecidableEq, Repr

/-- A signature that was made: by whom, with what key, on what. -/
structure PairSigning where
  signer : Signer
  key : Arr 32
  message : Bytes
  deriving DecidableEq

/-- A session, the trust store and the signatures made so far. `hellos`, `verdict` and `saved` only
record what has happened: that a Hello has come, what the user said, and what entry was given to the
trust store to save. -/
structure Pairing where
  stage : PairStage
  sent : List Bytes
  events : List PairEvent
  trust : TrustedPeerStore
  log : List PairSigning
  hellos : Option PairHellos
  verdict : Option Bool
  saved : Option TrustedPeer

/-- What happens next, to the session or around it. -/
inductive PairMove where
  /-- The transport is up and our Hello written; `nonce` is what the generator gave. -/
  | connected (nonce : Arr 16)
  | receive (body : Bytes)
  /-- `ConfirmPairing`: the user has spoken. -/
  | verdict (accept : Bool)
  /-- The sender of the verdict is gone, so that no verdict will come. -/
  | verdictDropped
  /-- Our Confirm is written, as a whole. -/
  | sent
  /-- The trust store is locked for the session; `fails` is what stops the save. -/
  | persist (now : ℕ) (fails : Option SaveFault)
  /-- An operation of the network fails, or the time is up. -/
  | fail (e : String)
  /-- This machine signs something outside this session, whatever that is. -/
  | machineSigns (message : Bytes)
  /-- The holder of another key signs something, whoever that is. -/
  | otherSigns (key : Arr 32) (message : Bytes)
  /-- Someone else writes the trust store, which the session shares with the whole daemon. -/
  | trustChanges (trust : TrustedPeerStore)

/-- Ideal signatures: besides verifying, a signature must have been made. -/
def idealVerify (ops : Primitives) (log : List PairSigning) : Verifier := fun pk message sig =>
  ops.verify pk message sig && log.any fun e => e.key = pk ∧ e.message = message

namespace Pairing

/-- A session that has just been spawned: nothing is sent, told or saved. -/
def start (trust : TrustedPeerStore) : Pairing where
  stage := .connecting
  sent := []
  events := []
  trust := trust
  log := []
  hellos := none
  verdict := none
  saved := none

/-- The session ends with an error, which it tells the supervisor. -/
def stop (w : Pairing) (e : PairFailure) : Pairing :=
  { w with stage := .failed e, events := w.events ++ [.failed e] }

/-- The transport is up: our Hello is sent, and the peer's is waited for. -/
def connected (deps : PairDeps) (w : Pairing) (nonce : Arr 16) : Pairing :=
  match deps.json.sendMsg (.hello (deps.ourHello nonce)) with
  | .error e => w.stop e
  | .ok body => { w with stage := .awaitsHello (deps.ourHello nonce), sent := w.sent ++ [body] }

/-- The first message: the peer's Hello, which is checked before the user is asked about it. -/
def receiveHello (deps : PairDeps) (w : Pairing) (ours : PairHello) (body : Bytes) : Pairing :=
  match deps.json.recvHello body with
  | .error e => w.stop e
  | .ok theirs =>
      let w := { w with hellos := some ⟨ours, theirs⟩ }
      match deps.checkHello theirs with
      | .error e => w.stop e
      | .ok pk =>
          { w with
            stage := .deciding ⟨ours, theirs⟩
            events := w.events ++ [deps.proposal ⟨ours, theirs⟩ pk] }

/-- A message while the user decides: the peer's Confirm. -/
def receiveEarly (deps : PairDeps) (w : Pairing) (h : PairHellos) (body : Bytes) : Pairing :=
  match deps.json.recvConfirm (fun _ => .expectedPeerConfirmation) body with
  | .error e => w.stop e
  | .ok confirm =>
      if !confirm.accepted then w.stop .peerDeclined
      else { w with stage := .awaitsVerdict h confirm }

/-- The user's verdict: sign the transcript if it is yes, and send our Confirm either way. -/
def decided (deps : PairDeps) (w : Pairing) (h : PairHellos) (ourAccept : Bool)
    (early : Option PairConfirm) : Pairing :=
  -- the signature is made before our Confirm is written
  let signed := if ourAccept then [⟨.thisSession, deps.publicKey, h.transcript⟩] else []
  let w := { w with verdict := some ourAccept, log := w.log ++ signed }
  match deps.json.sendMsg (.confirm (deps.ourConfirm h ourAccept)) with
  | .error e => w.stop e
  | .ok body => { w with stage := .sending h ourAccept body early }

/-- Both users have spoken: the peer's Confirm is checked, and then there is an entry to save. -/
def settle (deps : PairDeps) (w : Pairing) (h : PairHellos) (peerConfirm : PairConfirm) : Pairing :=
  match deps.checkConfirm (idealVerify deps.ops w.log) h peerConfirm with
  | .error e => w.stop e
  | .ok () => { w with stage := .persisting h }

/-- Our Confirm is written: if it was a no this is the end, and otherwise the peer's is checked or
waited for. -/
def confirmed (deps : PairDeps) (w : Pairing) (h : PairHellos) (ourAccept : Bool) (body : Bytes)
    (early : Option PairConfirm) : Pairing :=
  let w := { w with sent := w.sent ++ [body] }
  if !ourAccept then w.stop .userDeclined
  else
    match early with
    | some confirm => settle deps w h confirm
    | none => { w with stage := .awaitsConfirm h }

/-- A message while the peer's Confirm is waited for. -/
def receiveConfirm (deps : PairDeps) (w : Pairing) (h : PairHellos) (body : Bytes) : Pairing :=
  match deps.json.recvConfirm .expectedConfirm body with
  | .error e => w.stop e
  | .ok confirm => settle deps w h confirm

/-- The entry is saved, and announced only if the save went well. -/
def persist (deps : PairDeps) (w : Pairing) (h : PairHellos) (now : ℕ) (fails : Option SaveFault) :
    Pairing :=
  match deps.trusted h.theirs now with
  | .error e => w.stop e
  | .ok trusted =>
      -- a failed save may have left the entry in the file, but not in memory
      match w.trust.upsert trusted fails with
      | (trust, .error e) => { w with trust := trust, saved := some trusted }.stop (.persisting e)
      | (trust, .ok ()) =>
          { w with
            stage := .completed
            trust := trust
            saved := some trusted
            events := w.events ++ [.completed trusted] }

/-- One step of a session; a move that is not the next one where it stands changes nothing. -/
def step (deps : PairDeps) (w : Pairing) : PairMove → Pairing
  | .connected nonce =>
      match w.stage with
      | .connecting => connected deps w nonce
      | _ => w
  | .receive body =>
      match w.stage with
      | .awaitsHello ours => receiveHello deps w ours body
      | .deciding h => receiveEarly deps w h body
      | .awaitsConfirm h => receiveConfirm deps w h body
      | _ => w
  | .verdict accept =>
      match w.stage with
      | .deciding h => decided deps w h accept none
      | .awaitsVerdict h early => decided deps w h accept (some early)
      | _ => w
  | .verdictDropped =>
      match w.stage with
      | .deciding _ => w.stop .confirmationDropped
      | .awaitsVerdict _ _ => w.stop .confirmationDropped
      | _ => w
  | .sent =>
      match w.stage with
      | .sending h ourAccept body early => confirmed deps w h ourAccept body early
      | _ => w
  | .persist now fails =>
      match w.stage with
      | .persisting h => persist deps w h now fails
      | _ => w
  -- the time may be up at every await
  | .fail e => if w.stage.isFinished then w else w.stop (.transport e)
  | .machineSigns message => { w with log := w.log ++ [⟨.thisMachine, deps.publicKey, message⟩] }
  | .otherSigns key message =>
      -- nobody else holds this machine's key
      if key = deps.publicKey then w else { w with log := w.log ++ [⟨.other, key, message⟩] }
  | .trustChanges trust => { w with trust := trust }

end Pairing

end Synbad
