import Synbad.Audio.Bridge
import Synbad.Sync.Session

/-! # Signaling connections

`synbadd/src/audio.rs`: a dial to a peer's audio port, and a connection accepted on ours. Either is a
task of its own that looks into the trust store, runs the authenticated handshake and hands the stream
to the bridge. A dial always reports how it ended. What reaches the rest of the daemon (the bridge's
channel and the channel of outcomes) is left to the network.

A dial is given the bridge it is for when it is spawned, and keeps its number, as the subsystem may be
torn down and brought up again before the stream is handed over. What it reports is about its own peer
(`Reports`), and it goes on as `Continues` says: to the same peer, for the same bridge, one stage
after the other. Those two are what the books on dials are kept by.

An accepted connection takes a snapshot of the trust store before its handshake, as the sync listener
does, and looks into the store once more when the peer is known; the bridge asks it a third time when
the stream is handed over. So what is decided here is only who the peer is. -/

namespace Synbad

namespace Audio

open Bytes (Arr)

/-! ## Dials -/

/-- Why a signaling connection came to nothing, at which of its steps. -/
inductive DialError where
  | noAudioPort (machineId : String)
  | notTrusted (machineId : String)
  | badTrustedKey
  | connect (host : String) (audioPort : ℕ) (e : String)
  | handshakeTimedOut (machineId : String)
  | handshake (machineId : String) (e : HandshakeError)
  | anonymous
  | revoked
  | handoffTimedOut
  | bridgeGone

/-- `AudioDialOutcome`: how a dial has ended, for the loop to hear. -/
inductive AudioDialOutcome where
  | ok (peerMachineId : String)
  | err (peerMachineId : String) (error : DialError)

/-- The peer an outcome is about, whichever it is. -/
def AudioDialOutcome.peer : AudioDialOutcome → String
  | .ok peerMachineId => peerMachineId
  | .err peerMachineId _ => peerMachineId

/-- Where a dial stands, between two of its awaits. -/
inductive DialStage where
  /-- The task has been spawned and waits for the trust store. -/
  | spawned
  | connecting (trusted : TrustedPeer) (peerPk : Arr 32)
  | handshaking (trusted : TrustedPeer) (peerPk : Arr 32)
  /-- Waiting for room in the bridge's channel, with the stream in hand. -/
  | handingOff (trusted : TrustedPeer)
  /-- Waiting for room in the channel of outcomes, to report how it ended. -/
  | reporting (outcome : AudioDialOutcome)
  | finished

/-- The task is over, and has reported. -/
def DialStage.isFinished : DialStage → Bool
  | .finished => true
  | _ => false

/-- A dial: whom it is to, for which bridge it was given its deps, and where it stands. -/
structure Dial where
  peer : DiscoveredPeer
  bridge : ℕ
  stage : DialStage

/-- What an await of a dial returns with. -/
inductive DialMove where
  /-- The trust store is locked for the task, which looks up its peer. -/
  | lookUp
  | connected
  /-- `crypto_initiate` accepted the peer that showed itself so, by this id and key. -/
  | handshaken (machineId : String) (publicKey : Arr 32)
  /-- The bridge takes the stream; `opening` is what a session over it comes to. -/
  | handOff (opening : Opening)
  | report
  /-- An operation of the network fails, or its time is up. -/
  | fail (e : DialError)

/-- The start of `run_outbound`: the peer's key, unless we have nothing to do with the peer. -/
def dialLookUp (hex : HexCodec) (store : TrustedPeerStore) (peer : DiscoveredPeer) :
    Except DialError (TrustedPeer × Arr 32) :=
  if peer.audioPort = 0 then .error (.noAudioPort peer.machineId)
  else
    match store.get peer.machineId with
    | none => .error (.notTrusted peer.machineId)
    | some trusted =>
        match trusted.publicKey hex with
        | none => .error .badTrustedKey
        | some pk => .ok (trusted, pk)

namespace Dial

/-- The error arm of `spawn_outbound`: what is left to be done is to report it. -/
def failed (d : Dial) (e : DialError) : Dial :=
  { d with stage := .reporting (.err d.peer.machineId e) }

/-- The steps of a dial that need nothing of the rest of the daemon but a look into the trust
store. -/
def advance (hex : HexCodec) (store : TrustedPeerStore) (d : Dial) (move : DialMove) : Dial :=
  match move, d.stage with
  | .lookUp, .spawned =>
      match dialLookUp hex store d.peer with
      | .error e => d.failed e
      | .ok (trusted, pk) => { d with stage := .connecting trusted pk }
  | .connected, .connecting trusted pk => { d with stage := .handshaking trusted pk }
  | .handshaken machineId publicKey, .handshaking trusted pk =>
      match initiateCheck (some (trusted.machineId, pk)) machineId publicKey with
      | .error e => d.failed (.handshake trusted.machineId e)
      | .ok () => { d with stage := .handingOff trusted }
  -- the trust store is waited for without a limit, and so is room for the report
  | .fail e, .connecting _ _ => d.failed e
  | .fail e, .handshaking _ _ => d.failed e
  | .fail e, .handingOff _ => d.failed e
  | _, _ => d

/-- What a dial that has an outcome reports is about its peer. -/
def Reports (d : Dial) : Prop :=
  ∀ outcome, d.stage = .reporting outcome → outcome.peer = d.peer.machineId

variable {store : TrustedPeerStore} {d : Dial} {move : DialMove}

/-- **What becomes of a dial**: a dial to the same peer for the same bridge, and not at its end yet. -/
structure Continues (d d' : Dial) : Prop where
  peer : d'.peer = d.peer
  bridge : d'.bridge = d.bridge
  isFinished : d'.stage.isFinished = d.stage.isFinished
  reports : d.Reports → d'.Reports

/-- A dial that does nothing goes on. -/
theorem Continues.refl (d : Dial) : d.Continues d := ⟨rfl, rfl, rfl, id⟩

/-- A dial that fails before its end goes on to its report. -/
theorem Continues.failed (h : d.stage.isFinished = false) (e : DialError) :
    d.Continues (d.failed e) where
  peer := rfl
  bridge := rfl
  isFinished := h.symm
  reports := by
    intro _ outcome houtcome
    cases houtcome
    rfl

/-- Another stage, which is neither a report nor the end. -/
theorem Continues.goOn {stage : DialStage} (h : d.stage.isFinished = false)
    (hstage : stage.isFinished = false) (hreport : ∀ outcome, stage ≠ .reporting outcome) :
    d.Continues { d with stage := stage } where
  peer := rfl
  bridge := rfl
  isFinished := hstage.trans h.symm
  reports := fun _ outcome houtcome => absurd houtcome (hreport outcome)

/-- A step of its own takes a dial on: to the same peer and for the same bridge, and never back. -/
theorem Continues.advance (hex : HexCodec) (store : TrustedPeerStore) (d : Dial) (move : DialMove) :
    d.Continues (d.advance hex store move) := by
  unfold Dial.advance
  split
  · next hstage =>
      have h : d.stage.isFinished = false := by rw [hstage]; rfl
      split
      · exact .failed h _
      · exact .goOn h rfl nofun
  · next hstage => exact .goOn (by rw [hstage]; rfl) rfl nofun
  · next hstage =>
      have h : d.stage.isFinished = false := by rw [hstage]; rfl
      split
      · exact .failed h _
      · exact .goOn h rfl nofun
  · next hstage => exact .failed (by rw [hstage]; rfl) _
  · next hstage => exact .failed (by rw [hstage]; rfl) _
  · next hstage => exact .failed (by rw [hstage]; rfl) _
  · exact .refl d

end Dial

/-! ## Accepted connections -/

/-- Where `handshake_and_handoff` stands, between two of its awaits. -/
inductive SignalStage where
  /-- The connection has been accepted; the trust store is waited for. -/
  | accepted
  | handshaking (trustSnapshot : List (String × Arr 32))
  /-- The peer is known; the trust store is waited for again. -/
  | authenticated (peerMachineId : String)
  /-- Waiting for room in the bridge's channel, with the stream in hand. -/
  | handingOff (peerMachineId : String)
  | finished (result : Except DialError Unit)

/-- What an await of an accepted connection returns with. -/
inductive SignalMove where
  | lookUp
  | handshaken (peer : PeerAuth)
  | handOff (opening : Opening)
  | fail (e : DialError)

/-- The end of `crypto_accept` with the resolver over the snapshot. -/
def signalHandshaken (snapshot : List (String × Arr 32)) : PeerAuth → SignalStage
  | .anonymous => .finished (.error .anonymous)
  | .authenticated machineId publicKey =>
      match acceptCheck (resolveIn snapshot) machineId publicKey with
      | .error e => .finished (.error (.handshake machineId e))
      | .ok () => .authenticated machineId

namespace SignalStage

/-- The steps of an accepted connection that need nothing of the rest of the daemon but a look into
the trust store. -/
def advance (hex : HexCodec) (store : TrustedPeerStore) : SignalStage → SignalMove → SignalStage
  | .accepted, .lookUp => .handshaking (trustSnapshot hex store)
  | .handshaking snapshot, .handshaken peer => signalHandshaken snapshot peer
  | .authenticated peerMachineId, .lookUp =>
      if store.contains peerMachineId then .handingOff peerMachineId else .finished (.error .revoked)
  | .handshaking _, .fail e => .finished (.error e)
  | .handingOff _, .fail e => .finished (.error e)
  | s, _ => s

end SignalStage

end Audio

end Synbad
