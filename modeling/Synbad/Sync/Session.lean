import Synbad.Discovery.Trust
import Synbad.Sync.Protocol

/-! # Sync sessions

The per-session code of `synbadd/src/sync.rs`: `run_outbound` with `outbound_inner`, and
`run_inbound_inner`. A session is a task of its own. It is modelled by where it stands between two of
its awaits, with exactly the data it has in hand there, and by functions that say what it does when
the await it is at returns. What reaches the rest of the daemon (a look into the trust store, a
request put into the supervisor's channel, its answer) is left to the node.

The two directions differ in their order. An outbound session takes its snapshot first, sends it, and
holds the answer against it. An inbound one reads and checks the peer's frame first, takes its
snapshot, merges, and makes its reply of the merged state at the very end; that is also where it
decodes the peer's nonce. Connecting, the handshake and the time limit of a session are each one
outcome of an await. A session remembers the frame it has written, which is the model's own record and
is read by no step. -/

namespace Synbad

open Bytes (Arr)

/-- `MAX_FRAME_BYTES` of `sync.rs`: a frame of this size is refused. -/
def maxSyncFrameBytes : ℕ := 256 * 1024

/-- `DiscoveredPeer`: a machine as it is seen on the network, with its ports and the head it
advertises. -/
structure DiscoveredPeer where
  machineId : String
  displayName : String
  host : String
  addresses : List String
  servicePort : ℕ
  corePort : ℕ
  syncPort : ℕ
  audioPort : ℕ
  fingerprint : String
  protocolVersion : ℕ
  configHead : String
  deriving DecidableEq, Repr

/-- What every session is given, the shared parts of the daemon apart. -/
structure SyncDeps where
  ops : Primitives
  json : SyncJson
  /-- The JSON serialisation and truncated hash of `head_hash`, as one function. -/
  digest : VersionedConfig.SharedHashInput → String
  signingKey : Arr 32
  machineId : String

/-- Why a session ended without success, with what the error at hand said. -/
inductive SessionError where
  | noSyncPort
  | notTrusted
  | trustGone
  | connect (e : String)
  | timedOut
  | badTrustedKey
  | handshake (e : HandshakeError)
  | anonymous
  | supervisorGone
  | sign (e : ProtocolError)
  | serialize (e : String)
  | oversized (bytes : ℕ)
  | send (e : String)
  | recv (e : String)
  | parse (e : String)
  | wrongSender (got expected : String)
  | verify (e : ProtocolError)
  | badNonce

/-- What a session that succeeded reports: whether we were updated, and the head after its merge. -/
structure SessionResult where
  updated : Bool
  newHead : String
  deriving DecidableEq, Repr

/-! ## Frames on the encrypted channel -/

/-- `send_frame`, up to the write: the frame as JSON, if it is not too large. -/
def SyncJson.sendFrame (json : SyncJson) (frame : SyncFrame) : Except SessionError Bytes := do
  let body ← (json.frameToJson frame).mapError .serialize
  if maxSyncFrameBytes ≤ body.length then throw (.oversized body.length)
  return body

/-- `recv_frame`, from the bytes the channel delivers: their size, and then their JSON. -/
def SyncJson.recvFrame (json : SyncJson) (body : Bytes) : Except SessionError SyncFrame :=
  if maxSyncFrameBytes ≤ body.length then .error (.oversized body.length)
  else (json.frameFromJson body).mapError .parse

/-- The public key of a trust entry, if its text is that of 32 bytes. -/
def TrustedPeer.publicKey (hex : HexCodec) (trusted : TrustedPeer) : Option (Arr 32) :=
  (hex.decode trusted.publicKeyHex).bind (Arr.ofBytes 32)

/-! ## Outbound -/

/-- Where an outbound session stands between two of its awaits, with the data it has in hand. -/
inductive OutboundStage where
  /-- The task has been spawned and waits for the trust store. -/
  | spawned
  | connecting (trusted : TrustedPeer)
  | handshaking (trusted : TrustedPeer) (peerPk : Arr 32)
  /-- Waiting for room in the supervisor's channel, to ask for a snapshot. -/
  | wantsSnapshot (trusted : TrustedPeer)
  | awaitsSnapshot (trusted : TrustedPeer)
  /-- The snapshot is there; the frame is made and written next. -/
  | sending (trusted : TrustedPeer) (ourState : VersionedConfig)
  | receiving (trusted : TrustedPeer) (nonce : Arr 16) (ourFrame : SyncFrame)
  /-- The peer's frame is verified; waiting for room in the supervisor's channel. -/
  | wantsMerge (trusted : TrustedPeer) (ourFrame peerFrame : SyncFrame)
  | awaitsMerge (trusted : TrustedPeer) (ourFrame peerFrame : SyncFrame)
  | merged (trusted : TrustedPeer) (ourFrame : SyncFrame) (merged : VersionedConfig)
  | finished (result : Except SessionError SessionResult)
  /-- The task was aborted, and dropped before it could finish. -/
  | dropped

/-- An outbound session: whom it dials, where it stands, the frame it has written, and whether its
task has been told to abort. -/
structure Outbound where
  peer : DiscoveredPeer
  stage : OutboundStage
  sent : Option SyncFrame
  aborted : Bool

/-- A session that has just been spawned and has done nothing yet. -/
def Outbound.spawned (peer : DiscoveredPeer) : Outbound := ⟨peer, .spawned, none, false⟩

/-- What an await of an outbound session returns with. -/
inductive OutboundMove where
  /-- The trust store is locked for the session, which looks up its peer. -/
  | lookUp
  | connected
  /-- `initiate` accepted the peer that showed itself so, by this id and key. -/
  | handshaken (machineId : String) (publicKey : Arr 32)
  | askSnapshot
  /-- The write completes; `nonce` is what the generator gave. -/
  | send (nonce : Arr 16)
  | receive (body : Bytes)
  | askMerge
  | conclude
  /-- An operation of the network fails, or the time is up. -/
  | fail (e : SessionError)
  /-- The runtime drops a task that was aborted. -/
  | drop

namespace OutboundStage

/-- The task is over, with a result or dropped. -/
def isFinished : OutboundStage → Bool
  | .finished _ => true
  | .dropped => true
  | _ => false

/-- The task has returned `true`: the session went through. -/
def succeeded : OutboundStage → Bool
  | .finished (.ok _) => true
  | _ => false

end OutboundStage

/-- The start of `run_outbound`: refuse to sync with anyone who is not paired. -/
def outboundLookUp (store : TrustedPeerStore) (peer : DiscoveredPeer) : OutboundStage :=
  if peer.syncPort = 0 then .finished (.error .noSyncPort)
  else
    match store.get peer.machineId with
    | none => .finished (.error .notTrusted)
    | some trusted => .connecting trusted

/-- The start of `outbound_inner`: the key the handshake is held against. -/
def outboundConnected (hex : HexCodec) (trusted : TrustedPeer) : OutboundStage :=
  match trusted.publicKey hex with
  | none => .finished (.error .badTrustedKey)
  | some pk => .handshaking trusted pk

/-- The end of `crypto_initiate` with the trusted peer expected. -/
def outboundHandshaken (trusted : TrustedPeer) (peerPk : Arr 32) (machineId : String)
    (publicKey : Arr 32) : OutboundStage :=
  match initiateCheck (some (trusted.machineId, peerPk)) machineId publicKey with
  | .error e => .finished (.error (.handshake e))
  | .ok () => .wantsSnapshot trusted

/-- The frame `outbound_inner` makes of its snapshot, if it can be signed and is not too large to be
sent. -/
def outboundFrame (deps : SyncDeps) (nonce : Arr 16) (ourState : VersionedConfig) :
    Except SessionError SyncFrame := do
  let frame ← (signFrame deps.ops deps.json deps.signingKey deps.machineId nonce ourState).mapError
    .sign
  let _ ← deps.json.sendFrame frame
  return frame

/-- The check of the answer in `outbound_inner`: the sender, the nonce and the signature. -/
def outboundReceive (deps : SyncDeps) (trusted : TrustedPeer) (nonce : Arr 16) (body : Bytes) :
    Except SessionError SyncFrame := do
  let peerFrame ← deps.json.recvFrame body
  if peerFrame.fromMachineId ≠ trusted.machineId then
    throw (.wrongSender peerFrame.fromMachineId trusted.machineId)
  (verifyFrame deps.ops deps.json trusted.publicKeyHex (some (deps.ops.hex.encode nonce.val))
    peerFrame).mapError .verify
  return peerFrame

/-- The end of `outbound_inner`: the head of what was sent is compared with the head after the
merge. -/
def outboundResult (deps : SyncDeps) (ourFrame : SyncFrame) (merged : VersionedConfig) :
    SessionResult where
  updated := ourFrame.state.headHash deps.digest != merged.headHash deps.digest
  newHead := merged.headHash deps.digest

namespace Outbound

/-- The steps of an outbound session that need nothing of the rest of the daemon but a look into the
trust store. -/
def advance (deps : SyncDeps) (store : TrustedPeerStore) (o : Outbound) : OutboundMove → Outbound
  | .lookUp =>
      match o.stage with
      | .spawned => { o with stage := outboundLookUp store o.peer }
      | _ => o
  | .connected =>
      match o.stage with
      | .connecting trusted => { o with stage := outboundConnected deps.ops.hex trusted }
      | _ => o
  | .handshaken machineId publicKey =>
      match o.stage with
      | .handshaking trusted pk => { o with stage := outboundHandshaken trusted pk machineId publicKey }
      | _ => o
  | .send nonce =>
      match o.stage with
      | .sending trusted ourState =>
          match outboundFrame deps nonce ourState with
          | .error e => { o with stage := .finished (.error e) }
          | .ok frame => { o with stage := .receiving trusted nonce frame, sent := some frame }
      | _ => o
  | .receive body =>
      match o.stage with
      | .receiving trusted nonce ourFrame =>
          match outboundReceive deps trusted nonce body with
          | .error e => { o with stage := .finished (.error e) }
          | .ok peerFrame => { o with stage := .wantsMerge trusted ourFrame peerFrame }
      | _ => o
  | .conclude =>
      match o.stage with
      | .merged _ ourFrame merged =>
          { o with stage := .finished (.ok (outboundResult deps ourFrame merged)) }
      | _ => o
  | .fail e =>
      match o.stage with
      -- the trust store is waited for without a limit, and what is over stays so
      | .spawned => o
      | .finished _ => o
      | .dropped => o
      | _ => { o with stage := .finished (.error e) }
  | .drop => if o.aborted && !o.stage.isFinished then { o with stage := .dropped } else o
  -- these go through the supervisor's channel
  | .askSnapshot => o
  | .askMerge => o

/-- The supervisor's answer, if the session still waits for one. -/
def answer (o : Outbound) (reply : VersionedConfig) : Outbound :=
  match o.stage with
  | .awaitsSnapshot trusted => { o with stage := .sending trusted reply }
  | .awaitsMerge trusted ourFrame _ => { o with stage := .merged trusted ourFrame reply }
  | _ => o

end Outbound

/-! ## Inbound -/

/-- Where an inbound session stands between two of its awaits, with the data it has in hand. -/
inductive InboundStage where
  /-- The connection has been accepted; the trust store is waited for. -/
  | accepted
  | handshaking (trustSnapshot : List (String × Arr 32))
  /-- The peer is known; the trust store is waited for again. -/
  | authenticated (peerMachineId : String)
  | receiving (peerMachineId : String) (trusted : TrustedPeer)
  | wantsSnapshot (trusted : TrustedPeer) (peerFrame : SyncFrame)
  | awaitsSnapshot (trusted : TrustedPeer) (peerFrame : SyncFrame)
  | wantsMerge (trusted : TrustedPeer) (peerFrame : SyncFrame) (preHead : String)
  | awaitsMerge (trusted : TrustedPeer) (peerFrame : SyncFrame) (preHead : String)
  | replying (trusted : TrustedPeer) (peerFrame : SyncFrame) (preHead : String)
      (merged : VersionedConfig)
  | finished (result : Except SessionError SessionResult)

/-- What an await of an inbound session returns with. -/
inductive InboundMove where
  /-- The trust store is locked for the session, which takes its snapshot of it. -/
  | lookUp
  /-- `accept` accepted the peer that showed itself so, or ran anonymously. -/
  | handshaken (peer : PeerAuth)
  | receive (body : Bytes)
  | askSnapshot
  | askMerge
  /-- The reply has been written, if there was one to write. -/
  | reply
  /-- An operation of the network fails, the time is up, or the listener is aborted. -/
  | fail (e : SessionError)

/-- The snapshot of the trust store that `run_inbound_inner` takes: entries with a usable key. -/
def trustSnapshot (hex : HexCodec) (store : TrustedPeerStore) : List (String × Arr 32) :=
  store.peers.filterMap fun p => (p.publicKey hex).map fun pk => (p.machineId, pk)

/-- The resolver over the snapshot; of two entries of one machine the later one is in the map. -/
def resolveIn (snapshot : List (String × Arr 32)) (machineId : String) : Option (Arr 32) :=
  snapshot.reverse.lookup machineId

/-- The end of `crypto_accept` with that resolver: a peer without a usable entry, or with another key,
is refused. -/
def inboundHandshaken (snapshot : List (String × Arr 32)) : PeerAuth → InboundStage
  | .anonymous => .finished (.error .anonymous)
  | .authenticated machineId publicKey =>
      match acceptCheck (resolveIn snapshot) machineId publicKey with
      | .error e => .finished (.error (.handshake e))
      | .ok () => .authenticated machineId

/-- The trust entry is loaded again once the peer is known. -/
def inboundReload (store : TrustedPeerStore) (peerMachineId : String) : InboundStage :=
  match store.get peerMachineId with
  | none => .finished (.error .trustGone)
  | some trusted => .receiving peerMachineId trusted

/-- The check of the peer's frame in `run_inbound_inner`: the sender and the signature. -/
def inboundReceive (deps : SyncDeps) (peerMachineId : String) (trusted : TrustedPeer)
    (body : Bytes) : Except SessionError SyncFrame := do
  let peerFrame ← deps.json.recvFrame body
  if peerFrame.fromMachineId ≠ peerMachineId then
    throw (.wrongSender peerFrame.fromMachineId peerMachineId)
  (verifyFrame deps.ops deps.json trusted.publicKeyHex none peerFrame).mapError .verify
  return peerFrame

/-- The reply of `run_inbound_inner`, made after the merge: the nonce is echoed, so it is decoded
only here. -/
def inboundReply (deps : SyncDeps) (peerFrame : SyncFrame) (merged : VersionedConfig) :
    Except SessionError SyncFrame := do
  let nonceBytes ← orError .badNonce (deps.ops.hex.decode peerFrame.nonceHex)
  let nonce ← orError .badNonce (Arr.ofBytes 16 nonceBytes)
  let reply ← (signFrame deps.ops deps.json deps.signingKey deps.machineId nonce merged).mapError
    .sign
  let _ ← deps.json.sendFrame reply
  return reply

/-- The end of `run_inbound_inner`: the head before the merge is compared with the head after it. -/
def inboundResult (deps : SyncDeps) (preHead : String) (merged : VersionedConfig) :
    SessionResult where
  updated := preHead != merged.headHash deps.digest
  newHead := merged.headHash deps.digest

/-- An inbound session: where it stands and the frame it has written. -/
structure Inbound where
  stage : InboundStage
  sent : Option SyncFrame

namespace Inbound

/-- The steps of an inbound session that need nothing of the rest of the daemon but a look into the
trust store. -/
def advance (deps : SyncDeps) (store : TrustedPeerStore) (i : Inbound) : InboundMove → Inbound
  | .lookUp =>
      match i.stage with
      | .accepted => { i with stage := .handshaking (trustSnapshot deps.ops.hex store) }
      | .authenticated peerMachineId => { i with stage := inboundReload store peerMachineId }
      | _ => i
  | .handshaken peer =>
      match i.stage with
      | .handshaking snapshot => { i with stage := inboundHandshaken snapshot peer }
      | _ => i
  | .receive body =>
      match i.stage with
      | .receiving peerMachineId trusted =>
          match inboundReceive deps peerMachineId trusted body with
          | .error e => { i with stage := .finished (.error e) }
          | .ok peerFrame => { i with stage := .wantsSnapshot trusted peerFrame }
      | _ => i
  | .reply =>
      match i.stage with
      | .replying _ peerFrame preHead merged =>
          match inboundReply deps peerFrame merged with
          | .error e => { i with stage := .finished (.error e) }
          | .ok reply =>
              ⟨.finished (.ok (inboundResult deps preHead merged)), some reply⟩
      | _ => i
  | .fail e =>
      match i.stage with
      | .finished _ => i
      | _ => { i with stage := .finished (.error e) }
  -- these go through the supervisor's channel
  | .askSnapshot => i
  | .askMerge => i

/-- The supervisor's answer, if the session still waits for one. -/
def answer (deps : SyncDeps) (i : Inbound) (reply : VersionedConfig) : Inbound :=
  match i.stage with
  | .awaitsSnapshot trusted peerFrame =>
      { i with stage := .wantsMerge trusted peerFrame (reply.headHash deps.digest) }
  | .awaitsMerge trusted peerFrame preHead =>
      { i with stage := .replying trusted peerFrame preHead reply }
  | _ => i

end Inbound

end Synbad
