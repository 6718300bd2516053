import Synbad.Crypto.Framing
import Synbad.Discovery.SignedBytes

/-! # What the pairing code is bound to

Step 0 to step 2 of `run_session_inner`, on the bytes of the network: an anonymous handshake, the
exchange of Hellos over the stream it makes, and the code that is shown to the user. The network
belongs to an adversary, who puts into every socket what it likes, and who can make handshakes of its
own. What two equal codes say is that the two sessions have the same two Hellos. The hash of the
handshake is no part of the code: whoever forwards the Hellos between two streams of its own sees to
equal codes over different handshakes.

`Inv` is what an end knows at each stage, and every step keeps it, whatever bytes arrive. From the
invariants of two ends it follows when the code is bound to the channel (`code_bound_iff`): collisions
of the hash apart, exactly if the Hellos have not been relayed. The last section is the relay, with
the two handshakes it makes, and a network that carries everything where it should go, in which the
code is bound. -/

namespace Synbad

open Bytes (Arr utf8 pushField)

/-! ## The transcript determines the Hellos -/

/-- Every field has a length that a `u32` holds. -/
structure PairHello.Fits (a : PairHello) : Prop where
  pubkeyHex : (utf8 a.pubkeyHex).length < 2 ^ 32
  nonceHex : (utf8 a.nonceHex).length < 2 ^ 32
  machineId : (utf8 a.machineId).length < 2 ^ 32
  displayName : (utf8 a.displayName).length < 2 ^ 32

/-- The Hellos in the order of the transcript, the smaller key first; equal keys leave ours first. -/
def PairHellos.ordered (h : PairHellos) : PairHello × PairHello :=
  if utf8 h.ours.pubkeyHex ≤ utf8 h.theirs.pubkeyHex then (h.ours, h.theirs) else (h.theirs, h.ours)

/-- Both Hellos fit, ours and the peer's. -/
def PairHellos.Fits (h : PairHellos) : Prop := h.ours.Fits ∧ h.theirs.Fits

/-- A Hello can be read off its fields, and so can whatever follows it. -/
theorem PairHello.fields_append_inj {a b : PairHello} {rest rest' : Bytes} (ha : a.Fits)
    (hb : b.Fits) (h : a.fields ++ rest = b.fields ++ rest') : a = b ∧ rest = rest' := by
  rw [a.fields_eq, b.fields_eq] at h
  obtain ⟨hkey, h⟩ := Bytes.pushField_append_inj ha.pubkeyHex hb.pubkeyHex h
  obtain ⟨hnonce, h⟩ := Bytes.pushField_append_inj ha.nonceHex hb.nonceHex h
  obtain ⟨hid, h⟩ := Bytes.pushField_append_inj ha.machineId hb.machineId h
  obtain ⟨hname, h⟩ := Bytes.pushField_append_inj ha.displayName hb.displayName h
  refine ⟨?_, h⟩
  cases a
  cases b
  simp only [PairHello.mk.injEq]
  exact ⟨Bytes.utf8_injective hkey, Bytes.utf8_injective hnonce, Bytes.utf8_injective hid,
    Bytes.utf8_injective hname⟩

/-- The transcript is the fields of the Hellos in order. -/
theorem PairHellos.transcript_eq (h : PairHellos) :
    h.transcript = h.ordered.1.fields ++ h.ordered.2.fields := by
  unfold transcript canonicalTranscript ordered
  split <;> rfl

/-- The Hellos in order fit, as they are the same two. -/
theorem PairHellos.Fits.ordered {h : PairHellos} (hfits : h.Fits) :
    h.ordered.1.Fits ∧ h.ordered.2.Fits := by
  unfold PairHellos.ordered
  split
  · exact hfits
  · exact hfits.symm

/-- **A transcript determines its two Hellos**, in the order in which it has them. -/
theorem PairHellos.transcript_inj {h h' : PairHellos} (hfits : h.Fits) (hfits' : h'.Fits) :
    h.transcript = h'.transcript ↔ h.ordered = h'.ordered := by
  rw [h.transcript_eq, h'.transcript_eq]
  constructor
  · intro heq
    obtain ⟨hlo, heq⟩ := PairHello.fields_append_inj hfits.ordered.1 hfits'.ordered.1 heq
    have hhi : h.ordered.2.fields ++ [] = h'.ordered.2.fields ++ [] := congrArg (· ++ []) heq
    exact Prod.ext hlo (PairHello.fields_append_inj hfits.ordered.2 hfits'.ordered.2 hhi).1
  · intro heq
    rw [heq]

/-- Two machines with different keys that have exchanged Hellos have them in the same order. -/
theorem PairHellos.ordered_swap {a b : PairHello} (hkeys : a.pubkeyHex ≠ b.pubkeyHex) :
    PairHellos.ordered ⟨a, b⟩ = PairHellos.ordered ⟨b, a⟩ := by
  unfold PairHellos.ordered
  by_cases hab : utf8 a.pubkeyHex ≤ utf8 b.pubkeyHex
  · have hba : ¬ utf8 b.pubkeyHex ≤ utf8 a.pubkeyHex := fun hba =>
      hkeys (Bytes.utf8_injective (List.le_antisymm hab hba))
    simp only [hab, hba, if_true, if_false]
  · have hba : utf8 b.pubkeyHex ≤ utf8 a.pubkeyHex := (List.le_total _ _).resolve_left hab
    simp only [hab, hba, if_true, if_false]

/-! ## What a receive delivers -/

/-- What JSON provides for the Hellos: what was written is read back, and a text that is read is not
longer than the bytes it was read from. -/
structure PairJson.Lawful (json : PairJson) : Prop where
  round : ∀ message body, json.toJson message = .ok body → json.fromJson body = .ok message
  sized : ∀ body hello, json.fromJson body = .ok (.hello hello) →
    (utf8 hello.pubkeyHex).length ≤ body.length ∧ (utf8 hello.nonceHex).length ≤ body.length ∧
      (utf8 hello.machineId).length ≤ body.length ∧ (utf8 hello.displayName).length ≤ body.length

/-- Decryption makes nothing longer, so what is received is bounded by what was read. -/
def Aead.Shrinks (aead : Aead) : Prop :=
  ∀ key nonce ct pt, aead.decrypt key nonce ct = some pt → pt.length ≤ ct.length

/-- A Hello that was read from a frame fits. -/
theorem PairJson.Lawful.fits {json : PairJson} (hjson : json.Lawful) {body : Bytes}
    {hello : PairHello} (hread : json.fromJson body = .ok (.hello hello))
    (hbody : body.length ≤ maxFrameBytes + 16) : hello.Fits := by
  have hlt : body.length < 2 ^ 32 := lt_of_le_of_lt hbody (by decide)
  obtain ⟨hkey, hnonce, hid, hname⟩ := hjson.sized body hello hread
  exact ⟨hkey.trans_lt hlt, hnonce.trans_lt hlt, hid.trans_lt hlt, hname.trans_lt hlt⟩

/-- **A receive** over bytes that arrive in any pieces is left waiting, fails, or delivers no more
than a frame holds. -/
theorem CipherStream.recv_cases {aead : Aead} (hshrinks : aead.Shrinks) {chan : CipherStream}
    (h : chan.recvFrame.Waiting) (wire : Bytes) (sizes : List ℕ) :
    ((chan.recv aead wire (sizes.map .data)).2.result = none ∧
        (chan.recv aead wire (sizes.map .data)).1.recvFrame.Waiting) ∨
      (∃ e, (chan.recv aead wire (sizes.map .data)).2.result = some (.error e)) ∨
      ∃ body, (chan.recv aead wire (sizes.map .data)).2.result = some (.ok body) ∧
        body.length ≤ maxFrameBytes + 16 := by
  have hreads := PendingFrame.read_reads h wire sizes
  simp only [CipherStream.recv, Synbad.recvFrame]
  generalize chan.recvFrame.read wire (sizes.map .data) = poll at hreads ⊢
  cases hreads with
  | waiting f wire' phase kept progress => exact Or.inl ⟨rfl, phase⟩
  | rejected f wire' size complete bad body kept => exact Or.inr (Or.inl ⟨_, rfl⟩)
  | done f wire' header ct phase fresh size ok announced kept =>
      right
      simp only
      cases hpt : aead.decrypt chan.recvKey (buildNonce chan.recvPrefix chan.recvCounter) ct with
      | none => exact Or.inl ⟨_, rfl⟩
      | some pt =>
          by_cases hcounter : chan.recvCounter = maxCounter
          · simp only [hcounter, if_true]
            exact Or.inl ⟨_, rfl⟩
          · simp only [hcounter, if_false]
            refine Or.inr ⟨pt, rfl, (hshrinks _ _ _ _ hpt).trans ?_⟩
            rw [announced]
            simp only [PendingFrame.lengthOk, Bool.and_eq_true, decide_eq_true_eq] at ok
            exact ok.2

/-! ## The anonymous handshake -/

namespace Session

variable {ops : Primitives} {s : Session}

/-- A call in anonymous mode; what it has derived, once it is done, is the hash of its hellos and a
stream nothing has been read from. -/
structure Anonymous (ops : Primitives) (s : Session) : Prop where
  mode : s.mode = .anonymous
  auth : ∀ cipher transcript, s.stage ≠ .auth cipher transcript
  done : ∀ cipher transcript peer, s.stage = .done cipher transcript peer →
    cipher.recvFrame = .default ∧
      ∃ d, s.derived = some d ∧ transcript = ops.sha256 (transcriptBytes 0 d.hellos)

/-- A call that is started in anonymous mode is an anonymous call. -/
theorem start_anonymous (ops : Primitives) (call : Call) (ephemeral : Arr 32) (nonce : Arr 16)
    (fate : SendFate) : (Session.start ops call .anonymous ephemeral nonce fate).Anonymous ops := by
  cases call with
  | accept resolvePubkey => exact ⟨rfl, nofun, nofun⟩
  | initiate expectedPeer =>
      unfold Session.start
      cases fate <;> exact ⟨rfl, nofun, nofun⟩

/-- The keys of either role come with the hash of the hellos and a fresh stream. -/
theorem finalizeKeys_facts (ops : Primitives) (initiator : Bool) (ourEphSk peerEphPk : Arr 32)
    (h : Hellos) :
    (finalizeKeys ops initiator ourEphSk peerEphPk 0 h).1 = ops.sha256 (transcriptBytes 0 h) ∧
      (finalizeKeys ops initiator ourEphSk peerEphPk 0 h).2.recvFrame = .default := by
  cases initiator <;> exact ⟨rfl, rfl⟩

/-- `initiate` is done with the second hello, and no step of it makes the call another than an
anonymous one. -/
theorem Anonymous.initiateHello (h : s.Anonymous ops) (id : ℕ) (hello : Arr 48) (fate : SendFate) :
    (s.initiateHello ops id hello fate).1.Anonymous ops := by
  have hflag : s.authFlag = 0 := by rw [authFlag, h.mode, HandshakeMode.authFlag]
  unfold Session.initiateHello
  simp only [h.mode, hflag]
  refine ⟨rfl, by simp, ?_⟩
  rintro _ _ _ ⟨⟩
  exact ⟨(finalizeKeys_facts ..).2, _, rfl, (finalizeKeys_facts ..).1⟩

/-- `accept` is done with the first hello, or has failed. -/
theorem Anonymous.acceptHello (h : s.Anonymous ops) (hello : Arr 50) (fate : SendFate) :
    (s.acceptHello ops hello fate).1.Anonymous ops := by
  have hflag : s.authFlag = 0 := by rw [authFlag, h.mode, HandshakeMode.authFlag]
  unfold Session.acceptHello
  simp only [h.mode, hflag]
  split
  · exact ⟨rfl, by simp, by simp⟩
  split
  · exact ⟨rfl, by simp, by simp⟩
  split
  · exact ⟨rfl, by simp, by simp⟩
  · exact ⟨rfl, by simp, by simp⟩
  · refine ⟨rfl, by simp, ?_⟩
    rintro _ _ _ ⟨⟩
    exact ⟨(finalizeKeys_facts ..).2, _, rfl, (finalizeKeys_facts ..).1⟩

/-- Waiting for a hello changes the socket and the buffer, and goes on with the hello when it is
there. -/
theorem Anonymous.readHello (h : s.Anonymous ops) (n : ℕ) (buf : Bytes) (events : List ReadEvent)
    (resume : Session → Arr n → Session × List Signing)
    (hresume : ∀ s' hello, s'.Anonymous ops → (resume s' hello).1.Anonymous ops) :
    (s.readHello n buf events resume).1.Anonymous ops := by
  have hread : ∀ socket, ({ s with socket := socket } : Session).Anonymous ops := fun _ =>
    ⟨h.mode, h.auth, h.done⟩
  unfold Session.readHello
  simp only
  split
  · exact ⟨h.mode, nofun, nofun⟩
  · split
    · exact hresume _ _ (hread _)
    · exact ⟨h.mode, nofun, nofun⟩

/-- **A poll** of an anonymous call leaves it one. -/
theorem Anonymous.poll (h : s.Anonymous ops) (verify : Verifier) (id : ℕ) (events : List ReadEvent)
    (fate : SendFate) : (s.poll ops verify id events fate).1.Anonymous ops := by
  have hmarked : (s.mark events fate).Anonymous ops := ⟨h.mode, h.auth, h.done⟩
  unfold Session.poll
  split
  · exact hmarked.readHello 48 _ events _ fun s' hello hs' => hs'.initiateHello id hello fate
  · exact hmarked.readHello 50 _ events _ fun s' hello hs' => hs'.acceptHello hello fate
  · next cipher transcript hstage => exact absurd hstage (h.auth cipher transcript)
  · exact h

end Session

/-! ## One end of a pairing -/

/-- What a session brings along: its machine, whom it was opened to, and what its generators give. -/
structure PairParty where
  machineId : String
  signingKey : Arr 32
  displayName : String
  expectedPeerId : Option String
  peerAddr : String
  ephemeral : Arr 32
  transportNonce : Arr 16
  nonce : Arr 16

namespace PairParty

/-- The dependencies of the session, with the machine's own key and names. -/
def deps (ops : Primitives) (json : PairJson) (p : PairParty) : PairDeps where
  ops := ops
  json := json
  machineId := p.machineId
  signingKey := p.signingKey
  displayName := p.displayName
  expectedPeerId := p.expectedPeerId

/-- `is_initiator`: the session was opened to somebody, and not by an incoming connection. -/
def isInitiator (p : PairParty) : Bool := p.expectedPeerId.isSome

/-- The transport handshake of the session, anonymous on both sides. -/
def call (p : PairParty) : Call := if p.isInitiator then .initiate none else .accept fun _ => none

/-- The context of an error of the transport handshake. -/
def handshakeContext (p : PairParty) : String :=
  "anonymous transport handshake " ++ (if p.isInitiator then "to " else "from ") ++ p.peerAddr

end PairParty

/-- One end of a pairing: the handshake with its socket, the stream it has made, and the session. -/
structure PairEnd where
  transport : Session
  chan : Option CipherStream
  session : Pairing
  written : Bytes

/-- What happens to an end next: bytes arrive, its task is polled, or it is given up. -/
inductive EndMove where
  /-- Bytes are put into its socket, by whomever, in pieces of any size. -/
  | deliver (bytes : Bytes)
  /-- It is polled while bytes come out of the socket in these pieces. -/
  | poll (sizes : List ℕ)
  /-- The network fails it, or the time is up. -/
  | fail (reason : String)

/-- The code in an event: a proposal shows one. -/
def PairEvent.code? : PairEvent → Option String
  | .proposed _ _ _ verificationCode => some verificationCode
  | _ => none

namespace PairEnd

variable (ops : Primitives) (json : PairJson) (p : PairParty) (e : PairEnd)

/-- A session that has just been spawned; `initiate` starts with a write. -/
def start (trust : TrustedPeerStore) : PairEnd where
  transport := Session.start ops p.call .anonymous p.ephemeral p.transportNonce .completes
  chan := none
  session := Pairing.start trust
  written := []

/-- The session fails, with this reason, and so ends. -/
def fail (reason : String) : PairEnd :=
  { e with session := e.session.step (p.deps ops json) (.fail reason) }

/-- The transport is up: our Hello goes out as its first frame. -/
def sendHello (chan : CipherStream) : PairEnd :=
  match json.sendMsg (.hello ((p.deps ops json).ourHello p.nonce)) with
  | .error err => { e with chan := some chan, session := e.session.stop err }
  | .ok body =>
      let out := chan.send ops.aead body .completes
      let e := { e with chan := some out.1, written := out.2.wire }
      match out.2.result with
      | some (.error err) => e.fail ops json p ("encrypted send: " ++ err.message)
      | _ => { e with session := e.session.step (p.deps ops json) (.connected p.nonce) }

/-- The peer's Hello is read from the stream, if it is there as a whole; what else is there stays in
the socket. -/
def recvHello (chan : CipherStream) (sizes : List ℕ) : PairEnd :=
  let out := chan.recv ops.aead e.transport.socket (sizes.map .data)
  let e := { e with
    chan := some out.1, transport := { e.transport with socket := out.2.wire } }
  match out.2.result with
  | none => e
  | some (.error err) => e.fail ops json p ("encrypted recv: " ++ err.message)
  | some (.ok body) => { e with session := e.session.step (p.deps ops json) (.receive body) }

/-- A poll, up to the proposal: the handshake, our Hello, and the peer's. -/
def poll (sizes : List ℕ) : PairEnd :=
  match e.session.stage with
  | .connecting =>
      let e := { e with
        transport := (e.transport.poll ops ops.verify 0 (sizes.map .data) .completes).1 }
      match e.transport.stage with
      | .done chan _ _ => e.sendHello ops json p chan
      | .failed _ => e.fail ops json p p.handshakeContext
      | _ => e
  | .awaitsHello _ =>
      match e.chan with
      | some chan => e.recvHello ops json p chan sizes
      | none => e
  | _ => e

/-- One step of an end, whatever the network and the generators give it. -/
def step : EndMove → PairEnd
  | .deliver bytes => { e with transport := e.transport.deliver bytes }
  | .poll sizes => e.poll ops json p sizes
  | .fail reason => e.fail ops json p reason

/-- The code that is shown to the user, once there is a proposal. -/
def code : Option String := e.session.events.findSome? PairEvent.code?

/-- `transcript_hash` of the stream: the hash of the handshake that made it. -/
def transcriptHash : Option (Arr 32) :=
  match e.transport.stage with
  | .done _ transcript _ => some transcript
  | _ => none

/-- The user has been asked about these Hellos: they have been exchanged, and the peer's has passed
its checks. -/
def Asks (h : PairHellos) : Prop :=
  e.session.hellos = some h ∧ ∃ pk, (p.deps ops json).checkHello h.theirs = .ok pk

/-! ## What an end knows -/

/-- The handshake is over, with the hash of these hellos. -/
def Joined (hellos : Hellos) : Prop :=
  (∃ d, e.transport.derived = some d ∧ d.hellos = hellos) ∧
    e.transcriptHash = some (ops.sha256 (transcriptBytes 0 hellos))

/-- **The invariant of an end**: at each stage, what it has of the handshake and of the Hellos. -/
structure Inv : Prop where
  transport : e.transport.Anonymous ops
  connecting : e.session.stage = .connecting → e.session.hellos = none
  awaiting : ∀ ours, e.session.stage = .awaitsHello ours →
    e.session.hellos = none ∧ ours.Fits ∧ (∃ hellos, e.Joined ops hellos) ∧
      ∀ chan, e.chan = some chan → chan.recvFrame.Waiting
  heard : ∀ h, e.session.hellos = some h → h.Fits ∧ ∃ hellos, e.Joined ops hellos
  shown : ∀ code, e.code = some code ↔
    ∃ h, e.Asks ops json p h ∧ sasCode ops h.transcript = code

/-! ## Every step keeps it -/

section Steps

variable {ops json p} {e : PairEnd}

/-- A session that has just been spawned knows of nothing yet. -/
theorem Inv.start (trust : TrustedPeerStore) : (start ops p trust).Inv ops json p where
  transport := Session.start_anonymous ..
  connecting _ := rfl
  awaiting _ hstage := by cases hstage
  heard _ hhellos := by cases hhellos
  shown code := by
    constructor
    · intro hcode
      cases hcode
    · rintro ⟨_, ⟨hhellos, -⟩, -⟩
      cases hhellos

/-- An end whose session has failed knows what it knew. -/
theorem Inv.failed (h : e.Inv ops json p) {e' : PairEnd} {err : PairFailure}
    (hsession : e'.session = e.session.stop err) (htransport : e'.transport.Anonymous ops)
    (hjoined : ∀ hellos, e.Joined ops hellos → e'.Joined ops hellos) : e'.Inv ops json p where
  transport := htransport
  connecting hstage := by
    rw [hsession] at hstage
    cases hstage
  awaiting _ hstage := by
    rw [hsession] at hstage
    cases hstage
  heard hs hhellos := by
    rw [hsession] at hhellos
    obtain ⟨hfits, hellos, hold⟩ := h.heard hs hhellos
    exact ⟨hfits, hellos, hjoined hellos hold⟩
  shown code := by
    have hcode : e'.code = e.code := by
      rw [PairEnd.code, hsession]
      simp [PairEnd.code, Pairing.stop, List.findSome?_append, PairEvent.code?]
    have hasks : ∀ hs, e'.Asks ops json p hs ↔ e.Asks ops json p hs := by
      intro hs
      rw [Asks, hsession]
      exact Iff.rfl
    simp only [hcode, hasks]
    exact h.shown code

/-- A failure stops a session that is not over yet. -/
theorem fail_session (hlive : e.session.stage.isFinished = false) (reason : String) :
    (e.fail ops json p reason).session = e.session.stop (.transport reason) := by
  simp only [PairEnd.fail, Pairing.step, hlive, Bool.false_eq_true, if_false]

/-- A failure of the session keeps the invariant. -/
theorem Inv.fail (h : e.Inv ops json p) (reason : String) : (e.fail ops json p reason).Inv ops json p := by
  cases hlive : e.session.stage.isFinished with
  | true =>
      have hsame : e.fail ops json p reason = e := by
        simp only [PairEnd.fail, Pairing.step, hlive, if_true]
      rw [hsame]
      exact h
  | false => exact h.failed (fail_session hlive reason) h.transport fun _ => id

/-- More bytes in the socket: nothing has been read of them. -/
theorem Inv.deliver (h : e.Inv ops json p) (bytes : Bytes) :
    ({ e with transport := e.transport.deliver bytes } : PairEnd).Inv ops json p :=
  ⟨⟨h.transport.mode, h.transport.auth, h.transport.done⟩, h.connecting, h.awaiting, h.heard, h.shown⟩

/-- The handshake goes on, and the session waits for it. -/
theorem Inv.withTransport (h : e.Inv ops json p) (hstage : e.session.stage = .connecting)
    {transport : Session} (htransport : transport.Anonymous ops) :
    ({ e with transport := transport } : PairEnd).Inv ops json p where
  transport := htransport
  connecting := h.connecting
  awaiting ours hawaits := by
    rw [show e.session.stage = .awaitsHello ours from hawaits] at hstage
    cases hstage
  heard hs hhellos := by
    have hnone := h.connecting hstage
    rw [show e.session.hellos = some hs from hhellos] at hnone
    cases hnone
  shown := h.shown

/-- An end whose handshake is done has the hash of its hellos, and a fresh stream. -/
theorem joined_of_done {transport : Session} (h : transport.Anonymous ops) {chan : CipherStream}
    {transcript : Arr 32} {peer : PeerAuth} (hdone : transport.stage = .done chan transcript peer)
    (chan' : Option CipherStream) (session : Pairing) (written : Bytes) :
    chan.recvFrame = .default ∧
      ∃ hellos, (⟨transport, chan', session, written⟩ : PairEnd).Joined ops hellos := by
  obtain ⟨hfresh, d, hd, rfl⟩ := h.done _ _ _ hdone
  refine ⟨hfresh, d.hellos, ⟨d, hd, rfl⟩, ?_⟩
  rw [transcriptHash, hdone]

/-- What goes out in a frame fits into one. -/
theorem length_of_send {aead : Aead} {chan : CipherStream} {body : Bytes}
    (h : ∀ err, (chan.send aead body .completes).2.result ≠ some (.error err)) :
    body.length ≤ maxFrameBytes := by
  by_contra hlong
  rw [not_le] at hlong
  refine h (.oversize body.length) ?_
  simp only [CipherStream.send, sendFrame, hlong, if_true]

/-- Our Hello goes out, as the first frame of a stream nothing has been read from. -/
theorem Inv.sendHello (hjson : json.Lawful) (h : e.Inv ops json p)
    (hstage : e.session.stage = .connecting) {chan : CipherStream} {transcript : Arr 32}
    {peer : PeerAuth} (hdone : e.transport.stage = .done chan transcript peer) :
    (e.sendHello ops json p chan).Inv ops json p := by
  obtain ⟨hfresh, hjoined⟩ :=
    joined_of_done h.transport hdone e.chan e.session e.written
  have hnone := h.connecting hstage
  unfold PairEnd.sendHello
  split
  -- a Hello that cannot be written as JSON, or does not go out, ends the session
  · exact h.failed rfl h.transport fun _ => id
  · next body hbody =>
    simp only
    split
    · next err _ =>
      refine h.failed (fail_session ?_ _) h.transport fun _ => id
      rw [hstage]
      rfl
    · next hsent =>
      have hwritten : json.toJson (.hello ((p.deps ops json).ourHello p.nonce)) = .ok body :=
        mapError_ok hbody
      have hfits := hjson.fits (hjson.round _ _ hwritten)
        -- our own Hello fits, as it has gone into a frame
        ((length_of_send hsent).trans (Nat.le_add_right _ _))
      have hnext : e.session.step (p.deps ops json) (.connected p.nonce) =
          { e.session with
            stage := .awaitsHello ((p.deps ops json).ourHello p.nonce)
            sent := e.session.sent ++ [body] } := by
        simp only [Pairing.step, hstage, Pairing.connected]
        rw [show (p.deps ops json).json.sendMsg (.hello ((p.deps ops json).ourHello p.nonce)) =
          .ok body from hbody]
      rw [hnext]
      refine ⟨h.transport, by simp, ?_, ?_, h.shown⟩
      · rintro ours ⟨⟩
        refine ⟨hnone, hfits, hjoined, ?_⟩
        rintro chan' ⟨⟩
        rw [show (chan.send ops.aead body .completes).1.recvFrame = chan.recvFrame from rfl, hfresh]
        exact Or.inl PendingFrame.inHeader_default
      · intro hs hhellos
        rw [show e.session.hellos = some hs from hhellos] at hnone
        cases hnone

/-- What the peer's first message does: it is no Hello, or a Hello that does not pass, or the user is
asked. -/
theorem receiveHello_cases (deps : PairDeps) (w : Pairing) (ours : PairHello) (body : Bytes) :
    (∃ err, Pairing.receiveHello deps w ours body = w.stop err) ∨
      ∃ theirs, deps.json.fromJson body = .ok (.hello theirs) ∧
        ((∃ err, deps.checkHello theirs = .error err ∧ Pairing.receiveHello deps w ours body =
            ({ w with hellos := some ⟨ours, theirs⟩ } : Pairing).stop err) ∨
          ∃ pk, deps.checkHello theirs = .ok pk ∧ Pairing.receiveHello deps w ours body =
            { w with
              hellos := some ⟨ours, theirs⟩
              stage := .deciding ⟨ours, theirs⟩
              events := w.events ++ [deps.proposal ⟨ours, theirs⟩ pk] }) := by
  unfold Pairing.receiveHello
  split
  · next err _ => exact Or.inl ⟨err, rfl⟩
  · next theirs hread =>
    right
    refine ⟨theirs, ?_, ?_⟩
    · -- only a Hello is read as one
      obtain ⟨message, hmessage, hhello⟩ := except_bind_ok.mp hread
      cases message with
      | hello hello =>
          cases hhello
          exact mapError_ok hmessage
      | confirm confirm => cases hhello
    · cases hcheck : deps.checkHello theirs with
      | error err =>
          left
          exact ⟨err, rfl, rfl⟩
      | ok pk =>
          right
          exact ⟨pk, rfl, rfl⟩

/-- Hellos have been exchanged, and either the user is asked about them or the session stops. -/
theorem Inv.exchanged (h : e.Inv ops json p) {ours theirs : PairHello}
    (hstage : e.session.stage = .awaitsHello ours) (htheirs : theirs.Fits) {e' : PairEnd}
    (htransport : e'.transport.Anonymous ops)
    (hjoined : ∀ hellos, e.Joined ops hellos → e'.Joined ops hellos)
    (hhellos : e'.session.hellos = some ⟨ours, theirs⟩)
    (hover : e'.session.stage ≠ .connecting ∧ ∀ ours, e'.session.stage ≠ .awaitsHello ours)
    (hcode : ∀ code, e'.code = some code ↔ (∃ pk, (p.deps ops json).checkHello theirs = .ok pk) ∧
      sasCode ops (⟨ours, theirs⟩ : PairHellos).transcript = code) :
    e'.Inv ops json p := by
  obtain ⟨-, hours, ⟨hellos, hold⟩, -⟩ := h.awaiting ours hstage
  refine ⟨htransport, fun hconnecting => absurd hconnecting hover.1,
    fun ours hawaits => absurd hawaits (hover.2 ours), ?_, ?_⟩
  · intro hs hheard
    rw [hhellos] at hheard
    cases hheard
    exact ⟨⟨hours, htheirs⟩, hellos, hjoined hellos hold⟩
  · intro code
    rw [hcode]
    constructor
    · rintro ⟨hchecked, rfl⟩
      exact ⟨⟨ours, theirs⟩, ⟨hhellos, hchecked⟩, rfl⟩
    · rintro ⟨hs, ⟨hheard, hchecked⟩, rfl⟩
      rw [hhellos] at hheard
      cases hheard
      exact ⟨hchecked, rfl⟩

/-- An end that waits for a Hello shows no code. -/
theorem Inv.code_eq_none (h : e.Inv ops json p) (hnone : e.session.hellos = none) : e.code = none := by
  cases hcode : e.code with
  | none => rfl
  | some code =>
      obtain ⟨_, ⟨hhellos, -⟩, -⟩ := (h.shown code).mp hcode
      rw [hnone] at hhellos
      cases hhellos

/-- The peer's Hello is read: a frame's body at most, so that its fields fit. -/
theorem Inv.recvHello (hjson : json.Lawful) (hshrinks : ops.aead.Shrinks) (h : e.Inv ops json p)
    {ours : PairHello} (hstage : e.session.stage = .awaitsHello ours) {chan : CipherStream}
    (hchan : e.chan = some chan) (sizes : List ℕ) :
    (e.recvHello ops json p chan sizes).Inv ops json p := by
  obtain ⟨hnone, hours, hjoined, hwaiting⟩ := h.awaiting ours hstage
  have htransport : ∀ socket, ({ e.transport with socket := socket } : Session).Anonymous ops :=
    fun _ => ⟨h.transport.mode, h.transport.auth, h.transport.done⟩
  have hevents : e.session.events.findSome? PairEvent.code? = none := h.code_eq_none hnone
  unfold PairEnd.recvHello
  rcases CipherStream.recv_cases hshrinks (hwaiting chan hchan) e.transport.socket sizes with
    ⟨hresult, hleft⟩ | ⟨err, hresult⟩ | ⟨body, hresult, hbody⟩
  · -- no whole message yet
    simp only [hresult]
    refine ⟨htransport _, h.connecting, ?_, h.heard, h.shown⟩
    intro ours' hstage'
    obtain ⟨-, hfits, hjoined, -⟩ := h.awaiting ours' hstage'
    refine ⟨hnone, hfits, hjoined, ?_⟩
    rintro chan' ⟨⟩
    exact hleft
  · simp only [hresult]
    -- the session fails, with what it has seen
    refine h.failed (fail_session ?_ _) (htransport _) fun _ => id
    rw [hstage]
    rfl
  · simp only [hresult, Pairing.step, hstage]
    rcases receiveHello_cases (p.deps ops json) e.session ours body with
      ⟨err, hnext⟩ | ⟨theirs, hread, ⟨err, hcheck, hnext⟩ | ⟨pk, hcheck, hnext⟩⟩
    · rw [hnext]
      exact h.failed rfl (htransport _) fun _ => id
    · -- a Hello that does not pass is kept, but the user sees no code
      rw [hnext]
      refine h.exchanged hstage (hjson.fits hread hbody) (htransport _) (fun _ => id) rfl
        ⟨by simp [Pairing.stop], by simp [Pairing.stop]⟩ fun code => ?_
      have hcode : (e.session.events ++ [PairEvent.failed err]).findSome? PairEvent.code? = none := by
        rw [List.findSome?_append, hevents]
        rfl
      simp only [PairEnd.code, Pairing.stop, hcode, hcheck]
      simp
    · rw [hnext]
      -- the Hello passes, and the user is shown the code of these two
      refine h.exchanged hstage (hjson.fits hread hbody) (htransport _) (fun _ => id) rfl
        ⟨by simp, by simp⟩ fun code => ?_
      have hcode : (e.session.events ++ [(p.deps ops json).proposal ⟨ours, theirs⟩ pk]).findSome?
          PairEvent.code? = some (sasCode ops (⟨ours, theirs⟩ : PairHellos).transcript) := by
        rw [List.findSome?_append, hevents]
        rfl
      simp only [PairEnd.code, hcode, hcheck]
      simp

/-- **A poll** keeps the invariant, at whatever stage the session is. -/
theorem Inv.poll (hjson : json.Lawful) (hshrinks : ops.aead.Shrinks) (h : e.Inv ops json p)
    (sizes : List ℕ) : (e.poll ops json p sizes).Inv ops json p := by
  unfold PairEnd.poll
  split
  · next hstage =>
    have hnext := h.withTransport hstage
      (h.transport.poll ops.verify 0 (sizes.map .data) .completes)
    simp only
    split
    · next chan transcript peer hdone => exact hnext.sendHello hjson hstage hdone
    · exact hnext.fail p.handshakeContext
    · exact hnext
  · next ours hstage =>
    split
    · next chan hchan => exact h.recvHello hjson hshrinks hstage hchan sizes
    · exact h
  · exact h

/-- **One step** keeps the invariant, whatever bytes the network has put into the socket. -/
theorem Inv.step (hjson : json.Lawful) (hshrinks : ops.aead.Shrinks) (h : e.Inv ops json p)
    (move : EndMove) : (e.step ops json p move).Inv ops json p := by
  cases move with
  | deliver bytes => exact h.deliver bytes
  | poll sizes => exact h.poll hjson hshrinks sizes
  | fail reason => exact h.fail reason

end Steps

end PairEnd

/-! ## Two ends and the network between them -/

/-- Two honest ends, each with a socket that the network has its hands on. -/
structure PairEnds where
  a : PairEnd
  b : PairEnd

/-- What the network does next, and to which of them. -/
inductive EndsMove where
  | a (move : EndMove)
  | b (move : EndMove)

namespace PairEnds

variable (ops : Primitives) (json : PairJson) (p q : PairParty)

/-- Both have just been spawned, each with its machine's trust store. -/
def start (trust trust' : TrustedPeerStore) : PairEnds where
  a := .start ops p trust
  b := .start ops q trust'

/-- One step of one of the two; the other is where it was. -/
def step (w : PairEnds) : EndsMove → PairEnds
  | .a move => { w with a := w.a.step ops json p move }
  | .b move => { w with b := w.b.step ops json q move }

/-- Both after the first `n` moves of the network. -/
abbrev after (trust trust' : TrustedPeerStore) (moves : List EndsMove) (n : ℕ) : PairEnds :=
  Run.after (step ops json p q) (start ops p q trust trust') moves n

/-- **The code is bound to the channel**: where both users see the same code, the two streams have
the same handshake hash. -/
def Bound (w : PairEnds) : Prop :=
  ∀ code, w.a.code = some code → w.b.code = some code → w.a.transcriptHash = w.b.transcriptHash

/-- **The Hellos have been relayed**: the users are asked about the same two Hellos, but the
handshakes of the two ends are not two sides of one. -/
def Relayed (w : PairEnds) : Prop :=
  ∃ h h' d d', w.a.Asks ops json p h ∧ w.b.Asks ops json q h' ∧ h.ordered = h'.ordered ∧
    w.a.transport.derived = some d ∧ w.b.transport.derived = some d' ∧ d.hellos ≠ d'.hellos

/-- SHA-256, and what is shown of it as a code, have no collision here. -/
structure CollisionFree (w : PairEnds) : Prop where
  code : ∀ h h', w.a.Asks ops json p h → w.b.Asks ops json q h' →
    sasCode ops h.transcript = sasCode ops h'.transcript → h.transcript = h'.transcript
  hash : ∀ d d', w.a.transport.derived = some d → w.b.transport.derived = some d' →
    ops.sha256 (transcriptBytes 0 d.hellos) = ops.sha256 (transcriptBytes 0 d'.hellos) →
      transcriptBytes 0 d.hellos = transcriptBytes 0 d'.hellos

section Runs

variable {ops json p q} {w : PairEnds}

/-- **Every run** keeps what the two ends know, each for itself. -/
theorem inv_after (hjson : json.Lawful) (hshrinks : ops.aead.Shrinks)
    (trust trust' : TrustedPeerStore) (moves : List EndsMove) (n : ℕ) :
    (after ops json p q trust trust' moves n).a.Inv ops json p ∧
      (after ops json p q trust trust' moves n).b.Inv ops json q := by
  refine Run.invariant (P := fun w : PairEnds => w.a.Inv ops json p ∧ w.b.Inv ops json q)
    ⟨.start trust, .start trust'⟩ ?_ n
  rintro n (move | move) - ⟨ha, hb⟩
  · exact ⟨ha.step hjson hshrinks move, hb⟩
  · exact ⟨ha, hb.step hjson hshrinks move⟩

/-- Equal codes are the codes of the same two Hellos. -/
theorem ordered_eq_of_code (ha : w.a.Inv ops json p) (hb : w.b.Inv ops json q)
    (hfree : w.CollisionFree ops json p q) {code : String} (hcode : w.a.code = some code)
    (hcode' : w.b.code = some code) :
    ∃ h h', w.a.Asks ops json p h ∧ w.b.Asks ops json q h' ∧ h.ordered = h'.ordered := by
  obtain ⟨h, hasks, hsas⟩ := (ha.shown code).mp hcode
  obtain ⟨h', hasks', hsas'⟩ := (hb.shown code).mp hcode'
  have htranscript := hfree.code h h' hasks hasks' (hsas.trans hsas'.symm)
  exact ⟨h, h', hasks, hasks',
    (PairHellos.transcript_inj (ha.heard h hasks.1).1 (hb.heard h' hasks'.1).1).mp htranscript⟩

/-- The same two Hellos make equal codes, whatever handshakes they came over. -/
theorem code_of_ordered_eq (ha : w.a.Inv ops json p) (hb : w.b.Inv ops json q) {h h' : PairHellos}
    (hasks : w.a.Asks ops json p h) (hasks' : w.b.Asks ops json q h')
    (hsame : h.ordered = h'.ordered) :
    ∃ code, w.a.code = some code ∧ w.b.code = some code := by
  have htranscript := (PairHellos.transcript_inj (ha.heard h hasks.1).1 (hb.heard h' hasks'.1).1).mpr
    hsame
  exact ⟨sasCode ops h.transcript, (ha.shown _).mpr ⟨h, hasks, rfl⟩,
    (hb.shown _).mpr ⟨h', hasks', by rw [htranscript]⟩⟩

/-- **When the code is bound to the channel.** In every state of every run of two honest sessions,
whatever the network puts into their sockets, equal codes mean equal handshake hashes exactly if the
Hellos have not been relayed. -/
theorem code_bound_iff (hjson : json.Lawful) (hshrinks : ops.aead.Shrinks)
    (trust trust' : TrustedPeerStore) (moves : List EndsMove) (n : ℕ)
    (hfree : (after ops json p q trust trust' moves n).CollisionFree ops json p q) :
    (after ops json p q trust trust' moves n).Bound ↔
      ¬ (after ops json p q trust trust' moves n).Relayed ops json p q := by
  obtain ⟨ha, hb⟩ := inv_after (p := p) (q := q) hjson hshrinks trust trust' moves n
  generalize after ops json p q trust trust' moves n = w at ha hb hfree ⊢
  constructor
  · rintro hbound ⟨h, h', d, d', hasks, hasks', hsame, hd, hd', hne⟩
    obtain ⟨code, hcode, hcode'⟩ := code_of_ordered_eq ha hb hasks hasks' hsame
    have hhash := hbound code hcode hcode'
    -- each end has the hash of its own hellos
    obtain ⟨-, hellos, ⟨e, he, rfl⟩, hjoined⟩ := ha.heard h hasks.1
    obtain ⟨-, hellos', ⟨e', he', rfl⟩, hjoined'⟩ := hb.heard h' hasks'.1
    rw [hd] at he
    cases he
    rw [hd'] at he'
    cases he'
    rw [hjoined, hjoined'] at hhash
    exact hne (transcriptBytes_inj (hfree.hash d d' hd hd' (Option.some.inj hhash))).2
  · intro hrelayed code hcode hcode'
    obtain ⟨h, h', hasks, hasks', hsame⟩ := ordered_eq_of_code ha hb hfree hcode hcode'
    obtain ⟨-, hellos, ⟨d, hd, rfl⟩, hjoined⟩ := ha.heard h hasks.1
    obtain ⟨-, hellos', ⟨d', hd', rfl⟩, hjoined'⟩ := hb.heard h' hasks'.1
    have heq : d.hellos = d'.hellos := by
      by_contra hne
      exact hrelayed ⟨h, h', d, d', hasks, hasks', hsame, hd, hd', hne⟩
    rw [hjoined, hjoined', heq]

/-- One transcript and one handshake have nothing to collide with. -/
theorem collisionFree_of_same
    (htranscript : w.a.session.hellos.map PairHellos.transcript =
      w.b.session.hellos.map PairHellos.transcript)
    (hhellos : w.a.transport.derived.map (·.hellos) = w.b.transport.derived.map (·.hellos)) :
    w.CollisionFree ops json p q where
  code h h' hasks hasks' _ := by
    rw [hasks.1, hasks'.1] at htranscript
    exact Option.some.inj htranscript
  hash d d' hd hd' _ := by
    rw [hd, hd'] at hhellos
    exact congrArg _ (Option.some.inj hhellos)

/-- Within one handshake nothing is relayed: both ends have derived the same hellos. -/
theorem not_relayed_of_same
    (hhellos : w.a.transport.derived.map (·.hellos) = w.b.transport.derived.map (·.hellos)) :
    ¬ w.Relayed ops json p q := by
  rintro ⟨h, h', d, d', -, -, -, hd, hd', hne⟩
  rw [hd, hd'] at hhellos
  exact hne (Option.some.inj hhellos)

end Runs

end PairEnds

/-! ## A relay -/

namespace Sample

/-- A text takes at least the bytes it was read from. -/
theorem readChars_sized {bs rest : Bytes} {cs : List Char} (h : readChars bs = some (cs, rest)) :
    (cs.flatMap String.utf8EncodeChar).length + rest.length ≤ bs.length := by
  induction bs using readChars.induct generalizing cs with
  | case1 rest' =>
      rw [readChars] at h
      cases h
      simp
  | case2 tag b₃ b₂ b₁ b₀ bs hne ih =>
      rw [readChars] at h
      · obtain ⟨⟨cs', rest'⟩, hread, heq⟩ := Option.map_eq_some_iff.mp h
        cases heq
        have hchar := Char.utf8Size_le_four (Char.ofNat (Bytes.fromBe [b₃, b₂, b₁, b₀]))
        have htail := ih hread
        simp only [List.flatMap_cons, List.length_append, String.length_utf8EncodeChar,
          List.length_cons] at htail ⊢
        omega
      · exact hne
  | case3 bs hend hmore =>
      rw [readChars] at h
      · cases h
      · exact hend
      · exact hmore

/-- A text that is read back is not longer than what it was read from. -/
theorem readText_sized {bs rest : Bytes} {s : String} (h : readText bs = .ok (s, rest)) :
    (utf8 s).length + rest.length ≤ bs.length := by
  unfold readText at h
  split at h
  · cases h
  · next hread =>
    cases h
    rw [Bytes.utf8_eq, String.toList_ofList]
    exact readChars_sized hread

/-- The stand-in JSON has what is asked of JSON here. -/
theorem pairJson_lawful : pairJson.Lawful where
  round message body hbody := by
    obtain ⟨body', hwritten, hread⟩ := pairDeps_lawful.json message
    rw [show pairDeps.json = pairJson from rfl, hbody] at hwritten
    cases hwritten
    exact hread
  sized body hello hread := by
    unfold pairJson at hread
    simp only at hread
    split at hread
    · next bs =>
      obtain ⟨⟨key, bs₁⟩, hkey, hread⟩ := except_bind_ok.mp hread
      obtain ⟨⟨nonce, bs₂⟩, hnonce, hread⟩ := except_bind_ok.mp hread
      obtain ⟨⟨id, bs₃⟩, hid, hread⟩ := except_bind_ok.mp hread
      obtain ⟨⟨name, bs₄⟩, hname, hread⟩ := except_bind_ok.mp hread
      cases hread
      have hkey : (utf8 key).length + bs₁.length ≤ bs.length := readText_sized hkey
      have hnonce : (utf8 nonce).length + bs₂.length ≤ bs₁.length := readText_sized hnonce
      have hid : (utf8 id).length + bs₃.length ≤ bs₂.length := readText_sized hid
      have hname : (utf8 name).length + bs₄.length ≤ bs₃.length := readText_sized hname
      simp only [List.length_cons]
      omega
    · obtain ⟨⟨sig, bs₁⟩, -, hread⟩ := except_bind_ok.mp hread
      cases hread
    · obtain ⟨⟨sig, bs₁⟩, -, hread⟩ := except_bind_ok.mp hread
      cases hread
    · cases hread

/-- The stand-in cipher makes nothing longer. -/
theorem ops_shrinks : ops.aead.Shrinks := by
  intro key nonce ct pt h
  simp only [ops, Aead.tagging] at h
  split at h
  · cases h
    rw [List.length_take]
    exact Nat.min_le_right _ _
  · cases h

/-- The machine that accepts, with the nonces and the key it makes for this session. -/
def alpha : PairParty where
  machineId := "machine-a"
  signingKey := pad 32 [1]
  displayName := "alpha"
  expectedPeerId := none
  peerAddr := "192.0.2.66:50000"
  ephemeral := pad 32 [11]
  transportNonce := pad 16 [12]
  nonce := pad 16 [13]

/-- The machine that initiates, with the nonces and the key it makes for this session. -/
def beta : PairParty where
  machineId := "machine-b"
  signingKey := pad 32 [2]
  displayName := "beta"
  expectedPeerId := some "machine-a"
  peerAddr := "192.0.2.66:24801"
  ephemeral := pad 32 [21]
  transportNonce := pad 16 [22]
  nonce := pad 16 [23]

/-- The bytes of a machine's Hello, as JSON. -/
def helloOf (p : PairParty) : Bytes := pairBytes (.hello ((p.deps ops pairJson).ourHello p.nonce))

/-- A frame with these bytes, the first on a stream. -/
def firstFrame (chan : CipherStream) (body : Bytes) : Bytes :=
  (chan.send ops.aead body .completes).2.wire

/-- The ephemeral key and the nonce of whoever is in the middle. -/
def middleKey : Arr 32 := pad 32 [66]
/-- The nonce of whoever is in the middle. -/
def middleNonce : Arr 16 := pad 16 [67]

/-- The hellos of the handshake with the machine that accepts. -/
def alphaHellos : Hellos :=
  ⟨ops.publicKey middleKey, middleNonce, ops.publicKey alpha.ephemeral, alpha.transportNonce⟩

/-- The hellos of the handshake with the machine that initiates. -/
def betaHellos : Hellos :=
  ⟨ops.publicKey beta.ephemeral, beta.transportNonce, ops.publicKey middleKey, middleNonce⟩

/-- Two handshakes, and each machine's Hello sent on to the other under the keys shared with it. -/
def relayRun : List EndsMove :=
  [.a (.deliver (hello1 0 (ops.publicKey middleKey) middleNonce).val), .a (.poll [99]),
    .b (.deliver (hello2 (ops.publicKey middleKey) middleNonce).val), .b (.poll [99]),
    .a (.deliver (firstFrame
      (finalizeKeys ops true middleKey (ops.publicKey alpha.ephemeral) 0 alphaHellos).2 (helloOf beta))),
    .b (.deliver (firstFrame
      (finalizeKeys ops false middleKey (ops.publicKey beta.ephemeral) 0 betaHellos).2 (helloOf alpha))),
    .a (.poll [3, 999]), .b (.poll [3, 999])]

/-- The hellos of a handshake of the two machines. -/
def directHellos : Hellos :=
  ⟨ops.publicKey beta.ephemeral, beta.transportNonce, ops.publicKey alpha.ephemeral,
    alpha.transportNonce⟩

/-- A network that carries everything where it should go. -/
def directRun : List EndsMove :=
  [.a (.deliver (hello1 0 (ops.publicKey beta.ephemeral) beta.transportNonce).val), .a (.poll [99]),
    .b (.deliver (hello2 (ops.publicKey alpha.ephemeral) alpha.transportNonce).val), .b (.poll [99]),
    .a (.deliver (firstFrame
      (finalizeKeys ops true beta.ephemeral (ops.publicKey alpha.ephemeral) 0 directHellos).2
        (helloOf beta))),
    .b (.deliver (firstFrame
      (finalizeKeys ops false alpha.ephemeral (ops.publicKey beta.ephemeral) 0 directHellos).2
        (helloOf alpha))),
    .a (.poll [3, 999]), .b (.poll [3, 999])]

/-- The ends at the end of a run of eight moves. -/
abbrev ends (moves : List EndsMove) : PairEnds :=
  PairEnds.after ops pairJson alpha beta ⟨.missing, []⟩ ⟨.missing, []⟩ moves 8

/-- The relay's run, evaluated: equal codes over different handshakes. -/
theorem relay_facts :
    (ends relayRun).a.code.isSome = true ∧ (ends relayRun).a.code = (ends relayRun).b.code ∧
      (ends relayRun).a.transcriptHash.isSome = true ∧
      (ends relayRun).a.transcriptHash ≠ (ends relayRun).b.transcriptHash := by
  decide +kernel

/-- The direct run, evaluated: equal codes over one handshake. -/
theorem direct_facts :
    (ends directRun).a.code.isSome = true ∧ (ends directRun).a.code = (ends directRun).b.code ∧
      (ends directRun).a.session.hellos.map PairHellos.transcript =
        (ends directRun).b.session.hellos.map PairHellos.transcript ∧
      (ends directRun).a.transport.derived.map (·.hellos) =
        (ends directRun).b.transport.derived.map (·.hellos) := by
  decide +kernel

end Sample

namespace PairEnds

/-- Over one handshake the code is bound to the channel. -/
theorem code_bound_iff_sample :
    (Sample.ends Sample.directRun).a.code.isSome = true ∧
      (Sample.ends Sample.directRun).a.code = (Sample.ends Sample.directRun).b.code ∧
      (Sample.ends Sample.directRun).Bound := by
  obtain ⟨hshown, hcode, htranscript, hhellos⟩ := Sample.direct_facts
  have hfree : (Sample.ends Sample.directRun).CollisionFree Sample.ops Sample.pairJson Sample.alpha
      Sample.beta := collisionFree_of_same htranscript hhellos
  have hdirect : ¬ (Sample.ends Sample.directRun).Relayed Sample.ops Sample.pairJson Sample.alpha
      Sample.beta := not_relayed_of_same hhellos
  exact ⟨hshown, hcode, (code_bound_iff Sample.pairJson_lawful Sample.ops_shrinks ⟨.missing, []⟩
    ⟨.missing, []⟩ Sample.directRun 8 hfree).mpr hdirect⟩

/-- Both users see the same code, but whoever is in the middle has a handshake with each of them. -/
theorem relayed_code_equal :
    (Sample.ends Sample.relayRun).a.code.isSome = true ∧
      (Sample.ends Sample.relayRun).a.code = (Sample.ends Sample.relayRun).b.code ∧
      (Sample.ends Sample.relayRun).a.transcriptHash ≠ (Sample.ends Sample.relayRun).b.transcriptHash ∧
      ¬ (Sample.ends Sample.relayRun).Bound := by
  obtain ⟨hshown, hcode, -, hhash⟩ := Sample.relay_facts
  refine ⟨hshown, hcode, hhash, fun hbound => ?_⟩
  obtain ⟨code, ha⟩ := Option.isSome_iff_exists.mp hshown
  exact hhash (hbound code ha (hcode ▸ ha))

end PairEnds

end Synbad
