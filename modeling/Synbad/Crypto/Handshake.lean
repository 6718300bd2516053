import Synbad.Crypto.Cipher

/-! # The handshake

`synbad-crypto/src/handshake.rs`: two hellos with ephemeral keys and nonces, keys derived from the
shared secret and the hash of the transcript, and, in authenticated mode, an exchange of signatures of
that hash over the encrypted stream.

The primitives are a parameter. A call of `initiate` or `accept` is a `Session`: it is polled with the
outcomes of the reads and of the write it awaits, and is left where its future would be left. Whether
a signature verifies is a parameter of a poll, so that the same code can be run with the library's
verification or with an ideal one.

The module is a translation of the file, and its theorems are in the ones that follow. Besides what
the code has, a session carries the model's own record of its run: what it has derived, what has been
put into its socket and what it has written, and whether a read or write of it has failed or was given
up. These are never read by the code; they are what the statements are about. -/

namespace Synbad

open Bytes (Arr)

/-- A text as its bytes, one for each character. -/
def ascii (s : String) : Bytes := s.toList.map fun c => UInt8.ofNat c.toNat

/-- `PROTOCOL_VERSION`, the first byte of the first hello. -/
def protocolVersion : UInt8 := 1

/-- `TRANSCRIPT_DOMAIN`, which the bytes that are hashed begin with. -/
def transcriptDomain : Bytes := ascii "synbad-crypto-v1"

/-- `HKDF_INFO`, which the keys are derived under. -/
def hkdfInfo : Bytes := ascii "synbad-crypto-v1-keys"

/-- `MAX_AUTH_FRAME_BYTES`, the most an auth frame may have. -/
def maxAuthFrameBytes : ℕ := 1024

/-- `HandshakeError`: what `initiate` or `accept` fails with. -/
inductive HandshakeError where
  | io (e : String)
  | badVersion (version : UInt8)
  | authModeMismatch
  | malformed (what : String)
  | badPeerSignature
  | unexpectedPeer (got expected : String)
  | untrustedPeer
  | authDecode (what : String)
  deriving DecidableEq, Repr

/-- `HandshakeMode`: with our key and id, which are then proved to the peer, or with neither. -/
inductive HandshakeMode where
  | authenticated (ourSigningKey : Arr 32) (ourMachineId : String)
  | anonymous

/-- `HandshakeMode::auth_flag`: the byte of the first hello that says which mode it is. -/
def HandshakeMode.authFlag : HandshakeMode → UInt8
  | .authenticated _ _ => 1
  | .anonymous => 0

/-- `PeerAuth`: who the peer has proved to be, if anybody. -/
inductive PeerAuth where
  | authenticated (machineId : String) (publicKey : Arr 32)
  | anonymous
  deriving DecidableEq

/-- `AuthFrame`: the id, the public key and the signature of the transcript, both as hexadecimal
text. -/
structure AuthFrame where
  machineId : String
  ed25519PubHex : String
  sigHex : String
  deriving DecidableEq

/-- The primitives, as libraries provide them: X25519, SHA-256, HKDF-SHA256 of 72 bytes, ed25519,
the AEAD, JSON for the one message that uses it, and hexadecimal text for keys and signatures. -/
structure Primitives where
  publicKey : Arr 32 → Arr 32
  diffieHellman : Arr 32 → Arr 32 → Arr 32
  sha256 : Bytes → Arr 32
  hkdf : (salt secret info : Bytes) → Arr 72
  verifyingKey : Arr 32 → Arr 32
  onCurve : Arr 32 → Bool
  sign : Arr 32 → Bytes → Arr 64
  verify : Arr 32 → Bytes → Arr 64 → Bool
  aead : Aead
  toJson : AuthFrame → Except String Bytes
  fromJson : Bytes → Except String AuthFrame
  hex : HexCodec

/-! ## Keys -/

/-- What the two hellos carry, both ephemeral keys and both nonces. -/
structure Hellos where
  initPub : Arr 32
  nonceI : Arr 16
  respPub : Arr 32
  nonceR : Arr 16
  deriving DecidableEq

/-- The first hello: version, mode, key and nonce of the initiator. -/
def hello1 (authFlag : UInt8) (initPub : Arr 32) (nonceI : Arr 16) : Arr 50 :=
  ⟨[protocolVersion, authFlag] ++ initPub.val ++ nonceI.val, by simp⟩

/-- The second hello: key and nonce of the responder. -/
def hello2 (respPub : Arr 32) (nonceR : Arr 16) : Arr 48 := ⟨respPub.val ++ nonceR.val, by simp⟩

/-- The bytes that are hashed: the domain, the version and the mode, and then what the hellos carry in
a fixed order. -/
def transcriptBytes (authFlag : UInt8) (h : Hellos) : Bytes :=
  transcriptDomain ++ [protocolVersion, authFlag] ++ h.initPub.val ++ h.nonceI.val ++
    h.respPub.val ++ h.nonceR.val

/-- `finalize_keys`: the transcript hash and a stream with keys that depend on the role. -/
def finalizeKeys (ops : Primitives) (initiator : Bool) (ourEphSk peerEphPk : Arr 32)
    (authFlag : UInt8) (h : Hellos) : Arr 32 × CipherStream :=
  let shared := ops.diffieHellman ourEphSk peerEphPk
  let transcript := ops.sha256 (transcriptBytes authFlag h)
  let okm := ops.hkdf transcript.val shared.val hkdfInfo
  let kIToR := okm.slice 0 32 (by decide)
  let kRToI := okm.slice 32 32 (by decide)
  let npIToR := okm.slice 64 4 (by decide)
  let npRToI := okm.slice 68 4 (by decide)
  -- each side sends with what the other receives with
  let cipher :=
    if initiator then CipherStream.new kIToR.val kRToI.val npIToR.val npRToI.val
    else CipherStream.new kRToI.val kIToR.val npRToI.val npIToR.val
  (transcript, cipher)

/-! ## The auth frames -/

/-- What a write of an authenticated message leaves behind. -/
structure SendAuth where
  cipher : CipherStream
  wire : Bytes
  /-- What the write returns, or nothing if the future was dropped. -/
  result : Option (Except HandshakeError Unit)

/-- The auth frame of a machine: its id, its public key and its signature of the transcript. -/
def authFrame (ops : Primitives) (signingKey : Arr 32) (machineId : String) (transcript : Arr 32) :
    AuthFrame where
  machineId := machineId
  ed25519PubHex := ops.hex.encode (ops.verifyingKey signingKey).val
  sigHex := ops.hex.encode (ops.sign signingKey transcript.val).val

/-- `send_auth_frame`: the frame as JSON, sent over the stream. A failure of the stream is an
`AuthDecode`. -/
def sendAuthFrame (ops : Primitives) (cipher : CipherStream) (ourSigningKey : Arr 32)
    (ourMachineId : String) (transcript : Arr 32) (fate : SendFate) : SendAuth :=
  match ops.toJson (authFrame ops ourSigningKey ourMachineId transcript) with
  | .error e => ⟨cipher, [], some (.error (.malformed e))⟩
  | .ok body =>
      let out := cipher.send ops.aead body fate
      ⟨out.1, out.2.wire, out.2.result.map (Except.mapError fun e => .authDecode e.message)⟩

/-- The part of `recv_auth_frame` after the bytes are there. -/
def parseAuthFrame (ops : Primitives) (bytes : Bytes) : Except HandshakeError AuthFrame :=
  if maxAuthFrameBytes < bytes.length then
    .error (.malformed ("auth frame is " ++ toString bytes.length ++ " bytes (max " ++
      toString maxAuthFrameBytes ++ ")"))
  else (ops.fromJson bytes).mapError .authDecode

/-- How a signature is checked: by the public key, the message and the signature. -/
abbrev Verifier := Arr 32 → Bytes → Arr 64 → Bool

/-- A value, or a `Malformed` error with this text. -/
def orMalformed {α : Type} (what : String) : Option α → Except HandshakeError α
  | none => .error (.malformed what)
  | some a => .ok a

/-- Nothing if the condition holds, and else this error. -/
def ensure (b : Bool) (e : HandshakeError) : Except HandshakeError Unit :=
  if b then .ok () else .error e

/-- `verify_auth_frame`: the key and the signature are decoded, each with an error of its own, and the
signature is checked over the transcript; the key the frame names. -/
def verifyAuthFrame (ops : Primitives) (verify : Verifier) (frame : AuthFrame)
    (transcript : Arr 32) : Except HandshakeError (Arr 32) := do
  let pkBytes ← orMalformed "auth ed25519_pub_hex" (ops.hex.decode frame.ed25519PubHex)
  let pk ← orMalformed "ed25519 key wrong length" (Arr.ofBytes 32 pkBytes)
  ensure (ops.onCurve pk) (.malformed "ed25519 key not on curve")
  -- the key is the one the frame itself names; whether it is trusted is checked by the caller
  let sigBytes ← orMalformed "auth sig_hex" (ops.hex.decode frame.sigHex)
  let sig ← orMalformed "sig wrong length" (Arr.ofBytes 64 sigBytes)
  ensure (verify pk transcript.val sig) .badPeerSignature
  return pk

/-- Which of the two functions was called, with what it holds the peer against. -/
inductive Call where
  | initiate (expectedPeer : Option (String × Arr 32))
  | accept (resolvePubkey : String → Option (Arr 32))

/-- The check of `initiate`: if somebody is expected, it is that id with that key. -/
def initiateCheck (expectedPeer : Option (String × Arr 32)) (machineId : String) (pk : Arr 32) :
    Except HandshakeError Unit :=
  match expectedPeer with
  | none => .ok ()
  | some (wantId, wantPk) =>
      if wantId ≠ machineId then .error (.unexpectedPeer machineId wantId)
      else if wantPk ≠ pk then .error .badPeerSignature
      else .ok ()

/-- The check of `accept`: the resolver knows the id, by that key. -/
def acceptCheck (resolvePubkey : String → Option (Arr 32)) (machineId : String) (pk : Arr 32) :
    Except HandshakeError Unit :=
  match resolvePubkey machineId with
  | none => .error .untrustedPeer
  | some wantPk => if wantPk ≠ pk then .error .badPeerSignature else .ok ()

/-- The check of a call, by which of the two functions it is. -/
def Call.check : Call → String → Arr 32 → Except HandshakeError Unit
  | .initiate expectedPeer => initiateCheck expectedPeer
  | .accept resolvePubkey => acceptCheck resolvePubkey

/-- From the bytes of the peer's frame to its identity. -/
def authenticatePeer (ops : Primitives) (verify : Verifier) (call : Call) (transcript : Arr 32)
    (bytes : Bytes) : Except HandshakeError (String × Arr 32) := do
  let frame ← parseAuthFrame ops bytes
  let pk ← verifyAuthFrame ops verify frame transcript
  call.check frame.machineId pk
  return (frame.machineId, pk)

/-! ## Sessions -/

/-- Where a call stands, by the read that it awaits, or how it has ended. -/
inductive Stage where
  /-- Reading the peer's hello, of which these bytes have come. -/
  | hello (buf : Bytes)
  /-- Reading the peer's auth frame, over the stream that was derived. -/
  | auth (cipher : CipherStream) (transcript : Arr 32)
  | done (cipher : CipherStream) (transcript : Arr 32) (peer : PeerAuth)
  | failed (e : HandshakeError)
  | cancelled

/-- What a call derived from the hellos: the hash of the transcript and the encrypted stream. -/
structure Derived where
  hellos : Hellos
  transcript : Arr 32
  cipher : CipherStream

/-- A call of `initiate` or `accept`: its arguments, its random choices, where it stands and the
bytes waiting in its socket; and its history: what was put into the socket, what it has written,
what it has derived, and whether a read or a write of it has failed or was given up. -/
structure Session where
  call : Call
  mode : HandshakeMode
  ephemeral : Arr 32
  nonce : Arr 16
  stage : Stage
  socket : Bytes
  fed : Bytes
  written : Bytes
  derived : Option Derived
  cut : Bool

/-- What a call has signed: the message, under which key, and in which session. -/
structure Signing where
  session : ℕ
  key : Arr 32
  message : Arr 32
  deriving DecidableEq

/-- The stage after a write: the next one, unless the write failed or was given up. -/
def Stage.afterWrite (next : Stage) : Option (Except HandshakeError Unit) → Stage
  | some (.ok ()) => next
  | some (.error e) => .failed e
  | none => .cancelled

/-- `write_all`: the bytes that get out, and the result. -/
def writeAll (bytes : Bytes) : SendFate → Bytes × Option (Except HandshakeError Unit)
  | .completes => (bytes, some (.ok ()))
  | .writeFails written e => (bytes.take written, some (.error (.io e)))
  | .dropped written => (bytes.take written, none)

/-- `read_exact`: the bytes so far, those left in the socket, and the error, if there was one. -/
def readExact (n : ℕ) (buf wire : Bytes) : List ReadEvent → Bytes × Bytes × Option String
  | [] => (buf, wire, none)
  | event :: events =>
      if buf.length < n then
        match streamRead wire (n - buf.length) event with
        | .pending => readExact n buf wire events
        | .eof => (buf, wire, some "early eof")
        | .error e => (buf, wire, some e)
        | .data bytes rest => readExact n (buf ++ bytes) rest events
      else (buf, wire, none)

/-- Only data arrives and the write completes: nothing fails and nothing is given up. -/
def clean (events : List ReadEvent) (fate : SendFate) : Bool :=
  fate = .completes && events.all fun
    | .data _ => true
    | _ => false

namespace Session

variable (ops : Primitives)

/-- The flag of the session's mode, as the hello has it. -/
def authFlag (s : Session) : UInt8 := s.mode.authFlag

/-- The ephemeral key this call shows to the peer. -/
def ourEphPk (s : Session) : Arr 32 := ops.publicKey s.ephemeral

/-- The start of a call: `initiate` writes its hello, `accept` waits for one. -/
def start (call : Call) (mode : HandshakeMode) (ephemeral : Arr 32) (nonce : Arr 16)
    (fate : SendFate) : Session :=
  let s : Session := ⟨call, mode, ephemeral, nonce, .hello [], [], [], [], none, false⟩
  match call with
  | .accept _ => s
  | .initiate _ =>
      let out := writeAll (hello1 mode.authFlag (s.ourEphPk ops) nonce).val fate
      { s with
        stage := Stage.afterWrite (.hello []) out.2, written := out.1
        cut := !clean [] fate }

/-- `initiate` once the second hello is there: derive the keys, sign, send. -/
def initiateHello (id : ℕ) (s : Session) (hello : Arr 48) (fate : SendFate) :
    Session × List Signing :=
  let hellos : Hellos :=
    ⟨s.ourEphPk ops, s.nonce, hello.slice 0 32 (by decide), hello.slice 32 16 (by decide)⟩
  let keys := finalizeKeys ops true s.ephemeral hellos.respPub s.authFlag hellos
  let s := { s with derived := some ⟨hellos, keys.1, keys.2⟩ }
  match s.mode with
  | .anonymous => ({ s with stage := .done keys.2 keys.1 .anonymous }, [])
  | .authenticated sk machineId =>
      -- the initiator shows itself first, before it knows whom it talks to
      let out := sendAuthFrame ops keys.2 sk machineId keys.1 fate
      ({ s with
         stage := Stage.afterWrite (.auth out.cipher keys.1) out.result
         written := s.written ++ out.wire },
        [⟨id, ops.verifyingKey sk, keys.1⟩])

/-- `accept` once the first hello is there: check it, answer, derive the keys. -/
def acceptHello (s : Session) (hello : Arr 50) (fate : SendFate) : Session × List Signing :=
  let version := hello.val.getD 0 0
  let flag := hello.val.getD 1 0
  if version ≠ protocolVersion then ({ s with stage := .failed (.badVersion version) }, [])
  else if flag ≠ s.authFlag then ({ s with stage := .failed .authModeMismatch }, [])
  else
    let hellos : Hellos :=
      ⟨hello.slice 2 32 (by decide), hello.slice 34 16 (by decide), s.ourEphPk ops, s.nonce⟩
    let out := writeAll (hello2 (s.ourEphPk ops) s.nonce).val fate
    let s := { s with written := s.written ++ out.1 }
    match out.2 with
    | none => ({ s with stage := .cancelled }, [])
    | some (.error e) => ({ s with stage := .failed e }, [])
    | some (.ok ()) =>
        -- nothing is derived before the answer is out
        let keys := finalizeKeys ops false s.ephemeral hellos.initPub s.authFlag hellos
        let next : Stage :=
          match s.mode with
          | .anonymous => .done keys.2 keys.1 .anonymous
          | .authenticated _ _ => .auth keys.2 keys.1
        ({ s with stage := next, derived := some ⟨hellos, keys.1, keys.2⟩ }, [])

/-- The peer is who it should be: `initiate` is done, `accept` signs and sends its own frame. -/
def peerAuthenticated (id : ℕ) (s : Session) (cipher : CipherStream) (transcript : Arr 32)
    (peer : PeerAuth) (fate : SendFate) : Session × List Signing :=
  match s.call, s.mode with
  | .accept _, .authenticated sk machineId =>
      let out := sendAuthFrame ops cipher sk machineId transcript fate
      ({ s with
         stage := Stage.afterWrite (.done out.cipher transcript peer) out.result
         written := s.written ++ out.wire },
        [⟨id, ops.verifyingKey sk, transcript⟩])
  -- `initiate` has sent its own frame before
  | _, _ => ({ s with stage := .done cipher transcript peer }, [])

/-- Waiting for a hello of `n` bytes: once it is complete the call resumes, and if the read fails the
call fails. -/
def readHello (n : ℕ) (s : Session) (buf : Bytes) (events : List ReadEvent)
    (resume : Session → Arr n → Session × List Signing) : Session × List Signing :=
  let r := readExact n buf s.socket events
  let s := { s with socket := r.2.1 }
  match r.2.2 with
  | some e => ({ s with stage := .failed (.io e) }, [])
  | none => if h : r.1.length = n then resume s ⟨r.1, h⟩ else ({ s with stage := .hello r.1 }, [])

/-- Waiting for the peer's auth frame: once it is complete the peer is authenticated, and any failure
on the way ends the call. -/
def readAuth (verify : Verifier) (id : ℕ) (s : Session) (cipher : CipherStream)
    (transcript : Arr 32) (events : List ReadEvent) (fate : SendFate) : Session × List Signing :=
  let r := cipher.recv ops.aead s.socket events
  let s := { s with socket := r.2.wire }
  match r.2.result with
  | none => ({ s with stage := .auth r.1 transcript }, [])
  | some (.error e) => ({ s with stage := .failed (.authDecode e.message) }, [])
  | some (.ok bytes) =>
      match authenticatePeer ops verify s.call transcript bytes with
      | .error e => ({ s with stage := .failed e }, [])
      | .ok (machineId, pk) =>
          s.peerAuthenticated ops id r.1 transcript (.authenticated machineId pk) fate

/-- Remember that a read or a write failed or was given up. -/
def mark (s : Session) (events : List ReadEvent) (fate : SendFate) : Session :=
  { s with cut := s.cut || !clean events fate }

/-- A poll of call number `id`, up to its next stage, and what it signs. -/
def poll (verify : Verifier) (id : ℕ) (s : Session) (events : List ReadEvent) (fate : SendFate) :
    Session × List Signing :=
  match s.stage, s.call with
  | .hello buf, .initiate _ =>
      (s.mark events fate).readHello 48 buf events fun s hello => s.initiateHello ops id hello fate
  | .hello buf, .accept _ =>
      (s.mark events fate).readHello 50 buf events fun s hello => s.acceptHello ops hello fate
  | .auth cipher transcript, _ =>
      (s.mark events fate).readAuth ops verify id cipher transcript events fate
  -- the call has returned or was dropped
  | _, _ => (s, [])

/-- Bytes arrive at the socket, behind those that are waiting there. -/
def deliver (s : Session) (bytes : Bytes) : Session :=
  { s with socket := s.socket ++ bytes, fed := s.fed ++ bytes }

end Session

end Synbad
