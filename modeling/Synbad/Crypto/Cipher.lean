import Synbad.Lib.Bytes

/-! # Encrypted frames

`synbad-crypto/src/cipher.rs`: length-delimited AEAD frames over a byte stream, with the progress of a
half-read frame kept outside the read future, and `split` into two halves that go on with the same
keys, counters and half-read frame.

The AEAD is a parameter. Futures are modelled by what they do before they end or are dropped: a `recv`
is given the outcomes of the socket reads it awaits, one after another, and is left pending when these
run out; a `send` is given how its writes end. Since `recv` keeps nothing of its own between two
polls, polling it again and calling it anew after dropping it are the same thing.

`sendFrame` and `recvFrame` are the code; the stream and its two halves only differ in where they keep
the key and the counter. An `Endpoint` is a stream or its halves, and a split end behaves as the
stream would (`send_joined`, `recv_joined`), so that what is shown of one direction holds wherever the
stream is split. `Sender` adds a history to a sending end, for statements about many sends. -/

namespace Synbad

/-- The cipher, as a library provides it: from a key, a nonce and a text, and with a failure of its
own in each direction. -/
structure Aead where
  encrypt : Bytes → Bytes → Bytes → Option Bytes
  decrypt : Bytes → Bytes → Bytes → Option Bytes

/-- What `recv` relies on: a payload of admissible size is encrypted, 16 bytes longer, and
decrypts to itself under the same key and nonce. -/
structure Aead.Lawful (aead : Aead) (maxPayload : ℕ) : Prop where
  encrypts : ∀ key nonce payload, payload.length ≤ maxPayload →
    ∃ ct, aead.encrypt key nonce payload = some ct ∧ ct.length = payload.length + 16 ∧
      aead.decrypt key nonce ct = some payload

namespace Aead

/-- The tag of the stand-in cipher: sixteen bytes of key, nonce and payload. -/
def tag (key nonce payload : Bytes) : Bytes :=
  (key ++ nonce ++ payload ++ List.replicate 16 0).take 16

/-- A stand-in cipher that tags without hiding anything, to run the model with. -/
def tagging : Aead where
  encrypt key nonce payload := some (payload ++ tag key nonce payload)
  decrypt key nonce ct :=
    let payload := ct.take (ct.length - 16)
    if ct = payload ++ tag key nonce payload then some payload else none

/-- A tag has sixteen bytes. -/
theorem length_tag (key nonce payload : Bytes) : (tag key nonce payload).length = 16 := by
  rw [tag, List.length_take, List.length_append, List.length_replicate]
  omega

/-- The stand-in behaves as `recv` relies on, for payloads of any size. -/
theorem tagging_lawful (maxPayload : ℕ) : tagging.Lawful maxPayload where
  encrypts := by
    intro key nonce payload _
    refine ⟨payload ++ tag key nonce payload, rfl, ?_, ?_⟩
    · rw [List.length_append, length_tag]
    · have htake : (payload ++ tag key nonce payload).take
          ((payload ++ tag key nonce payload).length - 16) = payload := by
        rw [List.length_append, length_tag, Nat.add_sub_cancel, List.take_left]
      simp only [tagging, htake, if_true]

end Aead

/-- `MAX_FRAME_BYTES`: 256 KiB, the most a payload may have. -/
def maxFrameBytes : ℕ := 256 * 1024

/-- `u64::MAX`, the last number the frame counter can have. -/
def maxCounter : ℕ := 2 ^ 64 - 1

/-- `FrameError`: what a `send` or a `recv` fails with. -/
inductive FrameError where
  | io (e : String)
  | oversize (n : ℕ)
  | badCiphertext
  | encryptFailed
  | nonceExhaustion
  deriving DecidableEq, Repr

/-- The text of a `FrameError`, as a log line or an answer shows it. -/
def FrameError.message : FrameError → String
  | .io e => "io: " ++ e
  | .oversize n => "frame is " ++ toString n ++ " bytes (max " ++ toString maxFrameBytes ++ ")"
  | .badCiphertext => "AEAD decrypt failed (tampered or out-of-order)"
  | .encryptFailed => "AEAD encrypt failed"
  | .nonceExhaustion => "counter overflow — session has exhausted its nonce space"

/-- `build_nonce`: the prefix, then the counter in eight bytes. -/
def buildNonce (pre : Bytes) (counter : ℕ) : Bytes := pre ++ Bytes.toBe 8 counter

/-- Counters in the range of a `u64` give different nonces under one prefix. -/
theorem buildNonce_inj {pre : Bytes} {m n : ℕ} (hm : m ≤ maxCounter) (hn : n ≤ maxCounter)
    (h : buildNonce pre m = buildNonce pre n) : m = n := by
  have hrange : ∀ {k : ℕ}, k ≤ maxCounter → k < 256 ^ 8 := by
    intro k hk
    exact lt_of_le_of_lt hk (by decide)
  exact Bytes.toBe_inj (hrange hm) (hrange hn) (List.append_cancel_left h)

/-! ## Reading a frame -/

/-- How one socket read ends: some bytes arrive, the stream is closed, or it fails. -/
inductive ReadEvent where
  /-- Some bytes arrive, at least one and at most `n + 1`. -/
  | data (n : ℕ)
  | eof
  | error (e : String)

/-- The result of `stream.read` into a buffer: the bytes that were read and those still in the socket,
or why there are none. -/
inductive ReadResult where
  /-- Nothing has arrived, so the read is still waiting. -/
  | pending
  | eof
  | error (e : String)
  | data (bytes rest : Bytes)

/-- `stream.read` into `room` bytes, with `wire` waiting in the socket. -/
def streamRead (wire : Bytes) (room : ℕ) : ReadEvent → ReadResult
  | .eof => .eof
  | .error e => .error e
  | .data n =>
      if wire = [] then .pending else .data (wire.take (min (n + 1) room)) (wire.drop (min (n + 1) room))

/-- The progress of a frame: its four bytes of header and then its body, each with how much of it has
been read. -/
structure PendingFrame where
  header : Bytes
  headerRead : ℕ
  body : Bytes
  bodyRead : ℕ
  deriving DecidableEq, Repr

namespace PendingFrame

/-- `PendingFrame::default`: nothing of the next frame has been read yet. -/
def default : PendingFrame := ⟨[0, 0, 0, 0], 0, [], 0⟩

/-- What a poll of `read` leaves behind: the progress, the bytes still in the socket, and the
result, if it is ready. -/
structure Poll where
  frame : PendingFrame
  wire : Bytes
  result : Option (Except FrameError Bytes)

/-- The end of `read`: hand the body out and start over. -/
def finish (f : PendingFrame) (wire : Bytes) : Poll :=
  ⟨{ f with headerRead := 0, bodyRead := 0, body := [] }, wire, some (.ok f.body)⟩

/-- The error of a stream that is closed in the middle of a frame. -/
def unexpectedEof : FrameError := .io "unexpected end of file"

/-- The loop over the body: one read after the other into the rest of the buffer, until it is full. -/
def readBody (f : PendingFrame) (wire : Bytes) : List ReadEvent → Poll
  | [] => if f.bodyRead < f.body.length then ⟨f, wire, none⟩ else f.finish wire
  | event :: events =>
      if f.bodyRead < f.body.length then
        match streamRead wire (f.body.length - f.bodyRead) event with
        | .pending => f.readBody wire events
        | .eof => ⟨f, wire, some (.error unexpectedEof)⟩
        | .error e => ⟨f, wire, some (.error (.io e))⟩
        | .data bytes rest =>
            readBody
              { f with
                body := f.body.overwrite f.bodyRead bytes, bodyRead := f.bodyRead + bytes.length }
              rest events
      else f.finish wire

/-- A length the header may announce: that of a tag at least, and at most that of the largest
ciphertext. -/
def lengthOk (len : ℕ) : Bool := 16 ≤ len && len ≤ maxFrameBytes + 16

/-- Between the loops: an empty body means that the header has just been completed. -/
def startBody (f : PendingFrame) (wire : Bytes) (events : List ReadEvent) : Poll :=
  if f.body = [] then
    let len := Bytes.fromBe f.header
    -- the progress stays: the next read finds the same header and rejects it again
    if !lengthOk len then ⟨f, wire, some (.error (.oversize len))⟩
    else readBody { f with body := List.replicate len 0 } wire events
  else f.readBody wire events

/-- `PendingFrame::read`: the loop over the header, then the body. -/
def read (f : PendingFrame) (wire : Bytes) : List ReadEvent → Poll
  | [] => if f.headerRead < 4 then ⟨f, wire, none⟩ else f.startBody wire []
  | event :: events =>
      if f.headerRead < 4 then
        match streamRead wire (4 - f.headerRead) event with
        | .pending => f.read wire events
        | .eof => ⟨f, wire, some (.error unexpectedEof)⟩
        | .error e => ⟨f, wire, some (.error (.io e))⟩
        | .data bytes rest =>
            read
              { f with
                header := f.header.overwrite f.headerRead bytes
                headerRead := f.headerRead + bytes.length }
              rest events
      else f.startBody wire (event :: events)

end PendingFrame

/-! ## Sending and receiving -/

/-- How the writes of a `send` end, and how many bytes are out by then if they do not complete. -/
inductive SendFate where
  | completes
  | writeFails (written : ℕ) (e : String)
  /-- The future is dropped at one of its await points. -/
  | dropped (written : ℕ)
  deriving DecidableEq, Repr

/-- What a `send` leaves behind: the counter, the ciphertext if one was produced, the bytes put on
the wire, and the result unless the future was dropped. -/
structure SendOutcome where
  counter : ℕ
  ciphertext : Option Bytes
  wire : Bytes
  result : Option (Except FrameError Unit)

/-- The bytes of a frame: the length of the ciphertext in four bytes, then the ciphertext. -/
def frameBytes (ct : Bytes) : Bytes := Bytes.toBe 4 ct.length ++ ct

/-- The body shared by `CipherStream::send` and `CipherWriter::send`: the size is checked, the payload
is encrypted under the current counter, the frame is written, and then the counter moves. -/
def sendFrame (aead : Aead) (key pre : Bytes) (counter : ℕ) (payload : Bytes) (fate : SendFate) :
    SendOutcome :=
  if maxFrameBytes < payload.length then
    ⟨counter, none, [], some (.error (.oversize payload.length))⟩
  else
    match aead.encrypt key (buildNonce pre counter) payload with
    | none => ⟨counter, none, [], some (.error .encryptFailed)⟩
    | some ct =>
        match fate with
        | .writeFails written e =>
            ⟨counter, some ct, (frameBytes ct).take written, some (.error (.io e))⟩
        | .dropped written => ⟨counter, some ct, (frameBytes ct).take written, none⟩
        | .completes =>
            -- the counter moves only now, after the bytes are out
            if counter = maxCounter then
              ⟨counter, some ct, frameBytes ct, some (.error .nonceExhaustion)⟩
            else ⟨counter + 1, some ct, frameBytes ct, some (.ok ())⟩

/-- What a poll of `recv` leaves behind: the counter, the progress, the bytes still in the socket, and
the result, if it is ready. -/
structure RecvOutcome where
  counter : ℕ
  frame : PendingFrame
  wire : Bytes
  result : Option (Except FrameError Bytes)

/-- The body shared by `CipherStream::recv` and `CipherReader::recv`: the frame is read, decrypted
under the current counter, and the counter moves if that succeeded. -/
def recvFrame (aead : Aead) (key pre : Bytes) (counter : ℕ) (frame : PendingFrame) (wire : Bytes)
    (events : List ReadEvent) : RecvOutcome :=
  let poll := frame.read wire events
  match poll.result with
  | none => ⟨counter, poll.frame, poll.wire, none⟩
  | some (.error e) => ⟨counter, poll.frame, poll.wire, some (.error e)⟩
  | some (.ok ct) =>
      match aead.decrypt key (buildNonce pre counter) ct with
      -- the bytes of the frame are gone, but the counter stays
      | none => ⟨counter, poll.frame, poll.wire, some (.error .badCiphertext)⟩
      | some pt =>
          if counter = maxCounter then
            ⟨counter, poll.frame, poll.wire, some (.error .nonceExhaustion)⟩
          else ⟨counter + 1, poll.frame, poll.wire, some (.ok pt)⟩

/-- An encrypted stream: for each direction a key, a prefix of the nonces and a counter, and the frame
that is being read. -/
structure CipherStream where
  sendKey : Bytes
  recvKey : Bytes
  sendPrefix : Bytes
  recvPrefix : Bytes
  sendCounter : ℕ
  recvCounter : ℕ
  recvFrame : PendingFrame

/-- The read half of a split stream, which is what belongs to its receiving direction. -/
structure CipherReader where
  key : Bytes
  pre : Bytes
  counter : ℕ
  frame : PendingFrame

/-- The write half of a split stream, which is what belongs to its sending direction. -/
structure CipherWriter where
  key : Bytes
  pre : Bytes
  counter : ℕ

/-- `CipherStream::new`: both counters are zero and nothing has been read. -/
def CipherStream.new (sendKey recvKey sendPrefix recvPrefix : Bytes) : CipherStream :=
  ⟨sendKey, recvKey, sendPrefix, recvPrefix, 0, 0, PendingFrame.default⟩

/-- `CipherStream::send`: a frame under the stream's own key and counter. -/
def CipherStream.send (aead : Aead) (s : CipherStream) (payload : Bytes) (fate : SendFate) :
    CipherStream × SendOutcome :=
  let out := sendFrame aead s.sendKey s.sendPrefix s.sendCounter payload fate
  ({ s with sendCounter := out.counter }, out)

/-- `CipherStream::recv`: the next frame, or as much of it as has come. -/
def CipherStream.recv (aead : Aead) (s : CipherStream) (wire : Bytes) (events : List ReadEvent) :
    CipherStream × RecvOutcome :=
  let out := Synbad.recvFrame aead s.recvKey s.recvPrefix s.recvCounter s.recvFrame wire events
  ({ s with recvCounter := out.counter, recvFrame := out.frame }, out)

/-- `CipherWriter::send`: a frame under the key and counter of the write half. -/
def CipherWriter.send (aead : Aead) (w : CipherWriter) (payload : Bytes) (fate : SendFate) :
    CipherWriter × SendOutcome :=
  let out := sendFrame aead w.key w.pre w.counter payload fate
  ({ w with counter := out.counter }, out)

/-- `CipherReader::recv`: the next frame, or as much of it as has come, at the read half. -/
def CipherReader.recv (aead : Aead) (r : CipherReader) (wire : Bytes) (events : List ReadEvent) :
    CipherReader × RecvOutcome :=
  let out := recvFrame aead r.key r.pre r.counter r.frame wire events
  ({ r with counter := out.counter, frame := out.frame }, out)

/-- `CipherStream::split`: each half takes its key, prefix and counter along, and a half-read frame
goes with the reader. -/
def CipherStream.split (s : CipherStream) : CipherReader × CipherWriter :=
  (⟨s.recvKey, s.recvPrefix, s.recvCounter, s.recvFrame⟩, ⟨s.sendKey, s.sendPrefix, s.sendCounter⟩)

/-! ## One end of a connection, split or not -/

/-- One end of a connection: the stream as a whole, or its two halves. -/
inductive Endpoint where
  | whole (s : CipherStream)
  | halves (r : CipherReader) (w : CipherWriter)

namespace Endpoint

/-- Split the stream; an end that is split already stays as it is. -/
def split : Endpoint → Endpoint
  | .whole s => .halves s.split.1 s.split.2
  | .halves r w => .halves r w

/-- Send on the stream or on its write half. -/
def send (aead : Aead) (payload : Bytes) (fate : SendFate) : Endpoint → Endpoint × SendOutcome
  | .whole s => (.whole (s.send aead payload fate).1, (s.send aead payload fate).2)
  | .halves r w => (.halves r (w.send aead payload fate).1, (w.send aead payload fate).2)

/-- Receive on the stream or on its read half. -/
def recv (aead : Aead) (wire : Bytes) (events : List ReadEvent) : Endpoint → Endpoint × RecvOutcome
  | .whole s => (.whole (s.recv aead wire events).1, (s.recv aead wire events).2)
  | .halves r w => (.halves (r.recv aead wire events).1 w, (r.recv aead wire events).2)

/-- The two halves put back together, to compare a split end with one that is whole. -/
def joined : Endpoint → CipherStream
  | .whole s => s
  | .halves r w => ⟨w.key, r.key, w.pre, r.pre, w.counter, r.counter, r.frame⟩

/-- Splitting loses nothing: put back together, the halves are the stream that was split. -/
@[simp] theorem split_joined (e : Endpoint) : e.split.joined = e.joined := by
  cases e <;> rfl

/-- A split end sends as the stream would: the same outcome, and the same stream when put back
together. -/
theorem send_joined (aead : Aead) (payload : Bytes) (fate : SendFate) (e : Endpoint) :
    (e.send aead payload fate).1.joined = (e.joined.send aead payload fate).1 ∧
      (e.send aead payload fate).2 = (e.joined.send aead payload fate).2 := by
  cases e <;> exact ⟨rfl, rfl⟩

/-- A split end receives as the stream would: the same outcome, and the same stream when put back
together. -/
theorem recv_joined (aead : Aead) (wire : Bytes) (events : List ReadEvent) (e : Endpoint) :
    (e.recv aead wire events).1.joined = (e.joined.recv aead wire events).1 ∧
      (e.recv aead wire events).2 = (e.joined.recv aead wire events).2 := by
  cases e <;> exact ⟨rfl, rfl⟩

end Endpoint

/-! ## A sending end -/

/-- One encryption: under this key and nonce, of this payload, with this result. -/
structure Encryption where
  key : Bytes
  nonce : Bytes
  payload : Bytes
  ciphertext : Bytes
  deriving DecidableEq, Repr

/-- What can happen at a sending end: a send, with how its writes end, or the split of its stream. -/
inductive SendOp where
  | send (payload : Bytes) (fate : SendFate)
  | split

/-- A sending end with what it has put on the wire, what its sends returned (nothing for one that
was dropped) and what it has encrypted. -/
structure Sender where
  endpoint : Endpoint
  wire : Bytes
  results : List (Option (Except FrameError Unit))
  log : List Encryption

namespace Sender

/-- A sending end that has sent nothing, with its stream as a whole. -/
def start (s : CipherStream) : Sender := ⟨.whole s, [], [], []⟩

/-- The encryption a `send` performs, if it gets that far. -/
def encryption (e : Endpoint) (payload : Bytes) (out : SendOutcome) : List Encryption :=
  (out.ciphertext.map fun ct =>
    ⟨e.joined.sendKey, buildNonce e.joined.sendPrefix e.joined.sendCounter, payload, ct⟩).toList

/-- One operation at a sending end, with what it puts on the wire, returns and encrypts added to the
history. -/
def step (aead : Aead) (s : Sender) : SendOp → Sender
  | .split => { s with endpoint := s.endpoint.split }
  | .send payload fate =>
      let out := s.endpoint.send aead payload fate
      { endpoint := out.1
        wire := s.wire ++ out.2.wire
        results := s.results ++ [out.2.result]
        log := s.log ++ encryption s.endpoint payload out.2 }

/-- **A send at a sending end**, split or not, is `sendFrame` on its current counter. -/
theorem step_send (aead : Aead) (s : Sender) (payload : Bytes) (fate : SendFate) {e : CipherStream}
    (he : s.endpoint.joined = e) {out : SendOutcome}
    (hout : sendFrame aead e.sendKey e.sendPrefix e.sendCounter payload fate = out) :
    (s.step aead (.send payload fate)).endpoint.joined = { e with sendCounter := out.counter } ∧
      (s.step aead (.send payload fate)).wire = s.wire ++ out.wire ∧
      (s.step aead (.send payload fate)).results = s.results ++ [out.result] ∧
      (s.step aead (.send payload fate)).log = s.log ++ (out.ciphertext.map fun ct =>
        ⟨e.sendKey, buildNonce e.sendPrefix e.sendCounter, payload, ct⟩).toList := by
  subst he
  subst hout
  obtain ⟨hjoined, hsame⟩ := s.endpoint.send_joined aead payload fate
  have hout : (s.endpoint.send aead payload fate).2 =
      sendFrame aead s.endpoint.joined.sendKey s.endpoint.joined.sendPrefix
        s.endpoint.joined.sendCounter payload fate := hsame
  refine ⟨hjoined, ?_, ?_, ?_⟩
  · rw [← hout]
    rfl
  · rw [← hout]
    rfl
  · rw [← hout]
    rfl

end Sender

end Synbad
