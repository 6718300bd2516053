import Synbad.Crypto.Sessions
import Synbad.Crypto.Framing

/-! # Scripts

How a handshake goes when everything goes well. The invariant of a call is a `Script`: what it has
read of the other's hello and frame, and what it has written, at each of its stages. A poll to which
no read or write fails keeps to the script as long as the bytes it reads are those the other writes,
in whatever pieces they come, and when each has read all that the other has written both are done.

What is relied on of the primitives is `Primitives.Lawful`. `Meeting` is a pair of calls with what
they were made with; from it come the hellos they exchange, what each derives, and the script of each
role. The two functions keep to their scripts by the same argument, made once for a clean poll of any
script and instantiated for the initiator (`initiator_poll`) and the responder (`acceptor_poll`).
`done_of_settled` is the end of it: the only stage at which everything the other has written has been
read, by both, is the last one. -/

namespace Synbad

open Bytes (Arr)

/-- What the handshake relies on: Diffie-Hellman commutes, a signature of a key verifies under its
public key, which is on the curve, the cipher decrypts what it encrypts, and JSON with texts that need
no escapes is read back as it was written, with 51 bytes around the texts. -/
structure Primitives.Lawful (ops : Primitives) : Prop where
  diffieHellman_comm : ∀ a b,
    ops.diffieHellman a (ops.publicKey b) = ops.diffieHellman b (ops.publicKey a)
  onCurve : ∀ sk, ops.onCurve (ops.verifyingKey sk) = true
  verify_sign : ∀ sk message, ops.verify (ops.verifyingKey sk) message (ops.sign sk message) = true
  aead : ops.aead.Lawful maxFrameBytes
  json : ∀ frame : AuthFrame, Bytes.Plain frame.machineId → Bytes.Plain frame.ed25519PubHex →
    Bytes.Plain frame.sigHex → ∃ body, ops.toJson frame = .ok body ∧ ops.fromJson body = .ok frame ∧
      body.length = 51 + frame.machineId.length + frame.ed25519PubHex.length + frame.sigHex.length

/-! ## The auth frame of an honest machine -/

/-- `ct` is what an honest call encrypts first under this key: its auth frame. -/
structure AuthCiphertext (ops : Primitives) (key pre : Bytes) (sk : Arr 32) (machineId : String)
    (transcript : Arr 32) (ct : Bytes) : Prop where
  ok : PendingFrame.lengthOk ct.length = true
  sends : ∀ c : CipherStream, c.sendKey = key → c.sendPrefix = pre → c.sendCounter = 0 →
    sendAuthFrame ops c sk machineId transcript .completes =
      ⟨{ c with sendCounter := 1 }, frameBytes ct, some (.ok ())⟩
  opens : ∃ body, ops.aead.decrypt key (buildNonce pre 0) ct = some body ∧
    parseAuthFrame ops body = .ok (authFrame ops sk machineId transcript)

/-- An honest machine's auth frame has a ciphertext: it is short enough. -/
theorem exists_authCiphertext {ops : Primitives} (hlaw : ops.Lawful) {M : Type} (fleet : Fleet ops M)
    (m : M) (key pre : Bytes) (transcript : Arr 32) :
    ∃ ct, AuthCiphertext ops key pre (fleet.signingKey m) (fleet.machineId m) transcript ct := by
  obtain ⟨body, hjson, hback, hlength⟩ :=
    hlaw.json (authFrame ops (fleet.signingKey m) (fleet.machineId m) transcript) (fleet.uuid m).2
      (ops.hex.plain_encode _) (ops.hex.plain_encode _)
  have hbody : body.length = 279 := by
    rw [hlength]
    simp only [authFrame, HexCodec.length_encode, Arr.length_val, (fleet.uuid m).1]
  have hsmall : body.length ≤ maxFrameBytes := by
    rw [hbody]
    decide
  obtain ⟨ct, hct, hok, hpt⟩ := hlaw.aead.frame key (buildNonce pre 0) hsmall
  refine ⟨ct, hok, ?_, body, hpt, ?_⟩
  · intro c hkey hpre hcounter
    have hsend : sendFrame ops.aead c.sendKey c.sendPrefix c.sendCounter body .completes =
        ⟨1, some ct, frameBytes ct, some (.ok ())⟩ := by
      rw [hkey, hpre, hcounter]
      simp only [sendFrame, hct]
      rw [if_neg (not_lt.mpr hsmall), if_neg (by decide)]
    simp only [sendAuthFrame, hjson, CipherStream.send, hsend]
    rfl
  · rw [parseAuthFrame, if_neg (by rw [hbody]; decide), hback]
    rfl

/-- A signature that a machine has made verifies under its key, with the library's verification and
with the ideal one. -/
theorem Fleet.verify_of_signed {ops : Primitives} (hlaw : ops.Lawful) {M : Type}
    (fleet : Fleet ops M) {log : List Signing} (m : M) {message : Arr 32}
    (h : ∃ e ∈ log, e.key = fleet.publicKey m ∧ e.message = message) :
    fleet.verify log (fleet.publicKey m) message.val (ops.sign (fleet.signingKey m) message.val) =
      true := by
  obtain ⟨e, he, hkey, hmessage⟩ := h
  rw [Fleet.verify, Bool.and_eq_true]
  refine ⟨hlaw.verify_sign _ _, ?_⟩
  split
  · rfl
  · rw [List.any_eq_true]
    exact ⟨e, he, by simp [hkey, hmessage]⟩

/-- An honest frame authenticates its sender, if the call accepts it. -/
theorem authenticatePeer_of_frame {ops : Primitives} (hlaw : ops.Lawful) {M : Type}
    (fleet : Fleet ops M) {log : List Signing} (m : M) {call : Call} {transcript : Arr 32}
    {body : Bytes} (hsigned : ∃ e ∈ log, e.key = fleet.publicKey m ∧ e.message = transcript)
    (hcheck : call.check (fleet.machineId m) (fleet.publicKey m) = .ok ())
    (hparse : parseAuthFrame ops body =
      .ok (authFrame ops (fleet.signingKey m) (fleet.machineId m) transcript)) :
    authenticatePeer ops (fleet.verify log) call transcript body =
      .ok (fleet.machineId m, fleet.publicKey m) := by
  have hpk : orMalformed "auth ed25519_pub_hex"
      (ops.hex.decode (ops.hex.encode (fleet.publicKey m).val)) = .ok (fleet.publicKey m).val := by
    rw [ops.hex.decode_encode, orMalformed]
  have hsig : orMalformed "auth sig_hex" (ops.hex.decode (ops.hex.encode
      (ops.sign (fleet.signingKey m) transcript.val).val)) =
        .ok (ops.sign (fleet.signingKey m) transcript.val).val := by
    rw [ops.hex.decode_encode, orMalformed]
  have hverify : verifyAuthFrame ops (fleet.verify log)
      (authFrame ops (fleet.signingKey m) (fleet.machineId m) transcript) transcript =
        .ok (fleet.publicKey m) := by
    refine except_bind_ok.mpr ⟨_, hpk, ?_⟩
    refine except_bind_ok.mpr ⟨fleet.publicKey m, by rw [Arr.ofBytes_val, orMalformed], ?_⟩
    refine except_bind_ok.mpr ⟨(), if_pos (hlaw.onCurve _), ?_⟩
    refine except_bind_ok.mpr ⟨_, hsig, ?_⟩
    refine except_bind_ok.mpr ⟨_, by rw [Arr.ofBytes_val, orMalformed], ?_⟩
    exact except_bind_ok.mpr ⟨(), if_pos (fleet.verify_of_signed hlaw m hsigned), rfl⟩
  refine except_bind_ok.mpr ⟨_, hparse, ?_⟩
  refine except_bind_ok.mpr ⟨_, hverify, ?_⟩
  exact except_bind_ok.mpr ⟨(), hcheck, rfl⟩

/-! ## Clean polls -/

/-- A clean poll is one in which the write completes and only data arrives, in whatever pieces. -/
theorem clean_iff {events : List ReadEvent} {fate : SendFate} :
    clean events fate = true ↔ fate = .completes ∧ ∃ sizes : List ℕ, events = sizes.map .data := by
  rw [clean, Bool.and_eq_true, decide_eq_true_eq]
  refine and_congr_right fun _ => ?_
  induction events with
  | nil => exact ⟨fun _ => ⟨[], rfl⟩, fun _ => rfl⟩
  | cons event events ih =>
      rw [List.all_cons, Bool.and_eq_true, ih]
      constructor
      · rintro ⟨hevent, sizes, rfl⟩
        cases event with
        | data n => exact ⟨n :: sizes, rfl⟩
        | eof => cases hevent
        | error e => cases hevent
      · rintro ⟨_ | ⟨n, sizes⟩, hsizes⟩
        · cases hsizes
        · cases hsizes
          exact ⟨rfl, sizes, rfl⟩

/-- `read_exact` over arriving data takes bytes from the socket, in order, and no more than asked. -/
theorem readExact_data {n : ℕ} (buf wire : Bytes) (hbuf : buf.length ≤ n) (sizes : List ℕ) :
    (readExact n buf wire (sizes.map .data)).2.2 = none ∧
      (readExact n buf wire (sizes.map .data)).1 ++ (readExact n buf wire (sizes.map .data)).2.1 =
        buf ++ wire ∧
      (readExact n buf wire (sizes.map .data)).1.length ≤ n := by
  induction sizes generalizing buf wire with
  | nil => exact ⟨rfl, rfl, hbuf⟩
  | cons size sizes ih =>
      rw [List.map_cons, readExact]
      by_cases hmore : buf.length < n
      · rw [if_pos hmore, streamRead]
        by_cases hwire : wire = []
        · rw [if_pos hwire]
          exact ih buf wire hbuf
        · rw [if_neg hwire]
          have hfits : (buf ++ wire.take (min (size + 1) (n - buf.length))).length ≤ n := by
            rw [List.length_append, List.length_take]
            omega
          have hnext := ih _ (wire.drop (min (size + 1) (n - buf.length))) hfits
          rw [List.append_assoc, List.take_append_drop] at hnext
          exact hnext
      · rw [if_neg hmore]
        exact ⟨rfl, rfl, hbuf⟩

namespace Session

variable {ops : Primitives} {verify : Verifier} {id : ℕ} {s : Session}

/-- What a call was made with: which function, the mode, the ephemeral key and the nonce. -/
def args (s : Session) : Call × HandshakeMode × Arr 32 × Arr 16 :=
  (s.call, s.mode, s.ephemeral, s.nonce)

/-- The arguments of a session and whether it is marked, which no clean move changes. -/
def frozen (s : Session) : (Call × HandshakeMode × Arr 32 × Arr 16) × Bool := (s.args, s.cut)

/-- What a session was called with is not changed when it is done with a hello it waited for. -/
theorem initiateHello_frozen (hello : Arr 48) (fate : SendFate) :
    (s.initiateHello ops id hello fate).1.frozen = s.frozen := by
  unfold initiateHello
  dsimp only
  split <;> rfl

/-- Nor is it changed at the accepting side. -/
theorem acceptHello_frozen (hello : Arr 50) (fate : SendFate) :
    (s.acceptHello ops hello fate).1.frozen = s.frozen := by
  unfold acceptHello
  dsimp only
  split
  · rfl
  split
  · rfl
  split <;> rfl

/-- A read of a hello changes nothing of it, if what follows the read does not. -/
theorem readHello_frozen {n : ℕ} (buf : Bytes) (events : List ReadEvent)
    {resume : Session → Arr n → Session × List Signing}
    (h : ∀ (s : Session) hello, (resume s hello).1.frozen = s.frozen) :
    (s.readHello n buf events resume).1.frozen = s.frozen := by
  unfold readHello
  dsimp only
  split
  · rfl
  split
  · exact h _ _
  · rfl

/-- Nor does the end of the handshake. -/
theorem peerAuthenticated_frozen (cipher : CipherStream) (transcript : Arr 32) (peer : PeerAuth)
    (fate : SendFate) :
    (s.peerAuthenticated ops id cipher transcript peer fate).1.frozen = s.frozen := by
  unfold peerAuthenticated
  split <;> rfl

/-- Nor does a read of the frame that authenticates the peer. -/
theorem readAuth_frozen (cipher : CipherStream) (transcript : Arr 32) (events : List ReadEvent)
    (fate : SendFate) :
    (s.readAuth ops verify id cipher transcript events fate).1.frozen = s.frozen := by
  unfold readAuth
  dsimp only
  split
  · rfl
  · rfl
  split
  · rfl
  · exact peerAuthenticated_frozen _ _ _ _

/-- A poll keeps the arguments; it does nothing, or it leaves the mark. -/
theorem poll_frozen (events : List ReadEvent) (fate : SendFate) :
    s.poll ops verify id events fate = (s, []) ∨
      (s.poll ops verify id events fate).1.frozen = (s.mark events fate).frozen := by
  unfold poll
  split
  · exact Or.inr (readHello_frozen _ _ fun _ _ => initiateHello_frozen _ _)
  · exact Or.inr (readHello_frozen _ _ fun _ _ => acceptHello_frozen _ _)
  · exact Or.inr (readAuth_frozen _ _ _ _)
  · exact Or.inl rfl

/-- A poll leaves the arguments of a call as they are. -/
theorem poll_args (events : List ReadEvent) (fate : SendFate) :
    (s.poll ops verify id events fate).1.args = s.args := by
  rcases s.poll_frozen events fate with h | h
  · rw [h]
  · exact congrArg Prod.fst h

/-- A session that is not marked after a poll was not before, and the poll was clean or did
nothing. -/
theorem poll_cut {events : List ReadEvent} {fate : SendFate}
    (hcut : (s.poll ops verify id events fate).1.cut = false) :
    s.cut = false ∧ (s.poll ops verify id events fate = (s, []) ∨ clean events fate = true) := by
  rcases s.poll_frozen events fate with h | h
  · rw [h] at hcut
    exact ⟨hcut, Or.inl h⟩
  · have hmark : (s.cut || !clean events fate) = false := by
      rw [← hcut]
      exact (congrArg Prod.snd h).symm
    rw [Bool.or_eq_false_iff, Bool.not_eq_false'] at hmark
    exact ⟨hmark.1, Or.inr hmark.2⟩

/-- `initiate` is done once the peer is accepted, and signs nothing more. -/
theorem peerAuthenticated_initiate {expectedPeer : Option (String × Arr 32)}
    (hcall : s.call = .initiate expectedPeer) (cipher : CipherStream) (transcript : Arr 32)
    (peer : PeerAuth) (fate : SendFate) :
    s.peerAuthenticated ops id cipher transcript peer fate =
      ({ s with stage := .done cipher transcript peer }, []) := by
  unfold peerAuthenticated
  split
  · next haccept _ =>
    rw [hcall] at haccept
    cases haccept
  · rfl

/-- `accept` answers with its own frame once the peer is accepted. -/
theorem peerAuthenticated_accept {resolvePubkey : String → Option (Arr 32)}
    (hcall : s.call = .accept resolvePubkey) {sk : Arr 32} {machineId : String}
    (hmode : s.mode = .authenticated sk machineId) (cipher : CipherStream) {transcript : Arr 32}
    (peer : PeerAuth) {ct : Bytes} {cipher' : CipherStream}
    (hsends : sendAuthFrame ops cipher sk machineId transcript .completes =
      ⟨cipher', frameBytes ct, some (.ok ())⟩) :
    s.peerAuthenticated ops id cipher transcript peer .completes =
      ({ s with
          stage := .done cipher' transcript peer
          written := s.written ++ frameBytes ct },
        [⟨id, ops.verifyingKey sk, transcript⟩]) := by
  unfold peerAuthenticated
  split
  · next haccept hauth =>
    rw [hmode] at hauth
    cases hauth
    rw [hsends]
    rfl
  · next hne => exact absurd hmode (hne _ _ _ hcall)

/-- Waiting for a hello that comes unaltered: more of it is there, or all of it. -/
theorem readHello_cases {n : ℕ} {buf rest : Bytes} {hello : Arr n} (hshort : buf.length < n)
    (hcomes : buf ++ s.socket <+: hello.val ++ rest) (sizes : List ℕ)
    (resume : Session → Arr n → Session × List Signing) :
    (∃ buf' socket, buf'.length < n ∧ buf' ++ socket = buf ++ s.socket ∧
        s.readHello n buf (sizes.map .data) resume =
          ({ s with socket := socket, stage := .hello buf' }, [])) ∨
      ∃ socket, hello.val ++ socket = buf ++ s.socket ∧
        s.readHello n buf (sizes.map .data) resume = resume { s with socket := socket } hello := by
  obtain ⟨hnone, hkept, hle⟩ := readExact_data buf s.socket hshort.le sizes
  unfold readHello
  generalize readExact n buf s.socket (sizes.map .data) = r at hnone hkept hle ⊢
  obtain ⟨buf', socket, err⟩ := r
  simp only at hnone hkept hle
  subst hnone
  by_cases hfull : buf'.length = n
  · right
    -- two prefixes of the same length of the same stream
    have hhello : buf' = hello.val := by
      rw [← hkept] at hcomes
      obtain ⟨tail, htail⟩ := hcomes
      rw [List.append_assoc] at htail
      exact (List.append_inj htail (by rw [hfull, hello.length_val])).1
    subst hhello
    exact ⟨socket, hkept, dif_pos hfull⟩
  · left
    exact ⟨buf', socket, by omega, hkept, dif_neg hfull⟩

/-- Waiting for a frame that comes unaltered: more of it is there, or all of it, and it opens. -/
theorem readAuth_cases (cipher : CipherStream) {transcript pk : Arr 32} {machineId : String}
    {ct body rest : Bytes} (hwaiting : cipher.recvFrame.Waiting)
    (hct : PendingFrame.lengthOk ct.length = true)
    (hcomes : cipher.recvFrame.consumed ++ s.socket ++ rest = frameBytes ct)
    (hcounter : cipher.recvCounter = 0)
    (hopens : ops.aead.decrypt cipher.recvKey (buildNonce cipher.recvPrefix 0) ct = some body)
    (hpeer : cipher.recvFrame.consumed ++ s.socket = frameBytes ct →
      authenticatePeer ops verify s.call transcript body = .ok (machineId, pk))
    (sizes : List ℕ) (fate : SendFate) :
    (∃ f socket, f.Waiting ∧ f.consumed ++ socket = cipher.recvFrame.consumed ++ s.socket ∧
        s.readAuth ops verify id cipher transcript (sizes.map .data) fate =
          ({ s with
              socket := socket
              stage := .auth { cipher with recvFrame := f } transcript }, [])) ∨
      (cipher.recvFrame.consumed ++ s.socket = frameBytes ct ∧ ∃ f,
        s.readAuth ops verify id cipher transcript (sizes.map .data) fate =
          ({ s with socket := [] } : Session).peerAuthenticated ops id
            { cipher with recvCounter := 1, recvFrame := f } transcript
            (.authenticated machineId pk) fate) := by
  rcases PendingFrame.read_partial hwaiting hct hcomes sizes with
    ⟨hresult, hphase, hkept⟩ | ⟨hresult, hwire, hall⟩
  -- the frame is not there as a whole, and what has come of it is kept
  · left
    refine ⟨_, _, hphase, hkept, ?_⟩
    have hrecv : recvFrame ops.aead cipher.recvKey cipher.recvPrefix cipher.recvCounter
        cipher.recvFrame s.socket (sizes.map .data) = _ := Receiver.recvFrame_waiting hresult
    simp only [readAuth, CipherStream.recv, hrecv]
  -- it is, and it is the one that says who the peer is
  · right
    refine ⟨hall, (cipher.recvFrame.read s.socket (sizes.map .data)).frame, ?_⟩
    rw [← hcounter] at hopens
    have hrecv := Receiver.recvFrame_done hresult hopens (by rw [hcounter]; decide)
    simp only [readAuth, CipherStream.recv, hrecv, hpeer hall, hwire]
    rw [hcounter]

end Session

/-! ## Scripts -/

/-- How a call goes when everything goes well: what it was called with, the bytes of the other's
hello and the ciphertext of its frame, the stream and transcript it derives and the number of frames
it has sent when it waits for the other's, whom it accepts, and what it has written by each stage. -/
structure Script where
  args : Call × HandshakeMode × Arr 32 × Arr 16
  peerHello : Bytes
  peerCt : Bytes
  keys : CipherStream
  sent : ℕ
  transcript : Arr 32
  peer : PeerAuth
  ownKey : Arr 32
  atHello : Bytes
  atAuth : Bytes
  atDone : Bytes

namespace Script

/-- Where a call that goes by the script can stand. -/
inductive At (σ : Script) (s : Session) : Prop
  | hello (buf : Bytes) (stage : s.stage = .hello buf) (short : buf.length < σ.peerHello.length)
      (fed : s.fed = buf ++ s.socket) (written : s.written = σ.atHello)
  | auth (f : PendingFrame)
      (stage : s.stage = .auth { σ.keys with sendCounter := σ.sent, recvFrame := f } σ.transcript)
      (waiting : f.Waiting) (fed : s.fed = σ.peerHello ++ (f.consumed ++ s.socket))
      (written : s.written = σ.atAuth)
  | done (c : CipherStream) (stage : s.stage = .done c σ.transcript σ.peer)
      (keys : c.SameKeys σ.keys) (fed : s.fed = σ.peerHello ++ (frameBytes σ.peerCt ++ s.socket))
      (written : s.written = σ.atDone)

/-- A session goes by the script: it stands where the script says, and if it has written everything
it has signed. -/
structure Follows (σ : Script) (log : List Signing) (s : Session) : Prop where
  args : s.args = σ.args
  place : σ.At s
  signed : s.written = σ.atDone → ∃ e ∈ log, e.key = σ.ownKey ∧ e.message = σ.transcript

/-- All that the script reads, the other's hello and then the frame with its signature. -/
def reads (σ : Script) : Bytes := σ.peerHello ++ frameBytes σ.peerCt

variable {σ : Script} {log : List Signing} {s : Session}

/-- A call that goes by a script has not failed. -/
theorem At.not_failed (h : σ.At s) (e : HandshakeError) : s.stage ≠ .failed e := by
  intro hfailed
  cases h with
  | hello buf stage short fed written =>
      rw [stage] at hfailed
      cases hfailed
  | auth f stage waiting fed written =>
      rw [stage] at hfailed
      cases hfailed
  | done c stage keys fed written =>
      rw [stage] at hfailed
      cases hfailed

/-- Bytes that arrive leave a session where it stands in the script. -/
theorem Follows.deliver (h : σ.Follows log s) (bytes : Bytes) :
    σ.Follows log (s.deliver bytes) := by
  refine ⟨h.args, ?_, h.signed⟩
  cases h.place with
  | hello buf stage short fed written =>
      refine .hello buf stage short ?_ written
      simp only [Session.deliver, fed, List.append_assoc]
  | auth f stage waiting fed written =>
      refine .auth f stage waiting ?_ written
      simp only [Session.deliver, fed, List.append_assoc]
  | done c stage keys fed written =>
      refine .done c stage keys ?_ written
      simp only [Session.deliver, fed, List.append_assoc]

/-- A session that goes by the script still does when more has been signed. -/
theorem Follows.mono (h : σ.Follows log s) {log' : List Signing} (hlog : log ⊆ log') :
    σ.Follows log' s := by
  refine ⟨h.args, h.place, fun hall => ?_⟩
  obtain ⟨e, he, heq⟩ := h.signed hall
  exact ⟨e, hlog he, heq⟩

variable {ops : Primitives} {verify : Verifier} {id : ℕ} {sizes : List ℕ}

/-- A clean poll while the hello is coming: it keeps to the script if the call does with the hello. -/
theorem Follows.poll_hello {n : ℕ} {hello : Arr n} {buf : Bytes} (h : σ.Follows log s)
    (resume : Session → Arr n → Session × List Signing) (hhello : σ.peerHello = hello.val)
    (hcomes : s.fed <+: σ.reads)
    (hshort : buf.length < σ.peerHello.length) (hfed : s.fed = buf ++ s.socket)
    (hwritten : s.written = σ.atHello)
    (hpoll : s.poll ops verify id (sizes.map .data) .completes =
      (s.mark (sizes.map .data) .completes).readHello n buf (sizes.map .data) resume)
    (hfull : ∀ socket, s.fed = hello.val ++ socket →
      σ.Follows (log ++ (resume { s.mark (sizes.map .data) .completes with socket := socket } hello).2)
        (resume { s.mark (sizes.map .data) .completes with socket := socket } hello).1) :
    σ.Follows (log ++ (s.poll ops verify id (sizes.map .data) .completes).2)
      (s.poll ops verify id (sizes.map .data) .completes).1 := by
  rw [reads, hhello, hfed] at hcomes
  rw [hhello, Arr.length_val] at hshort
  rcases Session.readHello_cases (s := s.mark (sizes.map .data) .completes) hshort hcomes sizes
    resume with ⟨buf', socket, hlt, hkept, heq⟩ | ⟨socket, hkept, heq⟩
  · rw [hpoll, heq, List.append_nil]
    refine ⟨h.args, .hello buf' rfl ?_ (hfed.trans hkept.symm) hwritten, h.signed⟩
    rw [hhello, Arr.length_val]
    exact hlt
  · rw [hpoll, heq]
    exact hfull socket (hfed.trans hkept.symm)

/-- A clean poll while the frame is coming: it keeps to the script if the call does with the
peer. -/
theorem Follows.poll_auth {f : PendingFrame} {body : Bytes} (h : σ.Follows log s)
    (machineId : String) (pk : Arr 32) (hcomes : s.fed <+: σ.reads)
    (hstage : s.stage = .auth { σ.keys with sendCounter := σ.sent, recvFrame := f } σ.transcript)
    (hwaiting : f.Waiting) (hfed : s.fed = σ.peerHello ++ (f.consumed ++ s.socket))
    (hwritten : s.written = σ.atAuth) (hct : PendingFrame.lengthOk σ.peerCt.length = true)
    (hcounter : σ.keys.recvCounter = 0)
    (hopens : ops.aead.decrypt σ.keys.recvKey (buildNonce σ.keys.recvPrefix 0) σ.peerCt = some body)
    (hpeer : s.fed = σ.reads →
      authenticatePeer ops verify s.call σ.transcript body = .ok (machineId, pk))
    (hfull : ∀ f', s.fed = σ.reads →
      σ.Follows (log ++ (({ s.mark (sizes.map .data) .completes with socket := [] } :
          Session).peerAuthenticated ops id
          { σ.keys with sendCounter := σ.sent, recvCounter := 1, recvFrame := f' } σ.transcript
          (.authenticated machineId pk) .completes).2)
        (({ s.mark (sizes.map .data) .completes with socket := [] } :
          Session).peerAuthenticated ops id
          { σ.keys with sendCounter := σ.sent, recvCounter := 1, recvFrame := f' } σ.transcript
          (.authenticated machineId pk) .completes).1) :
    σ.Follows (log ++ (s.poll ops verify id (sizes.map .data) .completes).2)
      (s.poll ops verify id (sizes.map .data) .completes).1 := by
  have hpoll : s.poll ops verify id (sizes.map .data) .completes =
      (s.mark (sizes.map .data) .completes).readAuth ops verify id
        { σ.keys with sendCounter := σ.sent, recvFrame := f } σ.transcript (sizes.map .data)
        .completes := by
    simp only [Session.poll, hstage]
  -- what is still to come of the frame
  rw [hfed] at hcomes
  obtain ⟨rest, hrest⟩ := (List.prefix_append_right_inj σ.peerHello).mp hcomes
  have hall : f.consumed ++ s.socket = frameBytes σ.peerCt → s.fed = σ.reads := by
    intro heq
    rw [hfed, heq, reads]
  rcases Session.readAuth_cases (s := s.mark (sizes.map .data) .completes)
    { σ.keys with sendCounter := σ.sent, recvFrame := f } hwaiting hct hrest hcounter hopens
    (fun heq => hpeer (hall heq)) sizes .completes with
    ⟨f', socket, hwaiting', hkept, heq⟩ | ⟨heq', f', heq⟩
  · rw [hpoll, heq, List.append_nil]
    refine ⟨h.args, .auth f' rfl hwaiting' ?_ hwritten, h.signed⟩
    rw [hkept]
    exact hfed
  · rw [hpoll, heq]
    exact hfull f' (hall heq')

/-- A poll of a call that is done does nothing. -/
theorem Follows.poll_done {c : CipherStream} {events : List ReadEvent} {fate : SendFate}
    (h : σ.Follows log s) (hstage : s.stage = .done c σ.transcript σ.peer) :
    σ.Follows (log ++ (s.poll ops verify id events fate).2)
      (s.poll ops verify id events fate).1 := by
  have hpoll : s.poll ops verify id events fate = (s, []) := by
    simp only [Session.poll, hstage]
  rw [hpoll, List.append_nil]
  exact h

end Script

/-! ## Two calls that meet -/

/-- Two calls by machines `a` and `b`, with what they were called with and the ciphertexts of their
auth frames. -/
structure Meeting (M : Type) where
  a : M
  b : M
  expectedPeer : Option (String × Arr 32)
  resolvePubkey : String → Option (Arr 32)
  ephI : Arr 32
  nonceI : Arr 16
  ephR : Arr 32
  nonceR : Arr 16
  ctI : Bytes
  ctR : Bytes

namespace Meeting

variable {ops : Primitives} {M : Type}

/-- The hellos the two calls exchange, by the keys and nonces they were made with. -/
def hellos (ops : Primitives) (p : Meeting M) : Hellos :=
  ⟨ops.publicKey p.ephI, p.nonceI, ops.publicKey p.ephR, p.nonceR⟩

/-- What the initiator derives from these hellos: the transcript's hash and its stream. -/
def keysI (ops : Primitives) (p : Meeting M) : Arr 32 × CipherStream :=
  finalizeKeys ops true p.ephI (p.hellos ops).respPub 1 (p.hellos ops)

/-- What the responder derives from these hellos: the transcript's hash and its stream. -/
def keysR (ops : Primitives) (p : Meeting M) : Arr 32 × CipherStream :=
  finalizeKeys ops false p.ephR (p.hellos ops).initPub 1 (p.hellos ops)

/-- The bytes of the first hello, as the initiator writes them. -/
def helloI (ops : Primitives) (p : Meeting M) : Arr 50 := hello1 1 (p.hellos ops).initPub p.nonceI

/-- The bytes of the second hello, as the responder writes them. -/
def helloR (ops : Primitives) (p : Meeting M) : Arr 48 := hello2 (p.hellos ops).respPub p.nonceR

/-- The script of the initiator: it has written its hello when it begins, and its auth frame once it
has the responder's hello. -/
def initiator (fleet : Fleet ops M) (p : Meeting M) : Script where
  args := (.initiate p.expectedPeer, fleet.mode p.a true, p.ephI, p.nonceI)
  peerHello := (p.helloR ops).val
  peerCt := p.ctR
  keys := (p.keysI ops).2
  sent := 1
  transcript := (p.keysI ops).1
  peer := .authenticated (fleet.machineId p.b) (fleet.publicKey p.b)
  ownKey := fleet.publicKey p.a
  atHello := (p.helloI ops).val
  atAuth := (p.helloI ops).val ++ frameBytes p.ctI
  atDone := (p.helloI ops).val ++ frameBytes p.ctI

/-- The script of the responder: it writes its hello once it has the initiator's, and its auth frame
once it has accepted the initiator. -/
def acceptor (fleet : Fleet ops M) (p : Meeting M) : Script where
  args := (.accept p.resolvePubkey, fleet.mode p.b true, p.ephR, p.nonceR)
  peerHello := (p.helloI ops).val
  peerCt := p.ctI
  keys := (p.keysR ops).2
  sent := 0
  transcript := (p.keysR ops).1
  peer := .authenticated (fleet.machineId p.a) (fleet.publicKey p.a)
  ownKey := fleet.publicKey p.b
  atHello := []
  atAuth := (p.helloR ops).val
  atDone := (p.helloR ops).val ++ frameBytes p.ctR

/-- The two calls suit each other: each accepts the other's identity, and the ciphertexts are those
of their auth frames. -/
structure Suits (fleet : Fleet ops M) (p : Meeting M) : Prop where
  expects : initiateCheck p.expectedPeer (fleet.machineId p.b) (fleet.publicKey p.b) = .ok ()
  trusts : acceptCheck p.resolvePubkey (fleet.machineId p.a) (fleet.publicKey p.a) = .ok ()
  ctI : AuthCiphertext ops (p.keysI ops).2.sendKey (p.keysI ops).2.sendPrefix
    (fleet.signingKey p.a) (fleet.machineId p.a) (p.keysI ops).1 p.ctI
  ctR : AuthCiphertext ops (p.keysR ops).2.sendKey (p.keysR ops).2.sendPrefix
    (fleet.signingKey p.b) (fleet.machineId p.b) (p.keysR ops).1 p.ctR

variable {fleet : Fleet ops M} {p : Meeting M} {s : Session} {id : ℕ}

/-- Calls that accept each other's identity make a meeting, with the ciphertexts they are going to
send. -/
theorem exists_suits (hlaw : ops.Lawful) (p : Meeting M)
    (hexpects : initiateCheck p.expectedPeer (fleet.machineId p.b) (fleet.publicKey p.b) = .ok ())
    (htrusts : acceptCheck p.resolvePubkey (fleet.machineId p.a) (fleet.publicKey p.a) = .ok ()) :
    ∃ ctI ctR, ({ p with ctI := ctI, ctR := ctR } : Meeting M).Suits fleet := by
  obtain ⟨ctI, hctI⟩ := exists_authCiphertext hlaw fleet p.a (p.keysI ops).2.sendKey
    (p.keysI ops).2.sendPrefix (p.keysI ops).1
  obtain ⟨ctR, hctR⟩ := exists_authCiphertext hlaw fleet p.b (p.keysR ops).2.sendKey
    (p.keysR ops).2.sendPrefix (p.keysR ops).1
  exact ⟨ctI, ctR, hexpects, htrusts, hctI, hctR⟩

/-- **The initiator** with the responder's hello: it derives, signs and sends. -/
theorem initiateHello_eq (hp : p.Suits fleet) (hargs : s.args = (p.initiator fleet).args) :
    s.initiateHello ops id (p.helloR ops) .completes =
      ({ s with
          stage := .auth { (p.keysI ops).2 with sendCounter := 1 } (p.keysI ops).1
          written := s.written ++ frameBytes p.ctI
          derived := some ⟨p.hellos ops, (p.keysI ops).1, (p.keysI ops).2⟩ },
        [⟨id, fleet.publicKey p.a, (p.keysI ops).1⟩]) := by
  have hpub : (p.helloR ops).slice 0 32 (by decide) = ops.publicKey p.ephR := by
    have hparts : (p.helloR ops).val = [] ++ (ops.publicKey p.ephR).val ++ p.nonceR.val := rfl
    exact Arr.slice_eq rfl hparts
  have hnonce : (p.helloR ops).slice 32 16 (by decide) = p.nonceR := by
    have hparts : (p.helloR ops).val = (ops.publicKey p.ephR).val ++ p.nonceR.val ++ [] :=
      (List.append_nil _).symm
    exact Arr.slice_eq (Arr.length_val _) hparts
  have hsends := hp.ctI.sends (p.keysI ops).2 rfl rfl rfl
  obtain ⟨call, mode, ephemeral, nonce, stage, socket, fed, written, derived, cut⟩ := s
  simp only [Session.args, initiator, Prod.mk.injEq] at hargs
  obtain ⟨rfl, rfl, rfl, rfl⟩ := hargs
  have hkeys : finalizeKeys ops true p.ephI (ops.publicKey p.ephR) 1
      ⟨ops.publicKey p.ephI, p.nonceI, ops.publicKey p.ephR, p.nonceR⟩ = p.keysI ops := rfl
  simp only [Session.initiateHello, Session.authFlag, Session.ourEphPk, Fleet.mode,
    HandshakeMode.authFlag, hpub, hnonce, hkeys, hsends]
  rfl

/-- **The responder** with the initiator's hello: it answers and derives. -/
theorem acceptHello_eq (hargs : s.args = (p.acceptor fleet).args) :
    s.acceptHello ops (p.helloI ops) .completes =
      ({ s with
          stage := .auth (p.keysR ops).2 (p.keysR ops).1
          written := s.written ++ (p.helloR ops).val
          derived := some ⟨p.hellos ops, (p.keysR ops).1, (p.keysR ops).2⟩ }, []) := by
  have hpub : (p.helloI ops).slice 2 32 (by decide) = ops.publicKey p.ephI := by
    have hparts : (p.helloI ops).val =
        [protocolVersion, 1] ++ (ops.publicKey p.ephI).val ++ p.nonceI.val := rfl
    exact Arr.slice_eq rfl hparts
  have hnonce : (p.helloI ops).slice 34 16 (by decide) = p.nonceI := by
    have hparts : (p.helloI ops).val =
        ([protocolVersion, 1] ++ (ops.publicKey p.ephI).val) ++ p.nonceI.val ++ [] :=
      (List.append_nil _).symm
    exact Arr.slice_eq (by simp) hparts
  obtain ⟨call, mode, ephemeral, nonce, stage, socket, fed, written, derived, cut⟩ := s
  cases hargs
  unfold Session.acceptHello
  dsimp only [Fleet.mode]
  rw [if_neg (by simp [helloI, hello1]), if_neg (by simp [helloI, hello1, Session.authFlag,
    HandshakeMode.authFlag]), hpub, hnonce]
  rfl

/-- The two derive the same transcript and mirrored keys. -/
theorem keys_mirror (hlaw : ops.Lawful) (p : Meeting M) :
    (p.keysI ops).1 = (p.keysR ops).1 ∧ (p.keysI ops).2.Mirrors (p.keysR ops).2 :=
  finalizeKeys_mirror hlaw.diffieHellman_comm rfl rfl 1

variable {log : List Signing} {events : List ReadEvent} {fate : SendFate}

/-- **A clean poll of the initiator** keeps to the script, if what it has read came unaltered. -/
theorem initiator_poll (hlaw : ops.Lawful) (hp : p.Suits fleet)
    (h : (p.initiator fleet).Follows log s) (hcomes : s.fed <+: (p.initiator fleet).reads)
    (hpeer : s.fed = (p.initiator fleet).reads →
      ∃ e ∈ log, e.key = fleet.publicKey p.b ∧ e.message = (p.keysR ops).1)
    (hclean : clean events fate = true) :
    (p.initiator fleet).Follows (log ++ (s.poll ops (fleet.verify log) id events fate).2)
      (s.poll ops (fleet.verify log) id events fate).1 := by
  obtain ⟨rfl, sizes, rfl⟩ := clean_iff.mp hclean
  have hcall : s.call = .initiate p.expectedPeer := congrArg Prod.fst h.args
  -- the keys of both ends are two sides of one pair
  obtain ⟨htranscript, hmirror⟩ := keys_mirror hlaw p
  cases h.place with
  | hello buf stage short fed written =>
      refine h.poll_hello (fun s hello => s.initiateHello ops id hello .completes) rfl hcomes short
        fed written (by simp only [Session.poll, stage, hcall]) fun socket hfed => ?_
      rw [initiateHello_eq hp (by exact h.args)]
      refine ⟨h.args, .auth _ rfl (Or.inl PendingFrame.inHeader_default) hfed ?_, fun _ => ?_⟩
      · show s.written ++ _ = _
        rw [written]
        rfl
      · exact ⟨_, List.mem_append_right _ (List.mem_singleton.mpr rfl), rfl, rfl⟩
  | auth f stage waiting fed written =>
      obtain ⟨body, hopens, hparse⟩ := hp.ctR.opens
      rw [← hmirror.recvKey, ← hmirror.recvPrefix] at hopens
      rw [← htranscript] at hparse hpeer
      refine h.poll_auth (fleet.machineId p.b) (fleet.publicKey p.b) hcomes stage waiting fed written
        hp.ctR.ok rfl hopens (fun hall => ?_) fun f' hall => ?_
      · rw [hcall]
        exact authenticatePeer_of_frame hlaw fleet p.b (hpeer hall) hp.expects hparse
      · -- nothing is left to write
        rw [Session.peerAuthenticated_initiate (by exact hcall), List.append_nil]
        refine ⟨h.args, .done _ rfl ⟨rfl, rfl, rfl, rfl⟩ ?_ written, h.signed⟩
        rw [List.append_nil]
        exact hall
  | done c stage keys fed written => exact h.poll_done stage

/-- **A clean poll of the responder** keeps to the script, if what it has read came unaltered. -/
theorem acceptor_poll (hlaw : ops.Lawful) (hp : p.Suits fleet)
    (h : (p.acceptor fleet).Follows log s) (hcomes : s.fed <+: (p.acceptor fleet).reads)
    (hpeer : s.fed = (p.acceptor fleet).reads →
      ∃ e ∈ log, e.key = fleet.publicKey p.a ∧ e.message = (p.keysI ops).1)
    (hclean : clean events fate = true) :
    (p.acceptor fleet).Follows (log ++ (s.poll ops (fleet.verify log) id events fate).2)
      (s.poll ops (fleet.verify log) id events fate).1 := by
  obtain ⟨rfl, sizes, rfl⟩ := clean_iff.mp hclean
  have hcall : s.call = .accept p.resolvePubkey := congrArg Prod.fst h.args
  have hmode : s.mode = fleet.mode p.b true := congrArg (·.2.1) h.args
  obtain ⟨htranscript, hmirror⟩ := keys_mirror hlaw p
  cases h.place with
  | hello buf stage short fed written =>
      refine h.poll_hello (fun s hello => s.acceptHello ops hello .completes) rfl hcomes short fed
        written (by simp only [Session.poll, stage, hcall]) fun socket hfed => ?_
      rw [acceptHello_eq (by exact h.args), List.append_nil]
      refine ⟨h.args, .auth _ rfl (Or.inl PendingFrame.inHeader_default) hfed ?_, fun hall => ?_⟩
      · show s.written ++ _ = _
        rw [written]
        rfl
      · -- only the hello is out, so nothing has to be signed yet
        have hlength := congrArg List.length hall
        simp only [Session.mark, written, acceptor, List.nil_append, List.length_append, frameBytes,
          Bytes.length_toBe] at hlength
        omega
  | auth f stage waiting fed written =>
      obtain ⟨body, hopens, hparse⟩ := hp.ctI.opens
      -- what the initiator sealed opens under the mirrored keys
      rw [hmirror.sendKey, hmirror.sendPrefix] at hopens
      rw [htranscript] at hparse hpeer
      refine h.poll_auth (fleet.machineId p.a) (fleet.publicKey p.a) hcomes stage waiting fed written
        hp.ctI.ok rfl hopens (fun hall => ?_) fun f' hall => ?_
      · rw [hcall]
        exact authenticatePeer_of_frame hlaw fleet p.a (hpeer hall) hp.trusts hparse
      · have hsends : sendAuthFrame ops
            { (p.acceptor fleet).keys with
              sendCounter := (p.acceptor fleet).sent, recvCounter := 1, recvFrame := f' }
            (fleet.signingKey p.b) (fleet.machineId p.b) (p.acceptor fleet).transcript .completes =
              _ := hp.ctR.sends _ rfl rfl rfl
        rw [Session.peerAuthenticated_accept (by exact hcall) (by exact hmode) _ _ hsends]
        refine ⟨h.args, .done _ rfl ⟨rfl, rfl, rfl, rfl⟩ ?_ ?_, fun _ => ?_⟩
        · rw [List.append_nil]
          exact hall
        · show s.written ++ _ = _
          rw [written]
          rfl
        · exact ⟨_, List.mem_append_right _ (List.mem_singleton.mpr rfl), rfl, rfl⟩
  | done c stage keys fed written => exact h.poll_done stage

/-- A call of `initiate` that starts well goes by its script: it has written its hello and waits for
the other's. -/
theorem initiator_start {call : Call} {mode : HandshakeMode} {ephemeral : Arr 32} {nonce : Arr 16}
    (hargs : (Session.start ops call mode ephemeral nonce fate).args = (p.initiator fleet).args)
    (hcut : (Session.start ops call mode ephemeral nonce fate).cut = false) :
    (p.initiator fleet).Follows log (Session.start ops call mode ephemeral nonce fate) := by
  cases call with
  | accept resolvePubkey => cases hargs
  | initiate expectedPeer =>
      have hclean : (!clean [] fate) = false := hcut
      rw [Bool.not_eq_false'] at hclean
      obtain ⟨rfl, -⟩ := clean_iff.mp hclean
      have hparts := hargs
      simp only [Session.args, Session.start, initiator, Prod.mk.injEq] at hparts
      obtain ⟨-, rfl, rfl, rfl⟩ := hparts
      refine ⟨hargs, .hello [] rfl ?_ rfl rfl, ?_⟩
      · show 0 < (p.helloR ops).val.length
        rw [Arr.length_val]
        decide
      · intro hall
        have hlength := congrArg List.length hall
        simp only [Session.start, writeAll, initiator, helloI, hello1, frameBytes,
          List.length_append, Bytes.length_toBe, Arr.length_val, List.length_cons] at hlength
        omega

/-- A call of `accept` that starts goes by its script: it waits for a hello and has written
nothing. -/
theorem acceptor_start {call : Call} {mode : HandshakeMode} {ephemeral : Arr 32} {nonce : Arr 16}
    (hargs : (Session.start ops call mode ephemeral nonce fate).args = (p.acceptor fleet).args) :
    (p.acceptor fleet).Follows log (Session.start ops call mode ephemeral nonce fate) := by
  cases call with
  | initiate expectedPeer => cases hargs
  | accept resolvePubkey =>
      refine ⟨hargs, .hello [] rfl ?_ rfl rfl, ?_⟩
      · show 0 < (p.helloI ops).val.length
        rw [Arr.length_val]
        decide
      · intro hall
        have hlength := congrArg List.length hall
        simp only [Session.start, acceptor, List.length_append, Arr.length_val,
          List.length_nil] at hlength
        omega

/-- What the initiator has written is the start of what the responder is to read. -/
theorem initiator_written (h : (p.initiator fleet).At s) :
    s.written <+: (p.acceptor fleet).reads := by
  cases h with
  | hello buf stage short fed written =>
      rw [written]
      exact List.prefix_append _ _
  | auth f stage waiting fed written =>
      rw [written]
      exact List.prefix_refl _
  | done c stage keys fed written =>
      rw [written]
      exact List.prefix_refl _

/-- What the responder has written is the start of what the initiator is to read. -/
theorem acceptor_written (h : (p.acceptor fleet).At s) :
    s.written <+: (p.initiator fleet).reads := by
  cases h with
  | hello buf stage short fed written =>
      rw [written]
      exact List.nil_prefix
  | auth f stage waiting fed written =>
      rw [written]
      exact List.prefix_append _ _
  | done c stage keys fed written =>
      rw [written]
      exact List.prefix_refl _

variable {s' : Session}

/-- A call that waits for a frame has not read all of it. -/
theorem waits_unfinished {f : PendingFrame} {hello ct : Bytes} (hwaiting : f.Waiting)
    (hct : PendingFrame.lengthOk ct.length = true) :
    hello ++ f.consumed ≠ hello ++ frameBytes ct := by
  intro heq
  have hall : f.consumed = frameBytes ct := List.append_cancel_left heq
  have hstream : f.consumed ++ [] = frameBytes ct ++ [] := by rw [hall]
  have hshort := hwaiting.unfinished hct hstream
  rw [hall] at hshort
  exact lt_irrefl _ hshort

/-- **Nothing is left to do**: once each of the two has read all that the other has written, both are
done. -/
theorem done_of_settled (hp : p.Suits fleet) (hI : (p.initiator fleet).At s)
    (hR : (p.acceptor fleet).At s') (hfed : s.fed = s'.written) (hfed' : s'.fed = s.written)
    (hsocket : s.socket = []) (hsocket' : s'.socket = []) :
    (∃ c, s.stage = .done c (p.keysI ops).1 (p.initiator fleet).peer ∧
        c.SameKeys (p.keysI ops).2) ∧
      ∃ c, s'.stage = .done c (p.keysR ops).1 (p.acceptor fleet).peer ∧
        c.SameKeys (p.keysR ops).2 := by
  have hlengthI : (p.helloI ops).val.length = 50 := (p.helloI ops).length_val
  have hlengthR : (p.helloR ops).val.length = 48 := (p.helloR ops).length_val
  -- the initiator starts with its hello, so the responder has got past it
  have hout : 50 ≤ s.written.length := by
    cases hI with
    | hello buf stage short fed written =>
        rw [written]
        exact hlengthI.ge
    | auth f stage waiting fed written =>
        rw [written, ← hlengthI]
        exact (List.prefix_append _ _).length_le
    | done c stage keys fed written =>
        rw [written, ← hlengthI]
        exact (List.prefix_append _ _).length_le
  cases hR with
  | hello buf' stage' short' fed' written' =>
      rw [← hfed', fed', hsocket', List.append_nil] at hout
      have hshort : buf'.length < 50 := hlengthI ▸ short'
      omega
  | auth f' stage' waiting' fed' written' =>
      rw [fed', hsocket', List.append_nil] at hfed'
      cases hI with
      | hello buf stage short fed written =>
          rw [fed, hsocket, List.append_nil, written'] at hfed
          have hshort : buf.length < 48 := hlengthR ▸ short
          rw [hfed] at hshort
          exact absurd hlengthR hshort.ne
      | auth f stage waiting fed written =>
          rw [written] at hfed'
          exact absurd hfed' (waits_unfinished waiting' hp.ctI.ok)
      | done c stage keys fed written =>
          rw [written] at hfed'
          exact absurd hfed' (waits_unfinished waiting' hp.ctI.ok)
  | done c' stage' keys' fed' written' =>
      cases hI with
      | hello buf stage short fed written =>
          rw [fed, hsocket, List.append_nil, written'] at hfed
          have hshort : buf.length < 48 := hlengthR ▸ short
          have hle : (p.helloR ops).val.length ≤ buf.length := by
            rw [hfed]
            exact (List.prefix_append _ _).length_le
          omega
      | auth f stage waiting fed written =>
          rw [fed, hsocket, List.append_nil, written'] at hfed
          exact absurd hfed (waits_unfinished waiting hp.ctR.ok)
      | done c stage keys fed written => exact ⟨⟨c, stage, keys⟩, c', stage', keys'⟩

end Meeting

end Synbad
