import Synbad.Lib.Run
import Synbad.Crypto.Handshake
import Mathlib.Data.Set.Function
import Mathlib.Data.List.Nodup

/-! # Concurrent handshakes

Any number of calls of `initiate` and `accept` by honest machines, on a network in the hands of an
adversary, who decides what bytes every call reads. Signatures are ideal: what verifies under the key
of an honest machine has been signed with it; under any other key the adversary can make anything
verify. The invariant says where the keys and the verdict of every call come from, and what it was
that every signature signed.

`Safe` is the invariant of one session; it speaks of the log of signatures only through those it
contains, so it survives the signatures of others (`Safe.mono`). `Advances` is what a step of a
session may do, its new signatures included: that is stated once, and every stage of a call is shown
to do it, up to `Safe.poll`. What ties the two ends together is `finalizeKeys_mirror`, by which the
two roles derive mirrored keys from the same hellos, and `transcriptBytes_inj`, by which a transcript
determines the hellos it was made of. -/

namespace Synbad

open Bytes (Arr)

/-! ## Honest machines and ideal signatures -/

/-- The honest machines: each has an identity (`identity.rs`: a UUID and an ed25519 key) that no
other machine has. -/
structure Fleet (ops : Primitives) (M : Type) where
  machineId : M → String
  signingKey : M → Arr 32
  /-- The honest machine a public key belongs to, if it does to one. -/
  owner : Arr 32 → Option M
  owner_iff : ∀ pk m, owner pk = some m ↔ ops.verifyingKey (signingKey m) = pk
  uuid : ∀ m, (machineId m).length = 36 ∧ Bytes.Plain (machineId m)

namespace Fleet

variable {ops : Primitives} {M : Type} (fleet : Fleet ops M)

/-- The public key of a machine, that of its signing key. -/
def publicKey (m : M) : Arr 32 := ops.verifyingKey (fleet.signingKey m)

/-- The mode a machine runs a handshake in: with its own key and id, or anonymously. -/
def mode (m : M) : Bool → HandshakeMode
  | true => .authenticated (fleet.signingKey m) (fleet.machineId m)
  | false => .anonymous

/-- Ideal verification: under an honest key only what has been signed. -/
def verify (log : List Signing) : Verifier := fun pk message sig =>
  ops.verify pk message sig &&
    match fleet.owner pk with
    | none => true
    | some _ => log.any fun e => e.key = pk ∧ e.message.val = message

end Fleet

/-- The calls so far, each with the machine that made it, and what they have signed. -/
structure Network (M : Type) where
  sessions : List (M × Session)
  log : List Signing

/-- What the machines and the adversary can do: a machine begins a call, bytes of the adversary's
choice reach a socket, and a call is polled. -/
inductive Move (M : Type) where
  /-- A machine calls one of the two functions, with fresh randomness. -/
  | start (machine : M) (call : Call) (authenticated : Bool) (ephemeral : Arr 32) (nonce : Arr 16)
      (fate : SendFate)
  /-- The adversary puts bytes into the socket of a call. -/
  | deliver (id : ℕ) (bytes : Bytes)
  | poll (id : ℕ) (events : List ReadEvent) (fate : SendFate)

namespace Network

variable {ops : Primitives} {M : Type}

/-- Nobody has called anything, and nothing is signed. -/
def empty : Network M := ⟨[], []⟩

/-- One move: a new session behind the others, bytes at one socket, or a poll of one session with the
signatures of the log so far. -/
def step (fleet : Fleet ops M) (w : Network M) : Move M → Network M
  | .start m call authenticated ephemeral nonce fate =>
      { w with
        sessions := w.sessions ++
          [(m, Session.start ops call (fleet.mode m authenticated) ephemeral nonce fate)] }
  | .deliver id bytes =>
      match w.sessions[id]? with
      | none => w
      | some (m, s) => { w with sessions := w.sessions.set id (m, s.deliver bytes) }
  | .poll id events fate =>
      match w.sessions[id]? with
      | none => w
      | some (m, s) =>
          let r := s.poll ops (fleet.verify w.log) id events fate
          { sessions := w.sessions.set id (m, r.1), log := w.log ++ r.2 }

end Network

/-! ## What the checks establish -/

/-- A sequence of fallible steps succeeds when each does. -/
theorem except_bind_ok {ε α β : Type} {x : Except ε α} {f : α → Except ε β} {b : β} :
    (x >>= f) = .ok b ↔ ∃ a, x = .ok a ∧ f a = .ok b := by
  cases x with
  | error e => exact ⟨nofun, fun ⟨_, h, _⟩ => nomatch h⟩
  | ok a => exact ⟨fun h => ⟨a, rfl, h⟩, fun ⟨_, h, hf⟩ => by cases h; exact hf⟩

/-- If ensuring a condition succeeds, the condition holds. -/
theorem ensure_ok {b : Bool} {e : HandshakeError} {u : Unit} (h : ensure b e = .ok u) : b = true := by
  cases b
  · cases h
  · rfl

/-- A peer that is accepted has passed the check of the call and its signature has verified. -/
theorem authenticatePeer_ok {ops : Primitives} {verify : Verifier} {call : Call}
    {transcript : Arr 32} {bytes : Bytes} {machineId : String} {pk : Arr 32}
    (h : authenticatePeer ops verify call transcript bytes = .ok (machineId, pk)) :
    call.check machineId pk = .ok () ∧ ∃ sig, verify pk transcript.val sig = true := by
  obtain ⟨frame, -, h⟩ := except_bind_ok.mp h
  obtain ⟨pk', hpk, h⟩ := except_bind_ok.mp h
  obtain ⟨⟨⟩, hcheck, h⟩ := except_bind_ok.mp h
  cases h
  refine ⟨hcheck, ?_⟩
  obtain ⟨pkBytes, -, hpk⟩ := except_bind_ok.mp hpk
  obtain ⟨pk', -, hpk⟩ := except_bind_ok.mp hpk
  obtain ⟨-, -, hpk⟩ := except_bind_ok.mp hpk
  obtain ⟨sigBytes, -, hpk⟩ := except_bind_ok.mp hpk
  obtain ⟨sig, -, hpk⟩ := except_bind_ok.mp hpk
  obtain ⟨_, hverify, hpk⟩ := except_bind_ok.mp hpk
  cases hpk
  exact ⟨sig, ensure_ok hverify⟩

/-- The check of `initiate` with an expected peer accepts that peer only. -/
theorem initiateCheck_ok {wantId machineId : String} {wantPk pk : Arr 32}
    (h : initiateCheck (some (wantId, wantPk)) machineId pk = .ok ()) :
    machineId = wantId ∧ pk = wantPk := by
  simp only [initiateCheck] at h
  split at h
  · cases h
  split at h
  · cases h
  next hid hpk => exact ⟨(not_not.mp hid).symm, (not_not.mp hpk).symm⟩

/-- The check of `accept` accepts the key the resolver knows only. -/
theorem acceptCheck_ok {resolvePubkey : String → Option (Arr 32)} {machineId : String} {pk : Arr 32}
    (h : acceptCheck resolvePubkey machineId pk = .ok ()) : resolvePubkey machineId = some pk := by
  unfold acceptCheck at h
  split at h
  · cases h
  split at h
  · cases h
  next hsome hpk => rw [hsome, not_not.mp hpk]

/-- What verifies under the key of an honest machine has been signed. -/
theorem Fleet.verify_signed {ops : Primitives} {M : Type} {fleet : Fleet ops M} {log : List Signing}
    {pk message : Arr 32} {sig : Arr 64} (h : fleet.verify log pk message.val sig = true) {m : M}
    (hm : fleet.owner pk = some m) : ∃ e ∈ log, e.key = pk ∧ e.message = message := by
  simp only [verify, hm, Bool.and_eq_true, List.any_eq_true, decide_eq_true_eq] at h
  obtain ⟨-, e, he, hkey, hmessage⟩ := h
  exact ⟨e, he, hkey, Subtype.ext hmessage⟩

/-! ## Keys -/

namespace CipherStream

/-- The two streams have the same keys and prefixes, whatever their counters and their progress. -/
structure SameKeys (c c' : CipherStream) : Prop where
  sendKey : c.sendKey = c'.sendKey
  recvKey : c.recvKey = c'.recvKey
  sendPrefix : c.sendPrefix = c'.sendPrefix
  recvPrefix : c.recvPrefix = c'.recvPrefix

/-- The keys and prefixes of the other end: sending and receiving exchanged. -/
structure Mirrors (c c' : CipherStream) : Prop where
  sendKey : c.sendKey = c'.recvKey
  recvKey : c.recvKey = c'.sendKey
  sendPrefix : c.sendPrefix = c'.recvPrefix
  recvPrefix : c.recvPrefix = c'.sendPrefix

/-- A stream has the keys it has. -/
theorem SameKeys.refl (c : CipherStream) : c.SameKeys c := ⟨rfl, rfl, rfl, rfl⟩

/-- Receiving keeps the keys and prefixes of a stream. -/
theorem SameKeys.recv {c c' : CipherStream} (h : c.SameKeys c') (aead : Aead) (wire : Bytes)
    (events : List ReadEvent) : (c.recv aead wire events).1.SameKeys c' :=
  ⟨h.sendKey, h.recvKey, h.sendPrefix, h.recvPrefix⟩

/-- Sending keeps the keys and prefixes of a stream. -/
theorem SameKeys.send {c c' : CipherStream} (h : c.SameKeys c') (aead : Aead) (payload : Bytes)
    (fate : SendFate) : (c.send aead payload fate).1.SameKeys c' :=
  ⟨h.sendKey, h.recvKey, h.sendPrefix, h.recvPrefix⟩

/-- Whether a stream mirrors another depends on its keys and prefixes only. -/
theorem Mirrors.of_same {c c' d : CipherStream} (h : d.Mirrors c') (hc : c.SameKeys d) :
    c.Mirrors c' :=
  ⟨hc.sendKey.trans h.sendKey, hc.recvKey.trans h.recvKey, hc.sendPrefix.trans h.sendPrefix,
    hc.recvPrefix.trans h.recvPrefix⟩

/-- If one stream mirrors another, the other mirrors it. -/
theorem Mirrors.symm {c c' : CipherStream} (h : c.Mirrors c') : c'.Mirrors c :=
  ⟨h.recvKey.symm, h.sendKey.symm, h.recvPrefix.symm, h.sendPrefix.symm⟩

end CipherStream

/-- Sending an auth frame keeps the keys and prefixes of the stream. -/
theorem sendAuthFrame_sameKeys {c c' : CipherStream} (h : c.SameKeys c') (ops : Primitives)
    (sk : Arr 32) (machineId : String) (transcript : Arr 32) (fate : SendFate) :
    (sendAuthFrame ops c sk machineId transcript fate).cipher.SameKeys c' := by
  unfold sendAuthFrame
  split
  · exact h
  · exact h.send _ _ _

/-- **Key agreement**: with commuting Diffie-Hellman the two roles derive, from the same hellos, the
same transcript hash and mirrored keys. -/
theorem finalizeKeys_mirror {ops : Primitives}
    (hdh : ∀ a b, ops.diffieHellman a (ops.publicKey b) = ops.diffieHellman b (ops.publicKey a))
    {ephI ephR : Arr 32} {h : Hellos} (hinit : h.initPub = ops.publicKey ephI)
    (hresp : h.respPub = ops.publicKey ephR) (flag : UInt8) :
    (finalizeKeys ops true ephI h.respPub flag h).1 =
        (finalizeKeys ops false ephR h.initPub flag h).1 ∧
      (finalizeKeys ops true ephI h.respPub flag h).2.Mirrors
        (finalizeKeys ops false ephR h.initPub flag h).2 := by
  have hshared : ops.diffieHellman ephI h.respPub = ops.diffieHellman ephR h.initPub := by
    rw [hinit, hresp, hdh]
  refine ⟨rfl, ?_⟩
  unfold finalizeKeys
  rw [hshared]
  exact ⟨rfl, rfl, rfl, rfl⟩

/-- The hashed bytes determine the mode and the hellos, as every part of them has a fixed length. -/
theorem transcriptBytes_inj {flag flag' : UInt8} {h h' : Hellos}
    (heq : transcriptBytes flag h = transcriptBytes flag' h') : flag = flag' ∧ h = h' := by
  simp only [transcriptBytes, List.append_assoc] at heq
  have heq := List.append_cancel_left heq
  obtain ⟨hflag, heq⟩ := List.append_inj heq rfl
  obtain ⟨h1, heq⟩ := Arr.append_inj heq
  obtain ⟨h2, heq⟩ := Arr.append_inj heq
  obtain ⟨h3, heq⟩ := Arr.append_inj heq
  refine ⟨by simpa using hflag, ?_⟩
  cases h
  cases h'
  simp only [Hellos.mk.injEq]
  exact ⟨h1, h2, h3, Subtype.ext heq⟩

/-! ## What a session knows -/

namespace Session

variable {ops : Primitives} {M : Type} {fleet : Fleet ops M} {log : List Signing} {m : M}

/-- What a call derived is what the key schedule gives for its role, from hellos in which its own
part is its own. -/
def Derives (ops : Primitives) (s : Session) (d : Derived) : Prop :=
  match s.call with
  | .initiate _ =>
      d.hellos.initPub = s.ourEphPk ops ∧ d.hellos.nonceI = s.nonce ∧
        (d.transcript, d.cipher) =
          finalizeKeys ops true s.ephemeral d.hellos.respPub s.authFlag d.hellos
  | .accept _ =>
      d.hellos.respPub = s.ourEphPk ops ∧ d.hellos.nonceR = s.nonce ∧
        (d.transcript, d.cipher) =
          finalizeKeys ops false s.ephemeral d.hellos.initPub s.authFlag d.hellos

/-- What an initiator derives: the hellos have its key and nonce first, and the keys follow from
them. -/
theorem derives_initiate {s : Session} {d : Derived} {expectedPeer : Option (String × Arr 32)}
    (hcall : s.call = .initiate expectedPeer) :
    s.Derives ops d ↔ d.hellos.initPub = s.ourEphPk ops ∧ d.hellos.nonceI = s.nonce ∧
      (d.transcript, d.cipher) =
        finalizeKeys ops true s.ephemeral d.hellos.respPub s.authFlag d.hellos := by
  rw [Derives, hcall]

/-- What an acceptor derives: the hellos have its key and nonce last, and the keys follow from them.
-/
theorem derives_accept {s : Session} {d : Derived} {resolvePubkey : String → Option (Arr 32)}
    (hcall : s.call = .accept resolvePubkey) :
    s.Derives ops d ↔ d.hellos.respPub = s.ourEphPk ops ∧ d.hellos.nonceR = s.nonce ∧
      (d.transcript, d.cipher) =
        finalizeKeys ops false s.ephemeral d.hellos.initPub s.authFlag d.hellos := by
  rw [Derives, hcall]

/-- A derived transcript is the hash of the hellos. -/
theorem Derives.transcript_eq {s : Session} {d : Derived} (h : s.Derives ops d) :
    d.transcript = ops.sha256 (transcriptBytes s.authFlag d.hellos) := by
  cases hcall : s.call with
  | initiate expectedPeer => exact congrArg Prod.fst ((derives_initiate hcall).mp h).2.2
  | accept resolvePubkey => exact congrArg Prod.fst ((derives_accept hcall).mp h).2.2

/-- The stream and the transcript of a stage are the derived ones. -/
def Holds (s : Session) (cipher : CipherStream) (transcript : Arr 32) : Prop :=
  ∃ d, s.derived = some d ∧ transcript = d.transcript ∧ cipher.SameKeys d.cipher

/-- A peer that a call has accepted passed its check, and, if its key is an honest one, has signed
the transcript. -/
def Accepted (fleet : Fleet ops M) (log : List Signing) (s : Session) (transcript : Arr 32) :
    PeerAuth → Prop
  | .anonymous => True
  | .authenticated machineId pk =>
      s.call.check machineId pk = .ok () ∧
        ∀ m, fleet.owner pk = some m → ∃ e ∈ log, e.key = pk ∧ e.message = transcript

/-- What a stage stands for: no keys before the other's hello, the derived ones after it, and at the
end a peer that was accepted. -/
def StageOk (fleet : Fleet ops M) (log : List Signing) (s : Session) : Stage → Prop
  | .hello _ => s.derived = none
  | .auth cipher transcript => s.Holds cipher transcript
  | .done cipher transcript peer =>
      s.Holds cipher transcript ∧ s.Accepted fleet log transcript peer
  | .failed _ => True
  | .cancelled => True

/-- **The invariant of a session** of machine `m`: it runs in a mode of that machine, has derived what
the hellos give, and stands for what its stage says. -/
structure Safe (fleet : Fleet ops M) (log : List Signing) (m : M) (s : Session) : Prop where
  mode : ∃ authenticated, s.mode = fleet.mode m authenticated
  derives : ∀ d, s.derived = some d → s.Derives ops d
  stage : s.StageOk fleet log s.stage

/-- A session that is safe stays safe when more has been signed. -/
theorem Safe.mono {s : Session} (h : s.Safe fleet log m) {log' : List Signing} (hlog : log ⊆ log') :
    s.Safe fleet log' m := by
  refine ⟨h.mode, h.derives, ?_⟩
  have hstage := h.stage
  revert hstage
  cases s.stage with
  | done cipher transcript peer =>
      rintro ⟨hholds, haccepted⟩
      refine ⟨hholds, ?_⟩
      cases peer with
      | anonymous => trivial
      | authenticated machineId pk =>
          refine ⟨haccepted.1, fun m hm => ?_⟩
          obtain ⟨e, he, heq⟩ := haccepted.2 m hm
          exact ⟨e, hlog he, heq⟩
  | hello buf => exact id
  | auth cipher transcript => exact id
  | failed e => exact id
  | cancelled => exact id

/-- What waits in the socket does not matter to the invariant: the adversary can put anything
there. -/
theorem Safe.withSocket {s : Session} (h : s.Safe fleet log m) (socket : Bytes) :
    ({ s with socket := socket } : Session).Safe fleet log m := ⟨h.mode, h.derives, h.stage⟩

/-- What a step of a session does: its arguments and what it has derived stay, the invariant is kept,
and what it signs, with its own key, is the transcript it has derived. -/
structure Advances (fleet : Fleet ops M) (log : List Signing) (m : M) (id : ℕ) (s : Session)
    (r : Session × List Signing) : Prop where
  call : r.1.call = s.call
  ephemeral : r.1.ephemeral = s.ephemeral
  kept : ∀ d, s.derived = some d → r.1.derived = some d
  safe : r.1.Safe fleet log m
  signed : ∀ e ∈ r.2, e.session = id ∧ e.key = fleet.publicKey m ∧
    ∃ d, r.1.derived = some d ∧ d.transcript = e.message

/-- A step that only moves to a stage that stands for as much. -/
theorem Safe.advance {s s' : Session} (h : s.Safe fleet log m) (id : ℕ) (hcall : s'.call = s.call)
    (hmode : s'.mode = s.mode) (hephemeral : s'.ephemeral = s.ephemeral) (hnonce : s'.nonce = s.nonce)
    (hderived : s'.derived = s.derived) (hstage : s'.StageOk fleet log s'.stage) :
    s.Advances fleet log m id (s', []) where
  call := hcall
  ephemeral := hephemeral
  kept := by
    intro d hd
    rw [hderived, hd]
  safe := by
    refine ⟨?_, ?_, hstage⟩
    · rw [hmode]
      exact h.mode
    · intro d hd
      rw [hderived] at hd
      have hold := h.derives d hd
      simp only [Derives, ourEphPk, authFlag, hcall, hmode, hephemeral, hnonce] at hold ⊢
      exact hold
  signed := nofun

/-- The stage after a write stands for as much as the next one. -/
theorem stageOk_afterWrite {s : Session} {next : Stage} (h : s.StageOk fleet log next)
    (r : Option (Except HandshakeError Unit)) :
    s.StageOk fleet log (Stage.afterWrite next r) := by
  rcases r with _ | _ | _
  · trivial
  · trivial
  · exact h

/-- A machine that runs authenticated signs with its own key. -/
theorem Safe.signingKey {s : Session} (h : s.Safe fleet log m) {sk : Arr 32} {machineId : String}
    (hmode : s.mode = .authenticated sk machineId) : ops.verifyingKey sk = fleet.publicKey m := by
  obtain ⟨_ | _, hb⟩ := h.mode
  · rw [hmode] at hb
    cases hb
  · rw [hmode] at hb
    cases hb
    rfl

/-- A call that starts is safe, whatever becomes of its first write. -/
theorem start_safe (fleet : Fleet ops M) (log : List Signing) (m : M)
    (call : Call) (authenticated : Bool) (ephemeral : Arr 32) (nonce : Arr 16) (fate : SendFate) :
    (Session.start ops call (fleet.mode m authenticated) ephemeral nonce fate).Safe fleet log m := by
  cases call with
  | accept resolvePubkey => exact ⟨⟨authenticated, rfl⟩, nofun, rfl⟩
  | initiate expectedPeer =>
      refine ⟨⟨authenticated, rfl⟩, nofun, ?_⟩
      exact Session.stageOk_afterWrite (by exact rfl) _

/-- The step that derives the keys advances a session: if what it derives is what the hellos give, and
what it signs is the transcript, under its own key. -/
theorem Safe.derive {s s' : Session} {d : Derived} {new : List Signing} (h : s.Safe fleet log m)
    (id : ℕ) (hnone : s.derived = none) (hcall : s'.call = s.call) (hmode : s'.mode = s.mode)
    (hephemeral : s'.ephemeral = s.ephemeral) (hd : s'.derived = some d)
    (hderives : s'.Derives ops d) (hstage : s'.StageOk fleet log s'.stage)
    (hnew : ∀ e ∈ new, e.session = id ∧ e.key = fleet.publicKey m ∧ d.transcript = e.message) :
    s.Advances fleet log m id (s', new) where
  call := hcall
  ephemeral := hephemeral
  kept := by
    intro d' hd'
    rw [hnone] at hd'
    cases hd'
  safe := by
    refine ⟨?_, ?_, hstage⟩
    · rw [hmode]
      exact h.mode
    · intro d' hd'
      rw [hd] at hd'
      cases hd'
      exact hderives
  signed := by
    intro e he
    obtain ⟨hid, hkey, hmessage⟩ := hnew e he
    exact ⟨hid, hkey, d, hd, hmessage⟩

/-- `initiate` with the second hello advances its session: it derives the keys and signs the
transcript. -/
theorem Safe.initiateHello {s : Session} (h : s.Safe fleet log m)
    {expectedPeer : Option (String × Arr 32)} (hcall : s.call = .initiate expectedPeer)
    (hnone : s.derived = none) (id : ℕ) (hello : Arr 48) (fate : SendFate) :
    s.Advances fleet log m id (s.initiateHello ops id hello fate) := by
  unfold Session.initiateHello
  dsimp only
  split
  · refine h.derive id hnone rfl rfl rfl rfl ?_ ⟨⟨_, rfl, rfl, .refl _⟩, trivial⟩ nofun
    exact (derives_initiate hcall).mpr ⟨rfl, rfl, rfl⟩
  · next sk machineId hmode =>
    refine h.derive id hnone rfl rfl rfl rfl ?_ ?_ ?_
    · exact (derives_initiate hcall).mpr ⟨rfl, rfl, rfl⟩
    · refine stageOk_afterWrite ?_ _
      exact ⟨_, rfl, rfl, sendAuthFrame_sameKeys (.refl _) _ _ _ _ _⟩
    · intro e he
      rw [List.mem_singleton.mp he]
      exact ⟨rfl, h.signingKey hmode, rfl⟩

/-- `accept` with the first hello advances its session: it derives the keys and signs nothing yet. -/
theorem Safe.acceptHello {s : Session} (h : s.Safe fleet log m)
    {resolvePubkey : String → Option (Arr 32)} (hcall : s.call = .accept resolvePubkey)
    (hnone : s.derived = none) (id : ℕ) (hello : Arr 50) (fate : SendFate) :
    s.Advances fleet log m id (s.acceptHello ops hello fate) := by
  unfold Session.acceptHello
  dsimp only
  split
  · exact h.advance id rfl rfl rfl rfl rfl trivial
  split
  · exact h.advance id rfl rfl rfl rfl rfl trivial
  split
  · exact h.advance id rfl rfl rfl rfl rfl trivial
  · exact h.advance id rfl rfl rfl rfl rfl trivial
  · refine h.derive id hnone rfl rfl rfl rfl ?_ ?_ nofun
    · exact (derives_accept hcall).mpr ⟨rfl, rfl, rfl⟩
    · cases hmode : s.mode with
      | anonymous => exact ⟨⟨_, rfl, rfl, .refl _⟩, trivial⟩
      | authenticated sk machineId => exact ⟨_, rfl, rfl, .refl _⟩

/-- Waiting for a hello advances a session, if resuming with the hello does. -/
theorem Safe.readHello {s : Session} (h : s.Safe fleet log m) (hnone : s.derived = none) (id n : ℕ)
    (buf : Bytes) (events : List ReadEvent) (resume : Session → Arr n → Session × List Signing)
    (hresume : ∀ socket hello, ({ s with socket := socket } : Session).Advances fleet log m id
      (resume { s with socket := socket } hello)) :
    s.Advances fleet log m id (s.readHello n buf events resume) := by
  unfold Session.readHello
  dsimp only
  split
  · exact h.advance id rfl rfl rfl rfl rfl trivial
  split
  · next hsize =>
    obtain ⟨hcall, hephemeral, hkept, hsafe, hsigned⟩ := hresume (readExact n buf s.socket events).2.1
      ⟨_, hsize⟩
    exact ⟨hcall, hephemeral, hkept, hsafe, hsigned⟩
  · exact h.advance id rfl rfl rfl rfl rfl hnone

/-- The step after the peer has been accepted advances a session: `initiate` is done, and `accept`
signs the transcript. -/
theorem Safe.peerAuthenticated {s : Session} (h : s.Safe fleet log m) {cipher : CipherStream}
    {transcript : Arr 32} (peer : PeerAuth) (hholds : s.Holds cipher transcript)
    (haccepted : s.Accepted fleet log transcript peer) (id : ℕ) (fate : SendFate) :
    s.Advances fleet log m id (s.peerAuthenticated ops id cipher transcript peer fate) := by
  unfold Session.peerAuthenticated
  split
  · next sk machineId hcall hmode =>
    obtain ⟨d, hd, htranscript, hkeys⟩ := hholds
    have hnext : s.StageOk fleet log (.done
        (sendAuthFrame ops cipher sk machineId transcript fate).cipher transcript peer) :=
      ⟨⟨d, hd, htranscript, sendAuthFrame_sameKeys hkeys _ _ _ _ _⟩, haccepted⟩
    refine ⟨rfl, rfl, fun _ hd => hd, ⟨h.mode, h.derives, stageOk_afterWrite hnext _⟩, ?_⟩
    intro e he
    rw [List.mem_singleton.mp he]
    exact ⟨rfl, h.signingKey hmode, d, hd, htranscript.symm⟩
  · exact h.advance id rfl rfl rfl rfl rfl ⟨hholds, haccepted⟩

/-- Waiting for the peer's auth frame advances a session: a peer that is authenticated has passed the
check and signed the transcript. -/
theorem Safe.readAuth {s : Session} (h : s.Safe fleet log m) {cipher : CipherStream}
    {transcript : Arr 32} (hholds : s.Holds cipher transcript) (id : ℕ) (events : List ReadEvent)
    (fate : SendFate) :
    s.Advances fleet log m id
      (s.readAuth ops (fleet.verify log) id cipher transcript events fate) := by
  obtain ⟨d, hd, htranscript, hkeys⟩ := hholds
  have hholds' : s.Holds (cipher.recv ops.aead s.socket events).1 transcript :=
    ⟨d, hd, htranscript, hkeys.recv _ _ _⟩
  unfold Session.readAuth
  dsimp only
  split
  · exact h.advance id rfl rfl rfl rfl rfl hholds'
  · exact h.advance id rfl rfl rfl rfl rfl trivial
  split
  · exact h.advance id rfl rfl rfl rfl rfl trivial
  · next machineId pk hpeer =>
    obtain ⟨hcheck, sig, hverify⟩ := authenticatePeer_ok hpeer
    have haccepted : s.Accepted fleet log transcript (.authenticated machineId pk) :=
      ⟨hcheck, fun _ hm => fleet.verify_signed hverify hm⟩
    obtain ⟨hcall, hephemeral, hkept, hsafe, hsigned⟩ :=
      (h.withSocket (cipher.recv ops.aead s.socket events).2.wire).peerAuthenticated (.authenticated machineId pk) hholds' haccepted id fate
    exact ⟨hcall, hephemeral, hkept, hsafe, hsigned⟩

/-- **A poll** advances a session, at whichever stage it stands. -/
theorem Safe.poll {s : Session} (h : s.Safe fleet log m) (id : ℕ) (events : List ReadEvent)
    (fate : SendFate) :
    s.Advances fleet log m id (s.poll ops (fleet.verify log) id events fate) := by
  have hstage := h.stage
  have ht : (s.mark events fate).Safe fleet log m := ⟨h.mode, h.derives, h.stage⟩
  unfold Session.poll
  split
  · next buf expectedPeer hs hcall =>
    rw [hs] at hstage
    obtain ⟨hcall, hephemeral, hkept, hsafe, hsigned⟩ := ht.readHello hstage id 48 buf events
      (fun s hello => s.initiateHello ops id hello fate) fun socket hello =>
        (ht.withSocket socket).initiateHello hcall hstage id hello fate
    exact ⟨hcall, hephemeral, hkept, hsafe, hsigned⟩
  · next buf resolvePubkey hs hcall =>
    rw [hs] at hstage
    obtain ⟨hcall, hephemeral, hkept, hsafe, hsigned⟩ := ht.readHello hstage id 50 buf events
      (fun s hello => s.acceptHello ops hello fate) fun socket hello =>
        (ht.withSocket socket).acceptHello hcall hstage id hello fate
    exact ⟨hcall, hephemeral, hkept, hsafe, hsigned⟩
  · next cipher transcript hs =>
    rw [hs] at hstage
    obtain ⟨hcall, hephemeral, hkept, hsafe, hsigned⟩ := ht.readAuth hstage id events fate
    exact ⟨hcall, hephemeral, hkept, hsafe, hsigned⟩
  · exact ⟨rfl, rfl, fun _ hd => hd, h, nofun⟩

end Session

end Synbad
