import Synbad.Lib.Run
import Synbad.Crypto.Cipher
import Mathlib.Logic.Function.Basic
import Mathlib.Data.List.Nodup

/-! # The encrypted channel under attack

Two ends of a connection whose network is in the hands of an adversary: it puts any bytes it likes
into either socket, at any time, made of whatever it has seen. The cipher is an ideal AEAD, which
decrypts only what was encrypted under the same key and nonce, and the two directions have different
keys. What an end accepts is then, frame by frame, what the other end sent.

`World` is both ends with every encryption made so far; its actions are those of the two ends and of
the adversary. The invariant `Inv` has three parts: the keys stay where they are, what an end has
encrypted is its payloads under consecutive nonces, and each frame that was accepted was encrypted
under the nonce of its turn. An action concerns the end that acts (`Inv.of_side`), and every action
keeps the invariant (`Inv.step`).

`accepted_prefix_of_sent` is what follows in every state of a run: no frame is accepted twice, each
was encrypted by the other end, and as long as no send there has failed before its last the accepted
payloads are the first of those that were sent, in their order. -/

namespace Synbad

/-! ## The ideal cipher -/

/-- The ideal AEAD: encryption is arbitrary, decryption looks up what has been encrypted. -/
def idealAead (encrypt : Bytes → Bytes → Bytes → Option Bytes) (log : List Encryption) : Aead where
  encrypt := encrypt
  decrypt key nonce ct :=
    (log.find? fun x => x.key == key && x.nonce == nonce && x.ciphertext == ct).map (·.payload)

/-- **Ideal decryption** succeeds only on what was encrypted under that key and nonce. -/
theorem idealAead_decrypt {encrypt : Bytes → Bytes → Bytes → Option Bytes} {log : List Encryption}
    {key nonce ct pt : Bytes} (h : (idealAead encrypt log).decrypt key nonce ct = some pt) :
    ⟨key, nonce, pt, ct⟩ ∈ log := by
  obtain ⟨x, hx, rfl⟩ := Option.map_eq_some_iff.mp h
  have hfound := List.find?_some hx
  simp only [Bool.and_eq_true, beq_iff_eq] at hfound
  obtain ⟨⟨rfl, rfl⟩, rfl⟩ := hfound
  exact List.mem_of_find?_eq_some hx

/-! ## The network -/

/-- The two ends of the connection. -/
inductive ChannelEnd where
  | left
  | right
  deriving DecidableEq, Repr

/-- The end at the other side of the connection. -/
def ChannelEnd.other : ChannelEnd → ChannelEnd
  | .left => .right
  | .right => .left

/-- The two ends are two. -/
theorem ChannelEnd.other_ne (side : ChannelEnd) : side.other ≠ side := by
  cases side <;> decide

/-- One end, with the bytes waiting in its socket and its history: the payloads its sends were
called with, what these returned, and the frames its receives accepted. -/
structure Party where
  endpoint : Endpoint
  socket : Bytes
  sent : List Bytes
  results : List (Option (Except FrameError Unit))
  got : List Encryption

/-- Both ends, and every encryption that either of them has made so far. -/
structure World where
  party : ChannelEnd → Party
  log : List Encryption

/-- What the two ends and the adversary can do. -/
inductive NetAction where
  | send (side : ChannelEnd) (payload : Bytes) (fate : SendFate)
  | recv (side : ChannelEnd) (events : List ReadEvent)
  | split (side : ChannelEnd)
  /-- The adversary puts bytes of its choice into the socket of an end. -/
  | deliver (side : ChannelEnd) (bytes : Bytes)

/-- The frame a receive accepted, if it did: the ciphertext it read and what it returned, under the
key and nonce of the moment. -/
def Endpoint.accepted (e : Endpoint) (wire : Bytes) (events : List ReadEvent) (out : RecvOutcome) :
    List Encryption :=
  match (e.joined.recvFrame.read wire events).result, out.result with
  | some (.ok ct), some (.ok pt) =>
      [⟨e.joined.recvKey, buildNonce e.joined.recvPrefix e.joined.recvCounter, pt, ct⟩]
  | _, _ => []

namespace World

/-- One action: an end sends or receives, its stream is split, or the adversary puts bytes into a
socket. -/
def step (encrypt : Bytes → Bytes → Bytes → Option Bytes) (w : World) : NetAction → World
  | .send side payload fate =>
      let me := w.party side
      let out := me.endpoint.send (idealAead encrypt w.log) payload fate
      { party := Function.update w.party side
          { me with
            endpoint := out.1, sent := me.sent ++ [payload], results := me.results ++ [out.2.result] }
        log := w.log ++ Sender.encryption me.endpoint payload out.2 }
  | .recv side events =>
      let me := w.party side
      let out := me.endpoint.recv (idealAead encrypt w.log) me.socket events
      { w with
        party := Function.update w.party side
          { me with
            endpoint := out.1, socket := out.2.wire
            got := me.got ++ me.endpoint.accepted me.socket events out.2 } }
  | .split side =>
      let me := w.party side
      { w with party := Function.update w.party side { me with endpoint := me.endpoint.split } }
  | .deliver side bytes =>
      let me := w.party side
      { w with party := Function.update w.party side { me with socket := me.socket ++ bytes } }

/-- A fresh connection: each end sends under its own key and prefix and receives under the
other's. -/
def connect (key pre : ChannelEnd → Bytes) : World where
  party side :=
    ⟨.whole (.new (key side) (key side.other) (pre side) (pre side.other)), [], [], [], []⟩
  log := []

end World

/-! ## What one send and one receive do -/

/-- A send returns `Ok` and moves the counter, or does neither. -/
theorem sendFrame_cases (aead : Aead) (key pre : Bytes) (counter : ℕ) (payload : Bytes)
    (fate : SendFate) {out : SendOutcome}
    (hout : sendFrame aead key pre counter payload fate = out) :
    (out.result = some (.ok ()) ∧ counter ≠ maxCounter ∧ out.counter = counter + 1) ∨
      (out.result ≠ some (.ok ()) ∧ out.counter = counter) := by
  unfold sendFrame at hout
  split at hout
  · subst hout
    exact Or.inr ⟨nofun, rfl⟩
  split at hout
  · subst hout
    exact Or.inr ⟨nofun, rfl⟩
  split at hout
  · subst hout
    exact Or.inr ⟨nofun, rfl⟩
  · subst hout
    exact Or.inr ⟨nofun, rfl⟩
  · split at hout
    · subst hout
      exact Or.inr ⟨nofun, rfl⟩
    · next hmax =>
      subst hout
      exact Or.inl ⟨rfl, hmax, rfl⟩

/-- A receive accepts a frame that decrypts under the current counter and moves it, or does
neither. -/
theorem recvFrame_cases (aead : Aead) (key pre : Bytes) (counter : ℕ) (frame : PendingFrame)
    (wire : Bytes) (events : List ReadEvent) {out : RecvOutcome}
    (hout : recvFrame aead key pre counter frame wire events = out) :
    (∃ ct pt, (frame.read wire events).result = some (.ok ct) ∧ out.result = some (.ok pt) ∧
        aead.decrypt key (buildNonce pre counter) ct = some pt ∧ counter ≠ maxCounter ∧
        out.counter = counter + 1) ∨
      ((∀ pt, out.result ≠ some (.ok pt)) ∧ out.counter = counter) := by
  simp only [recvFrame] at hout
  split at hout
  · subst hout
    exact Or.inr ⟨nofun, rfl⟩
  · subst hout
    exact Or.inr ⟨nofun, rfl⟩
  · next ct hct =>
    split at hout
    · subst hout
      exact Or.inr ⟨nofun, rfl⟩
    · next pt hpt =>
      split at hout
      · subst hout
        exact Or.inr ⟨nofun, rfl⟩
      · next hmax =>
        subst hout
        exact Or.inl ⟨ct, pt, hct, rfl, hpt, hmax, rfl⟩

/-- What a send adds to the encryptions is of its own key, nonce and payload. -/
theorem mem_encryption {e : Endpoint} {payload : Bytes} {out : SendOutcome} {x : Encryption}
    (h : x ∈ Sender.encryption e payload out) :
    x.key = e.joined.sendKey ∧
      x.nonce = buildNonce e.joined.sendPrefix e.joined.sendCounter ∧ x.payload = payload := by
  obtain ⟨ct, -, rfl⟩ := Option.map_eq_some_iff.mp (Option.mem_toList.mp h)
  exact ⟨rfl, rfl, rfl⟩

/-- A receive that returns a plaintext has accepted the frame it read. -/
theorem Endpoint.accepted_ok {e : Endpoint} {wire : Bytes} {events : List ReadEvent}
    {out : RecvOutcome} {ct pt : Bytes}
    (hread : (e.joined.recvFrame.read wire events).result = some (.ok ct))
    (hresult : out.result = some (.ok pt)) :
    e.accepted wire events out =
      [⟨e.joined.recvKey, buildNonce e.joined.recvPrefix e.joined.recvCounter, pt, ct⟩] := by
  rw [accepted, hread, hresult]

/-- A receive that returns no payload has accepted no frame. -/
theorem Endpoint.accepted_nil {e : Endpoint} {wire : Bytes} {events : List ReadEvent}
    {out : RecvOutcome} (hresult : ∀ pt, out.result ≠ some (.ok pt)) :
    e.accepted wire events out = [] := by
  unfold accepted
  split
  · next hok => exact absurd hok (hresult _)
  · rfl

namespace World

/-! ## The invariant -/

/-- Every send at this end has returned `Ok`: none has failed, been dropped, or is still writing. -/
def AllSent (w : World) (side : ChannelEnd) : Prop :=
  ∀ r ∈ (w.party side).results, r = some (.ok ())

/-- Every send at this end has returned `Ok`, except that the last one may have failed, may have
been dropped or may still be writing. -/
def NoneFailed (w : World) (side : ChannelEnd) : Prop :=
  ∀ r ∈ (w.party side).results.dropLast, r = some (.ok ())

/-- The keys and prefixes stay where they are: an end sends under its own and receives under those of
the other end. -/
structure Wired (key pre : ChannelEnd → Bytes) (w : World) (side : ChannelEnd) : Prop where
  sendKey : (w.party side).endpoint.joined.sendKey = key side
  sendPrefix : (w.party side).endpoint.joined.sendPrefix = pre side
  recvKey : (w.party side).endpoint.joined.recvKey = key side.other
  recvPrefix : (w.party side).endpoint.joined.recvPrefix = pre side.other

/-- What is encrypted under the key of an end whose sends have not failed is its `i`-th payload,
under its `i`-th nonce. -/
structure Spoken (key pre : ChannelEnd → Bytes) (w : World) (side : ChannelEnd) : Prop where
  bound : (w.party side).endpoint.joined.sendCounter ≤ maxCounter
  counter : w.AllSent side →
    (w.party side).endpoint.joined.sendCounter = (w.party side).sent.length
  log : w.NoneFailed side → ∀ x ∈ w.log, x.key = key side →
    ∃ i ≤ maxCounter, x.nonce = buildNonce (pre side) i ∧
      (w.party side).sent[i]? = some x.payload

/-- The `i`-th frame an end has accepted was encrypted under the other end's key and `i`-th
nonce. -/
structure Heard (key pre : ChannelEnd → Bytes) (w : World) (side : ChannelEnd) : Prop where
  bound : (w.party side).endpoint.joined.recvCounter ≤ maxCounter
  counter : (w.party side).endpoint.joined.recvCounter = (w.party side).got.length
  nonces : (w.party side).got.map (·.nonce) =
    (List.range (w.party side).got.length).map (buildNonce (pre side.other))
  genuine : ∀ x ∈ (w.party side).got, x ∈ w.log ∧ x.key = key side.other

/-- **The channel invariant**: at both ends the keys are where they were put, what was encrypted is
what was sent, and what was accepted is what the other end encrypted. -/
structure Inv (key pre : ChannelEnd → Bytes) (w : World) : Prop where
  wired : ∀ side, w.Wired key pre side
  spoken : ∀ side, w.Spoken key pre side
  heard : ∀ side, w.Heard key pre side

variable {key pre : ChannelEnd → Bytes} {w w' : World} {side : ChannelEnd}

/-- The wiring depends on the keys and prefixes only. -/
theorem Wired.of_eq (h : w.Wired key pre side)
    (hsendKey : (w'.party side).endpoint.joined.sendKey = (w.party side).endpoint.joined.sendKey)
    (hsendPrefix : (w'.party side).endpoint.joined.sendPrefix =
      (w.party side).endpoint.joined.sendPrefix)
    (hrecvKey : (w'.party side).endpoint.joined.recvKey = (w.party side).endpoint.joined.recvKey)
    (hrecvPrefix : (w'.party side).endpoint.joined.recvPrefix =
      (w.party side).endpoint.joined.recvPrefix) : w'.Wired key pre side :=
  ⟨hsendKey.trans h.sendKey, hsendPrefix.trans h.sendPrefix, hrecvKey.trans h.recvKey,
    hrecvPrefix.trans h.recvPrefix⟩

/-- What an end has spoken stays, as long as nobody else encrypts under its key. -/
theorem Spoken.of_eq (h : w.Spoken key pre side)
    (hcounter : (w'.party side).endpoint.joined.sendCounter =
      (w.party side).endpoint.joined.sendCounter)
    (hsent : (w'.party side).sent = (w.party side).sent)
    (hresults : (w'.party side).results = (w.party side).results)
    (hlog : ∀ x ∈ w'.log, x.key = key side → x ∈ w.log) : w'.Spoken key pre side := by
  refine ⟨?_, fun hall => ?_, fun hnone x hx hk => ?_⟩
  · rw [hcounter]
    exact h.bound
  · rw [AllSent, hresults] at hall
    rw [hcounter, hsent]
    exact h.counter hall
  · rw [NoneFailed, hresults] at hnone
    rw [hsent]
    exact h.log hnone x (hlog x hx hk) hk

/-- What an end has heard stays, as encryptions are never forgotten. -/
theorem Heard.of_eq (h : w.Heard key pre side)
    (hcounter : (w'.party side).endpoint.joined.recvCounter =
      (w.party side).endpoint.joined.recvCounter)
    (hgot : (w'.party side).got = (w.party side).got) (hlog : ∀ x ∈ w.log, x ∈ w'.log) :
    w'.Heard key pre side := by
  refine ⟨?_, ?_, ?_, fun x hx => ?_⟩
  · rw [hcounter]
    exact h.bound
  · rw [hcounter, hgot]
    exact h.counter
  · rw [hgot]
    exact h.nonces
  · rw [hgot] at hx
    exact ⟨hlog x (h.genuine x hx).1, (h.genuine x hx).2⟩

/-- The keys of the two directions differ whichever end one starts from. -/
theorem key_ne_other (hkeys : key .left ≠ key .right) (side : ChannelEnd) :
    key side ≠ key side.other := by
  cases side
  · exact hkeys
  · exact hkeys.symm

/-- **Frame rule**: an action of one end, which encrypts under its own key only, concerns that end
alone. -/
theorem Inv.of_side (h : w.Inv key pre) (hkeys : key .left ≠ key .right) (side : ChannelEnd)
    (hother : w'.party side.other = w.party side.other) (new : List Encryption)
    (hlog : w'.log = w.log ++ new) (hnew : ∀ x ∈ new, x.key = key side)
    (hwired : w'.Wired key pre side) (hspoken : w'.Spoken key pre side)
    (hheard : w'.Heard key pre side) : w'.Inv key pre := by
  have hkept : ∀ x ∈ w.log, x ∈ w'.log := by
    intro x hx
    rw [hlog]
    exact List.mem_append_left _ hx
  -- The new encryptions are under this end's key, so none of them is the other end's.
  have hforeign : ∀ x ∈ w'.log, x.key = key side.other → x ∈ w.log := by
    intro x hx hk
    rw [hlog] at hx
    rcases List.mem_append.mp hx with hx | hx
    · exact hx
    · exact absurd ((hnew x hx).symm.trans hk) (key_ne_other hkeys side)
  have hwired' : w'.Wired key pre side.other := by
    apply (h.wired side.other).of_eq <;> rw [hother]
  have hspoken' : w'.Spoken key pre side.other := by
    refine (h.spoken side.other).of_eq ?_ ?_ ?_ hforeign <;> rw [hother]
  have hheard' : w'.Heard key pre side.other := by
    refine (h.heard side.other).of_eq ?_ ?_ hkept <;> rw [hother]
  have hboth : ∀ t, t = side ∨ t = side.other := by
    intro t
    cases t <;> cases side <;> simp [ChannelEnd.other]
  refine ⟨fun t => ?_, fun t => ?_, fun t => ?_⟩ <;> rcases hboth t with rfl | rfl <;> assumption

/-- An end speaks: its next payload is encrypted under its next nonce, or not at all, and the
counter moves exactly if the send returns `Ok`. -/
theorem Spoken.speak (h : w.Spoken key pre side) {payload : Bytes}
    {r : Option (Except FrameError Unit)} {new : List Encryption}
    (hsent : (w'.party side).sent = (w.party side).sent ++ [payload])
    (hresults : (w'.party side).results = (w.party side).results ++ [r])
    (hcounter : (r = some (.ok ()) ∧ (w.party side).endpoint.joined.sendCounter ≠ maxCounter ∧
        (w'.party side).endpoint.joined.sendCounter =
          (w.party side).endpoint.joined.sendCounter + 1) ∨
      (r ≠ some (.ok ()) ∧ (w'.party side).endpoint.joined.sendCounter =
        (w.party side).endpoint.joined.sendCounter))
    (hlog : w'.log = w.log ++ new)
    (hnew : ∀ x ∈ new, x.nonce = buildNonce (pre side)
      (w.party side).endpoint.joined.sendCounter ∧ x.payload = payload) :
    w'.Spoken key pre side := by
  have hbound := h.bound
  refine ⟨?_, fun hall => ?_, fun hnone x hx hk => ?_⟩
  · rcases hcounter with ⟨-, hmax, hc⟩ | ⟨-, hc⟩ <;> omega
  -- if all sends have gone well the counter is how many there were
  · rw [AllSent, hresults, List.forall_mem_append] at hall
    have hr := hall.2 r (List.mem_singleton.mpr rfl)
    have hold := h.counter hall.1
    rcases hcounter with ⟨-, -, hc⟩ | ⟨hfail, -⟩
    · rw [hc, hold, hsent, List.length_append, List.length_singleton]
    · exact absurd hr hfail
  · -- all sends before this one returned `Ok`
    rw [NoneFailed, hresults, List.dropLast_concat] at hnone
    rw [hlog] at hx
    rw [hsent]
    rcases List.mem_append.mp hx with hx | hx
    · obtain ⟨i, hi, hnonce, hpayload⟩ :=
        h.log (fun r hr => hnone r (List.dropLast_subset _ hr)) x hx hk
      refine ⟨i, hi, hnonce, ?_⟩
      rw [List.getElem?_append_left (List.getElem?_eq_some_iff.mp hpayload).1]
      exact hpayload
    · -- so the counter is the number of payloads sent, the index of this one
      obtain ⟨hnonce, hpayload⟩ := hnew x hx
      refine ⟨_, hbound, hnonce, ?_⟩
      rw [h.counter hnone, List.getElem?_concat_length, hpayload]

/-- An end hears: a frame that was encrypted under the other end's key and next nonce. -/
theorem Heard.hear (h : w.Heard key pre side) {x : Encryption} (hx : x ∈ w.log)
    (hkey : x.key = key side.other)
    (hnonce : x.nonce = buildNonce (pre side.other) (w.party side).endpoint.joined.recvCounter)
    (hmax : (w.party side).endpoint.joined.recvCounter ≠ maxCounter)
    (hgot : (w'.party side).got = (w.party side).got ++ [x])
    (hcounter : (w'.party side).endpoint.joined.recvCounter =
      (w.party side).endpoint.joined.recvCounter + 1) (hlog : w'.log = w.log) :
    w'.Heard key pre side := by
  have hbound := h.bound
  have hlength := h.counter
  refine ⟨by omega, ?_, ?_, ?_⟩
  · rw [hcounter, hgot, hlength, List.length_append, List.length_singleton]
  · rw [hgot, List.map_append, h.nonces, List.length_append, List.length_singleton,
      List.range_succ, List.map_append, List.map_singleton, List.map_singleton, hnonce, hlength]
  · rw [hgot, hlog]
    rintro y hy
    rcases List.mem_append.mp hy with hy | hy
    · exact h.genuine y hy
    · rw [List.mem_singleton.mp hy]
      exact ⟨hx, hkey⟩

/-! ## Every action keeps the invariant -/

/-- A send keeps the invariant, however its writes end: what it encrypts it encrypts under the next
nonce of its end. -/
theorem Inv.send (h : w.Inv key pre) (hkeys : key .left ≠ key .right)
    (encrypt : Bytes → Bytes → Bytes → Option Bytes) (side : ChannelEnd) (payload : Bytes)
    (fate : SendFate) : (w.step encrypt (.send side payload fate)).Inv key pre := by
  obtain ⟨hjoined, hout⟩ :=
    (w.party side).endpoint.send_joined (idealAead encrypt w.log) payload fate
  have hnew : ∀ x ∈ Sender.encryption (w.party side).endpoint payload
      ((w.party side).endpoint.send (idealAead encrypt w.log) payload fate).2,
      x.key = key side ∧ x.nonce = buildNonce (pre side)
        (w.party side).endpoint.joined.sendCounter ∧ x.payload = payload := by
    intro x hx
    obtain ⟨hk, hn, hp⟩ := mem_encryption hx
    rw [(h.wired side).sendKey] at hk
    rw [(h.wired side).sendPrefix] at hn
    exact ⟨hk, hn, hp⟩
  -- only this side and the log change
  generalize hw' : w.step encrypt (.send side payload fate) = w'
  have hparty : w'.party side =
      { w.party side with
        endpoint := ((w.party side).endpoint.send (idealAead encrypt w.log) payload fate).1
        sent := (w.party side).sent ++ [payload]
        results := (w.party side).results ++
          [((w.party side).endpoint.send (idealAead encrypt w.log) payload fate).2.result] } := by
    rw [← hw']
    exact Function.update_self _ _ _
  have hother : w'.party side.other = w.party side.other := by
    rw [← hw']
    exact Function.update_of_ne side.other_ne _ _
  have hlog : w'.log = w.log ++ Sender.encryption (w.party side).endpoint payload
      ((w.party side).endpoint.send (idealAead encrypt w.log) payload fate).2 := by
    rw [← hw']
    rfl
  refine h.of_side hkeys side hother _ hlog (fun x hx => (hnew x hx).1) ?_ ?_ ?_
  · apply (h.wired side).of_eq <;> rw [hparty] <;> simp only [hjoined] <;> rfl
  · refine (h.spoken side).speak (by rw [hparty]) (by rw [hparty]) ?_ hlog
      (fun x hx => (hnew x hx).2)
    rw [hparty]
    simp only [hjoined, hout]
    exact sendFrame_cases _ _ _ _ payload fate rfl
  · refine (h.heard side).of_eq ?_ ?_ ?_
    · rw [hparty]
      simp only [hjoined]
      rfl
    · rw [hparty]
    · intro x hx
      rw [hlog]
      exact List.mem_append_left _ hx

/-- A receive keeps the invariant: what it accepts was encrypted by the other end, under the nonce
whose turn it is. -/
theorem Inv.recv (h : w.Inv key pre) (hkeys : key .left ≠ key .right)
    (encrypt : Bytes → Bytes → Bytes → Option Bytes) (side : ChannelEnd) (events : List ReadEvent) :
    (w.step encrypt (.recv side events)).Inv key pre := by
  obtain ⟨hjoined, hout⟩ :=
    (w.party side).endpoint.recv_joined (idealAead encrypt w.log) (w.party side).socket events
  -- the other end and the record of what was sealed are as they were
  generalize hw' : w.step encrypt (.recv side events) = w'
  have hparty : w'.party side =
      { w.party side with
        endpoint := ((w.party side).endpoint.recv (idealAead encrypt w.log)
          (w.party side).socket events).1
        socket := ((w.party side).endpoint.recv (idealAead encrypt w.log)
          (w.party side).socket events).2.wire
        got := (w.party side).got ++ (w.party side).endpoint.accepted (w.party side).socket events
          ((w.party side).endpoint.recv (idealAead encrypt w.log)
            (w.party side).socket events).2 } := by
    rw [← hw']
    exact Function.update_self _ _ _
  have hother : w'.party side.other = w.party side.other := by
    rw [← hw']
    exact Function.update_of_ne side.other_ne _ _
  have hlog : w'.log = w.log := by
    rw [← hw']
    rfl
  refine h.of_side hkeys side hother [] (by rw [hlog, List.append_nil]) nofun ?_ ?_ ?_
  · apply (h.wired side).of_eq <;> rw [hparty] <;> simp only [hjoined] <;> rfl
  -- what this end has sent is untouched by a receive
  · refine (h.spoken side).of_eq ?_ ?_ ?_ ?_
    · rw [hparty]
      simp only [hjoined]
      rfl
    · rw [hparty]
    · rw [hparty]
    · rw [hlog]
      exact fun x hx _ => hx
  · have hcounter : (w'.party side).endpoint.joined.recvCounter =
        ((w.party side).endpoint.joined.recv (idealAead encrypt w.log)
          (w.party side).socket events).2.counter := by
      rw [hparty]
      simp only [hjoined]
      rfl
    rcases recvFrame_cases (idealAead encrypt w.log) (w.party side).endpoint.joined.recvKey
      (w.party side).endpoint.joined.recvPrefix (w.party side).endpoint.joined.recvCounter
      (w.party side).endpoint.joined.recvFrame (w.party side).socket events rfl with
      ⟨ct, pt, hread, hresult, hdecrypt, hmax, hmoved⟩ | ⟨hresult, hkept⟩
    · -- the ideal cipher opens only what the log has
      refine (h.heard side).hear (idealAead_decrypt hdecrypt) (h.wired side).recvKey ?_ hmax ?_
        (hcounter.trans hmoved) hlog
      · rw [(h.wired side).recvPrefix]
      · rw [hparty, hout]
        exact congrArg _ (Endpoint.accepted_ok hread hresult)
    -- nothing was accepted, and the counter has stayed
    · refine (h.heard side).of_eq (hcounter.trans hkept) ?_ ?_
      · rw [hparty, hout]
        exact (congrArg _ (Endpoint.accepted_nil hresult)).trans (List.append_nil _)
      · rw [hlog]
        exact fun x hx => hx

/-- An action that leaves counters, keys and history alone. -/
theorem Inv.quiet (h : w.Inv key pre) (hkeys : key .left ≠ key .right) (side : ChannelEnd)
    (hother : w'.party side.other = w.party side.other)
    (hjoined : (w'.party side).endpoint.joined = (w.party side).endpoint.joined)
    (hsent : (w'.party side).sent = (w.party side).sent)
    (hresults : (w'.party side).results = (w.party side).results)
    (hgot : (w'.party side).got = (w.party side).got) (hlog : w'.log = w.log) :
    w'.Inv key pre := by
  refine h.of_side hkeys side hother [] (by rw [hlog, List.append_nil]) nofun ?_ ?_ ?_
  · apply (h.wired side).of_eq <;> rw [hjoined]
  · refine (h.spoken side).of_eq (by rw [hjoined]) hsent hresults ?_
    rw [hlog]
    exact fun x hx _ => hx
  · refine (h.heard side).of_eq (by rw [hjoined]) hgot ?_
    rw [hlog]
    exact fun x hx => hx

/-- **Every action** keeps the invariant, those of the adversary included. -/
theorem Inv.step (h : w.Inv key pre) (hkeys : key .left ≠ key .right)
    (encrypt : Bytes → Bytes → Bytes → Option Bytes) (a : NetAction) :
    (w.step encrypt a).Inv key pre := by
  cases a with
  | send side payload fate => exact h.send hkeys encrypt side payload fate
  | recv side events => exact h.recv hkeys encrypt side events
  | split side =>
      have hparty : (w.step encrypt (.split side)).party side =
          { w.party side with endpoint := (w.party side).endpoint.split } :=
        Function.update_self _ _ _
      refine h.quiet hkeys side (Function.update_of_ne side.other_ne _ _) ?_ ?_ ?_ ?_ rfl
      · rw [hparty, Endpoint.split_joined]
      all_goals rw [hparty]
  | deliver side bytes =>
      have hparty : (w.step encrypt (.deliver side bytes)).party side =
          { w.party side with socket := (w.party side).socket ++ bytes } :=
        Function.update_self _ _ _
      refine h.quiet hkeys side (Function.update_of_ne side.other_ne _ _) ?_ ?_ ?_ ?_ rfl
      all_goals rw [hparty]

/-- A fresh connection has it. -/
theorem Inv.connect (key pre : ChannelEnd → Bytes) : (World.connect key pre).Inv key pre where
  wired _ := ⟨rfl, rfl, rfl, rfl⟩
  spoken _ := ⟨Nat.zero_le _, fun _ => rfl, nofun⟩
  heard _ := ⟨Nat.zero_le _, rfl, rfl, nofun⟩

/-! ## What an end accepts -/

/-- The nonces of the accepted frames differ, so no frame is among them twice. -/
theorem Heard.nodup (h : w.Heard key pre side) :
    ((w.party side).got.map (·.nonce)).Nodup := by
  rw [h.nonces]
  refine List.Nodup.map_on ?_ List.nodup_range
  intro m hm n hn heq
  have hlength := h.counter
  have hbound := h.bound
  have hm' := List.mem_range.mp hm
  have hn' := List.mem_range.mp hn
  exact buildNonce_inj (by omega) (by omega) heq

/-- What was accepted is, place by place, what was sent. -/
theorem Inv.got_prefix (h : w.Inv key pre) (hnone : w.NoneFailed side.other) :
    (w.party side).got.map (·.payload) <+: (w.party side.other).sent := by
  have hheard := h.heard side
  rw [List.prefix_iff_getElem?]
  intro i hi
  rw [List.length_map] at hi
  have hmem : (w.party side).got[i] ∈ (w.party side).got := List.getElem_mem hi
  obtain ⟨hlog, hkey⟩ := hheard.genuine _ hmem
  obtain ⟨j, hj, hnonce, hsent⟩ := (h.spoken side.other).log hnone _ hlog hkey
  -- the nonce it was accepted under is the one it was sent under
  have hi' : ((w.party side).got[i]).nonce = buildNonce (pre side.other) i := by
    have := congrArg (·[i]?) hheard.nonces
    simpa [hi] using this
  have hlength := hheard.counter
  have hbound := hheard.bound
  have hij : i = j := buildNonce_inj (by omega) hj (hi'.symm.trans hnonce)
  subst hij
  rw [hsent, List.getElem_map]

end World

/-- **Integrity and ordering.** Whatever the adversary puts into the sockets, in every state the
connection passes through: no frame is accepted twice, every accepted frame is one that the other
end encrypted, and, while no send at the other end has failed before its last, the accepted
plaintexts are the first ones of those whose send was called there, in order. -/
theorem accepted_prefix_of_sent (encrypt : Bytes → Bytes → Bytes → Option Bytes)
    (key pre : ChannelEnd → Bytes) (hkeys : key .left ≠ key .right) (actions : List NetAction)
    (n : ℕ) (side : ChannelEnd) :
    let w := Run.after (World.step encrypt) (World.connect key pre) actions n
    ((w.party side).got.map (·.nonce)).Nodup ∧
      (∀ x ∈ (w.party side).got, x ∈ w.log ∧ x.key = key side.other) ∧
      (w.NoneFailed side.other →
        (w.party side).got.map (·.payload) <+: (w.party side.other).sent) := by
  have hinv : (Run.after (World.step encrypt) (World.connect key pre) actions n).Inv key pre :=
    Run.invariant (World.Inv.connect key pre) (fun _ a _ h => h.step hkeys encrypt a) n
  exact ⟨(hinv.heard side).nodup, (hinv.heard side).genuine, hinv.got_prefix⟩

/-- The key of each direction of a small connection. -/
def sampleKey : ChannelEnd → Bytes
  | .left => List.replicate 32 1
  | .right => List.replicate 32 2

/-- The bytes of a frame that the left end of the small connection sends. -/
def sampleFrame (counter : ℕ) (payload : Bytes) : Bytes :=
  let nonce := buildNonce [0, 0, 0, 0] counter
  frameBytes (payload ++ Aead.tag (sampleKey .left) nonce payload)

/-- A frame is delivered, replayed, and followed by the next one after the receiver has split: the
replay is refused and both frames arrive. -/
theorem accepted_prefix_of_sent_replay :
    let actions : List NetAction :=
      [.send .left [7] .completes, .deliver .right (sampleFrame 0 [7]),
        .recv .right [.data 3, .data 99], .deliver .right (sampleFrame 0 [7]),
        .recv .right [.data 3, .data 99], .split .right, .send .left [8] .completes,
        .deliver .right (sampleFrame 1 [8]), .recv .right [.data 3, .data 99]]
    let w := Run.after (World.step Aead.tagging.encrypt)
      (World.connect sampleKey fun _ => [0, 0, 0, 0]) actions 9
    (w.party .right).got.map (·.payload) = [[7], [8]] ∧
      ((w.party .right).got.map (·.nonce)).Nodup ∧
      (w.party .right).got.map (·.payload) <+: (w.party .left).sent := by
  have h := accepted_prefix_of_sent Aead.tagging.encrypt sampleKey (fun _ => [0, 0, 0, 0])
    (by decide)
    [.send .left [7] .completes, .deliver .right (sampleFrame 0 [7]),
      .recv .right [.data 3, .data 99], .deliver .right (sampleFrame 0 [7]),
      .recv .right [.data 3, .data 99], .split .right, .send .left [8] .completes,
      .deliver .right (sampleFrame 1 [8]), .recv .right [.data 3, .data 99]] 9 .right
  refine ⟨by decide +kernel, h.1, h.2.2 ?_⟩
  intro r hr
  exact List.mem_singleton.mp hr

end Synbad
