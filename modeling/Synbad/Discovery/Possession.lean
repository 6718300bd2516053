import Synbad.Crypto.Completion
import Synbad.Discovery.PairingSession

/-! # Proof of possession

A session stores a key after a signature of its transcript has verified under it. Both sides sign the
same transcript, so this says that someone else holds the key only if the key is not our own; and what
a session checks of the peer's Hello is its machine id. The invariant of a session follows the Hello
and the verdict to the entry that is saved, and the record of signatures says who made them.

`Inv` has one clause for each stage of a session, and every move keeps it, whatever the peer sends,
whoever signs and whoever writes the trust store meanwhile. What a saved entry proves is read off it
(`saved_key_was_proved`): the user's consent, and a proof of possession by someone else, unless the
Hello showed our own key under another machine's id. That case is real: a peer that sends our own
messages back to us gets our key saved as its own (`reflection_saves`). -/

namespace Synbad

open Bytes (Arr)

/-! ## The steps of a session -/

/-- The Hellos a session works with, from their check to the save. -/
def PairStage.hellos : PairStage → Option PairHellos
  | .deciding h => some h
  | .awaitsVerdict h _ => some h
  | .sending h _ _ _ => some h
  | .awaitsConfirm h => some h
  | .persisting h => some h
  | _ => none

/-- The user has accepted when a session stands here. -/
def PairStage.agreed : PairStage → Bool
  | .sending _ ourAccept _ _ => ourAccept
  | .awaitsConfirm _ => true
  | .persisting _ => true
  | _ => false

/-- A key whose text was read is what that text is decoded to. -/
theorem pubkeyFromHex_ok {hex : HexCodec} {s : String} {pk : Arr 32}
    (h : pubkeyFromHex hex s = .ok pk) : hex.decode s = some pk.val := by
  obtain ⟨bytes, hbytes, hpk⟩ := except_bind_ok.mp h
  rw [orError_ok hbytes, Arr.val_of_ofBytes (orError_ok hpk)]

/-- A key is read from a text that is decoded to its bytes. -/
theorem pubkeyFromHex_of_decode {hex : HexCodec} {s : String} {pk : Arr 32}
    (h : hex.decode s = some pk.val) : pubkeyFromHex hex s = .ok pk :=
  except_bind_ok.mpr ⟨pk.val, by rw [h, orError], by rw [Arr.ofBytes_val, orError]⟩

/-- The Hello shows this machine's own key, and the checks of the machine id let it pass. -/
structure PairDeps.ShowsOwnKey (deps : PairDeps) (theirs : PairHello) : Prop where
  expected : ∀ machineId, deps.expectedPeerId = some machineId → machineId = theirs.machineId
  other : theirs.machineId ≠ deps.machineId
  key : deps.ops.hex.decode theirs.pubkeyHex = some deps.publicKey.val

/-- **The check of a Hello** lets this machine's own key pass exactly under another machine id. -/
theorem PairDeps.checkHello_iff {deps : PairDeps} {theirs : PairHello} {pk : Arr 32} :
    deps.checkHello theirs = .ok pk ↔
      (∀ machineId, deps.expectedPeerId = some machineId → machineId = theirs.machineId) ∧
        theirs.machineId ≠ deps.machineId ∧ deps.ops.hex.decode theirs.pubkeyHex = some pk.val := by
  have hexpect : expectPeer deps.expectedPeerId theirs.machineId = .ok () ↔
      ∀ machineId, deps.expectedPeerId = some machineId → machineId = theirs.machineId := by
    unfold expectPeer
    cases deps.expectedPeerId with
    | none => simp
    | some expected => by_cases heq : expected = theirs.machineId <;> simp [heq]
  rw [← hexpect]
  constructor
  · intro h
    obtain ⟨⟨⟩, hpeer, h⟩ := except_bind_ok.mp h
    by_cases hself : theirs.machineId = deps.machineId
    · rw [if_pos hself] at h
      cases h
    · rw [if_neg hself] at h
      exact ⟨hpeer, hself, pubkeyFromHex_ok h⟩
  · rintro ⟨hpeer, hself, hkey⟩
    refine except_bind_ok.mpr ⟨(), hpeer, ?_⟩
    rw [if_neg hself]
    exact pubkeyFromHex_of_decode hkey

/-- A Confirm that passed is signed: somebody has signed the transcript with the peer's key. -/
theorem PairDeps.checkConfirm_ok {deps : PairDeps} {log : List PairSigning} {h : PairHellos}
    {peerConfirm : PairConfirm}
    (hcheck : deps.checkConfirm (idealVerify deps.ops log) h peerConfirm = .ok ()) :
    ∃ e ∈ log, deps.ops.hex.decode h.theirs.pubkeyHex = some e.key.val ∧ e.message = h.transcript := by
  unfold checkConfirm at hcheck
  cases haccepted : peerConfirm.accepted with
  | false =>
      rw [haccepted] at hcheck
      cases hcheck
  | true =>
      simp only [haccepted, Bool.not_true, Bool.false_eq_true, if_false] at hcheck
      obtain ⟨pk, sig, hpk, hverify⟩ := verifySignature_ok (mapError_ok hcheck)
      simp only [idealVerify, Bool.and_eq_true, List.any_eq_true, decide_eq_true_eq] at hverify
      obtain ⟨-, e, he, hkey, hmessage⟩ := hverify
      exact ⟨e, he, by rw [hkey, hpk], hmessage⟩

/-! ## The invariant -/

namespace Pairing

variable {deps : PairDeps} {w : Pairing}

/-- Somebody has signed the transcript with the key the peer showed. -/
def Signed (deps : PairDeps) (w : Pairing) (h : PairHellos) : Prop :=
  ∃ e ∈ w.log, deps.ops.hex.decode h.theirs.pubkeyHex = some e.key.val ∧ e.message = h.transcript

/-- What a saved entry stands for: the user has accepted, and it is the machine and the key of a
Hello that has passed the checks, with the transcript signed under that key. -/
structure Backed (deps : PairDeps) (w : Pairing) (peer : TrustedPeer) (h : PairHellos) : Prop where
  verdict : w.verdict = some true
  hellos : w.hellos = some h
  checked : ∃ pk, deps.checkHello h.theirs = .ok pk
  machineId : peer.machineId = h.theirs.machineId
  publicKeyHex : peer.publicKeyHex = h.theirs.pubkeyHex
  signed : w.Signed deps h

/-- An entry stays backed as signatures are added to the record. -/
theorem Backed.mono {w' : Pairing} {peer : TrustedPeer} {h : PairHellos} (hb : w.Backed deps peer h)
    (hverdict : w'.verdict = w.verdict) (hhellos : w'.hellos = w.hellos) (hlog : w.log ⊆ w'.log) :
    w'.Backed deps peer h where
  verdict := hverdict.trans hb.verdict
  hellos := hhellos.trans hb.hellos
  checked := hb.checked
  machineId := hb.machineId
  publicKeyHex := hb.publicKeyHex
  signed := by
    obtain ⟨e, he, hkey⟩ := hb.signed
    exact ⟨e, hlog he, hkey⟩

/-- **The invariant of a session**: at each stage, what has been heard, agreed to and verified by
then. -/
structure Inv (deps : PairDeps) (w : Pairing) : Prop where
  heard : ∀ h, w.stage.hellos = some h → w.hellos = some h ∧ ∃ pk, deps.checkHello h.theirs = .ok pk
  agreed : w.stage.agreed = true → w.verdict = some true
  verified : ∀ h, w.stage = .persisting h → w.Signed deps h
  unsaved : w.stage.isFinished = false → w.saved = none
  stored : ∀ peer, w.saved = some peer → ∃ h, w.Backed deps peer h
  foreign : ∀ e ∈ w.log, e.key ≠ deps.publicKey → e.signer = .other

/-- A session that has just been spawned has nothing to account for. -/
theorem Inv.start (deps : PairDeps) (trust : TrustedPeerStore) : (start trust).Inv deps where
  heard h hstage := by cases hstage
  agreed hstage := by cases hstage
  verified h hstage := by cases hstage
  unsaved _ := rfl
  stored peer hsaved := by cases hsaved
  foreign e he := by cases he

/-- A session that stops has all it had, and makes no entry. -/
theorem Inv.stop (h : w.Inv deps) (e : PairFailure) : (w.stop e).Inv deps where
  heard hellos hstage := by cases hstage
  agreed hstage := by cases hstage
  verified hellos hstage := by cases hstage
  unsaved hfinished := by cases hfinished
  stored peer hsaved := by
    obtain ⟨hellos, hbacked⟩ := h.stored peer hsaved
    exact ⟨hellos, hbacked.mono rfl rfl (List.Subset.refl _)⟩
  foreign := h.foreign

/-- What is sent, and what others do to the trust store, is nothing to it. -/
theorem Inv.bystander (h : w.Inv deps) (sent : List Bytes) (trust : TrustedPeerStore) :
    ({ w with sent := sent, trust := trust } : Pairing).Inv deps where
  heard := h.heard
  agreed := h.agreed
  verified := h.verified
  unsaved := h.unsaved
  stored peer hsaved := by
    obtain ⟨hellos, hbacked⟩ := h.stored peer hsaved
    exact ⟨hellos, hbacked.mono rfl rfl (List.Subset.refl _)⟩
  foreign := h.foreign

/-- More signatures, each under this machine's key or by somebody else. -/
theorem Inv.sign (h : w.Inv deps) {new : List PairSigning}
    (hnew : ∀ e ∈ new, e.key ≠ deps.publicKey → e.signer = .other) :
    ({ w with log := w.log ++ new } : Pairing).Inv deps := by
  constructor
  · exact h.heard
  · exact h.agreed
  · intro hellos hstage
    obtain ⟨e, he, hkey⟩ := h.verified hellos hstage
    exact ⟨e, List.mem_append_left _ he, hkey⟩
  · exact h.unsaved
  · intro peer hsaved
    obtain ⟨hellos, hbacked⟩ := h.stored peer hsaved
    exact ⟨hellos, hbacked.mono rfl rfl (List.subset_append_left _ _)⟩
  · intro e he
    rcases List.mem_append.mp he with he | he
    · exact h.foreign e he
    · exact hnew e he

/-- A session that has saved nothing and not agreed yet may take down a Hello, if it works with none
so far or with this one, and the user's verdict. -/
theorem Inv.record (h : w.Inv deps) (hsaved : w.saved = none) (hagreed : w.stage.agreed = false)
    {hellos : Option PairHellos} (hkept : ∀ hs, w.stage.hellos = some hs → hellos = w.hellos)
    (verdict : Option Bool) :
    ({ w with hellos := hellos, verdict := verdict } : Pairing).Inv deps where
  heard hs hstage := by
    obtain ⟨hheard, hchecked⟩ := h.heard hs hstage
    exact ⟨(hkept hs hstage).trans hheard, hchecked⟩
  agreed hstage := by
    rw [show w.stage.agreed = false from hagreed] at hstage
    cases hstage
  verified := h.verified
  unsaved := h.unsaved
  stored peer hpeer := by
    rw [show w.saved = none from hsaved] at hpeer
    cases hpeer
  foreign := h.foreign

/-- A session that has saved nothing moves on: what its next stage needs is there. -/
theorem Inv.moveOn (h : w.Inv deps) (hsaved : w.saved = none) {stage : PairStage}
    (heard : ∀ hellos, stage.hellos = some hellos →
      w.hellos = some hellos ∧ ∃ pk, deps.checkHello hellos.theirs = .ok pk)
    (agreed : stage.agreed = true → w.verdict = some true)
    (verified : ∀ hellos, stage = .persisting hellos → w.Signed deps hellos)
    (sent : List Bytes) (events : List PairEvent) :
    ({ w with stage := stage, sent := sent, events := events } : Pairing).Inv deps where
  heard := heard
  agreed := agreed
  verified := verified
  unsaved _ := hsaved
  stored peer hpeer := by
    have hnone : w.saved = some peer := hpeer
    rw [hsaved] at hnone
    cases hnone
  foreign := h.foreign

/-! ## Every step keeps it -/

/-- Sending our Hello hears, agrees to and saves nothing. -/
theorem Inv.connected (h : w.Inv deps) (hstage : w.stage = .connecting) (nonce : Arr 16) :
    (connected deps w nonce).Inv deps := by
  have hsaved : w.saved = none := h.unsaved (by rw [hstage]; rfl)
  unfold Pairing.connected
  split
  · exact h.stop _
  · refine h.moveOn hsaved ?_ ?_ ?_ _ _
    · intro hellos hnext
      cases hnext
    · intro hnext
      cases hnext
    · intro hellos hnext
      cases hnext

/-- The peer's Hello is recorded, and the session goes on with it if it passes. -/
theorem Inv.receiveHello (h : w.Inv deps) {ours : PairHello} (hstage : w.stage = .awaitsHello ours)
    (body : Bytes) : (receiveHello deps w ours body).Inv deps := by
  have hsaved : w.saved = none := h.unsaved (by rw [hstage]; rfl)
  have hrecorded : ∀ hellos, ({ w with hellos := hellos } : Pairing).Inv deps := by
    intro hellos
    refine h.record hsaved (by rw [hstage]; rfl) ?_ w.verdict
    intro hs hnext
    rw [hstage] at hnext
    cases hnext
  unfold Pairing.receiveHello
  split
  · exact h.stop _
  · next theirs _ =>
    split
    · exact (hrecorded (some ⟨ours, theirs⟩)).stop _
    · next pk hcheck =>
      refine (hrecorded (some ⟨ours, theirs⟩)).moveOn hsaved ?_ ?_ ?_ _ _
      · intro hellos hnext
        cases hnext
        exact ⟨rfl, pk, hcheck⟩
      · intro hnext
        cases hnext
      · intro hellos hnext
        cases hnext

/-- A Confirm that comes while the user is asked is kept, and nothing else changes. -/
theorem Inv.receiveEarly (h : w.Inv deps) {hellos : PairHellos} (hstage : w.stage = .deciding hellos)
    (body : Bytes) : (receiveEarly deps w hellos body).Inv deps := by
  have hsaved : w.saved = none := h.unsaved (by rw [hstage]; rfl)
  have hheard := h.heard hellos (by rw [hstage]; rfl)
  unfold Pairing.receiveEarly
  split
  · exact h.stop _
  · split
    · exact h.stop _
    · refine h.moveOn hsaved ?_ ?_ ?_ _ _
      · intro hs hnext
        cases hnext
        exact hheard
      · intro hnext
        cases hnext
      · intro hs hnext
        cases hnext

/-- The verdict is recorded and, if it is yes, the transcript signed. -/
theorem Inv.decided (h : w.Inv deps) {hellos : PairHellos}
    (hhellos : w.stage.hellos = some hellos) (hagreed : w.stage.agreed = false)
    (hfinished : w.stage.isFinished = false) (ourAccept : Bool) (early : Option PairConfirm) :
    (decided deps w hellos ourAccept early).Inv deps := by
  have hsaved : w.saved = none := h.unsaved hfinished
  have hsigned : ({ w with
      log := w.log ++ if ourAccept then [⟨.thisSession, deps.publicKey, hellos.transcript⟩] else [] }
        : Pairing).Inv deps := by
    -- what this session signs it signs with this machine's key
    refine h.sign fun e he hforeign => ?_
    cases ourAccept with
    | false => cases he
    | true =>
        rw [List.mem_singleton.mp he] at hforeign
        exact absurd rfl hforeign
  have htold := hsigned.record hsaved hagreed (fun _ _ => rfl) (some ourAccept)
  unfold Pairing.decided
  simp only
  split
  · exact htold.stop _
  · refine htold.moveOn hsaved ?_ ?_ ?_ _ _
    · intro hs hnext
      cases hnext
      exact htold.heard hellos hhellos
    · intro hnext
      rw [show ourAccept = true from hnext]
    · intro hs hnext
      cases hnext

/-- The peer's Confirm is checked: if it passes, somebody has signed the transcript with the key
shown. -/
theorem Inv.settle (h : w.Inv deps) {hellos : PairHellos} (hhellos : w.stage.hellos = some hellos)
    (hagreed : w.verdict = some true) (hfinished : w.stage.isFinished = false)
    (peerConfirm : PairConfirm) : (settle deps w hellos peerConfirm).Inv deps := by
  unfold Pairing.settle
  split
  · exact h.stop _
  · next hcheck =>
    refine h.moveOn (h.unsaved hfinished) ?_ ?_ ?_ _ _
    · intro hs hnext
      cases hnext
      exact h.heard hellos hhellos
    · intro _
      exact hagreed
    · intro hs hnext
      cases hnext
      exact PairDeps.checkConfirm_ok hcheck

/-- The entry is saved, or not: if it is, it is backed by what the session has seen. -/
theorem Inv.persist (h : w.Inv deps) {hellos : PairHellos} (hstage : w.stage = .persisting hellos)
    (now : ℕ) (fails : Option SaveFault) : (persist deps w hellos now fails).Inv deps := by
  obtain ⟨hhellos, hchecked⟩ := h.heard hellos (by rw [hstage]; rfl)
  have hverdict : w.verdict = some true := h.agreed (by rw [hstage]; rfl)
  have hsigned := h.verified hellos hstage
  unfold Pairing.persist
  split
  · exact h.stop _
  · next trusted htrusted =>
    have hbacked : w.Backed deps trusted hellos := by
      obtain ⟨pk, hpk, htrusted⟩ := except_bind_ok.mp htrusted
      cases htrusted
      exact ⟨hverdict, hhellos, hchecked, rfl, rfl, hsigned⟩
    -- the entry has been given to the store, whether the save succeeds or not
    split
    all_goals
      constructor
      · intro hs hnext
        cases hnext
      · intro hnext
        cases hnext
      · intro hs hnext
        cases hnext
      · intro hnext
        cases hnext
      · intro peer hpeer
        cases hpeer
        exact ⟨hellos, hbacked.mono rfl rfl (List.Subset.refl _)⟩
      · exact h.foreign

/-- Our Confirm is written, and the session goes on if it says yes. -/
theorem Inv.confirmed (h : w.Inv deps) {hellos : PairHellos} {ourAccept : Bool} {body : Bytes}
    {early : Option PairConfirm} (hstage : w.stage = .sending hellos ourAccept body early) :
    (confirmed deps w hellos ourAccept body early).Inv deps := by
  have hsent : ({ w with sent := w.sent ++ [body] } : Pairing).Inv deps :=
    h.bystander (w.sent ++ [body]) w.trust
  have hhellos : w.stage.hellos = some hellos := by rw [hstage]; rfl
  have hfinished : w.stage.isFinished = false := by rw [hstage]; rfl
  unfold Pairing.confirmed
  cases hyes : ourAccept with
  | false => exact hsent.stop _
  | true =>
      have hverdict : w.verdict = some true := h.agreed (by rw [hstage, hyes]; rfl)
      -- the peer's Confirm may have come before our user spoke
      cases early with
      | some confirm => exact hsent.settle hhellos hverdict hfinished confirm
      | none =>
          refine hsent.moveOn (h.unsaved hfinished) ?_ ?_ ?_ _ _
          · intro hs hnext
            cases hnext
            exact h.heard hellos hhellos
          · intro _
            exact hverdict
          · intro hs hnext
            cases hnext

/-- **One step** keeps the invariant, whatever the peer sends and whoever signs. -/
theorem Inv.step (h : w.Inv deps) (move : PairMove) : (w.step deps move).Inv deps := by
  cases move with
  | connected nonce =>
      simp only [Pairing.step]
      split
      · next hstage => exact h.connected hstage nonce
      · exact h
  | receive body =>
      simp only [Pairing.step]
      split
      · next hstage => exact h.receiveHello hstage body
      · next hstage => exact h.receiveEarly hstage body
      · next hellos hstage =>
        unfold receiveConfirm
        split
        · exact h.stop _
        · exact h.settle (by rw [hstage]; rfl) (h.agreed (by rw [hstage]; rfl)) (by rw [hstage]; rfl) _
      · exact h
  | verdict accept =>
      simp only [Pairing.step]
      split
      · next hstage =>
        exact h.decided (by rw [hstage]; rfl) (by rw [hstage]; rfl) (by rw [hstage]; rfl) accept none
      · next early hstage =>
        exact h.decided (by rw [hstage]; rfl) (by rw [hstage]; rfl) (by rw [hstage]; rfl) accept
          (some early)
      · exact h
  | verdictDropped =>
      simp only [Pairing.step]
      split
      · exact h.stop _
      · exact h.stop _
      · exact h
  | sent =>
      simp only [Pairing.step]
      split
      · next hstage => exact h.confirmed hstage
      · exact h
  | persist now fails =>
      simp only [Pairing.step]
      split
      · next hstage => exact h.persist hstage now fails
      · exact h
  | fail e =>
      simp only [Pairing.step]
      split
      · exact h
      · exact h.stop _
  | machineSigns message =>
      -- the entry is under our own key, so there is nothing to say about it
      refine h.sign fun e he hforeign => ?_
      rw [List.mem_singleton.mp he] at hforeign
      exact absurd rfl hforeign
  | otherSigns key message =>
      simp only [Pairing.step]
      split
      · exact h
      · refine h.sign fun e he _ => ?_
        rw [List.mem_singleton.mp he]
  | trustChanges trust => exact h.bystander w.sent trust

/-- **Every run** of a session keeps it, from the time it was spawned. -/
theorem Inv.after (deps : PairDeps) (trust : TrustedPeerStore) (moves : List PairMove) (n : ℕ) :
    (Run.after (Pairing.step deps) (Pairing.start trust) moves n).Inv deps :=
  Run.invariant (Inv.start deps trust) (fun _ _ _ h => h.step _) n

/-! ## What a saved entry proves -/

/-- The peer's Hello has come, and it is this one. -/
def Heard (w : Pairing) (theirs : PairHello) : Prop :=
  ∃ ours, w.hellos = some ⟨ours, theirs⟩

/-- **Possession is proved**: if an entry has been saved, the user has accepted, and someone else,
the holder of the key in the entry, has signed the transcript of this session. -/
def PossessionProved (deps : PairDeps) (w : Pairing) : Prop :=
  ∀ peer, w.saved = some peer → w.verdict = some true ∧ ∃ h pk, w.hellos = some h ∧
    peer.machineId = h.theirs.machineId ∧ peer.publicKeyHex = h.theirs.pubkeyHex ∧
    deps.ops.hex.decode peer.publicKeyHex = some pk.val ∧ pk ≠ deps.publicKey ∧
    (⟨.other, pk, h.transcript⟩ : PairSigning) ∈ w.log

/-- A session whose peer does not show our own key has the key's holder to thank for what it
saves. -/
theorem Inv.possessionProved (h : w.Inv deps) {theirs : PairHello} (hheard : w.Heard theirs)
    (hshows : ¬ deps.ShowsOwnKey theirs) : w.PossessionProved deps := by
  intro peer hsaved
  obtain ⟨hellos, hbacked⟩ := h.stored peer hsaved
  obtain ⟨ours, hours⟩ := hheard
  have htheirs : hellos.theirs = theirs := by
    rw [hbacked.hellos] at hours
    cases hours
    rfl
  -- the machine id has passed the checks, so the key that signed is not ours, and the signer another
  obtain ⟨e, he, hkey, hmessage⟩ := hbacked.signed
  obtain ⟨pk, hchecked⟩ := hbacked.checked
  obtain ⟨hexpected, hother, -⟩ := PairDeps.checkHello_iff.mp hchecked
  have hforeign : e.key ≠ deps.publicKey := by
    intro hown
    rw [htheirs] at hexpected hother hkey
    exact hshows ⟨hexpected, hother, by rw [hkey, hown]⟩
  have hsigner : e = ⟨.other, e.key, hellos.transcript⟩ := by
    rw [← h.foreign e he hforeign, ← hmessage]
  refine ⟨hbacked.verdict, hellos, e.key, hbacked.hellos, hbacked.machineId, hbacked.publicKeyHex,
    by rw [hbacked.publicKeyHex, hkey], hforeign, ?_⟩
  rw [← hsigner]
  exact he

end Pairing

/-! ## Our own key -/

/-- What is assumed of signatures and JSON to run a session: our signatures verify, and messages are
read back as they were written. -/
structure PairDeps.Lawful (deps : PairDeps) : Prop where
  onCurve : deps.ops.onCurve deps.publicKey = true
  verify_sign : ∀ message,
    deps.ops.verify deps.publicKey message (deps.ops.sign deps.signingKey message) = true
  json : ∀ message, ∃ body, deps.json.toJson message = .ok body ∧
    deps.json.fromJson body = .ok message

namespace Pairing

variable {deps : PairDeps} {w : Pairing}

/-- A Hello that was written is read as such. -/
theorem recvHello_eq {body : Bytes} {hello : PairHello}
    (h : deps.json.fromJson body = .ok (.hello hello)) : deps.json.recvHello body = .ok hello := by
  rw [PairJson.recvHello, PairJson.recvMsg, h]
  rfl

/-- A Confirm that was written is read as such. -/
theorem recvConfirm_eq {error : PairMessage → PairFailure} {body : Bytes} {confirm : PairConfirm}
    (h : deps.json.fromJson body = .ok (.confirm confirm)) :
    deps.json.recvConfirm error body = .ok confirm := by
  rw [PairJson.recvConfirm, PairJson.recvMsg, h]
  rfl

/-- **Our own Confirm passes as the peer's**, once it is made, if the peer shows our key. -/
theorem checkConfirm_ourConfirm (hlaw : deps.Lawful) {h : PairHellos} {log : List PairSigning}
    (hkey : deps.ops.hex.decode h.theirs.pubkeyHex = some deps.publicKey.val)
    (hlog : ⟨.thisSession, deps.publicKey, h.transcript⟩ ∈ log) :
    deps.checkConfirm (idealVerify deps.ops log) h (deps.ourConfirm h true) = .ok () := by
  have hverify : idealVerify deps.ops log deps.publicKey h.transcript
      (deps.ops.sign deps.signingKey h.transcript) = true := by
    rw [idealVerify, hlaw.verify_sign, Bool.true_and, List.any_eq_true]
    exact ⟨_, hlog, by simp⟩
  have hsig := verifySignature_signTranscript hkey hlaw.onCurve hverify
  simp only [PairDeps.checkConfirm, PairDeps.ourConfirm, Bool.not_true, Bool.false_eq_true, if_false,
    if_true, hsig]
  rfl

/-- The peer shows our own key and sends our own Confirm back to us. -/
def reflection (nonce : Arr 16) (hello confirm : Bytes) : List PairMove :=
  [.connected nonce, .receive hello, .verdict true, .sent, .receive confirm, .persist 0 none]

/-- **A reflected session saves our own key.** The Confirm that is accepted as the peer's is the one
that was sent. -/
theorem reflection_saves (hlaw : deps.Lawful) {theirs : PairHello}
    (hshows : deps.ShowsOwnKey theirs) (trust : TrustedPeerStore) (nonce : Arr 16) :
    ∃ hello confirm w, w = Run.after (step deps) (start trust) (reflection nonce hello confirm) 6 ∧
      w.Heard theirs ∧ confirm ∈ w.sent ∧
        ∃ peer, w.saved = some peer ∧ peer.publicKeyHex = theirs.pubkeyHex := by
  let h : PairHellos := ⟨deps.ourHello nonce, theirs⟩
  obtain ⟨ours, hours, -⟩ := hlaw.json (.hello (deps.ourHello nonce))
  obtain ⟨hello, -, hhello⟩ := hlaw.json (.hello theirs)
  obtain ⟨confirm, hconfirm, hback⟩ := hlaw.json (.confirm (deps.ourConfirm h true))
  have hcheck : deps.checkHello theirs = .ok deps.publicKey :=
    PairDeps.checkHello_iff.mpr ⟨hshows.expected, hshows.other, hshows.key⟩
  let peer : TrustedPeer :=
    ⟨theirs.machineId, theirs.displayName, theirs.pubkeyHex, fingerprintFor deps.ops deps.publicKey, 0⟩
  have htrusted : deps.trusted theirs 0 = .ok peer :=
    except_bind_ok.mpr ⟨deps.publicKey, pubkeyFromHex_of_decode hshows.key, rfl⟩
  -- the states between the moves
  let w₁ : Pairing := { start trust with
    stage := .awaitsHello (deps.ourHello nonce)
    sent := [ours] }
  let w₂ : Pairing := { w₁ with
    stage := .deciding h
    events := [deps.proposal h deps.publicKey]
    hellos := some h }
  let w₃ : Pairing := { w₂ with
    stage := .sending h true confirm none
    log := [⟨.thisSession, deps.publicKey, h.transcript⟩]
    verdict := some true }
  let w₄ : Pairing := { w₃ with stage := .awaitsConfirm h, sent := [ours, confirm] }
  let w₅ : Pairing := { w₄ with stage := .persisting h }
  let w₆ : Pairing := { w₅ with
    stage := .completed
    trust := (trust.upsert peer none).1
    saved := some peer
    events := w₅.events ++ [.completed peer] }
  have hconnected : (start trust).step deps (.connected nonce) = w₁ := by
    simp only [Pairing.step, start, connected, PairJson.sendMsg, hours, Except.mapError]
    rfl
  have hheard : w₁.step deps (.receive hello) = w₂ := by
    simp only [Pairing.step, receiveHello, recvHello_eq hhello, hcheck, w₁]
    rfl
  have hdecided : w₂.step deps (.verdict true) = w₃ := by
    simp only [Pairing.step, decided, PairJson.sendMsg, hconfirm, Except.mapError, w₂]
    rfl
  have hsent : w₃.step deps .sent = w₄ := rfl
  have hsettled : w₄.step deps (.receive confirm) = w₅ := by
    simp only [Pairing.step, receiveConfirm, recvConfirm_eq hback, settle, w₄]
    rw [checkConfirm_ourConfirm hlaw hshows.key (List.mem_singleton.mpr rfl)]
  have hsaved : w₅.step deps (.persist 0 none) = w₆ := by
    simp only [Pairing.step, persist, htrusted, w₅, h]
    rfl
  refine ⟨hello, confirm, w₆, ?_, ⟨_, rfl⟩, List.mem_cons_of_mem _ (List.mem_singleton.mpr rfl), peer,
    rfl, rfl⟩
  rw [← hsaved, ← hsettled, ← hsent, ← hdecided, ← hheard, ← hconnected]
  rfl

end Pairing

/-! ## Two sessions -/

namespace Sample

/-- A text, its characters marked and its end as well. -/
def writeText (s : String) : Bytes := (s.toList.flatMap fun c => 1 :: Bytes.toBe 4 c.toNat) ++ [0]

/-- The characters up to the end mark, and what follows. -/
def readChars : Bytes → Option (List Char × Bytes)
  | 0 :: rest => some ([], rest)
  | _ :: b₃ :: b₂ :: b₁ :: b₀ :: rest =>
      (readChars rest).map fun r => (Char.ofNat (Bytes.fromBe [b₃, b₂, b₁, b₀]) :: r.1, r.2)
  | _ => none

/-- The text up to the end mark, and what follows. -/
def readText (bs : Bytes) : Except String (String × Bytes) :=
  match readChars bs with
  | none => .error "EOF while parsing"
  | some (cs, rest) => .ok (String.ofList cs, rest)

/-- A text is read back, and what follows it is left. -/
theorem readText_writeText (s : String) (rest : Bytes) :
    readText (writeText s ++ rest) = .ok (s, rest) := by
  have hchars : ∀ cs : List Char,
      readChars ((cs.flatMap fun c => 1 :: Bytes.toBe 4 c.toNat) ++ 0 :: rest) = some (cs, rest) := by
    intro cs
    induction cs with
    | nil => rfl
    | cons c cs ih =>
        -- a character is below `2 ^ 32`, so four bytes hold it
        have hbytes : Char.ofNat (Bytes.fromBe (Bytes.toBe 4 c.toNat)) = c := by
          rw [Bytes.fromBe_toBe_of_lt, Char.ofNat_toNat]
          have := c.val.toNat_lt
          have hval : c.toNat = c.val.toNat := rfl
          omega
        rw [List.flatMap_cons]
        simp only [Bytes.toBe, List.nil_append, List.cons_append] at ih hbytes ⊢
        rw [readChars, ih, Option.map_some, hbytes]
        simp
  rw [readText, writeText, List.append_assoc, List.singleton_append, hchars]
  simp only [String.ofList_toList]

/-- Stand-in JSON for the messages of a session, which is read back as it was written. -/
def pairJson : PairJson where
  toJson
    | .hello h =>
        .ok (0 :: (writeText h.pubkeyHex ++ (writeText h.nonceHex ++ (writeText h.machineId ++
          writeText h.displayName))))
    | .confirm ⟨false, sigHex⟩ => .ok (1 :: writeText sigHex)
    | .confirm ⟨true, sigHex⟩ => .ok (2 :: writeText sigHex)
  fromJson
    | 0 :: bs => do
        let (pubkeyHex, bs) ← readText bs
        let (nonceHex, bs) ← readText bs
        let (machineId, bs) ← readText bs
        let (displayName, _) ← readText bs
        return .hello ⟨pubkeyHex, nonceHex, machineId, displayName⟩
    | 1 :: bs => do
        let (sigHex, _) ← readText bs
        return .confirm ⟨false, sigHex⟩
    | 2 :: bs => do
        let (sigHex, _) ← readText bs
        return .confirm ⟨true, sigHex⟩
    | _ => .error "EOF while parsing"

/-- The machine of the sample sessions, which accepts whoever comes. -/
def pairDeps : PairDeps where
  ops := ops
  json := pairJson
  machineId := "machine-a"
  signingKey := pad 32 [1]
  displayName := "alpha"
  expectedPeerId := none

/-- The libraries of the sample machine have what is asked of them. -/
theorem pairDeps_lawful : pairDeps.Lawful where
  onCurve := rfl
  verify_sign message := by simp [pairDeps, ops, PairDeps.publicKey]
  json message := by
    have hlast : ∀ s, readText (writeText s) = .ok (s, []) := by
      intro s
      simpa using readText_writeText s []
    cases message with
    | hello h =>
        refine ⟨_, rfl, ?_⟩
        simp only [pairDeps, pairJson, readText_writeText, hlast, bind, Except.bind]
        rfl
    | confirm c =>
        obtain ⟨accepted, sigHex⟩ := c
        cases accepted with
        | false =>
            refine ⟨_, rfl, ?_⟩
            simp only [pairDeps, pairJson, hlast, bind, Except.bind]
            rfl
        | true =>
            refine ⟨_, rfl, ?_⟩
            simp only [pairDeps, pairJson, hlast, bind, Except.bind]
            rfl

/-- A Hello of somebody else with the key of the sample machine. -/
def reflectedHello : PairHello where
  pubkeyHex := pairDeps.ops.hex.encode pairDeps.publicKey.val
  nonceHex := "00"
  machineId := "machine-m"
  displayName := "mallory"

/-- A Hello of another machine, with a key of its own. -/
def honestHello : PairHello where
  pubkeyHex := pairDeps.ops.hex.encode (pad 32 [2]).val
  nonceHex := "00"
  machineId := "machine-b"
  displayName := "beta"

/-- The nonce of the sample machine, in all its sessions. -/
def pairNonce : Arr 16 := pad 16 []

/-- The bytes of a message in that JSON. -/
def pairBytes (message : PairMessage) : Bytes :=
  match pairJson.toJson message with
  | .ok body => body
  | .error _ => []

/-- The two Hellos of the honest session, ours and that of the other machine. -/
def honestHellos : PairHellos := ⟨pairDeps.ourHello pairNonce, honestHello⟩

/-- A session with another machine, whose user is the faster one. -/
def honestSession : List PairMove :=
  [.connected pairNonce, .receive (pairBytes (.hello honestHello)),
    .otherSigns (pad 32 [2]) honestHellos.transcript,
    .receive (pairBytes (.confirm ⟨true, signTranscript ops (pad 32 [2]) honestHellos.transcript⟩)),
    .verdict true, .sent, .persist 0 none]

/-- The sample sessions start with nobody trusted and no file. -/
def unpaired : Pairing := Pairing.start ⟨.missing, []⟩

/-- The honest session, evaluated: an entry is saved. -/
theorem honestSession_facts :
    (Run.after (Pairing.step pairDeps) unpaired honestSession 7).saved.isSome = true ∧
      (Run.after (Pairing.step pairDeps) unpaired honestSession 7).hellos = some honestHellos := by
  decide +kernel

/-- The Confirm of the sample machine, made for the reflected Hello. -/
def reflectedConfirm : Bytes :=
  pairBytes (.confirm (pairDeps.ourConfirm ⟨pairDeps.ourHello pairNonce, reflectedHello⟩ true))

/-- The session in which our own key comes back to us. -/
def reflectedSession : List PairMove :=
  Pairing.reflection pairNonce (pairBytes (.hello reflectedHello)) reflectedConfirm

/-- The reflected session, evaluated: our own key is saved under another machine's id. -/
theorem reflectedSession_facts :
    ((Run.after (Pairing.step pairDeps) unpaired reflectedSession 6).trust.get "machine-m").map
        (·.publicKeyHex) = some (pairDeps.ops.hex.encode pairDeps.publicKey.val) ∧
      (Run.after (Pairing.step pairDeps) unpaired reflectedSession 6).saved.isSome = true ∧
      (Run.after (Pairing.step pairDeps) unpaired reflectedSession 6).sent.getLast? =
        some reflectedConfirm ∧
      ∀ e ∈ (Run.after (Pairing.step pairDeps) unpaired reflectedSession 6).log,
        e.signer = .thisSession := by
  decide +kernel

end Sample

/-! ## Whose key is saved -/

namespace Pairing

variable {deps : PairDeps}

/-- **Whose key a session saves.** Over every run of a session with this Hello, what is saved is
saved with the user's consent and a proof of possession by someone else, exactly if the Hello does
not show this machine's own key under another machine id. -/
theorem saved_key_was_proved (hlaw : deps.Lawful) (trust : TrustedPeerStore) (theirs : PairHello) :
    (∀ moves n, (Run.after (step deps) (start trust) moves n).Heard theirs →
      (Run.after (step deps) (start trust) moves n).PossessionProved deps) ↔
        ¬ deps.ShowsOwnKey theirs := by
  constructor
  · intro h hshows
    obtain ⟨hello, confirm, w, rfl, hheard, -, peer, hsaved, hpeer⟩ :=
      reflection_saves hlaw hshows trust ⟨List.replicate 16 0, List.length_replicate⟩
    -- the key that is saved is the one in the Hello, which is ours
    obtain ⟨-, -, pk, -, -, -, hpk, hforeign, -⟩ := h _ 6 hheard peer hsaved
    rw [hpeer, hshows.key] at hpk
    exact hforeign (Subtype.ext (Option.some.inj hpk)).symm
  · intro hshows moves n hheard
    exact (Inv.after deps trust moves n).possessionProved hheard hshows

/-- In a session with another machine the entry is saved, with its holder's signature. -/
theorem saved_key_was_proved_sample :
    (Run.after (step Sample.pairDeps) Sample.unpaired Sample.honestSession 7).saved.isSome = true ∧
      (Run.after (step Sample.pairDeps) Sample.unpaired Sample.honestSession 7).PossessionProved
        Sample.pairDeps := by
  obtain ⟨hsaved, hhellos⟩ := Sample.honestSession_facts
  have hshows : ¬ Sample.pairDeps.ShowsOwnKey Sample.honestHello := by
    intro h
    have hkey := h.key
    rw [Sample.honestHello, HexCodec.decode_encode] at hkey
    revert hkey
    decide
  exact ⟨hsaved, (saved_key_was_proved Sample.pairDeps_lawful ⟨.missing, []⟩ Sample.honestHello).mpr
    hshows Sample.honestSession 7 ⟨_, hhellos⟩⟩

/-- A peer under another name shows our own key, sends our own Confirm back, and is trusted with our
key, though nobody but this session has signed anything. -/
theorem own_key_saved_for_peer :
    ((Run.after (step Sample.pairDeps) Sample.unpaired Sample.reflectedSession 6).trust.get
        "machine-m").map (·.publicKeyHex) = some (Sample.pairDeps.ops.hex.encode Sample.pairDeps.publicKey.val) ∧
      (Run.after (step Sample.pairDeps) Sample.unpaired Sample.reflectedSession 6).sent.getLast? =
        some Sample.reflectedConfirm ∧
      (∀ e ∈ (Run.after (step Sample.pairDeps) Sample.unpaired Sample.reflectedSession 6).log,
        e.signer = .thisSession) ∧
      ¬ (Run.after (step Sample.pairDeps) Sample.unpaired Sample.reflectedSession 6).PossessionProved
        Sample.pairDeps := by
  obtain ⟨htrusted, hsaved, hsent, hlog⟩ := Sample.reflectedSession_facts
  refine ⟨htrusted, hsent, hlog, fun hproved => ?_⟩
  obtain ⟨peer, hpeer⟩ := Option.isSome_iff_exists.mp hsaved
  obtain ⟨_, _, _, _, _, _, _, _, hsigned⟩ := hproved peer hpeer
  cases hlog _ hsigned

end Pairing

end Synbad
