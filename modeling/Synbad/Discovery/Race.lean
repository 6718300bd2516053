import Synbad.Crypto.Framing
import Synbad.Discovery.Possession

/-! # The verdict and the peer's Confirm

Step 3 to step 5 of `run_session_inner`. The user's verdict is raced against the read of the peer's
Confirm: if the verdict comes first, the read is dropped wherever it is, and started again after our
Confirm has been written; if the Confirm comes first, it is kept until the user has spoken. A session
is modelled here with the stream it reads from, so that a read can be polled while bytes arrive and
dropped in the middle of a frame. What the verdict is, what the peer has sent and what stops the save
are fixed from outside; a run is the order in which all of it comes.

The outcome should not depend on that order. `Stands` says for each stage what it tells of the
outcome, and `Inv` adds that no byte of the stream is lost, however often a read is dropped; every
step keeps the two, and from every state the end can be reached. What is promised then fails in one
case only, a save that fails after its rename: nothing is announced, but the file has the entry
(`promised_iff`). -/

namespace Synbad

open Bytes (Arr)

/-- What comes from outside while a session decides, fixed for a run but not when it comes. -/
structure PairOutside where
  /-- What the user says: none if the sender of the verdict is dropped. -/
  verdict : Option Bool
  /-- `now_unix`, for the entry that is saved. -/
  now : ℕ
  /-- What stops the save of the entry, at which of its steps. -/
  fails : Option SaveFault

/-- A session with the stream it reads from, at whatever place of a frame. -/
structure PairRace where
  session : Pairing
  input : Receiver

/-- What happens next, in whatever order the machine and the network bring it. -/
inductive RaceMove where
  /-- The session is polled while bytes arrive in these pieces. -/
  | read (sizes : List ℕ)
  /-- The user has spoken, or the sender of the verdict is gone. -/
  | verdict
  /-- Our Confirm is written, as a whole. -/
  | sent
  /-- The trust store is locked for the session, which saves its entry then. -/
  | persist
  /-- Someone else writes the trust store, at any time. -/
  | trustChanges (trust : TrustedPeerStore)

/-- A move of the session itself, and not of those who share the store with it. -/
def RaceMove.isOwn : RaceMove → Bool
  | .trustChanges _ => false
  | _ => true

/-- A session waits for the peer's Confirm, and so has a read under way. -/
def PairStage.isReading : PairStage → Bool
  | .deciding _ => true
  | .awaitsConfirm _ => true
  | _ => false

namespace Pairing

variable (verify : Verifier) (deps : PairDeps) (w : Pairing) (h : PairHellos)

/-! ## The session under any verification -/

/-- `settle`, with this verification in place of the ideal one. -/
def settleBy (peerConfirm : PairConfirm) : Pairing :=
  match deps.checkConfirm verify h peerConfirm with
  | .error e => w.stop e
  | .ok () => { w with stage := .persisting h }

/-- `confirmed`, with this verification in place of the ideal one. -/
def confirmedBy (ourAccept : Bool) (body : Bytes) (early : Option PairConfirm) : Pairing :=
  let w := { w with sent := w.sent ++ [body] }
  if !ourAccept then w.stop .userDeclined
  else
    match early with
    | some confirm => settleBy verify deps w h confirm
    | none => { w with stage := .awaitsConfirm h }

/-- `receiveConfirm`, with this verification in place of the ideal one. -/
def receiveConfirmBy (body : Bytes) : Pairing :=
  match deps.json.recvConfirm .expectedConfirm body with
  | .error e => w.stop e
  | .ok confirm => settleBy verify deps w h confirm

/-- The end of the wait for the verdict, whether one has come or none will. -/
def told (early : Option PairConfirm) : Option Bool → Pairing
  | some ourAccept => decided deps w h ourAccept early
  | none => w.stop .confirmationDropped

/-- A message of the peer, in step 3 or step 4. -/
def hear (body : Bytes) : Pairing :=
  match w.stage with
  | .deciding h => receiveEarly deps w h body
  | .awaitsConfirm h => receiveConfirmBy verify deps w h body
  | _ => w

end Pairing

namespace PairRace

variable (aead : Aead) (deps : PairDeps) (outside : PairOutside) (r : PairRace)

/-- A poll of the read, if the session is at one. -/
def read (sizes : List ℕ) : PairRace :=
  if r.session.stage.isReading then
    let input := r.input.step aead (.recv sizes)
    match (r.input.endpoint.recv aead r.input.wire (sizes.map .data)).2.result with
    | none => ⟨r.session, input⟩
    | some (.error e) => ⟨r.session.stop (.transport e.message), input⟩
    | some (.ok body) => ⟨r.session.hear deps.ops.verify deps body, input⟩
  else r

/-- One step of a race; a move that is not the next one where the session stands changes nothing. -/
def step : RaceMove → PairRace
  | .read sizes => r.read aead deps sizes
  | .verdict =>
      match r.session.stage with
      -- the read is dropped here; what it has read stays in the stream
      | .deciding h => { r with session := r.session.told deps h none outside.verdict }
      | .awaitsVerdict h early =>
          { r with session := r.session.told deps h (some early) outside.verdict }
      | _ => r
  | .sent =>
      match r.session.stage with
      | .sending h ourAccept body early =>
          { r with session := r.session.confirmedBy deps.ops.verify deps h ourAccept body early }
      | _ => r
  | .persist =>
      match r.session.stage with
      | .persisting h => { r with session := r.session.persist deps h outside.now outside.fails }
      | _ => r
  | .trustChanges trust => { r with session := { r.session with trust := trust } }

end PairRace

namespace Pairing

variable {deps : PairDeps} {w : Pairing} {h : PairHellos}

/-- Every signature of the transcript that verifies has been made. -/
def Unforged (deps : PairDeps) (w : Pairing) (h : PairHellos) : Prop :=
  ∀ pk sig, deps.ops.verify pk h.transcript sig = true →
    ∃ e ∈ w.log, e.key = pk ∧ e.message = h.transcript

/-- Where no signature is forged, a Confirm is checked as `settle` does. -/
theorem settleBy_eq (hmade : w.Unforged deps h) (peerConfirm : PairConfirm) :
    settleBy deps.ops.verify deps w h peerConfirm = settle deps w h peerConfirm := by
  have hsame : ∀ pk sig, deps.ops.verify pk h.transcript sig =
      idealVerify deps.ops w.log pk h.transcript sig := by
    intro pk sig
    cases hverify : deps.ops.verify pk h.transcript sig with
    | false => rw [idealVerify, hverify, Bool.false_and]
    | true =>
        obtain ⟨e, he, hkey⟩ := hmade pk sig hverify
        rw [idealVerify, hverify, Bool.true_and, eq_comm, List.any_eq_true]
        exact ⟨e, he, decide_eq_true hkey⟩
  have hcheck : deps.checkConfirm deps.ops.verify h peerConfirm =
      deps.checkConfirm (idealVerify deps.ops w.log) h peerConfirm := by
    simp only [PairDeps.checkConfirm, verifySignature, hsame]
  have hsettle : settle deps w h peerConfirm =
      settleBy (idealVerify deps.ops w.log) deps w h peerConfirm := rfl
  rw [hsettle, settleBy, settleBy, hcheck]

/-- So is the end of our write, after which the peer's Confirm may be in hand. -/
theorem confirmedBy_eq (hmade : w.Unforged deps h) (ourAccept : Bool) (body : Bytes)
    (early : Option PairConfirm) : confirmedBy deps.ops.verify deps w h ourAccept body early =
      confirmed deps w h ourAccept body early := by
  have hsent : ({ w with sent := w.sent ++ [body] } : Pairing).Unforged deps h := hmade
  unfold confirmedBy confirmed
  cases early with
  | none => rfl
  | some confirm => simp only [settleBy_eq hsent]

/-- So is a message while the peer's Confirm is waited for. -/
theorem receiveConfirmBy_eq (hmade : w.Unforged deps h) (body : Bytes) :
    receiveConfirmBy deps.ops.verify deps w h body = receiveConfirm deps w h body := by
  unfold receiveConfirmBy receiveConfirm
  cases deps.json.recvConfirm .expectedConfirm body with
  | error e => rfl
  | ok confirm => exact settleBy_eq hmade confirm

end Pairing

/-- **A race is a run of its session**: where no signature is forged, what a step does to the session
is one of the session's own moves, or nothing. -/
theorem PairRace.step_session (aead : Aead) (deps : PairDeps) (outside : PairOutside) (r : PairRace)
    (hmade : ∀ h, r.session.stage.hellos = some h → r.session.Unforged deps h) (move : RaceMove) :
    (r.step aead deps outside move).session = r.session ∨
      ∃ own, (r.step aead deps outside move).session = r.session.step deps own := by
  cases move with
  | read sizes =>
      by_cases hreading : r.session.stage.isReading = true
      · simp only [step, read, hreading, if_true]
        split
        · exact Or.inl rfl
        · next e _ =>
          -- the transport fails
          refine Or.inr ⟨.fail e.message, ?_⟩
          have hlive : r.session.stage.isFinished = false := by
            cases hstage : r.session.stage <;> first | rfl | (rw [hstage] at hreading; cases hreading)
          simp only [Pairing.step, hlive, Bool.false_eq_true, if_false]
        · next body _ =>
          refine Or.inr ⟨.receive body, ?_⟩
          cases hstage : r.session.stage with
          | deciding h => simp only [Pairing.hear, Pairing.step, hstage]
          | awaitsConfirm h =>
              simp only [Pairing.hear, Pairing.step, hstage]
              exact Pairing.receiveConfirmBy_eq (hmade h (by rw [hstage]; rfl)) body
          | _ =>
              rw [hstage] at hreading
              cases hreading
      · simp only [step, read, if_neg hreading]
        exact Or.inl trivial
  | verdict =>
      simp only [step]
      split
      · next h hstage =>
        cases outside.verdict with
        | none => exact Or.inr ⟨.verdictDropped, by simp only [Pairing.told, Pairing.step, hstage]⟩
        | some accept => exact Or.inr ⟨.verdict accept, by simp only [Pairing.told, Pairing.step, hstage]⟩
      · next h early hstage =>
        cases outside.verdict with
        | none => exact Or.inr ⟨.verdictDropped, by simp only [Pairing.told, Pairing.step, hstage]⟩
        | some accept => exact Or.inr ⟨.verdict accept, by simp only [Pairing.told, Pairing.step, hstage]⟩
      · exact Or.inl rfl
  | sent =>
      simp only [step]
      split
      · next h ourAccept body early hstage =>
        refine Or.inr ⟨.sent, ?_⟩
        simp only [Pairing.step, hstage]
        exact Pairing.confirmedBy_eq (hmade h (by rw [hstage]; rfl)) ourAccept body early
      · exact Or.inl rfl
  | persist =>
      simp only [step]
      split
      · next h hstage =>
        exact Or.inr ⟨.persist outside.now outside.fails, by simp only [Pairing.step, hstage]⟩
      · exact Or.inl rfl
  | trustChanges trust => exact Or.inr ⟨.trustChanges trust, rfl⟩

/-! ## What the outcome should depend on -/

/-- The peer's Confirm: the next message, if it is one. -/
def PairDeps.peerConfirm (deps : PairDeps) : List Bytes → Option PairConfirm
  | [] => none
  | body :: _ =>
      match deps.json.fromJson body with
      | .ok (.confirm confirm) => some confirm
      | _ => none

/-- Our user has accepted, and the peer's Confirm says yes and is signed by the key of its Hello. -/
structure PairOutside.Agrees (outside : PairOutside) (deps : PairDeps) (h : PairHellos)
    (left : List Bytes) : Prop where
  verdict : outside.verdict = some true
  confirm : ∃ confirm, deps.peerConfirm left = some confirm ∧ confirm.accepted = true ∧
    verifySignature deps.ops deps.ops.verify h.theirs.pubkeyHex h.transcript confirm.sigHex = .ok ()

/-! ## What a step leaves alone -/

namespace Pairing

variable {verify : Verifier} {deps : PairDeps} {w w' : Pairing} {h : PairHellos}

/-- A step that neither announces a completion nor makes one, and leaves the trust store alone. -/
structure Quiet (w w' : Pairing) : Prop where
  events : ∀ peer, PairEvent.completed peer ∈ w'.events → PairEvent.completed peer ∈ w.events
  stage : w'.stage = .completed → w.stage = .completed
  trust : w'.trust = w.trust

/-- Doing nothing is quiet. -/
theorem Quiet.refl (w : Pairing) : w.Quiet w := ⟨fun _ => id, id, rfl⟩

/-- Two quiet steps one after the other are quiet. -/
theorem Quiet.trans {w'' : Pairing} (h : w.Quiet w') (h' : w'.Quiet w'') : w.Quiet w'' :=
  ⟨fun peer hpeer => h.events peer (h'.events peer hpeer), fun hstage => h.stage (h'.stage hstage),
    h'.trust.trans h.trust⟩

/-- A step after which the session is at some other stage, with an event that is no completion. -/
theorem quiet_of_events {e : PairEvent} (hevents : w'.events = w.events ++ [e])
    (he : ∀ peer, e ≠ .completed peer) (hstage : w'.stage ≠ .completed)
    (htrust : w'.trust = w.trust) : w.Quiet w' := by
  refine ⟨fun peer hpeer => ?_, fun hcompleted => absurd hcompleted hstage, htrust⟩
  rw [hevents] at hpeer
  rcases List.mem_append.mp hpeer with hpeer | hpeer
  · exact hpeer
  · exact absurd (List.mem_singleton.mp hpeer).symm (he peer)

/-- A step to some other stage, without an event. -/
theorem quiet_of_stage (hevents : w'.events = w.events) (hstage : w'.stage ≠ .completed)
    (htrust : w'.trust = w.trust) : w.Quiet w' :=
  ⟨fun _ hpeer => hevents ▸ hpeer, fun hcompleted => absurd hcompleted hstage, htrust⟩

/-- Ending with an error is quiet. -/
theorem quiet_stop (w : Pairing) (e : PairFailure) : w.Quiet (w.stop e) :=
  quiet_of_events rfl (fun _ => by simp) (by simp [stop]) rfl

/-- Sending our Hello is quiet. -/
theorem quiet_connected (nonce : Arr 16) : w.Quiet (connected deps w nonce) := by
  unfold connected
  split
  · exact quiet_stop w _
  · exact quiet_of_stage rfl (by simp) rfl

/-- Reading the peer's Hello is quiet. -/
theorem quiet_receiveHello (ours : PairHello) (body : Bytes) :
    w.Quiet (receiveHello deps w ours body) := by
  unfold receiveHello
  split
  · exact quiet_stop w _
  · simp only
    split
    · exact quiet_of_events rfl (fun _ => by simp) (by simp [stop]) rfl
    · exact quiet_of_events rfl (fun _ => by simp [PairDeps.proposal]) (by simp) rfl

/-- Taking the peer's Confirm early is quiet. -/
theorem quiet_receiveEarly (body : Bytes) : w.Quiet (receiveEarly deps w h body) := by
  unfold receiveEarly
  split
  · exact quiet_stop w _
  · split
    · exact quiet_stop w _
    · exact quiet_of_stage rfl (by simp) rfl

/-- Hearing the verdict is quiet. -/
theorem quiet_decided (ourAccept : Bool) (early : Option PairConfirm) :
    w.Quiet (decided deps w h ourAccept early) := by
  unfold decided
  simp only
  split
  · exact quiet_of_events rfl (fun _ => by simp) (by simp [stop]) rfl
  · exact quiet_of_stage rfl (by simp) rfl

/-- The end of the wait for the verdict is quiet, whichever it is. -/
theorem quiet_told (early : Option PairConfirm) (verdict : Option Bool) :
    w.Quiet (told deps w h early verdict) := by
  cases verdict with
  | none => exact quiet_stop w _
  | some ourAccept => exact quiet_decided ourAccept early

/-- Checking the peer's Confirm is quiet: nothing is saved yet. -/
theorem quiet_settleBy (w : Pairing) (peerConfirm : PairConfirm) :
    w.Quiet (settleBy verify deps w h peerConfirm) := by
  unfold settleBy
  split
  · exact quiet_stop w _
  · exact quiet_of_stage rfl (by simp) rfl

/-- Reading the peer's Confirm is quiet. -/
theorem quiet_receiveConfirmBy (body : Bytes) : w.Quiet (receiveConfirmBy verify deps w h body) := by
  unfold receiveConfirmBy
  split
  · exact quiet_stop w _
  · exact quiet_settleBy w _

/-- The end of our write is quiet. -/
theorem quiet_confirmedBy (ourAccept : Bool) (body : Bytes) (early : Option PairConfirm) :
    w.Quiet (confirmedBy verify deps w h ourAccept body early) := by
  have hsent : w.Quiet { w with sent := w.sent ++ [body] } := ⟨fun _ => id, id, rfl⟩
  unfold confirmedBy
  cases ourAccept with
  | false => exact hsent.trans (quiet_stop _ _)
  | true =>
      cases early with
      | none => exact quiet_of_stage rfl (by simp) rfl
      | some confirm => exact hsent.trans (quiet_settleBy _ confirm)

/-- A message of the peer is heard quietly. -/
theorem quiet_hear (body : Bytes) : w.Quiet (w.hear verify deps body) := by
  unfold hear
  split
  · exact quiet_receiveEarly body
  · exact quiet_receiveConfirmBy body
  · exact Quiet.refl w

/-- A completion is announced exactly by a session that is complete. -/
def Announced (w : Pairing) : Prop :=
  (∃ peer, PairEvent.completed peer ∈ w.events) ↔ w.stage = .completed

/-- A session that is not complete goes on quietly, and has announced nothing. -/
theorem Announced.quiet (h : w.Announced) (hstage : w.stage ≠ .completed) (hquiet : w.Quiet w') :
    w'.Announced := by
  constructor
  · rintro ⟨peer, hpeer⟩
    exact absurd (h.mp ⟨peer, hquiet.events peer hpeer⟩) hstage
  · intro hcompleted
    exact absurd (hquiet.stage hcompleted) hstage

/-- The save announces the completion, or stops the session. -/
theorem Announced.persist (hw : w.Announced) (hstage : w.stage ≠ .completed) (now : ℕ)
    (fails : Option SaveFault) : (persist deps w h now fails).Announced := by
  unfold Pairing.persist
  split
  · exact hw.quiet hstage (quiet_stop w _)
  · next trusted htrusted =>
    cases fails with
    | none => exact ⟨fun _ => rfl, fun _ => ⟨trusted, List.mem_append_right _ (List.mem_singleton_self _)⟩⟩
    | some fault =>
        -- the trust store is not what is announced
        constructor
        · rintro ⟨peer, hpeer⟩
          have hold := (quiet_stop w (.persisting (.io fault.path fault.source))).events peer hpeer
          exact absurd (hw.mp ⟨peer, hold⟩) hstage
        · intro hcompleted
          cases hcompleted

/-- **One step** of a session keeps it, while the session runs. -/
theorem Announced.step (h : w.Announced) (move : PairMove) : (w.step deps move).Announced := by
  by_cases hstage : w.stage = .completed
  · -- it stays complete, and says no more
    have hsame : (w.step deps move).stage = w.stage ∧ (w.step deps move).events = w.events := by
      cases move <;> simp only [Pairing.step, hstage, PairStage.isFinished, if_true, and_self]
      split <;> simp [hstage]
    rw [Announced, hsame.1, hsame.2]
    exact h
  · cases move with
    | connected nonce =>
        -- the one move that announces a completion makes one
        simp only [Pairing.step]
        split
        · exact h.quiet hstage (quiet_connected nonce)
        · exact h
    | receive body =>
        simp only [Pairing.step]
        split
        · exact h.quiet hstage (quiet_receiveHello _ body)
        · exact h.quiet hstage (quiet_receiveEarly body)
        · exact h.quiet hstage (@quiet_receiveConfirmBy (idealVerify deps.ops w.log) _ _ _ body)
        · exact h
    | verdict accept =>
        simp only [Pairing.step]
        split
        · exact h.quiet hstage (quiet_decided accept none)
        · exact h.quiet hstage (quiet_decided accept _)
        · exact h
    | verdictDropped =>
        simp only [Pairing.step]
        split
        · exact h.quiet hstage (quiet_stop w _)
        · exact h.quiet hstage (quiet_stop w _)
        · exact h
    | sent =>
        simp only [Pairing.step]
        split
        · exact h.quiet hstage (@quiet_confirmedBy (idealVerify deps.ops w.log) _ _ _ _ _ _)
        · exact h
    | persist now fails =>
        simp only [Pairing.step]
        split
        -- of the other moves each is quiet, or finds the session where it cannot do anything
        · exact h.persist hstage now fails
        · exact h
    | fail e =>
        simp only [Pairing.step]
        split
        · exact h
        · exact h.quiet hstage (quiet_stop w _)
    | machineSigns message => exact h.quiet hstage ⟨fun _ => id, id, rfl⟩
    | otherSigns key message =>
        simp only [Pairing.step]
        split
        · exact h
        · exact h.quiet hstage ⟨fun _ => id, id, rfl⟩
    | trustChanges trust => exact h

/-- In every run of a session a completion has been announced exactly if the session is complete. -/
theorem Announced.after (deps : PairDeps) (trust : TrustedPeerStore) (moves : List PairMove) (n : ℕ) :
    (Run.after (Pairing.step deps) (Pairing.start trust) moves n).Announced := by
  refine Run.invariant ?_ (fun _ _ _ h => h.step _) n
  constructor
  · rintro ⟨peer, hpeer⟩
    cases hpeer
  · intro hstage
    cases hstage

end Pairing

/-! ## The read -/

/-- **A poll of a read**: nothing is lost and nothing complete, or the next message is. Once a byte
has come for each that was sent, it is complete. -/
theorem Receiver.Expects.poll {aead : Aead} (hlaw : aead.Lawful maxFrameBytes) {got left : List Bytes}
    {input : Receiver} (h : input.Expects aead got left) (sizes : List ℕ) :
    ((input.step aead (.recv sizes)).Expects aead got left ∧
        (input.endpoint.recv aead input.wire (sizes.map .data)).2.result = none ∧
        (left = [] ∨ sizes.length < input.wire.length)) ∨
      ∃ body rest, left = body :: rest ∧
        (input.step aead (.recv sizes)).Expects aead (got ++ [body]) rest ∧
        (input.endpoint.recv aead input.wire (sizes.map .data)).2.result = some (.ok body) := by
  have hreturned : (input.step aead (.recv sizes)).returned = got.map .ok ++
      (input.endpoint.recv aead input.wire (sizes.map .data)).2.result.toList := by
    rw [← h.returned]
    rfl
  -- what the call returned is what its result adds to it
  have hwaits : (input.step aead (.recv sizes)).Expects aead got left →
      (input.endpoint.recv aead input.wire (sizes.map .data)).2.result = none := by
    intro hnext
    rw [hnext.returned] at hreturned
    exact Option.toList_eq_nil_iff.mp (List.self_eq_append_right.mp hreturned)
  cases left with
  | nil => exact Or.inl ⟨h.recv_nothing sizes, hwaits (h.recv_nothing sizes), Or.inl rfl⟩
  | cons body rest =>
      rcases h.recv hlaw sizes with ⟨hnext, hshort⟩ | hnext
      · exact Or.inl ⟨hnext, hwaits hnext, Or.inr hshort⟩
      · refine Or.inr ⟨body, rest, rfl, hnext, ?_⟩
        rw [hnext.returned, List.map_append] at hreturned
        exact Option.toList_eq_singleton_iff.mp (List.append_cancel_left hreturned).symm

/-- A stream nothing has been read from, with all its frames to come, is at its first message. -/
theorem Receiver.expects_start (aead : Aead) (sendKey recvKey sendPrefix recvPrefix : Bytes)
    {payloads : List Bytes} (hcounter : payloads.length ≤ maxCounter)
    (hsizes : ∀ p ∈ payloads, p.length ≤ maxFrameBytes) :
    (⟨.whole (.new sendKey recvKey sendPrefix recvPrefix), framesFrom aead recvKey recvPrefix 0 payloads,
      []⟩ : Receiver).Expects aead [] payloads where
  returned := rfl
  waiting := Or.inl PendingFrame.inHeader_default
  counter := (Nat.zero_add _).le.trans hcounter
  sizes := hsizes
  stream := rfl

/-! ## The invariant -/

/-- The peer's Confirm has not been taken from the stream. -/
def PairStage.unread : PairStage → Bool
  | .deciding _ => true
  | .sending _ _ _ none => true
  | .awaitsConfirm _ => true
  | _ => false

/-- **What a stage says of the outcome**, with what the user says and the messages the peer has sent
since its Hello. -/
def PairStage.Stands (deps : PairDeps) (outside : PairOutside) (h : PairHellos) (left : List Bytes) :
    PairStage → Prop
  | .deciding hellos => hellos = h
  | .awaitsVerdict hellos early => hellos = h ∧ deps.peerConfirm left = some early
  | .sending hellos ourAccept _ early =>
      hellos = h ∧ outside.verdict = some ourAccept ∧
        ∀ confirm, early = some confirm → deps.peerConfirm left = some confirm
  | .awaitsConfirm hellos => hellos = h ∧ outside.verdict = some true
  | .persisting hellos => hellos = h ∧ outside.Agrees deps h left
  | .completed => outside.Agrees deps h left ∧ outside.fails = none
  | .failed _ => ¬ (outside.Agrees deps h left ∧ outside.fails = none)
  | _ => False

section Stands

variable {deps : PairDeps} {outside : PairOutside} {w : Pairing} {h : PairHellos} {left : List Bytes}

/-- A message is read as a Confirm exactly if it is the peer's Confirm. -/
theorem PairDeps.peerConfirm_iff {error : PairMessage → PairFailure} {body : Bytes}
    {rest : List Bytes} {confirm : PairConfirm} :
    deps.peerConfirm (body :: rest) = some confirm ↔
      deps.json.recvConfirm error body = .ok confirm := by
  simp only [peerConfirm, PairJson.recvConfirm, PairJson.recvMsg]
  cases deps.json.fromJson body with
  | error e => simp [Except.mapError, bind, Except.bind]
  | ok message =>
      cases message with
      | hello hello => simp [Except.mapError, bind, Except.bind, throw, throwThe, MonadExceptOf.throw]
      | confirm got => simp [Except.mapError, bind, Except.bind, pure, Except.pure]

/-- Where a message is not read as a Confirm, nothing is agreed on. -/
theorem PairOutside.not_agrees_of_error {error : PairMessage → PairFailure} {body : Bytes}
    {rest : List Bytes} {e : PairFailure} (hread : deps.json.recvConfirm error body = .error e) :
    ¬ outside.Agrees deps h (body :: rest) := by
  rintro ⟨-, confirm, hconfirm, -⟩
  rw [PairDeps.peerConfirm_iff.mp hconfirm] at hread
  cases hread

/-- The two agree exactly if our user says yes and the peer's Confirm passes its checks. -/
theorem PairOutside.agrees_iff {confirm : PairConfirm} (h' : deps.peerConfirm left = some confirm) :
    outside.Agrees deps h left ↔
      outside.verdict = some true ∧ deps.checkConfirm deps.ops.verify h confirm = .ok () := by
  have hcheck : deps.checkConfirm deps.ops.verify h confirm = .ok () ↔ confirm.accepted = true ∧
      verifySignature deps.ops deps.ops.verify h.theirs.pubkeyHex h.transcript confirm.sigHex =
        .ok () := by
    unfold PairDeps.checkConfirm
    cases confirm.accepted with
    | false => simp
    | true =>
        cases verifySignature deps.ops deps.ops.verify h.theirs.pubkeyHex h.transcript
          confirm.sigHex with
        | error e => simp [Except.mapError]
        | ok u => simp [Except.mapError]
  rw [hcheck]
  constructor
  · rintro ⟨hverdict, confirm', hconfirm, haccepted⟩
    rw [h'] at hconfirm
    cases hconfirm
    exact ⟨hverdict, haccepted⟩
  · rintro ⟨hverdict, haccepted⟩
    exact ⟨hverdict, confirm, h', haccepted⟩

namespace Pairing

/-- A Confirm that is taken early is the next message, as the stage says. -/
theorem stands_receiveEarly (body : Bytes) (rest : List Bytes) :
    (receiveEarly deps w h body).stage.Stands deps outside h (body :: rest) := by
  unfold receiveEarly
  split
  · next e hread => exact fun h => PairOutside.not_agrees_of_error hread h.1
  · next confirm hread =>
    have hconfirm : deps.peerConfirm (body :: rest) = some confirm :=
      PairDeps.peerConfirm_iff.mpr hread
    split
    · -- the peer declines: the one Confirm there is does not accept
      next hdeclined =>
      rintro ⟨⟨-, confirm', hconfirm', haccepted, -⟩, -⟩
      rw [hconfirm] at hconfirm'
      cases hconfirm'
      rw [haccepted] at hdeclined
      cases hdeclined
    · exact ⟨rfl, hconfirm⟩

/-- What the check of the peer's Confirm comes to, if our user has accepted. -/
theorem stands_settleBy (hverdict : outside.verdict = some true) {confirm : PairConfirm}
    (hconfirm : deps.peerConfirm left = some confirm) :
    (settleBy deps.ops.verify deps w h confirm).stage.Stands deps outside h left := by
  have hiff : outside.Agrees deps h left ↔ _ := PairOutside.agrees_iff hconfirm
  unfold settleBy
  split
  · next hcheck =>
    rintro ⟨hagrees, -⟩
    rw [(hiff.mp hagrees).2] at hcheck
    cases hcheck
  · next hcheck => exact ⟨rfl, hiff.mpr ⟨hverdict, hcheck⟩⟩

/-- A Confirm that is read is the next message, and is checked as such. -/
theorem stands_receiveConfirmBy (hverdict : outside.verdict = some true) (body : Bytes)
    (rest : List Bytes) :
    (receiveConfirmBy deps.ops.verify deps w h body).stage.Stands deps outside h (body :: rest) := by
  unfold receiveConfirmBy
  split
  · next e hread => exact fun h => PairOutside.not_agrees_of_error hread h.1
  · next confirm hread => exact stands_settleBy hverdict (PairDeps.peerConfirm_iff.mpr hread)

/-- What the verdict comes to, with the peer's Confirm in hand or not. -/
theorem stands_told (hjson : ∀ confirm, ∃ body, deps.json.toJson (.confirm confirm) = .ok body)
    {early : Option PairConfirm}
    (hearly : ∀ confirm, early = some confirm → deps.peerConfirm left = some confirm) :
    (told deps w h early outside.verdict).stage.Stands deps outside h left := by
  cases hverdict : outside.verdict with
  | none =>
      -- a verdict that was dropped is no consent
      rintro ⟨⟨hyes, -⟩, -⟩
      rw [hverdict] at hyes
      cases hyes
  | some ourAccept =>
      obtain ⟨body, hbody⟩ := hjson (deps.ourConfirm h ourAccept)
      simp only [told, decided, PairJson.sendMsg, hbody, Except.mapError]
      exact ⟨rfl, hverdict, hearly⟩

/-- What the end of our write comes to, with the peer's Confirm in hand or not. -/
theorem stands_confirmedBy {ourAccept : Bool} (hverdict : outside.verdict = some ourAccept)
    (body : Bytes) {early : Option PairConfirm}
    (hearly : ∀ confirm, early = some confirm → deps.peerConfirm left = some confirm) :
    (confirmedBy deps.ops.verify deps w h ourAccept body early).stage.Stands deps outside h left := by
  unfold confirmedBy
  cases ourAccept with
  | false =>
      rintro ⟨⟨hyes, -⟩, -⟩
      rw [hverdict] at hyes
      cases hyes
  | true =>
      cases early with
      | none => exact ⟨rfl, hverdict⟩
      | some confirm => exact stands_settleBy hverdict (hearly confirm rfl)

/-- A key under which a signature has verified makes an entry. -/
theorem trusted_of_agrees (hagrees : outside.Agrees deps h left) (now : ℕ) :
    ∃ peer, deps.trusted h.theirs now = .ok peer := by
  obtain ⟨-, confirm, -, -, hsigned⟩ := hagrees
  obtain ⟨pk, sig, hpk, -⟩ := verifySignature_ok hsigned
  exact ⟨_, except_bind_ok.mpr ⟨pk, pubkeyFromHex_of_decode hpk, rfl⟩⟩

/-- What the save comes to, if both have agreed. -/
theorem stands_persist (hagrees : outside.Agrees deps h left) :
    (persist deps w h outside.now outside.fails).stage.Stands deps outside h left := by
  obtain ⟨peer, hpeer⟩ := trusted_of_agrees hagrees outside.now
  unfold persist
  simp only [hpeer]
  cases hfails : outside.fails with
  | none => exact ⟨hagrees, hfails⟩
  | some fault =>
      -- both agree, and the entry is in memory, yet the session fails
      rintro ⟨-, hnone⟩
      rw [hfails] at hnone
      cases hnone

/-! Once the peer's Confirm has been taken from the stream, no stage waits for it again. -/

/-- A Confirm that is taken early has been read. -/
theorem unread_receiveEarly (body : Bytes) : (receiveEarly deps w h body).stage.unread = false := by
  unfold receiveEarly
  split
  · rfl
  · split <;> rfl

/-- A Confirm that is checked has been read. -/
theorem unread_settleBy {verify : Verifier} (confirm : PairConfirm) :
    (settleBy verify deps w h confirm).stage.unread = false := by
  unfold settleBy
  split <;> rfl

/-- A Confirm that comes when it is waited for has been read. -/
theorem unread_receiveConfirmBy {verify : Verifier} (body : Bytes) :
    (receiveConfirmBy verify deps w h body).stage.unread = false := by
  unfold receiveConfirmBy
  split
  · rfl
  · exact unread_settleBy _

/-- A Confirm in hand stays read when the user has spoken. -/
theorem unread_told_some (early : PairConfirm) (verdict : Option Bool) :
    (told deps w h (some early) verdict).stage.unread = false := by
  unfold told
  split
  · simp only [decided]
    split <;> rfl
  · rfl

/-- A Confirm in hand stays read when ours has been written. -/
theorem unread_confirmedBy_some {verify : Verifier} (ourAccept : Bool) (body : Bytes)
    (confirm : PairConfirm) :
    (confirmedBy verify deps w h ourAccept body (some confirm)).stage.unread = false := by
  unfold confirmedBy
  split
  · rfl
  · exact unread_settleBy _

/-- A session that saves has read the peer's Confirm. -/
theorem unread_persist (now : ℕ) (fails : Option SaveFault) :
    (persist deps w h now fails).stage.unread = false := by
  unfold persist
  split
  · rfl
  · split <;> rfl

end Pairing

end Stands

namespace PairRace

variable {aead : Aead} {deps : PairDeps} {outside : PairOutside} {h : PairHellos}
variable {got left : List Bytes} {r : PairRace}

/-- **The invariant of a race**: `got` was read from the stream before, and `left` is what the peer
has sent since its Hello. -/
structure Inv (aead : Aead) (deps : PairDeps) (outside : PairOutside) (h : PairHellos)
    (got left : List Bytes) (r : PairRace) : Prop where
  stands : r.session.stage.Stands deps outside h left
  unread : r.session.stage.unread = true → r.input.Expects aead got left
  stream : ∃ got' left', got' ++ left' = got ++ left ∧ r.input.Expects aead got' left'
  announced : r.session.Announced

/-- A quiet step of the session, which takes nothing from the stream. -/
theorem Inv.quiet (hr : r.Inv aead deps outside h got left) {w : Pairing}
    (hstands : w.stage.Stands deps outside h left)
    (hunread : w.stage.unread = true → r.session.stage.unread = true)
    (hrunning : r.session.stage ≠ .completed) (hquiet : r.session.Quiet w) :
    ({ r with session := w } : PairRace).Inv aead deps outside h got left where
  stands := hstands
  unread hw := hr.unread (hunread hw)
  stream := hr.stream
  announced := hr.announced.quiet hrunning hquiet

/-- A message has been taken from the stream, and the session has heard it. -/
theorem Inv.heard (hr : r.Inv aead deps outside h got left) {body : Bytes} {rest : List Bytes}
    (hleft : left = body :: rest) (hreading : r.session.stage.isReading = true) {input : Receiver}
    (hinput : input.Expects aead (got ++ [body]) rest) :
    (⟨r.session.hear deps.ops.verify deps body, input⟩ : PairRace).Inv aead deps outside h got
      left := by
  subst hleft
  have hstream : ∃ got' left', got' ++ left' = got ++ body :: rest ∧
      input.Expects aead got' left' :=
    ⟨got ++ [body], rest, by rw [List.append_assoc, List.singleton_append], hinput⟩
  have hstands := hr.stands
  have hread : (r.session.hear deps.ops.verify deps body).stage.Stands deps outside h
      (body :: rest) ∧ (r.session.hear deps.ops.verify deps body).stage.unread = false := by
    unfold Pairing.hear
    -- the Confirm comes while the user is asked, or after the user has said yes
    split
    · next hellos hstage =>
      rw [hstage] at hstands
      obtain rfl : hellos = h := hstands
      exact ⟨Pairing.stands_receiveEarly body rest, Pairing.unread_receiveEarly body⟩
    · next hellos hstage =>
      rw [hstage] at hstands
      obtain ⟨rfl, hverdict⟩ : hellos = h ∧ outside.verdict = some true := hstands
      exact ⟨Pairing.stands_receiveConfirmBy hverdict body rest, Pairing.unread_receiveConfirmBy body⟩
    -- at no other stage is a read under way
    · next hdeciding hawaits =>
      cases hstage : r.session.stage with
      | deciding hellos => exact absurd hstage (hdeciding hellos)
      | awaitsConfirm hellos => exact absurd hstage (hawaits hellos)
      | _ =>
          rw [hstage] at hreading
          cases hreading
  refine ⟨hread.1, fun hunread => ?_, hstream, ?_⟩
  · rw [hread.2] at hunread
    cases hunread
  · refine hr.announced.quiet (fun hstage => ?_) (Pairing.quiet_hear body)
    rw [hstage] at hreading
    cases hreading

/-- A session that reads has not taken the peer's Confirm yet. -/
theorem unread_of_isReading {stage : PairStage} (h : stage.isReading = true) :
    stage.unread = true := by
  cases stage <;> first | rfl | cases h

/-- **A poll** keeps the invariant: it is left waiting, or the peer's message is heard. -/
theorem Inv.read (hlaw : aead.Lawful maxFrameBytes) (hr : r.Inv aead deps outside h got left)
    (sizes : List ℕ) : (r.read aead deps sizes).Inv aead deps outside h got left := by
  by_cases hreading : r.session.stage.isReading = true
  · have hexpects := hr.unread (unread_of_isReading hreading)
    simp only [PairRace.read, hreading, if_true]
    rcases hexpects.poll hlaw sizes with ⟨hnext, hresult, -⟩ | ⟨body, rest, hleft, hnext, hresult⟩
    · rw [hresult]
      exact ⟨hr.stands, fun _ => hnext, ⟨got, left, rfl, hnext⟩, hr.announced⟩
    · rw [hresult]
      exact hr.heard hleft hreading hnext
  · rw [Bool.not_eq_true] at hreading
    simp only [PairRace.read, hreading, Bool.false_eq_true, if_false]
    exact hr

/-- **One step** keeps the invariant, in whatever order the steps come. -/
theorem Inv.step (hlaw : aead.Lawful maxFrameBytes)
    (hjson : ∀ confirm, ∃ body, deps.json.toJson (.confirm confirm) = .ok body)
    (hr : r.Inv aead deps outside h got left) (move : RaceMove) :
    (r.step aead deps outside move).Inv aead deps outside h got left := by
  have hstands := hr.stands
  cases move with
  | read sizes => exact hr.read hlaw sizes
  | verdict =>
      simp only [PairRace.step]
      split
      · next hellos hstage =>
        rw [hstage] at hstands
        obtain rfl : hellos = h := hstands
        refine hr.quiet (Pairing.stands_told hjson (fun _ hearly => by cases hearly)) ?_ ?_
          (Pairing.quiet_told none _)
        · intro _
          rw [hstage]
          rfl
        · simp [hstage]
      · next hellos early hstage =>
        rw [hstage] at hstands
        obtain ⟨rfl, hconfirm⟩ : hellos = h ∧ deps.peerConfirm left = some early := hstands
        refine hr.quiet (Pairing.stands_told hjson ?_) ?_ ?_ (Pairing.quiet_told (some early) _)
        · rintro confirm ⟨⟩
          exact hconfirm
        · -- the Confirm has been taken, whatever the user says
          exact fun hunread => absurd hunread (by rw [Pairing.unread_told_some]; decide)
        · simp [hstage]
      · exact hr
  | sent =>
      simp only [PairRace.step]
      split
      · next hellos ourAccept body early hstage =>
        rw [hstage] at hstands
        obtain ⟨rfl, hverdict, hearly⟩ : hellos = h ∧ outside.verdict = some ourAccept ∧
          ∀ confirm, early = some confirm → deps.peerConfirm left = some confirm := hstands
        refine hr.quiet (Pairing.stands_confirmedBy hverdict body hearly) ?_ ?_
          (Pairing.quiet_confirmedBy _ _ _)
        · intro hunread
          rw [hstage]
          cases early with
          | none => rfl
          | some confirm =>
              rw [Pairing.unread_confirmedBy_some] at hunread
              cases hunread
        · simp [hstage]
      · exact hr
  | persist =>
      -- the session is over after it, so there is nothing left to read
      simp only [PairRace.step]
      split
      · next hellos hstage =>
        rw [hstage] at hstands
        obtain ⟨rfl, hagrees⟩ : hellos = h ∧ outside.Agrees deps h left := hstands
        refine ⟨Pairing.stands_persist hagrees, ?_, hr.stream, ?_⟩
        · intro hunread
          rw [Pairing.unread_persist] at hunread
          cases hunread
        · exact hr.announced.persist (by simp [hstage]) _ _
      · exact hr
  | trustChanges trust => exact ⟨hstands, hr.unread, hr.stream, hr.announced⟩

/-- **A step of a session is quiet**, unless it saves. -/
theorem step_quiet (r : PairRace) {move : RaceMove} (hown : move.isOwn = true) :
    r.session.Quiet (r.step aead deps outside move).session ∨
      move = .persist ∧ ∃ hellos, r.session.stage = .persisting hellos := by
  cases move with
  | read sizes =>
      left
      simp only [PairRace.step, PairRace.read]
      split
      · split
        · exact .refl _
        · exact Pairing.quiet_stop _ _
        · exact Pairing.quiet_hear _
      · exact .refl _
  | verdict =>
      left
      simp only [PairRace.step]
      split
      · exact Pairing.quiet_told _ _
      · exact Pairing.quiet_told _ _
      · exact .refl _
  | sent =>
      left
      simp only [PairRace.step]
      split
      · exact Pairing.quiet_confirmedBy _ _ _
      · exact .refl _
  | persist =>
      -- the save is the one step that may announce a completion
      simp only [PairRace.step]
      split
      · next hellos hstage => exact Or.inr ⟨trivial, hellos, hstage⟩
      · exact Or.inl (.refl _)
  | trustChanges trust => cases hown

/-! ## Coming to the end -/

/-- How far a session is from its end: each of the moves that are left takes it on. -/
def toGo : PairStage → ℕ
  | .deciding _ => 4
  | .awaitsVerdict _ _ => 4
  | .sending _ _ _ _ => 3
  | .awaitsConfirm _ => 2
  | .persisting _ => 1
  | _ => 0

/-- After the check there is at most the save to go. -/
theorem toGo_settleBy (verify : Verifier) (w : Pairing) (confirm : PairConfirm) :
    toGo (w.settleBy verify deps h confirm).stage ≤ 1 := by
  unfold Pairing.settleBy
  split <;> simp [toGo, Pairing.stop]

/-- After our write there are at most two steps to go. -/
theorem toGo_confirmedBy (verify : Verifier) (w : Pairing) (ourAccept : Bool) (body : Bytes)
    (early : Option PairConfirm) :
    toGo (w.confirmedBy verify deps h ourAccept body early).stage ≤ 2 := by
  unfold Pairing.confirmedBy
  split
  · simp [toGo, Pairing.stop]
  · split
    · exact (toGo_settleBy verify _ _).trans (by decide)
    · simp [toGo]

/-- After the verdict there are at most three steps to go. -/
theorem toGo_told (w : Pairing) (early : Option PairConfirm) (verdict : Option Bool) :
    toGo (w.told deps h early verdict).stage ≤ 3 := by
  unfold Pairing.told
  split
  · unfold Pairing.decided
    simp only
    split <;> simp [toGo, Pairing.stop]
  · simp [toGo, Pairing.stop]

/-- After the peer's Confirm has been read there is at most the save to go. -/
theorem toGo_receiveConfirmBy (verify : Verifier) (w : Pairing) (body : Bytes) :
    toGo (w.receiveConfirmBy verify deps h body).stage ≤ 1 := by
  unfold Pairing.receiveConfirmBy
  split
  · simp [toGo, Pairing.stop]
  · exact toGo_settleBy verify w _

/-- After the save there is nothing to go. -/
theorem toGo_persist (w : Pairing) (now : ℕ) (fails : Option SaveFault) :
    toGo (w.persist deps h now fails).stage = 0 := by
  unfold Pairing.persist
  split
  · simp [toGo, Pairing.stop]
  · split <;> simp [toGo, Pairing.stop]

/-- A read during which everything comes hears the peer's message. -/
theorem read_all (hlaw : aead.Lawful maxFrameBytes) (hreading : r.session.stage.isReading = true)
    {body : Bytes} {rest : List Bytes} (hexpects : r.input.Expects aead got (body :: rest)) :
    (r.read aead deps (List.replicate r.input.wire.length 0)).session =
      r.session.hear deps.ops.verify deps body := by
  simp only [PairRace.read, hreading, if_true]
  rcases hexpects.poll hlaw (List.replicate r.input.wire.length 0) with
    ⟨-, -, hnil | hshort⟩ | ⟨body', rest', hleft, -, hresult⟩
  · cases hnil
  · rw [List.length_replicate] at hshort
    exact absurd hshort (lt_irrefl _)
  · cases hleft
    rw [hresult]

/-- What a session waits for brings it nearer to its end. -/
theorem Inv.progress (hlaw : aead.Lawful maxFrameBytes) (hr : r.Inv aead deps outside h got left)
    (hleft : left ≠ []) (hlive : r.session.stage.isFinished = false) :
    ∃ move, toGo (r.step aead deps outside move).session.stage < toGo r.session.stage := by
  have hstands := hr.stands
  cases hstage : r.session.stage with
  | deciding hellos =>
      refine ⟨.verdict, ?_⟩
      simp only [PairRace.step, hstage]
      exact Nat.lt_succ_of_le (toGo_told _ _ _)
  | awaitsVerdict hellos early =>
      refine ⟨.verdict, ?_⟩
      simp only [PairRace.step, hstage]
      exact Nat.lt_succ_of_le (toGo_told _ _ _)
  | sending hellos ourAccept body early =>
      refine ⟨.sent, ?_⟩
      simp only [PairRace.step, hstage]
      exact Nat.lt_succ_of_le (toGo_confirmedBy _ _ _ _ _)
  | awaitsConfirm hellos =>
      obtain ⟨body, rest, rfl⟩ := List.exists_cons_of_ne_nil hleft
      -- a read that a byte comes for as often as one is left gets the whole message
      have hexpects := hr.unread (by rw [hstage]; rfl)
      refine ⟨.read (List.replicate r.input.wire.length 0), ?_⟩
      simp only [PairRace.step]
      rw [read_all hlaw (by rw [hstage]; rfl) hexpects]
      simp only [Pairing.hear, hstage]
      exact Nat.lt_succ_of_le (toGo_receiveConfirmBy _ _ _)
  | persisting hellos =>
      refine ⟨.persist, ?_⟩
      simp only [PairRace.step, hstage]
      rw [toGo_persist]
      exact Nat.zero_lt_one
  | connecting =>
      -- no race is at a stage before the Hellos
      rw [hstage] at hstands
      exact hstands.elim
  | awaitsHello ours =>
      rw [hstage] at hstands
      exact hstands.elim
  | completed =>
      rw [hstage] at hlive
      cases hlive
  | failed e =>
      rw [hstage] at hlive
      cases hlive

/-- **From everywhere in a race the end can be reached**, once the peer has sent something. -/
theorem Inv.finishes (hlaw : aead.Lawful maxFrameBytes)
    (hjson : ∀ confirm, ∃ body, deps.json.toJson (.confirm confirm) = .ok body)
    (hr : r.Inv aead deps outside h got left) (hleft : left ≠ []) :
    ∃ more : List RaceMove,
      (more.foldl (PairRace.step aead deps outside) r).session.stage.isFinished = true := by
  -- by induction on how far the end is
  induction hn : toGo r.session.stage using Nat.strong_induction_on generalizing r with
  | _ n ih =>
      cases hlive : r.session.stage.isFinished with
      | true => exact ⟨[], hlive⟩
      | false =>
          obtain ⟨move, hmove⟩ := hr.progress hlaw hleft hlive
          rw [hn] at hmove
          obtain ⟨more, hmore⟩ := ih _ hmove (hr.step hlaw hjson move) rfl
          exact ⟨move :: more, hmore⟩

/-! ## What is promised -/

/-- A session that has just exchanged Hellos is at the start of a race. -/
theorem Inv.start {trust : TrustedPeerStore} {before : List PairMove} {k : ℕ} {input : Receiver}
    (hstage : (Run.after (Pairing.step deps) (Pairing.start trust) before k).stage = .deciding h)
    (hinput : input.Expects aead got left) :
    (⟨Run.after (Pairing.step deps) (Pairing.start trust) before k, input⟩ : PairRace).Inv aead deps
      outside h got left where
  stands := by
    rw [hstage]
    exact rfl
  unread _ := hinput
  stream := ⟨got, left, rfl, hinput⟩
  announced := Pairing.Announced.after deps trust before k

/-- The race after its first `n` moves, from wherever it starts. -/
abbrev after (aead : Aead) (deps : PairDeps) (outside : PairOutside) (start : PairRace)
    (moves : List RaceMove) (n : ℕ) : PairRace :=
  Run.after (step aead deps outside) start moves n

/-- **What is promised** of the first `n` moves of a race, and of the next. -/
structure Promised (aead : Aead) (deps : PairDeps) (outside : PairOutside) (h : PairHellos)
    (got left : List Bytes) (start : PairRace) (moves : List RaceMove) (n : ℕ) : Prop where
  /-- A completion is announced only at the end, when the session is finished. -/
  ended : (∃ peer, .completed peer ∈ (after aead deps outside start moves n).session.events) →
    (after aead deps outside start moves n).session.stage.isFinished = true
  /-- At the end one has been announced exactly if both have accepted, the peer's signature verifies
  and nothing stops the save. -/
  outcome : (after aead deps outside start moves n).session.stage.isFinished = true →
    ((∃ peer, .completed peer ∈ (after aead deps outside start moves n).session.events) ↔
      outside.Agrees deps h left ∧ outside.fails = none)
  /-- The end is never out of reach, once the peer has sent something. -/
  finishes : left ≠ [] → ∃ more : List RaceMove, (more.foldl (step aead deps outside)
    (after aead deps outside start moves n)).session.stage.isFinished = true
  /-- When it is announced, the entry of the peer is in the file and in memory. -/
  saved : ∀ peer, .completed peer ∉ (after aead deps outside start moves n).session.events →
    .completed peer ∈ (after aead deps outside start moves (n + 1)).session.events →
      deps.trusted h.theirs outside.now = .ok peer ∧
        (after aead deps outside start moves (n + 1)).session.trust.get peer.machineId = some peer ∧
        (after aead deps outside start moves (n + 1)).session.trust.file =
          .parsed (after aead deps outside start moves (n + 1)).session.trust.peers
  /-- A move of the session by which none is announced leaves the trust store as it was. -/
  untouched : ∀ move, moves[n]? = some move → move.isOwn = true →
    (¬ ∃ peer, .completed peer ∈ (after aead deps outside start moves (n + 1)).session.events) →
      (after aead deps outside start moves (n + 1)).session.trust =
        (after aead deps outside start moves n).session.trust
  /-- Until the peer's Confirm has been heard, what has been read of it, with what is still to come,
  is all of it. -/
  kept : (after aead deps outside start moves n).session.stage.unread = true →
    (after aead deps outside start moves n).input.Expects aead got left
  /-- And so are all messages at any time: what has been read and what is to come is the whole
  stream. -/
  stream : ∃ got' left', got' ++ left' = got ++ left ∧
    (after aead deps outside start moves n).input.Expects aead got' left'

section Runs

variable {start : PairRace} {moves : List RaceMove} {n : ℕ}

/-- Every run keeps the invariant of a race. -/
theorem Inv.after (hlaw : aead.Lawful maxFrameBytes)
    (hjson : ∀ confirm, ∃ body, deps.json.toJson (.confirm confirm) = .ok body)
    (hstart : start.Inv aead deps outside h got left) (moves : List RaceMove) (n : ℕ) :
    (after aead deps outside start moves n).Inv aead deps outside h got left :=
  Run.invariant hstart (fun _ _ _ hr => hr.step hlaw hjson _) n

/-- The end of a race has announced what it should. -/
theorem Inv.outcome (hr : r.Inv aead deps outside h got left)
    (hfinished : r.session.stage.isFinished = true) :
    (∃ peer, .completed peer ∈ r.session.events) ↔
      outside.Agrees deps h left ∧ outside.fails = none := by
  refine Iff.trans hr.announced ?_
  have hstands := hr.stands
  cases hstage : r.session.stage with
  | completed =>
      rw [hstage] at hstands
      exact ⟨fun _ => hstands, fun _ => rfl⟩
  | failed e =>
      rw [hstage] at hstands
      exact ⟨nofun, fun hagrees => absurd hagrees hstands⟩
  | _ =>
      rw [hstage] at hfinished
      cases hfinished

/-- The save of a race, which is all that both have agreed on comes to. -/
theorem Inv.save (hr : r.Inv aead deps outside h got left) {hellos : PairHellos}
    (hstage : r.session.stage = .persisting hellos) :
    outside.Agrees deps h left ∧ ∃ peer, deps.trusted h.theirs outside.now = .ok peer ∧
      (r.step aead deps outside .persist).session.trust =
        (r.session.trust.upsert peer outside.fails).1 ∧
      (r.step aead deps outside .persist).session.events = r.session.events ++
        [match (r.session.trust.upsert peer outside.fails).2 with
          | .ok () => .completed peer
          | .error e => .failed (.persisting e)] := by
  have hstands := hr.stands
  rw [hstage] at hstands
  obtain ⟨rfl, hagrees⟩ : hellos = h ∧ outside.Agrees deps h left := hstands
  obtain ⟨peer, hpeer⟩ := Pairing.trusted_of_agrees hagrees outside.now
  refine ⟨hagrees, peer, hpeer, ?_⟩
  cases hfails : outside.fails with
  | none =>
      simp only [PairRace.step, hstage, Pairing.persist, hpeer, hfails]
      exact ⟨rfl, rfl⟩
  | some fault =>
      simp only [PairRace.step, hstage, Pairing.persist, hpeer, hfails]
      exact ⟨rfl, rfl⟩

/-- A completion is announced by the save, with the entry in the file and in memory. -/
theorem Inv.saved (hr : r.Inv aead deps outside h got left) (move : RaceMove) {peer : TrustedPeer}
    (hnew : .completed peer ∉ r.session.events)
    (hannounced : .completed peer ∈ (r.step aead deps outside move).session.events) :
    deps.trusted h.theirs outside.now = .ok peer ∧
      (r.step aead deps outside move).session.trust.get peer.machineId = some peer ∧
      (r.step aead deps outside move).session.trust.file =
        .parsed (r.step aead deps outside move).session.trust.peers := by
  cases hown : move.isOwn with
  | false =>
      cases move with
      | trustChanges trust => exact absurd hannounced hnew
      | _ => cases hown
  | true =>
      rcases r.step_quiet hown with hquiet | ⟨rfl, hellos, hstage⟩
      · exact absurd (hquiet.events peer hannounced) hnew
      · obtain ⟨-, entry, hentry, htrust, hevents⟩ := hr.save hstage
        rw [hevents] at hannounced
        have hlast := List.mem_singleton.mp ((List.mem_append.mp hannounced).resolve_left hnew)
        cases hfails : outside.fails with
        | none =>
            rw [hfails] at hlast htrust
            cases hlast
            rw [htrust]
            exact ⟨hentry, TrustedPeerStore.get_upsert_self _ _, rfl⟩
        | some fault =>
            rw [hfails] at hlast
            cases hlast

/-- A save that fails before the rename leaves the trust store as it was. -/
theorem upsert_of_not_afterRename (s : TrustedPeerStore) (peer : TrustedPeer) {fault : SaveFault}
    (h : fault.step.afterRename = false) : (s.upsert peer (some fault)).1 = s := by
  simp [TrustedPeerStore.upsert, TrustedPeerStore.save, h]

/-- A move of the session that announces nothing leaves the trust store alone, if the save does not
fail after the rename. -/
theorem Inv.untouched (hr : r.Inv aead deps outside h got left)
    (hsafe : outside.Agrees deps h left → ∀ fault, outside.fails = some fault →
      fault.step.afterRename = false) {move : RaceMove} (hown : move.isOwn = true)
    (hnone : ¬ ∃ peer, .completed peer ∈ (r.step aead deps outside move).session.events) :
    (r.step aead deps outside move).session.trust = r.session.trust := by
  rcases r.step_quiet hown with hquiet | ⟨rfl, hellos, hstage⟩
  · exact hquiet.trust
  · obtain ⟨hagrees, entry, -, htrust, hevents⟩ := hr.save hstage
    cases hfails : outside.fails with
    | none =>
        rw [hfails] at hevents
        refine absurd ⟨entry, ?_⟩ hnone
        rw [hevents]
        exact List.mem_append_right _ (List.mem_singleton_self _)
    | some fault =>
        rw [htrust, hfails]
        exact upsert_of_not_afterRename _ _ (hsafe hagrees fault hfails)

/-- **Every run keeps what is promised**, if the save does not fail after the rename. -/
theorem Inv.promised (hlaw : aead.Lawful maxFrameBytes)
    (hjson : ∀ confirm, ∃ body, deps.json.toJson (.confirm confirm) = .ok body) {start : PairRace}
    (hstart : start.Inv aead deps outside h got left)
    (hsafe : outside.Agrees deps h left → ∀ fault, outside.fails = some fault →
      fault.step.afterRename = false) (moves : List RaceMove) (n : ℕ) :
    Promised aead deps outside h got left start moves n := by
  have hr := hstart.after hlaw hjson moves n
  refine ⟨fun hannounced => ?_, hr.outcome, hr.finishes hlaw hjson, fun peer hnew hannounced => ?_,
    fun move hmove hown hnone => ?_, hr.unread, hr.stream⟩
  · rw [hr.announced.mp hannounced]
    rfl
  · cases hmove : moves[n]? with
    | none =>
        rw [PairRace.after, Run.after_succ_none hmove] at hannounced
        exact absurd hannounced hnew
    | some move =>
        rw [PairRace.after, Run.after_succ hmove] at hannounced ⊢
        exact hr.saved move hnew hannounced
  · rw [PairRace.after, Run.after_succ hmove] at hnone ⊢
    exact hr.untouched hsafe hown hnone

/-- A race in which the two agree comes to the save. -/
theorem Inv.reaches_save (hlaw : aead.Lawful maxFrameBytes)
    (hjson : ∀ confirm, ∃ body, deps.json.toJson (.confirm confirm) = .ok body)
    (hr : r.Inv aead deps outside h got left) (hstage : r.session.stage = .deciding h)
    (hagrees : outside.Agrees deps h left) :
    ∃ sizes, (((r.step aead deps outside .verdict).step aead deps outside .sent).step aead deps outside
      (.read sizes)).session.stage = .persisting h := by
  obtain ⟨confirm, hconfirm, -⟩ := hagrees.confirm
  obtain ⟨-, hcheck⟩ := (PairOutside.agrees_iff hconfirm).mp hagrees
  obtain ⟨body, rest, rfl⟩ : ∃ body rest, left = body :: rest := by
    cases left with
    | nil => cases hconfirm
    | cons body rest => exact ⟨body, rest, rfl⟩
  have hread : deps.json.recvConfirm .expectedConfirm body = .ok confirm :=
    PairDeps.peerConfirm_iff.mp hconfirm
  have hexpects := hr.unread (by rw [hstage]; rfl)
  obtain ⟨ours, hours⟩ := hjson (deps.ourConfirm h true)
  -- the verdict and our Confirm leave the stream alone
  have htold : (r.step aead deps outside .verdict).session.stage = .sending h true ours none ∧
      (r.step aead deps outside .verdict).input = r.input := by
    simp [PairRace.step, hstage, Pairing.told, hagrees.verdict, Pairing.decided, PairJson.sendMsg,
      hours, Except.mapError]
  generalize r.step aead deps outside .verdict = r₁ at htold
  obtain ⟨hsending, hinput⟩ := htold
  have hsent : (r₁.step aead deps outside .sent).session.stage = .awaitsConfirm h ∧
      (r₁.step aead deps outside .sent).input = r.input := by
    simp [PairRace.step, hsending, Pairing.confirmedBy, hinput]
  generalize r₁.step aead deps outside .sent = r₂ at hsent
  obtain ⟨hawaits, hinput'⟩ := hsent
  rw [← hinput'] at hexpects
  refine ⟨List.replicate r₂.input.wire.length 0, ?_⟩
  have hreading : r₂.session.stage.isReading = true := by
    rw [hawaits]
    rfl
  rw [show r₂.step aead deps outside (.read (List.replicate r₂.input.wire.length 0)) =
    r₂.read aead deps (List.replicate r₂.input.wire.length 0) from rfl,
    read_all hlaw hreading hexpects]
  simp only [Pairing.hear, hawaits, Pairing.receiveConfirmBy, hread, Pairing.settleBy, hcheck]

end Runs

/-- **When a race keeps its promises.** Over every order in which the verdict, the bytes of the peer,
the end of our write and the save come, with others at the trust store, a session that has exchanged
Hellos keeps what is promised, exactly if the save it comes to, when both agree, does not fail after
the rename. -/
theorem promised_iff (hlaw : aead.Lawful maxFrameBytes)
    (hjson : ∀ confirm, ∃ body, deps.json.toJson (.confirm confirm) = .ok body)
    {trust : TrustedPeerStore} {before : List PairMove} {k : ℕ} {input : Receiver}
    (hstage : (Run.after (Pairing.step deps) (Pairing.start trust) before k).stage = .deciding h)
    (hinput : input.Expects aead got left) :
    (∀ moves n, Promised aead deps outside h got left
      ⟨Run.after (Pairing.step deps) (Pairing.start trust) before k, input⟩ moves n) ↔
    (outside.Agrees deps h left → ∀ fault, outside.fails = some fault →
      fault.step.afterRename = false) := by
  have hstart : (⟨Run.after (Pairing.step deps) (Pairing.start trust) before k, input⟩ :
    PairRace).Inv aead deps outside h got left := Inv.start hstage hinput
  constructor
  · intro hpromised hagrees fault hfails
    by_contra hlate
    -- the file is gone when the session comes to save, and there again when the save has failed
    obtain ⟨sizes, hsave⟩ := hstart.reaches_save hlaw hjson hstage hagrees
    let moves : List RaceMove := [.verdict, .sent, .read sizes, .trustChanges ⟨.missing, []⟩, .persist]
    have hr := hstart.after hlaw hjson moves 4
    obtain ⟨-, peer, -, htrust, -⟩ := hr.save hsave
    have hnone : ¬ ∃ peer, .completed peer ∈ (after aead deps outside
        ⟨Run.after (Pairing.step deps) (Pairing.start trust) before k, input⟩ moves 5).session.events := by
      intro hannounced
      have hagain := (hstart.after hlaw hjson moves 5).announced.mp hannounced
      have hfinished := ((hstart.after hlaw hjson moves 5).outcome (by rw [hagain]; rfl)).mp hannounced
      rw [hfails] at hfinished
      cases hfinished.2
    have hsame := (hpromised moves 4).untouched .persist rfl rfl hnone
    rw [show after aead deps outside _ moves (4 + 1) = _ from Run.after_succ rfl, htrust, hfails] at hsame
    rw [Bool.not_eq_false] at hlate
    have hfile := congrArg TrustedPeerStore.file hsame
    simp only [TrustedPeerStore.upsert, TrustedPeerStore.save, hlate, if_true] at hfile
    cases hfile
  · exact hstart.promised hlaw hjson

end PairRace

/-! ## A save that fails after the rename -/

namespace Sample

/-- What the peer of the honest session sends after its Hello. -/
def honestConfirm : Bytes :=
  pairBytes (.confirm ⟨true, signTranscript ops (pad 32 [2]) honestHellos.transcript⟩)

/-- The stream of the honest session, with the peer's Confirm on its way. -/
def confirmComing : Receiver where
  endpoint := .whole (.new [1] [2] [7] [8])
  wire := framesFrom .tagging [2] [8] 0 [honestConfirm]
  returned := []

/-- The honest session after the Hellos, with its user being asked. -/
def asked : Pairing := Run.after (Pairing.step pairDeps) unpaired honestSession 2

/-- The user accepts, and the new file cannot be made durable. -/
def unsynced : PairOutside where
  verdict := some true
  now := 0
  fails := some ⟨.syncDir, "/home/alpha/.config/synbad", "Input/output error (os error 5)"⟩

/-- The user accepts, and nothing stops the save; what else comes from outside is the same. -/
def accepting : PairOutside := { unsynced with fails := none }

/-- The verdict comes in the middle of the peer's Confirm. -/
def verdictFirst : List RaceMove := [.read [2, 0, 99], .verdict, .sent, .read [299, 399], .persist]

/-- The honest session is asking its user. -/
theorem asked_stage : asked.stage = .deciding honestHellos := by
  have hfacts : asked.stage.hellos = some honestHellos ∧ PairRace.toGo asked.stage = 4 ∧
      asked.stage.isReading = true := by
    decide +kernel
  cases hstage : asked.stage with
  | deciding h =>
      rw [hstage] at hfacts
      rw [Option.some.inj hfacts.1]
  | _ =>
      rw [hstage] at hfacts
      simp [PairRace.toGo, PairStage.isReading] at hfacts

/-- The peer's Confirm is on its way to the honest session. -/
theorem confirmComing_expects : confirmComing.Expects .tagging [] [honestConfirm] := by
  refine Receiver.expects_start .tagging [1] [2] [7] [8] (by decide) ?_
  rw [List.forall_mem_singleton]
  decide +kernel

/-- The machine ids in a file, if it can be parsed. -/
def fileIds : TrustFile → List String
  | .parsed peers => peers.map (·.machineId)
  | _ => []

/-- In the honest session both users accept. -/
theorem accepting_agrees : accepting.Agrees pairDeps honestHellos [honestConfirm] where
  verdict := rfl
  confirm := by
    refine ⟨⟨true, signTranscript ops (pad 32 [2]) honestHellos.transcript⟩, by decide +kernel, rfl, ?_⟩
    have hverify : ops.verify (pad 32 [2]) honestHellos.transcript
        (ops.sign (pad 32 [2]) honestHellos.transcript) = true := by simp [ops]
    exact verifySignature_signTranscript (HexCodec.decode_encode _ _) rfl hverify

/-- The run in which the new file cannot be made durable, evaluated: nothing is announced, and the
file has the entry. -/
theorem verdictFirst_facts :
    (PairRace.after .tagging pairDeps unsynced ⟨asked, confirmComing⟩ verdictFirst
        5).session.stage.isFinished = true ∧
      fileIds (PairRace.after .tagging pairDeps unsynced ⟨asked, confirmComing⟩ verdictFirst
        5).session.trust.file = ["machine-b"] ∧
      (PairRace.after .tagging pairDeps unsynced ⟨asked, confirmComing⟩ verdictFirst
        5).session.trust.peers = [] ∧
      fileIds (PairRace.after .tagging pairDeps unsynced ⟨asked, confirmComing⟩ verdictFirst
        4).session.trust.file = [] := by
  decide +kernel

end Sample

namespace PairRace

/-- With nothing in the way of the save, the sample race keeps what is promised. -/
theorem promised_iff_sample :
    Sample.accepting.Agrees Sample.pairDeps Sample.honestHellos [Sample.honestConfirm] ∧
      ∀ moves n, Promised .tagging Sample.pairDeps Sample.accepting Sample.honestHellos []
        [Sample.honestConfirm] ⟨Sample.asked, Sample.confirmComing⟩ moves n := by
  refine ⟨Sample.accepting_agrees, ?_⟩
  refine (promised_iff (Aead.tagging_lawful _) (fun confirm => ?_) Sample.asked_stage
    Sample.confirmComing_expects).mpr fun _ fault hfault => ?_
  · obtain ⟨body, hbody, -⟩ := Sample.pairDeps_lawful.json (.confirm confirm)
    exact ⟨body, hbody⟩
  · cases hfault

/-- The session has failed and announced nothing, and nobody is trusted in memory, but the entry of
the peer is in the file. -/
theorem failed_save_leaves_entry :
    (after .tagging Sample.pairDeps Sample.unsynced ⟨Sample.asked, Sample.confirmComing⟩
        Sample.verdictFirst 5).session.stage.isFinished = true ∧
      (¬ ∃ peer, .completed peer ∈ (after .tagging Sample.pairDeps Sample.unsynced
        ⟨Sample.asked, Sample.confirmComing⟩ Sample.verdictFirst 5).session.events) ∧
      Sample.fileIds (after .tagging Sample.pairDeps Sample.unsynced
        ⟨Sample.asked, Sample.confirmComing⟩ Sample.verdictFirst 5).session.trust.file =
          ["machine-b"] ∧
      ¬ ∀ moves n, Promised .tagging Sample.pairDeps Sample.unsynced Sample.honestHellos []
        [Sample.honestConfirm] ⟨Sample.asked, Sample.confirmComing⟩ moves n := by
  obtain ⟨hfinished, hfile, -, hbefore⟩ := Sample.verdictFirst_facts
  have hstart : (⟨Sample.asked, Sample.confirmComing⟩ : PairRace).Inv .tagging Sample.pairDeps
      Sample.unsynced Sample.honestHellos [] [Sample.honestConfirm] :=
    Inv.start Sample.asked_stage Sample.confirmComing_expects
  have hnone : ¬ ∃ peer, .completed peer ∈ (after .tagging Sample.pairDeps Sample.unsynced
      ⟨Sample.asked, Sample.confirmComing⟩ Sample.verdictFirst 5).session.events := by
    intro hannounced
    have hr := hstart.after (Aead.tagging_lawful _) (fun confirm => ?_) Sample.verdictFirst 5
    · cases ((hr.outcome hfinished).mp hannounced).2
    · obtain ⟨body, hbody, -⟩ := Sample.pairDeps_lawful.json (.confirm confirm)
      exact ⟨body, hbody⟩
  refine ⟨hfinished, hnone, hfile, fun hpromised => ?_⟩
  -- the save has changed the file
  have hsame := (hpromised Sample.verdictFirst 4).untouched .persist rfl rfl
  simp only [Nat.reduceAdd] at hsame
  rw [hsame hnone, hbefore] at hfile
  cases hfile

end PairRace

end Synbad
