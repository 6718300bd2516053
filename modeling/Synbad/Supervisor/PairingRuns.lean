import Synbad.Discovery.TrustMap
import Synbad.Supervisor.PairingRegistry

/-! # A verdict reaches its session

In every run: a session that waits for its user can be answered, and a `ConfirmPairing` for its id is
what it gets, at most once; and nobody is in the trust store who was not there at the start, but
through a session whose user has accepted it so.

Both follow from the registry being in order. A session that waits for its verdict has one in its
channel, or the supervisor holds its sender and a request reaches it (`sessions_answerable`); the
answers only grow, one for each id, so the request that gave a verdict is unique (`Verdict`): no
request before it was taken for that id, and every later one is refused.

For the trust store, `Earned` says that every entry was there at the start or was saved by a session.
Steps keep it, since a session forgets nobody it saved (`Keeps`). `trust_is_earned` adds what a
session has to have gone through before it saves: the checks of its frames, and the verdict of its
user, given by a request of the run. -/

namespace Synbad

namespace PairingSupervisor

/-! ## The answers -/

/-- What a step adds to the answers: none, or the one of a `ConfirmPairing` whose id the supervisor
holds a sender for. -/
theorem step_answers (s : PairingSupervisor) (input : PairingInput) :
    (s.step input).answers = s.answers ∨ ∃ id accept, input = .confirmPairing id accept ∧
      id ∈ s.confirm ∧ (s.step input).answers = s.answers ++ [(id, accept)] := by
  cases input with
  | confirmPairing id accept =>
      -- a request is noted only where there is a session that waits for its verdict
      simp only [step, confirmPairing]
      split
      · next hmem => exact Or.inr ⟨id, accept, rfl, hmem, rfl⟩
      · exact Or.inl rfl
  | startPairing now machineId =>
      refine Or.inl ?_
      simp only [step, startPairing]
      split
      · rfl
      · split <;> rfl
  | accept now =>
      refine Or.inl ?_
      simp only [step, accept]
      split
      · rfl
      · split <;> rfl
  | offer =>
      refine Or.inl ?_
      simp only [step, offer]
      split
      · rfl
      · split <;> rfl
  | takeIncoming =>
      refine Or.inl ?_
      simp only [step, takeIncoming]
      split <;> rfl
  | bindListener =>
      refine Or.inl ?_
      simp only [step]
      split <;> rfl
  | session id move =>
      refine Or.inl ?_
      simp only [step, stepSession]
      split
      · rfl
      · split
        · rfl
        · split
          · split <;> rfl
          · split <;> rfl
          · rfl
          · rfl
  | _ => exact Or.inl rfl

variable (deps : PairDeps) (trust : TrustedPeerStore) (inputs : List PairingInput)

/-- The supervisor after the first `n` inputs of the run. -/
def after (n : ℕ) : PairingSupervisor := Run.after step (start deps trust) inputs n

/-- In every run the registry is in order. -/
theorem registered (n : ℕ) : (after deps trust inputs n).Registered :=
  Registered.after deps trust inputs n

variable {deps trust inputs}

/-- One more input only adds to the answers. -/
theorem after_answers (n : ℕ) :
    (after deps trust inputs n).answers ⊆ (after deps trust inputs (n + 1)).answers := by
  intro answer hanswer
  cases hinput : inputs[n]? with
  | none =>
      rw [after, Run.after_succ_none hinput]
      exact hanswer
  | some input =>
      rw [after, Run.after_succ hinput]
      rcases step_answers (after deps trust inputs n) input with hsame | ⟨id, accept, -, -, hmore⟩
      · exact hsame.symm ▸ hanswer
      · exact hmore.symm ▸ List.mem_append_left _ hanswer

/-- An answer stays one, at every later moment of the run. -/
theorem answers_mono {m n : ℕ} (hmn : m ≤ n) :
    (after deps trust inputs m).answers ⊆ (after deps trust inputs n).answers := by
  induction hmn with
  | refl => exact List.Subset.refl _
  | step _ ih => exact List.Subset.trans ih (after_answers _)

/-- Every answer was a request that found the sender. -/
theorem answer_given {id : String} {accept : Bool} (n : ℕ)
    (h : (id, accept) ∈ (after deps trust inputs n).answers) :
    ∃ m < n, inputs[m]? = some (.confirmPairing id accept) ∧ id ∈ (after deps trust inputs m).confirm := by
  induction n with
  | zero => exact absurd h List.not_mem_nil
  | succ n ih =>
      have hearlier : (id, accept) ∈ (after deps trust inputs n).answers → ∃ m < n + 1,
          inputs[m]? = some (.confirmPairing id accept) ∧ id ∈ (after deps trust inputs m).confirm := by
        intro hanswer
        obtain ⟨m, hm, hinput⟩ := ih hanswer
        exact ⟨m, by omega, hinput⟩
      cases hinput : inputs[n]? with
      | none =>
          rw [after, Run.after_succ_none hinput] at h
          exact hearlier h
      | some input =>
          rw [after, Run.after_succ hinput] at h
          rcases step_answers (after deps trust inputs n) input with hsame | ⟨id', accept', rfl, hmem, hmore⟩
          · exact hearlier (hsame ▸ h)
          · rcases List.mem_append.mp (hmore ▸ h : (id, accept) ∈ _ ++ _) with h | h
            · exact hearlier h
            · cases List.mem_singleton.mp h
              exact ⟨n, by omega, hinput, hmem⟩

/-! ## The trust store -/

section Trust

variable {s s' : PairingSupervisor} {t : SessionTask} {id : String}

/-- No session has forgotten whom it saved. -/
def Keeps (s s' : PairingSupervisor) : Prop :=
  ∀ t ∈ s.sessions, ∃ t' ∈ s'.sessions, t'.session.saved = t.session.saved

/-- Nothing that does nothing forgets what has been saved. -/
theorem Keeps.refl (s : PairingSupervisor) : s.Keeps s := fun t ht => ⟨t, ht, rfl⟩

/-- Sessions that are changed in place, without what they have done, have forgotten nobody. -/
theorem Keeps.of_map {f : SessionTask → SessionTask} (hsessions : s'.sessions = s.sessions.map f)
    (hf : ∀ t, (f t).session = t.session) : s.Keeps s' := by
  intro t ht
  refine ⟨f t, ?_, by rw [hf]⟩
  rw [hsessions]
  exact List.mem_map_of_mem ht

/-- A session that begins makes no other forget whom it saved. -/
theorem Keeps.of_append {more : List SessionTask} (hsessions : s'.sessions = s.sessions ++ more) :
    s.Keeps s' := by
  intro t ht
  refine ⟨t, ?_, rfl⟩
  rw [hsessions]
  exact List.mem_append_left _ ht

/-- An update of tasks that leaves their sessions alone forgets nothing. -/
theorem Keeps.update {f : SessionTask → SessionTask} (hf : ∀ t, (f t).session = t.session) :
    s.Keeps (s.update id f) := by
  refine .of_map (f := fun t => if t.sessionId = id then f t else t) rfl fun t => ?_
  split
  · exact hf t
  · rfl

/-- Dropping sessions on their way forgets nothing. -/
theorem Keeps.drop (ids : List String) : s.Keeps (s.drop ids) := by
  refine .of_map (f := fun t => if t.sessionId ∈ ids then { t with phase := .over } else t) rfl fun t => ?_
  split <;> rfl

/-- What is done to the registry is nothing to the trust store. -/
theorem step_keeps (s : PairingSupervisor) {input : PairingInput}
    (hsession : ∀ id move, input ≠ .session id move) : s.Keeps (s.step input) := by
  cases input with
  | startPairing now machineId =>
      simp only [step, startPairing]
      split
      · exact .refl s
      · split
        · exact .refl s
        -- a new session comes last, so those there are keep their places
        · exact .of_append rfl
  | confirmPairing id accept =>
      simp only [step, confirmPairing]
      split
      · exact Keeps.update fun _ => rfl
      · exact .refl s
  | gc => exact .refl s
  | accept now =>
      simp only [step, accept]
      split
      · exact .refl s
      · split
        · exact .of_append rfl
        · exact .refl s
  | offer =>
      simp only [step, offer]
      split
      · exact .refl s
      · split <;> exact .refl s
  | takeIncoming =>
      simp only [step, takeIncoming]
      split
      · exact .refl s
      · exact Keeps.update fun _ => rfl
  | rename _ | retireListener => exact Keeps.drop _
  | bindListener =>
      simp only [step]
      split
      · exact Keeps.drop _
      · exact .refl s
  | connect id ok =>
      refine Keeps.update fun t => ?_
      split <;> rfl
  -- only a session's own step may touch its machine's trust store
  | session id move => exact absurd rfl (hsession id move)
  | found _ | lost _ | revokeTrust _ _ => exact .refl s

/-- Only a session's own step brings somebody into the trust store. -/
theorem step_trust (s : PairingSupervisor) {input : PairingInput}
    (hsession : ∀ id move, input ≠ .session id move) :
    (s.step input).trust.peers ⊆ s.trust.peers := by
  cases input with
  | startPairing now machineId =>
      simp only [step, startPairing]
      split
      · exact List.Subset.refl _
      · split <;> exact List.Subset.refl _
  | confirmPairing id accept =>
      simp only [step, confirmPairing]
      split <;> exact List.Subset.refl _
  | accept now =>
      simp only [step, accept]
      split
      · exact List.Subset.refl _
      · split <;> exact List.Subset.refl _
  | offer =>
      simp only [step, offer]
      split
      · exact List.Subset.refl _
      · split <;> exact List.Subset.refl _
  | takeIncoming =>
      simp only [step, takeIncoming]
      split <;> exact List.Subset.refl _
  | bindListener =>
      simp only [step]
      split <;> exact List.Subset.refl _
  | session id move => exact absurd rfl (hsession id move)
  | revokeTrust machineId fails =>
      -- a removal adds nobody
      simp only [step, TrustedPeerStore.remove]
      split
      · cases fails with
        | none => exact List.filter_sublist.subset
        | some fault => exact List.Subset.refl _
      · exact List.Subset.refl _
  | _ => exact List.Subset.refl _

/-- Who is in the store after an update is the peer itself or was there before. -/
theorem mem_upsert {store : TrustedPeerStore} {peer p : TrustedPeer} {fails : Option SaveFault}
    (h : p ∈ (store.upsert peer fails).1.peers) : p = peer ∨ p ∈ store.peers := by
  cases fails with
  | none =>
      have hput : p ∈ Keyed.put TrustedPeer.machineId peer store.peers := by
        rw [← upsertPeers_eq_put]
        exact h
      exact Keyed.mem_put hput
  | some fault => exact Or.inr h

/-- **Trust is earned**: who is in the store was there at the start, or a session has saved them. -/
def Earned (trust : TrustedPeerStore) (s : PairingSupervisor) : Prop :=
  ∀ p ∈ s.trust.peers, p ∈ trust.peers ∨ ∃ t ∈ s.sessions, t.session.saved = some p

/-- Nobody new is in the store, and no session has forgotten whom it saved. -/
theorem Earned.mono (h : s.Earned trust) (htrust : s'.trust.peers ⊆ s.trust.peers)
    (hkeeps : s.Keeps s') : s'.Earned trust := by
  intro p hp
  rcases h p (htrust hp) with hstart | ⟨t, ht, hsaved⟩
  · exact Or.inl hstart
  · obtain ⟨t', ht', hsame⟩ := hkeeps t ht
    exact Or.inr ⟨t', ht', hsame.trans hsaved⟩

/-- A session that runs keeps whom it has saved, and whom it adds to the store it saves. -/
theorem run_saved (hs : s.Sound t) {move : PairMove} (hmove : ∀ trust, move ≠ .trustChanges trust) :
    (∀ p, t.session.saved = some p → (s.run t move).session.saved = some p) ∧
      ∀ p ∈ (s.run t move).session.trust.peers,
        p ∈ s.trust.peers ∨ (s.run t move).session.saved = some p := by
  have hmoved : Pairing.Moved { t.session with trust := s.trust } (s.run t move).session move :=
    Pairing.moved hmove
  cases hmoved with
  | told _ _ _ _ _ htrust hsaved | goes _ _ htrust hsaved =>
      rw [htrust, hsaved]
      exact ⟨fun _ hp => hp, fun _ hp => Or.inl hp⟩
  | saves peer fails hunfinished _ _ htrust hsaved =>
      -- it saves once
      have hnone : t.session.saved = none := hs.inv.unsaved hunfinished
      rw [htrust, hsaved, hnone]
      constructor
      · intro p hp
        cases hp
      · intro p hp
        rcases mem_upsert hp with rfl | hp
        · exact Or.inr rfl
        · exact Or.inl hp

/-- What a session that runs does to the store. -/
theorem Earned.run (h : s.Earned trust) (hreg : s.Registered) (hsession : s.session id = some t)
    (move : PairMove) (hmove : ∀ trust, move ≠ .trustChanges trust)
    {f : SessionTask → SessionTask} (hf : ∀ t, (f t).session = (s.run t move).session)
    (hsessions : s'.sessions = (s.update id f).sessions)
    (htrust : s'.trust = s.trust ∨ s'.trust = (s.run t move).session.trust) : s'.Earned trust := by
  obtain ⟨ht, hid⟩ := Registered.mem_of_session hsession
  -- no session is dropped, and none forgets what it has saved
  have hmem : ∀ t₀ ∈ s.sessions, (if t₀.sessionId = id then f t₀ else t₀) ∈ s'.sessions := by
    intro t₀ ht₀
    rw [hsessions]
    exact List.mem_map_of_mem ht₀
  have hsaved : ∀ t₀ ∈ s.sessions, ∀ p, t₀.session.saved = some p →
      ∃ t' ∈ s'.sessions, t'.session.saved = some p := by
    intro t₀ ht₀ p hp
    refine ⟨_, hmem t₀ ht₀, ?_⟩
    split
    · rw [hf]
      exact (run_saved (hreg.sound t₀ ht₀) hmove).1 p hp
    · exact hp
  have hold : ∀ p ∈ s.trust.peers, p ∈ trust.peers ∨ ∃ t' ∈ s'.sessions, t'.session.saved = some p := by
    intro p hp
    rcases h p hp with hstart | ⟨t₀, ht₀, hp⟩
    · exact Or.inl hstart
    · exact Or.inr (hsaved t₀ ht₀ p hp)
  intro p hp
  rcases htrust with htrust | htrust
  · exact hold p (htrust ▸ hp)
  -- the store has a peer from before, or from what this session has just saved
  · rcases (run_saved (hreg.sound t ht) hmove).2 p (htrust ▸ hp) with hp | hp
    · exact hold p hp
    · refine Or.inr ⟨f t, ?_, by rw [hf, hp]⟩
      have hmem' := hmem t ht
      rw [if_pos hid] at hmem'
      exact hmem'

/-- **Every step** leaves only trust that is earned, if the registry is in order. -/
theorem Earned.step (h : s.Earned trust) (hreg : s.Registered) (input : PairingInput) :
    (s.step input).Earned trust := by
  by_cases hsession : ∃ id move, input = .session id move
  · obtain ⟨id, move, rfl⟩ := hsession
    simp only [PairingSupervisor.step, stepSession]
    split
    · exact h
    · next t hsession =>
      split
      · exact h
      · split
        · next accept =>
          split
          · exact h.run (f := fun t => { s.run t (.verdict accept) with verdict := none }) hreg hsession
              (.verdict accept) (fun _ => PairMove.noConfusion) (fun _ => rfl) rfl (Or.inl rfl)
          · exact h
        · split
          · refine h.run (f := fun t => s.run t .verdictDropped) hreg hsession .verdictDropped ?_
              (fun _ => rfl) rfl (Or.inl rfl)
            intro _ hmove
            cases hmove
          · exact h
        · exact h
        · next htrust =>
          exact h.run (f := fun t => s.run t move) hreg hsession move htrust (fun _ => rfl) rfl
            (Or.inr rfl)
  · have hother : ∀ id move, input ≠ .session id move := fun id move heq => hsession ⟨id, move, heq⟩
    exact h.mono (step_trust s hother) (step_keeps s hother)

end Trust

/-- In every run, at every moment, all trust is earned. -/
theorem earned (n : ℕ) : (after deps trust inputs n).Earned trust := by
  have hboth : (after deps trust inputs n).Registered ∧ (after deps trust inputs n).Earned trust :=
    Run.invariant (P := fun s : PairingSupervisor => s.Registered ∧ s.Earned trust)
      ⟨Registered.start deps trust, fun p hp => Or.inl hp⟩
      (fun _ input _ h => ⟨h.1.step input, h.2.step h.1 input⟩) n
  exact hboth.2

/-! ## The results -/

/-- A session that waits for its user has the verdict in its channel, or can be given it: a
`ConfirmPairing` for its id reaches it, and leaves every other session alone. -/
def Answerable (s : PairingSupervisor) : Prop :=
  ∀ t ∈ s.sessions, t.phase = .running → t.session.stage.takesVerdict = true →
    s.senderGone t = false ∧ (t.answered = true → t.verdict.isSome = true) ∧
      (t.answered = false → ∀ accept, (s.confirmPairing t.sessionId accept).2 = .ok () ∧
        ∀ id, (s.confirmPairing t.sessionId accept).1.session id =
          if id = t.sessionId then some { t with answered := true, verdict := some accept }
          else s.session id)

/-- The session of an id after one session has changed. -/
theorem session_update (s : PairingSupervisor) (id : String) {f : SessionTask → SessionTask}
    (hf : ∀ t, (f t).sessionId = t.sessionId) (id' : String) :
    (s.update id f).session id' = (s.session id').map fun t => if t.sessionId = id then f t else t := by
  refine Keyed.find_map (fun t => ?_) s.sessions id'
  split
  · exact hf t
  · rfl

/-- **A session that waits for its user is never out of reach**, whatever is accepted, opened, renamed,
rebound or collected meanwhile. -/
theorem sessions_answerable (deps : PairDeps) (trust : TrustedPeerStore) (inputs : List PairingInput)
    (n : ℕ) : (after deps trust inputs n).Answerable := by
  intro t ht hphase hwaits
  have hreg := registered deps trust inputs n
  have hs := hreg.sound t ht
  -- while a verdict is waited for, the session runs and has heard none
  have hunfinished : t.isFinished = false := by
    rw [Registered.isFinished_eq hphase]
    cases hstage : t.session.stage with
    | deciding _ | awaitsVerdict _ _ => rfl
    | _ =>
        rw [hstage] at hwaits
        cases hwaits
  have huntold : t.session.stage.told = false := by
    cases hstage : t.session.stage with
    | deciding _ | awaitsVerdict _ _ => rfl
    | _ =>
        rw [hstage] at hwaits
        cases hwaits
  have hregistered : t.phase ≠ .unregistered := by
    rw [hphase]
    exact TaskPhase.noConfusion
  have hheld : t.answered = false → t.sessionId ∈ (after deps trust inputs n).confirm :=
    hs.reachable hregistered hunfinished
  -- its sender is kept, a verdict that was given is on its way, and one that is given now is taken
  refine ⟨?_, ?_, ?_⟩
  · cases hanswered : t.answered with
    | true => simp [senderGone, hanswered]
    | false => simp [senderGone, hanswered, hheld hanswered]
  · intro hanswered
    rcases hs.waits hanswered with hverdict | htold | hover
    · exact hverdict
    · rw [huntold] at htold
      cases htold
    · rw [hphase] at hover
      cases hover
  · intro hanswered accept
    rw [confirmPairing, if_pos (hheld hanswered)]
    refine ⟨rfl, fun id => ?_⟩
    have hsession := session_update (after deps trust inputs n) t.sessionId
      (f := fun u => { u with
        answered := true, verdict := if u.isFinished then u.verdict else some accept })
      (fun _ => rfl) id
    refine hsession.trans ?_
    by_cases hid : id = t.sessionId
    · rw [if_pos hid, hid, hreg.session_eq ht]
      simp [hunfinished]
    · rw [if_neg hid]
      cases hsession : (after deps trust inputs n).session id with
      | none => rfl
      | some u =>
          have hother : u.sessionId ≠ t.sessionId := by
            rw [(Registered.mem_of_session hsession).2]
            exact hid
          simp [hother]

/-- The request at this point of the run gave a session its verdict. It is the only one that did: no
request before it was taken for that id, and any request after it is refused, as for an id that was
never registered. -/
structure Verdict (deps : PairDeps) (trust : TrustedPeerStore) (inputs : List PairingInput) (n : ℕ)
    (id : String) (accept : Bool) (m : ℕ) : Prop where
  before : m < n
  request : inputs[m]? = some (.confirmPairing id accept)
  first : ∀ k < m, ∀ other, inputs[k]? = some (.confirmPairing id other) →
    ((after deps trust inputs k).confirmPairing id other).2 ≠ .ok ()
  taken : ((after deps trust inputs m).confirmPairing id accept).2 = .ok ()
  last : ∀ k, m < k → k ≤ n → ∀ other, ((after deps trust inputs k).confirmPairing id other).2 =
    .error (.noPending id)

/-- A session that was answered is not answered again: a request for its id is refused. -/
theorem Registered.refused {s : PairingSupervisor} (h : s.Registered) {id : String} {accept : Bool}
    (hanswer : (id, accept) ∈ s.answers) (other : Bool) :
    (s.confirmPairing id other).2 = .error (.noPending id) := by
  have hforgotten : id ∉ s.confirm := by
    intro hmem
    obtain ⟨t, ht, rfl⟩ := List.mem_map.mp (h.known id (Or.inl hmem))
    have hs := h.sound t ht
    exact (hs.silent (hs.held hmem).1).2 accept hanswer
  rw [PairingSupervisor.confirmPairing, if_neg hforgotten]

/-- A request that is taken is on record from then on. -/
theorem answered_of_taken {id : String} {accept : Bool} {k : ℕ}
    (hinput : inputs[k]? = some (.confirmPairing id accept))
    (hmem : id ∈ (after deps trust inputs k).confirm) :
    (id, accept) ∈ (after deps trust inputs (k + 1)).answers := by
  rw [after, Run.after_succ hinput]
  show (id, accept) ∈ ((after deps trust inputs k).confirmPairing id accept).1.answers
  rw [confirmPairing, if_pos hmem]
  exact List.mem_append_right _ (List.mem_singleton.mpr rfl)

/-- A request is taken only for an id whose session still waits for one. -/
theorem mem_confirm_of_taken {s : PairingSupervisor} {id : String} {accept : Bool}
    (h : (s.confirmPairing id accept).2 = .ok ()) : id ∈ s.confirm := by
  by_contra hmem
  rw [confirmPairing, if_neg hmem] at h
  cases h

/-- What a session has been told was a request for it, the only one that was taken. -/
theorem verdict_given {t : SessionTask} {accept : Bool} {n : ℕ}
    (ht : t ∈ (after deps trust inputs n).sessions) (hverdict : t.session.verdict = some accept) :
    ∃ m, Verdict deps trust inputs n t.sessionId accept m := by
  have hanswer := ((registered deps trust inputs n).sound t ht).verdicts accept (Or.inr hverdict)
  obtain ⟨m, hm, hinput, hmem⟩ := answer_given n hanswer
  have htaken := answered_of_taken hinput hmem
  refine ⟨m, hm, hinput, fun k hk other hearlier hok => ?_, ?_, fun k hk _ other => ?_⟩
  · -- an earlier one on record would have this one refused
    have hrecord := answered_of_taken hearlier (mem_confirm_of_taken hok)
    have hrefused := (registered deps trust inputs m).refused (answers_mono hk hrecord) accept
    rw [confirmPairing, if_pos hmem] at hrefused
    cases hrefused
  · rw [confirmPairing, if_pos hmem]
  · exact (registered deps trust inputs k).refused (answers_mono hk htaken) other

/-- Who is trusted after the first inputs: those of the start, and those a session has saved whose user
has accepted it, after the checks of its Hello and of the signature. -/
def TrustEarned (deps : PairDeps) (trust : TrustedPeerStore) (inputs : List PairingInput) (n : ℕ) : Prop :=
  ∀ peer ∈ (after deps trust inputs n).trust.peers, peer ∈ trust.peers ∨
    ∃ t ∈ (after deps trust inputs n).sessions, t.session.saved = some peer ∧
      (∃ hellos, t.session.Backed t.deps peer hellos) ∧
      ∃ m, Verdict deps trust inputs n t.sessionId true m

/-- **Nobody is trusted but by a user's acceptance of that session.** -/
theorem trust_is_earned (deps : PairDeps) (trust : TrustedPeerStore) (inputs : List PairingInput) (n : ℕ) :
    TrustEarned deps trust inputs n := by
  intro peer hpeer
  rcases earned n peer hpeer with hstart | ⟨t, ht, hsaved⟩
  · exact Or.inl hstart
  · obtain ⟨hellos, hbacked⟩ := ((registered deps trust inputs n).sound t ht).inv.stored peer hsaved
    exact Or.inr ⟨t, ht, hsaved, ⟨hellos, hbacked⟩, verdict_given ht hbacked.verdict⟩

end PairingSupervisor

end Synbad
