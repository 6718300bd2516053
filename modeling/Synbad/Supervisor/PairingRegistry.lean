import Synbad.Supervisor.PairingSessions

/-! # The registry of pairing sessions

What the supervisor knows of its pairing sessions: every session that runs and has no verdict yet has
its sender there, a sender it has given away is not there any more, and a session on its way to the
supervisor does not run. Every step keeps the registry so.

A session is in one of three places. It is on its way, in the channel of incoming sessions or waiting
to be put there; or the supervisor holds its sender, with which it can be answered; or its verdict has
been given, or it has ended. `Sound` says which of these a session is in by its phase and its stage,
and `Registered` says it of all, with ids that are distinct and answers that are given once.

What one session may do is one lemma (`moved`): it takes the verdict that lies in its channel, or
gives an entry to the trust store, or neither. Everything else is the supervisor's: sessions begin
(`enter`), a verdict is given (`confirmPairing`), a session is taken over (`takeIncoming`) or dropped
(`dropped`), and ended ones are collected (`gc`). `step` and `after` are the invariant for steps and
runs. -/

namespace Synbad

/-- Ids made at different counts differ, whatever the time is that goes into them. -/
theorem newSessionId_injective {now now' n n' : ℕ} (h : newSessionId now n = newSessionId now' n') :
    n = n' := by
  have hdash : ∀ m : ℕ, ∀ c ∈ (toString m).toList.reverse, (c != '-') = true := by
    intro m c hc
    rw [bne_iff_ne]
    rintro rfl
    exact not_mem_toString (by decide) m (List.mem_reverse.mp hc)
  -- what follows the last dash
  have htail : ∀ now m : ℕ, (newSessionId now m).toList.reverse.takeWhile (· != '-') =
      (toString m).toList.reverse := by
    intro now m
    have hid : (newSessionId now m).toList.reverse = (toString m).toList.reverse ++
        ('-' :: (toString now).toList.reverse ++ "pair-".toList.reverse) := by
      simp [newSessionId]
    rw [hid, List.takeWhile_append_of_pos (hdash m)]
    simp
  have hdigits := htail now n
  rw [h, htail now' n'] at hdigits
  exact toString_nat_injective (String.toList_inj.mp (List.reverse_injective hdigits)).symm

/-! ## What a session's step does -/

/-- The user has spoken when a session stands here, or it is over. -/
def PairStage.told : PairStage → Bool
  | .sending _ _ _ _ => true
  | .awaitsConfirm _ => true
  | .persisting _ => true
  | .completed => true
  | .failed _ => true
  | _ => false

namespace Pairing

variable {deps : PairDeps} {w : Pairing}

/-- **What a step can do**: it takes the user's verdict, it gives an entry to the trust store, or it does
neither; once the user has spoken, the session never asks again. -/
inductive Moved (w w' : Pairing) (move : PairMove) : Prop where
  | told (accept : Bool) (takes : move = .verdict accept) (waited : w.stage.takesVerdict = true)
      (stage : w'.stage.told = true) (verdict : w'.verdict = some accept) (trust : w'.trust = w.trust)
      (saved : w'.saved = w.saved)
  | saves (peer : TrustedPeer) (fails : Option SaveFault) (unfinished : w.stage.isFinished = false)
      (stage : w'.stage.told = true) (verdict : w'.verdict = w.verdict)
      (trust : w'.trust = (w.trust.upsert peer fails).1) (saved : w'.saved = some peer)
  | goes (stage : w.stage.told = true → w'.stage.told = true) (verdict : w'.verdict = w.verdict)
      (trust : w'.trust = w.trust) (saved : w'.saved = w.saved)

namespace Moved

variable {move : PairMove}

/-- A session that does nothing has moved. -/
theorem stays : Moved w w move := .goes id rfl rfl rfl

/-- A session that ends with an error has moved. -/
theorem stops (e : PairFailure) : Moved w (w.stop e) move := .goes (fun _ => rfl) rfl rfl rfl

/-- A session that checks the peer's Confirm has moved. -/
theorem settles (h : PairHellos) (confirm : PairConfirm) : Moved w (settle deps w h confirm) move := by
  unfold settle
  split
  · exact stops _
  · exact .goes (fun _ => rfl) rfl rfl rfl

/-- A session that takes a verdict has moved: it was told, at a stage that waits for that. -/
theorem decides {accept : Bool} (h : PairHellos) (early : Option PairConfirm)
    (hstage : w.stage.takesVerdict = true) :
    Moved w (decided deps w h accept early) (.verdict accept) := by
  unfold decided
  simp only
  split
  · exact .told accept rfl hstage rfl rfl rfl rfl
  · exact .told accept rfl hstage rfl rfl rfl rfl

/-- A session that saves has moved: it has saved its entry at most. -/
theorem persists {h : PairHellos} (hstage : w.stage = .persisting h) (now : ℕ)
    (fails : Option SaveFault) : Moved w (persist deps w h now fails) move := by
  have hunfinished : w.stage.isFinished = false := by
    rw [hstage]
    rfl
  unfold persist
  split
  · exact stops _
  · next trusted _ =>
    -- the store it leaves is that of the update, failed or not
    split
    · next trust e hupsert =>
      refine .saves trusted fails hunfinished rfl rfl ?_ rfl
      rw [hupsert]
      rfl
    · next trust hupsert =>
      refine .saves trusted fails hunfinished rfl rfl ?_ rfl
      rw [hupsert]

/-- A session that receives a message has moved. -/
theorem receives (body : Bytes) : Moved w (w.step deps (.receive body)) move := by
  simp only [step]
  split
  · next hstage =>
    have hquiet : w.stage.told = true → False := by
      rw [hstage]
      exact Bool.false_ne_true
    unfold receiveHello
    split
    · exact stops _
    · simp only
      split
      · exact .goes (fun _ => rfl) rfl rfl rfl
      · exact .goes (fun h => (hquiet h).elim) rfl rfl rfl
  · next hstage =>
    have hquiet : w.stage.told = true → False := by
      rw [hstage]
      exact Bool.false_ne_true
    unfold receiveEarly
    split
    · exact stops _
    · split
      · exact stops _
      · exact .goes (fun h => (hquiet h).elim) rfl rfl rfl
  · unfold receiveConfirm
    split
    · exact stops _
    · exact settles _ _
  · exact stays

/-- A session that has written its Confirm has moved. -/
theorem confirms {h : PairHellos} {accept : Bool} {body : Bytes} {early : Option PairConfirm} :
    Moved w (confirmed deps w h accept body early) move := by
  unfold confirmed
  simp only
  split
  · exact .goes (fun _ => rfl) rfl rfl rfl
  · split
    · unfold settle
      split
      · exact .goes (fun _ => rfl) rfl rfl rfl
      · exact .goes (fun _ => rfl) rfl rfl rfl
    · exact .goes (fun _ => rfl) rfl rfl rfl

end Moved

/-- **Every step** of a session is one of them. -/
theorem moved {move : PairMove} (hmove : ∀ trust, move ≠ .trustChanges trust) :
    Moved w (w.step deps move) move := by
  cases move with
  | connected nonce =>
      simp only [step]
      split
      · next hstage =>
        unfold connected
        split
        · exact .stops _
        · refine .goes (fun h => ?_) rfl rfl rfl
          rw [hstage] at h
          exact absurd h Bool.false_ne_true
      · exact .stays
  | receive body => exact .receives body
  | verdict accept =>
      simp only [step]
      -- the verdict is taken at two stages, with the peer's Confirm in hand or without
      split
      · next hstage => exact .decides _ none (by rw [hstage]; rfl)
      · next hstage => exact .decides _ (some _) (by rw [hstage]; rfl)
      · exact .stays
  | verdictDropped =>
      simp only [step]
      split
      · exact .stops _
      · exact .stops _
      · exact .stays
  | sent =>
      simp only [step]
      split
      · exact .confirms
      · exact .stays
  | persist now fails =>
      simp only [step]
      split
      · next hstage => exact .persists hstage now fails
      · exact .stays
  | fail e =>
      simp only [step]
      split
      · exact .stays
      · exact .stops _
  | machineSigns message => exact .goes id rfl rfl rfl
  | otherSigns key message =>
      simp only [step]
      split
      · exact .stays
      · exact .goes id rfl rfl rfl
  | trustChanges trust => exact absurd rfl (hmove trust)

/-- A verdict that a session waits for is taken, and the user has spoken from then on. -/
theorem step_verdict (deps : PairDeps) (accept : Bool) (h : w.stage.takesVerdict = true) :
    (w.step deps (.verdict accept)).verdict = some accept ∧
      (w.step deps (.verdict accept)).stage.told = true := by
  cases hstage : w.stage with
  | deciding hellos =>
      simp only [step, hstage, decided]
      split <;> exact ⟨rfl, rfl⟩
  | awaitsVerdict hellos early =>
      simp only [step, hstage, decided]
      split <;> exact ⟨rfl, rfl⟩
  | _ =>
      rw [hstage] at h
      exact absurd h Bool.false_ne_true

/-- A session that is over stays so, at the same end. -/
theorem step_stage_of_finished (move : PairMove) (h : w.stage.isFinished = true) :
    (w.step deps move).stage = w.stage := by
  cases hstage : w.stage with
  | completed | failed e =>
      cases move with
      | fail e' => simp [step, hstage, PairStage.isFinished]
      | otherSigns key message =>
          simp only [step]
          split <;> exact hstage
      | _ => simp [step, hstage]
  | _ =>
      rw [hstage] at h
      exact absurd h Bool.false_ne_true

/-- A session that has ended counts as told. -/
theorem told_of_isFinished (h : w.stage.isFinished = true) : w.stage.told = true := by
  cases hstage : w.stage with
  | completed | failed e => rfl
  | _ =>
      rw [hstage] at h
      exact absurd h Bool.false_ne_true

end Pairing

namespace PairingSupervisor

variable {s s' : PairingSupervisor} {t : SessionTask} {id : String}

/-! ## The invariant -/

/-- The sessions on their way to the supervisor: those in its channel, and the one that waits to be
put there. -/
def queue (s : PairingSupervisor) : List String := s.offered.toList ++ s.incoming

/-- **What holds of each session**: its id was minted, the supervisor can reach it when it is to, and
what it has been told was said. -/
structure Sound (s : PairingSupervisor) (t : SessionTask) : Prop where
  named : ∃ now n, n < s.minted ∧ t.sessionId = newSessionId now n
  reachable : t.phase ≠ .unregistered → t.isFinished = false → t.answered = false →
    t.sessionId ∈ s.confirm
  held : t.sessionId ∈ s.confirm → t.answered = false ∧ t.phase ≠ .unregistered
  queued : t.sessionId ∈ s.queue ↔ t.phase = .unregistered
  quiet : t.phase = .unregistered → t.answered = false
  verdicts : ∀ a, t.verdict = some a ∨ t.session.verdict = some a → (t.sessionId, a) ∈ s.answers
  silent : t.answered = false → t.verdict = none ∧ ∀ a, (t.sessionId, a) ∉ s.answers
  waits : t.answered = true → t.verdict.isSome = true ∨ t.session.stage.told = true ∨ t.phase = .over
  inv : t.session.Inv t.deps

/-- **The registry is in order**: ids are distinct, each session is sound, and what the supervisor
knows of is a session that there is. -/
structure Registered (s : PairingSupervisor) : Prop where
  nodup : (s.sessions.map SessionTask.sessionId).Nodup
  sound : ∀ t ∈ s.sessions, s.Sound t
  order : s.queue.Nodup
  once : (s.answers.map Prod.fst).Nodup
  known : ∀ id, id ∈ s.confirm ∨ id ∈ s.queue ∨ (∃ a, (id, a) ∈ s.answers) →
    id ∈ s.sessions.map SessionTask.sessionId

/-- A session of which the records say what they said is as sound as it was. -/
theorem Sound.frame (h : s.Sound t) (hminted : s.minted ≤ s'.minted)
    (hconfirm : t.sessionId ∈ s'.confirm ↔ t.sessionId ∈ s.confirm)
    (hqueue : t.sessionId ∈ s'.queue ↔ t.sessionId ∈ s.queue)
    (hanswers : ∀ a, (t.sessionId, a) ∈ s'.answers ↔ (t.sessionId, a) ∈ s.answers) : s'.Sound t where
  named := by
    obtain ⟨now, n, hn, hid⟩ := h.named
    exact ⟨now, n, Nat.lt_of_lt_of_le hn hminted, hid⟩
  reachable hphase hrunning hanswered := hconfirm.mpr (h.reachable hphase hrunning hanswered)
  held hmem := h.held (hconfirm.mp hmem)
  queued := hqueue.trans h.queued
  quiet := h.quiet
  verdicts a ha := (hanswers a).mpr (h.verdicts a ha)
  silent hanswered := by
    obtain ⟨hverdict, hnone⟩ := h.silent hanswered
    exact ⟨hverdict, fun a ha => hnone a ((hanswers a).mp ha)⟩
  waits := h.waits
  inv := h.inv

namespace Registered

/-- A registry that has just been made is in order. -/
theorem start (deps : PairDeps) (trust : TrustedPeerStore) : (start deps trust).Registered where
  nodup := List.nodup_nil
  sound t ht := absurd ht List.not_mem_nil
  order := List.nodup_nil
  once := List.nodup_nil
  known id hid := by
    rcases hid with hid | hid | ⟨a, hid⟩
    · exact absurd hid List.not_mem_nil
    · exact absurd hid List.not_mem_nil
    · exact absurd hid List.not_mem_nil

/-- The session of an id is found, as ids are distinct. -/
theorem session_eq (h : s.Registered) (ht : t ∈ s.sessions) : s.session t.sessionId = some t :=
  (Keyed.find_eq_some_iff h.nodup).mpr ⟨ht, rfl⟩

/-- A session that is found is there, under its id. -/
theorem mem_of_session (h : s.session id = some t) : t ∈ s.sessions ∧ t.sessionId = id :=
  Keyed.mem_of_find h

/-- A session has ended exactly if its task has. -/
theorem ended_eq (h : s.Registered) (ht : t ∈ s.sessions) : s.ended t.sessionId = t.isFinished := by
  rw [ended, h.session_eq ht]

/-- **Collecting what has ended** forgets no session that can still be answered. -/
theorem gc (h : s.Registered) : s.gcPairingTasks.Registered where
  nodup := h.nodup
  sound t ht := by
    have hs := h.sound t ht
    exact
      { hs with
        reachable := fun hphase hrunning hanswered =>
          List.mem_filter.mpr ⟨hs.reachable hphase hrunning hanswered, by
            rw [h.ended_eq ht, hrunning]
            rfl⟩
        held := fun hmem => hs.held (List.mem_filter.mp hmem).1 }
  order := h.order
  once := h.once
  known id hid := h.known id (hid.imp_left fun hmem => (List.mem_filter.mp hmem).1)

/-- The registry stays in order when sessions change, each to one that is sound, and the books about
them do not. -/
theorem of_sessions (h : s.Registered) (hminted : s'.minted = s.minted)
    (hconfirm : s'.confirm = s.confirm) (hqueue : s'.queue.Perm s.queue)
    (hanswers : s'.answers = s.answers)
    (hids : s'.sessions.map SessionTask.sessionId = s.sessions.map SessionTask.sessionId)
    (hsound : ∀ t ∈ s'.sessions, s.Sound t) : s'.Registered where
  nodup := by
    rw [hids]
    exact h.nodup
  sound t ht := (hsound t ht).frame hminted.ge (by rw [hconfirm]) hqueue.mem_iff
    (fun a => by rw [hanswers])
  order := hqueue.nodup_iff.mpr h.order
  once := by
    rw [hanswers]
    exact h.once
  known id hid := by
    rw [hids]
    rw [hconfirm, hanswers, hqueue.mem_iff] at hid
    exact h.known id hid

/-- The ids of the sessions after one of them has changed. -/
theorem map_update (s : PairingSupervisor) (id : String) (f : SessionTask → SessionTask)
    (hkey : ∀ t, (f t).sessionId = t.sessionId) :
    (s.update id f).sessions.map SessionTask.sessionId = s.sessions.map SessionTask.sessionId := by
  rw [update, List.map_map]
  refine List.map_congr_left fun t _ => ?_
  rw [Function.comp_apply]
  split
  · exact hkey t
  · rfl

/-- **One session changes**, to one that is sound, and the registry stays in order. -/
theorem updated (h : s.Registered) {f : SessionTask → SessionTask}
    (hkey : ∀ t, (f t).sessionId = t.sessionId)
    (hf : ∀ t ∈ s.sessions, t.sessionId = id → s.Sound (f t)) (trust : TrustedPeerStore) :
    ({ s.update id f with trust := trust } : PairingSupervisor).Registered := by
  refine h.of_sessions rfl rfl (List.Perm.refl _) rfl (map_update s id f hkey) ?_
  intro t' ht'
  obtain ⟨t, ht, rfl⟩ := List.mem_map.mp ht'
  split
  · next hid => exact hf t ht hid
  · exact h.sound t ht

/-! ## Sessions that begin -/

/-- The next id is that of no session, as the counter only rises. -/
theorem fresh (h : s.Registered) (now : ℕ) :
    newSessionId now s.minted ∉ s.sessions.map SessionTask.sessionId := by
  intro hid
  obtain ⟨t, ht, heq⟩ := List.mem_map.mp hid
  obtain ⟨now', n, hn, hnamed⟩ := (h.sound t ht).named
  rw [hnamed] at heq
  exact Nat.ne_of_lt hn (newSessionId_injective heq)

/-- **A session begins**, known to the supervisor or on its way to it. -/
theorem enter (h : s.Registered) (now : ℕ) (expectedPeerId : Option String) {phase : TaskPhase}
    (slot : Option ℕ) (hphase : phase = .connecting ∨ phase = .unregistered)
    (hsessions : s'.sessions = (s.spawn now expectedPeerId phase slot).sessions)
    (hminted : s'.minted = s.minted + 1) (hanswers : s'.answers = s.answers)
    (hconfirm : ∀ id, id ∈ s'.confirm ↔
      id ∈ s.confirm ∨ phase = .connecting ∧ id = newSessionId now s.minted)
    (hqueue : ∀ id, id ∈ s'.queue ↔
      id ∈ s.queue ∨ phase = .unregistered ∧ id = newSessionId now s.minted)
    (hnodup : s'.queue.Nodup) : s'.Registered := by
  have hfresh := h.fresh now
  -- no record speaks of the new id
  have hunspoken : newSessionId now s.minted ∉ s.confirm ∧ newSessionId now s.minted ∉ s.queue ∧
      ∀ a, (newSessionId now s.minted, a) ∉ s.answers :=
    ⟨fun hid => hfresh (h.known _ (Or.inl hid)), fun hid => hfresh (h.known _ (Or.inr (Or.inl hid))),
      fun a ha => hfresh (h.known _ (Or.inr (Or.inr ⟨a, ha⟩)))⟩
  have hids : s'.sessions.map SessionTask.sessionId =
      s.sessions.map SessionTask.sessionId ++ [newSessionId now s.minted] := by
    rw [hsessions, spawn, List.map_append, List.map_singleton]
  constructor
  · rw [hids, List.nodup_append]
    refine ⟨h.nodup, List.nodup_singleton _, ?_⟩
    rintro id hid id' hid' rfl
    rw [List.mem_singleton.mp hid'] at hid
    exact hfresh hid
  · intro t ht
    rw [hsessions, spawn] at ht
    rcases List.mem_append.mp ht with ht | ht
    · have hne : t.sessionId ≠ newSessionId now s.minted := fun heq =>
        hfresh (heq ▸ List.mem_map_of_mem ht)
      refine (h.sound t ht).frame (by omega) ?_ ?_ (fun a => by rw [hanswers])
      · rw [hconfirm]
        exact or_iff_left fun hnew => hne hnew.2
      · rw [hqueue]
        exact or_iff_left fun hnew => hne hnew.2
    · rw [List.mem_singleton.mp ht]
      constructor
      · exact ⟨now, s.minted, by omega, rfl⟩
      · intro hreg _ _
        exact (hconfirm _).mpr (Or.inr ⟨hphase.resolve_right hreg, rfl⟩)
      · intro hid
        rcases (hconfirm _).mp hid with hid | ⟨hid, -⟩
        · exact absurd hid hunspoken.1
        · refine ⟨rfl, ?_⟩
          rw [show phase = .connecting from hid]
          exact TaskPhase.noConfusion
      · refine ⟨fun hid => ?_, fun hreg => (hqueue _).mpr (Or.inr ⟨hreg, rfl⟩)⟩
        rcases (hqueue _).mp hid with hid | ⟨hid, -⟩
        · exact absurd hid hunspoken.2.1
        · exact hid
      · intro _
        rfl
      · intro a ha
        rcases ha with ha | ha
        · cases ha
        · cases ha
      · intro _
        refine ⟨rfl, fun a ha => ?_⟩
        rw [hanswers] at ha
        exact hunspoken.2.2 a ha
      · intro hanswered
        cases hanswered
      · exact Pairing.Inv.start _ _
  · exact hnodup
  · rw [hanswers]
    exact h.once
  · intro id hid
    rw [hids, List.mem_append, List.mem_singleton]
    rw [hconfirm, hqueue, hanswers] at hid
    rcases hid with (hid | ⟨-, hid⟩) | (hid | ⟨-, hid⟩) | hid
    · exact Or.inl (h.known id (Or.inl hid))
    · exact Or.inr hid
    · exact Or.inl (h.known id (Or.inr (Or.inl hid)))
    · exact Or.inr hid
    · exact Or.inl (h.known id (Or.inr (Or.inr hid)))

/-- A session that is opened gets a new id, and the registry stays in order. -/
theorem startPairing (h : s.Registered) (now : ℕ) (machineId : String) :
    (s.startPairing now machineId).1.Registered := by
  unfold PairingSupervisor.startPairing
  simp only
  split
  · exact h.gc
  · split
    · exact h.gc
    · next peer _ =>
      refine gc (h.gc.enter now (some peer.machineId) none (Or.inl rfl) rfl rfl rfl ?_ ?_ ?_)
      · intro id
        refine List.mem_append.trans (or_congr_right ?_)
        rw [List.mem_singleton]
        exact (and_iff_right rfl).symm
      · intro id
        refine (or_iff_left ?_).symm
        rintro ⟨hphase, -⟩
        cases hphase
      · exact h.gc.order

/-- A connection that is accepted gets a session with a new id, and the registry stays in order. -/
theorem accept (h : s.Registered) (now : ℕ) : (s.accept now).Registered := by
  unfold PairingSupervisor.accept
  split
  · exact h
  · next listener _ =>
    split
    · next hfree =>
      have hnone : s.offered = none := Option.isNone_iff_eq_none.mp hfree.1
      refine h.enter now none (some listener) (Or.inr rfl) rfl rfl rfl ?_ ?_ ?_
      · intro id
        refine (or_iff_left ?_).symm
        rintro ⟨hphase, -⟩
        cases hphase
      · intro id
        rw [queue, queue, hnone, Option.toList_none, List.nil_append]
        refine List.mem_cons.trans (or_comm.trans (or_congr_right ?_))
        exact (and_iff_right rfl).symm
      · refine List.nodup_cons.mpr ⟨fun hid => ?_, ?_⟩
        · exact h.fresh now (h.known _ (Or.inr (Or.inl (List.mem_append_right _ hid))))
        · have horder := h.order
          rw [queue, hnone] at horder
          exact horder
    · exact h

/-! ## Verdicts -/

/-- **A verdict is given** to the session of its id, and to no other. -/
theorem confirmPairing (h : s.Registered) (id : String) (accept : Bool) :
    (s.confirmPairing id accept).1.Registered := by
  unfold PairingSupervisor.confirmPairing
  split
  · next hmem =>
    have hids := map_update s id (fun t =>
      { t with answered := true, verdict := if t.isFinished then t.verdict else some accept })
      fun _ => rfl
    -- the session that is told: it is there, is waited for, and nothing has been said to it yet
    obtain ⟨told, htold, hid⟩ := List.mem_map.mp (h.known id (Or.inl hmem))
    have hheld := (h.sound told htold).held (by rw [hid]; exact hmem)
    have hsilent := (h.sound told htold).silent hheld.1
    constructor
    · rw [hids]
      exact h.nodup
    · intro t' ht'
      obtain ⟨t, ht, rfl⟩ := List.mem_map.mp ht'
      by_cases heq : t.sessionId = id
      · rw [if_pos heq]
        -- two entries of one id are one entry
        have htt : t = told := List.inj_on_of_nodup_map h.nodup ht htold (heq.trans hid.symm)
        subst htt
        have hs := h.sound t ht
        constructor
        · exact hs.named
        · intro _ _ hanswered
          cases hanswered
        · intro hconfirm
          have hne := (List.mem_filter.mp hconfirm).2
          rw [decide_eq_true_eq] at hne
          exact absurd heq hne
        · exact hs.queued
        · intro hphase
          exact absurd hphase hheld.2
        · intro a ha
          refine List.mem_append.mpr ?_
          rcases ha with ha | ha
          · -- what is in the channel is this verdict
            simp only at ha
            split at ha
            · rw [hsilent.1] at ha
              cases ha
            · cases ha
              exact Or.inr (List.mem_singleton.mpr (by rw [heq]))
          · exact Or.inl (hs.verdicts a (Or.inr ha))
        · intro hanswered
          cases hanswered
        · intro _
          -- a session that has ended by now hears of nothing, and needs to
          by_cases hfinished : t.isFinished = true
          · refine Or.inr ?_
            unfold SessionTask.isFinished at hfinished
            split at hfinished
            · next hover => exact Or.inr hover
            · exact Or.inl (Pairing.told_of_isFinished hfinished)
            · cases hfinished
          · simp only [if_neg hfinished]
            exact Or.inl rfl
        · exact hs.inv
      · rw [if_neg heq]
        -- another session: what is noted is not about it
        refine (h.sound t ht).frame (Nat.le_refl _) ?_ Iff.rfl fun a => ?_
        · refine List.mem_filter.trans (and_iff_left ?_)
          rw [decide_eq_true_eq]
          exact heq
        · refine List.mem_append.trans (or_iff_left fun hlast => heq ?_)
          rw [List.mem_singleton] at hlast
          exact congrArg Prod.fst hlast
    · exact h.order
    · show (List.map Prod.fst (s.answers ++ [(id, accept)])).Nodup
      rw [List.map_append, List.map_singleton, List.nodup_append]
      -- no verdict of this id has been noted before
      refine ⟨h.once, List.nodup_singleton _, ?_⟩
      rintro x hx y hy rfl
      rw [List.mem_singleton.mp hy] at hx
      obtain ⟨⟨y, a⟩, hanswer, rfl⟩ := List.mem_map.mp hx
      exact hsilent.2 a (hid ▸ hanswer)
    · intro x hx
      rw [hids]
      refine h.known x ?_
      rcases hx with hx | hx | ⟨a, hx⟩
      · exact Or.inl (List.mem_filter.mp hx).1
      · exact Or.inr (Or.inl hx)
      · rcases List.mem_append.mp hx with hx | hx
        · exact Or.inr (Or.inr ⟨a, hx⟩)
        · rw [List.mem_singleton] at hx
          have heq : x = id := congrArg Prod.fst hx
          rw [heq]
          exact Or.inl hmem
  · exact h

/-! ## The queue of the supervisor -/

/-- A session that is offered to the loop leaves the listener's hands, and the registry stays in
order. -/
theorem offer (h : s.Registered) : s.offer.Registered := by
  unfold PairingSupervisor.offer
  split
  · exact h
  · next id hid =>
    split
    · refine h.of_sessions rfl rfl ?_ rfl rfl h.sound
      rw [queue, queue, hid]
      show (s.incoming ++ [id]).Perm ([id] ++ s.incoming)
      exact List.perm_append_comm
    · exact h

/-- **The supervisor takes a session over**: it holds its sender before the session may run. -/
theorem takeIncoming (h : s.Registered) : s.takeIncoming.Registered := by
  unfold PairingSupervisor.takeIncoming
  split
  · exact h
  · next id rest hincoming =>
    refine gc ?_
    have hqueue : s.queue.Perm (id :: (s.offered.toList ++ rest)) := by
      rw [queue, hincoming]
      exact List.perm_middle
    have horder := List.nodup_cons.mp (hqueue.nodup_iff.mp h.order)
    have hmem : id ∈ s.queue := hqueue.mem_iff.mpr List.mem_cons_self
    have hids := map_update s id (fun t => { t with phase := .running }) fun _ => rfl
    constructor
    -- the id moves from the queue to the verdicts that are waited for, and nowhere else
    · exact (congrArg List.Nodup hids).mpr h.nodup
    · intro t' ht'
      obtain ⟨t, ht, rfl⟩ := List.mem_map.mp ht'
      have hs := h.sound t ht
      by_cases heq : t.sessionId = id
      · rw [if_pos heq]
        have hphase := hs.queued.mp (heq ▸ hmem)
        constructor
        · exact hs.named
        · intro _ _ _
          exact List.mem_append_right _ (List.mem_singleton.mpr heq)
        · intro _
          exact ⟨hs.quiet hphase, TaskPhase.noConfusion⟩
        · refine ⟨fun hqueued => ?_, TaskPhase.noConfusion⟩
          -- an id is in the queue once, so it is not there any more
          exact absurd (heq ▸ hqueued) horder.1
        · exact TaskPhase.noConfusion
        · exact hs.verdicts
        · exact hs.silent
        · intro hanswered
          have hquiet : t.answered = false := hs.quiet hphase
          rw [show t.answered = true from hanswered] at hquiet
          cases hquiet
        · exact hs.inv
      · rw [if_neg heq]
        refine hs.frame (Nat.le_refl _) ?_ ?_ (fun a => Iff.rfl)
        · refine List.mem_append.trans (or_iff_left fun hlast => heq ?_)
          exact List.mem_singleton.mp hlast
        · rw [hqueue.mem_iff, List.mem_cons, or_iff_right heq]
          rfl
    · exact horder.2
    · exact h.once
    · intro x hx
      refine (congrArg (x ∈ ·) hids).mpr (h.known x ?_)
      rcases hx with hx | hx | hx
      · rcases List.mem_append.mp hx with hx | hx
        · exact Or.inl hx
        · rw [List.mem_singleton.mp hx]
          exact Or.inr (Or.inl hmem)
      · exact Or.inr (Or.inl (hqueue.mem_iff.mpr (List.mem_cons_of_mem _ hx)))
      · exact Or.inr (Or.inr hx)

/-- **Sessions on their way are dropped**: they end, and the queue no longer has them. -/
theorem dropped (h : s.Registered) {ids : List String} (hsub : ids ⊆ s.queue)
    (hsessions : s'.sessions = (s.drop ids).sessions) (hminted : s'.minted = s.minted)
    (hconfirm : s'.confirm = s.confirm) (hanswers : s'.answers = s.answers)
    (hqueue : (ids ++ s'.queue).Perm s.queue) : s'.Registered := by
  have horder := List.nodup_append.mp (hqueue.nodup_iff.mpr h.order)
  have hids : s'.sessions.map SessionTask.sessionId = s.sessions.map SessionTask.sessionId := by
    rw [hsessions, drop, List.map_map]
    refine List.map_congr_left fun t _ => ?_
    rw [Function.comp_apply]
    split <;> rfl
  constructor
  · rw [hids]
    exact h.nodup
  · intro t' ht'
    rw [hsessions] at ht'
    obtain ⟨t, ht, rfl⟩ := List.mem_map.mp ht'
    have hs := h.sound t ht
    -- a session that is dropped ends with its phase, and its stage does not matter then
    by_cases hmem : t.sessionId ∈ ids
    · rw [if_pos hmem]
      have hphase := hs.queued.mp (hsub hmem)
      constructor
      · rw [hminted]
        exact hs.named
      · intro _ hrunning _
        cases hrunning
      · intro hheld
        rw [hconfirm] at hheld
        exact absurd hphase (hs.held hheld).2
      · refine ⟨fun hqueued => ?_, TaskPhase.noConfusion⟩
        exact absurd rfl (horder.2.2 _ hmem _ hqueued)
      · exact TaskPhase.noConfusion
      · rw [hanswers]
        exact hs.verdicts
      · rw [hanswers]
        exact hs.silent
      · intro _
        exact Or.inr (Or.inr rfl)
      · exact hs.inv
    · rw [if_neg hmem]
      refine hs.frame hminted.ge (by rw [hconfirm]) ?_ (fun a => by rw [hanswers])
      rw [← hqueue.mem_iff, List.mem_append, or_iff_right hmem]
  · exact horder.2.1
  · rw [hanswers]
    exact h.once
  · intro x hx
    rw [hids]
    rw [hconfirm, hanswers] at hx
    refine h.known x (hx.imp_right fun hx => hx.imp_left fun hx => ?_)
    exact hqueue.mem_iff.mp (List.mem_append_right _ hx)

/-- A listener that is taken down drops the sessions on their way, and the registry stays in order.
-/
theorem retireListener (h : s.Registered) (withChannel : Bool) :
    (s.retireListener withChannel).Registered := by
  cases withChannel with
  | true =>
      refine h.dropped (List.Subset.refl _) rfl rfl rfl rfl ?_
      show (s.queue ++ []).Perm s.queue
      rw [List.append_nil]
  | false => exact h.dropped (List.subset_append_left _ _) rfl rfl rfl rfl (List.Perm.refl _)

/-- A listener that is bound has none on their way, and the registry stays in order. -/
theorem bindListener (h : s.Registered) : s.bindListener.Registered := by
  refine h.dropped (List.subset_append_right _ _) rfl rfl rfl rfl ?_
  show (s.incoming ++ (s.offered.toList ++ [])).Perm s.queue
  rw [List.append_nil]
  exact List.perm_append_comm

/-! ## The sessions -/

/-- A connection that comes up or fails keeps the registry in order. -/
theorem connect (h : s.Registered) (id : String) (ok : Bool) : (s.connect id ok).Registered := by
  refine h.updated (fun t => ?_) (fun t ht _ => ?_) s.trust
  · split <;> rfl
  · split
    · next hphase =>
      have hs := h.sound t ht
      -- whether the connection comes up or not, a verdict is as far as it was
      have hwaits : t.answered = true → t.verdict.isSome = true ∨ t.session.stage.told = true := by
        intro hanswered
        rcases hs.waits hanswered with hwaits | hwaits | hwaits
        · exact Or.inl hwaits
        · exact Or.inr hwaits
        · rw [hphase] at hwaits
          cases hwaits
      have hqueued : t.sessionId ∉ s.queue := fun hmem => by
        have hreg := hs.queued.mp hmem
        rw [hphase] at hreg
        cases hreg
      have hreachable : t.answered = false → t.sessionId ∈ s.confirm := by
        refine hs.reachable ?_ ?_
        · rw [hphase]
          exact TaskPhase.noConfusion
        · rw [SessionTask.isFinished, hphase]
      have hnext : (if ok then TaskPhase.running else .over) ≠ .unregistered := by
        split <;> exact TaskPhase.noConfusion
      exact
        { named := hs.named
          reachable := fun _ _ => hreachable
          held := fun hmem => ⟨(hs.held hmem).1, hnext⟩
          queued := ⟨fun hmem => absurd hmem hqueued, fun hreg => absurd hreg hnext⟩
          quiet := fun hreg => absurd hreg hnext
          verdicts := hs.verdicts
          silent := hs.silent
          waits := fun hanswered => (hwaits hanswered).imp_right Or.inl
          inv := hs.inv }
    · exact h.sound t ht

/-- A task that runs has ended exactly if its session has. -/
theorem isFinished_eq (hphase : t.phase = .running) : t.isFinished = t.session.stage.isFinished := by
  rw [SessionTask.isFinished, hphase]

/-- A session that runs is as sound after a step, if the verdict it takes is the one of its channel. -/
theorem sound_run (hs : s.Sound t) (hphase : t.phase = .running) {move : PairMove}
    (hmove : ∀ trust, move ≠ .trustChanges trust) {verdict : Option Bool}
    (htaken : ∀ a, move = .verdict a → t.verdict = some a)
    (hleft : verdict = t.verdict ∨ verdict = none ∧ ∃ a, move = .verdict a ∧
      t.session.stage.takesVerdict = true) :
    s.Sound { s.run t move with verdict := verdict } := by
  have hinv : ({ t.session with trust := s.trust } : Pairing).Inv t.deps :=
    hs.inv.bystander t.session.sent s.trust
  have hmoved : Pairing.Moved { t.session with trust := s.trust } (s.run t move).session move :=
    Pairing.moved hmove
  constructor
  · exact hs.named
  · intro hreg hrunning hanswered
    refine hs.reachable hreg ?_ hanswered
    -- a session that has ended takes no step, so one that still runs had not ended
    by_contra hfinished
    rw [Bool.not_eq_false, isFinished_eq hphase] at hfinished
    have hstage : (s.run t move).session.stage = t.session.stage :=
      Pairing.step_stage_of_finished move hfinished
    have hphase' : ({ s.run t move with verdict := verdict } : SessionTask).phase = .running := hphase
    rw [isFinished_eq hphase', hstage, hfinished] at hrunning
    cases hrunning
  · exact hs.held
  · exact hs.queued
  · exact hs.quiet
  · intro a ha
    rcases ha with ha | ha
    · rcases hleft with hleft | ⟨hleft, -⟩
      · exact hs.verdicts a (Or.inl (hleft ▸ ha))
      · rw [show verdict = some a from ha] at hleft
        cases hleft
    -- the session has heard it now or before
    · have hsession : (s.run t move).session.verdict = some a := ha
      cases hmoved with
      | told accept takes _ _ hverdict _ _ =>
          rw [hverdict] at hsession
          cases hsession
          exact hs.verdicts a (Or.inl (htaken a takes))
      | saves _ _ _ _ hverdict _ _ =>
          rw [hverdict] at hsession
          exact hs.verdicts a (Or.inr hsession)
      | goes _ hverdict _ _ =>
          rw [hverdict] at hsession
          exact hs.verdicts a (Or.inr hsession)
  · intro hanswered
    obtain ⟨hnone, hanswers⟩ := hs.silent hanswered
    refine ⟨?_, hanswers⟩
    rcases hleft with hleft | ⟨hleft, -⟩
    · exact hleft.trans hnone
    · exact hleft
  · intro hanswered
    -- the verdict is still in the channel, or this very step takes it out
    rcases hs.waits hanswered with hwaits | hwaits | hwaits
    · rcases hleft with hleft | ⟨-, a, rfl, htakes⟩
      · refine Or.inl ?_
        rw [show ({ s.run t move with verdict := verdict } : SessionTask).verdict = t.verdict from hleft]
        exact hwaits
      · have htold := (Pairing.step_verdict (w := { t.session with trust := s.trust }) t.deps a htakes).2
        exact Or.inr (Or.inl htold)
    · refine Or.inr (Or.inl ?_)
      cases hmoved with
      | told _ _ _ hstage _ _ _ => exact hstage
      | saves _ _ _ hstage _ _ _ => exact hstage
      | goes hstage _ _ _ => exact hstage hwaits
    · rw [hphase] at hwaits
      cases hwaits
  · exact hinv.step move

/-- A session that runs may take a step, and give its verdict up as it takes it; the registry stays in
order. -/
theorem updated_run (h : s.Registered) (hsession : s.session id = some t) (hphase : t.phase = .running)
    (move : PairMove) (hmove : ∀ trust, move ≠ .trustChanges trust)
    (verdict : SessionTask → Option Bool) (htaken : ∀ a, move = .verdict a → t.verdict = some a)
    (hleft : verdict t = t.verdict ∨ verdict t = none ∧ ∃ a, move = .verdict a ∧
      t.session.stage.takesVerdict = true) (trust : TrustedPeerStore) :
    ({ s.update id fun t => { s.run t move with verdict := verdict t } with trust := trust } :
      PairingSupervisor).Registered := by
  obtain ⟨ht, hid⟩ := mem_of_session hsession
  refine h.updated (f := fun t => { s.run t move with verdict := verdict t }) (fun _ => rfl)
    (fun t' ht' hid' => ?_) trust
  have heq : t' = t := List.inj_on_of_nodup_map h.nodup ht' ht (hid'.trans hid.symm)
  subst heq
  exact sound_run (h.sound t' ht) hphase hmove htaken hleft

/-- A step of a session keeps the registry in order. -/
theorem stepSession (h : s.Registered) (id : String) (move : PairMove) :
    (s.stepSession id move).Registered := by
  unfold PairingSupervisor.stepSession
  split
  · exact h
  · next t hsession =>
    split
    · exact h
    · next hphase =>
      rw [ne_eq, not_not] at hphase
      split
      · split
        -- the verdict in the channel is taken, and leaves it empty
        · next hverdict =>
          refine h.updated_run hsession hphase _ (fun _ => PairMove.noConfusion) (fun _ => none)
            (fun a ha => ?_) (Or.inr ⟨rfl, _, rfl, hverdict.2⟩) s.trust
          cases ha
          exact hverdict.1
        · exact h
      · split
        -- no verdict can come any more
        · refine h.updated_run hsession hphase .verdictDropped ?_ (fun t => t.verdict) ?_ (Or.inl rfl)
            s.trust
          · intro _ hmove
            cases hmove
          · intro a ha
            cases ha
        · exact h
      · exact h
      · next hverdict _ htrust =>
        exact h.updated_run hsession hphase _ htrust (fun t => t.verdict)
          (fun a ha => absurd ha (hverdict a)) (Or.inl rfl) _

/-- **Every step** keeps the registry in order, of the supervisor as of a session. -/
theorem step (h : s.Registered) (input : PairingInput) : (s.step input).Registered := by
  cases input with
  | startPairing now machineId => exact h.startPairing now machineId
  | confirmPairing id accept => exact h.confirmPairing id accept
  | gc => exact h.gc
  | accept now => exact h.accept now
  | offer => exact h.offer
  | takeIncoming => exact h.takeIncoming
  | rename displayName =>
      have hrenamed : ({ s with deps := { s.deps with displayName := displayName } } :
          PairingSupervisor).Registered :=
        h.of_sessions rfl rfl (List.Perm.refl _) rfl rfl h.sound
      exact hrenamed.retireListener false
  | retireListener => exact h.retireListener true
  | bindListener =>
      simp only [PairingSupervisor.step]
      split
      · exact h.bindListener
      · exact h
  | connect id ok => exact h.connect id ok
  | session id move => exact h.stepSession id move
  | found _ | lost _ | revokeTrust _ _ => exact h.of_sessions rfl rfl (List.Perm.refl _) rfl rfl h.sound

/-- **Every run** keeps the registry in order, from the start of the daemon. -/
theorem after (deps : PairDeps) (trust : TrustedPeerStore) (inputs : List PairingInput) (n : ℕ) :
    (Run.after PairingSupervisor.step (PairingSupervisor.start deps trust) inputs n).Registered :=
  Run.invariant (start deps trust) (fun _ _ _ h => h.step _) n

end Registered

end PairingSupervisor

end Synbad
