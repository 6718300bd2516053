import Synbad.Supervisor.Files
import Synbad.Sync.Node

/-! # What a step does to the sync bookkeeping

One inversion lemma for all steps of a node: what can become of an outbound session, where a new
session comes from, how an entry gets into the table of tasks and how a head gets confirmed. Nothing
about runs is proved from the step function again; it is proved from this.

There are three such lemmas, each over every kind of step. `step_steps` is about the outbound side:
the sessions, the table of tasks and the confirmed heads, with dialing as the one way in which a
session begins. `step_serves` is about the inbound sessions and the channel to the loop. `step_writes`
says who writes the document and the trust store: the loop writes the one, revocations and pairings
the other, and sessions write neither. An argument about runs takes the one it needs, goes through its
cases, and never sees the branches of the step function. The last section has what these mean for the
stamps of the document. -/

namespace Synbad

/-! ## Outbound sessions -/

namespace Outbound

/-- What can become of an outbound session by a step of its own: what it has found or checked on the
way is part of it. -/
inductive Advances (deps : SyncDeps) (store : TrustedPeerStore) (o : Outbound) : Outbound → Prop
  | stay : Advances deps store o o
  | failed (e : SessionError) (live : o.stage.isFinished = false) :
      Advances deps store o { o with stage := .finished (.error e) }
  | dropped (live : o.stage.isFinished = false) : Advances deps store o { o with stage := .dropped }
  | found (trusted : TrustedPeer) (stage : o.stage = .spawned)
      (entry : store.get o.peer.machineId = some trusted) :
      Advances deps store o { o with stage := .connecting trusted }
  | connected (trusted : TrustedPeer) (pk : Bytes.Arr 32) (stage : o.stage = .connecting trusted) :
      Advances deps store o { o with stage := .handshaking trusted pk }
  | handshaken (trusted : TrustedPeer) (pk : Bytes.Arr 32) (stage : o.stage = .handshaking trusted pk) :
      Advances deps store o { o with stage := .wantsSnapshot trusted }
  | sent (trusted : TrustedPeer) (ourState : VersionedConfig) (nonce : Bytes.Arr 16)
      (frame : SyncFrame) (stage : o.stage = .sending trusted ourState)
      (made : outboundFrame deps nonce ourState = .ok frame) :
      Advances deps store o { o with stage := .receiving trusted nonce frame, sent := some frame }
  | received (trusted : TrustedPeer) (nonce : Bytes.Arr 16) (ourFrame peerFrame : SyncFrame)
      (body : Bytes) (stage : o.stage = .receiving trusted nonce ourFrame)
      (checked : outboundReceive deps trusted nonce body = .ok peerFrame) :
      Advances deps store o { o with stage := .wantsMerge trusted ourFrame peerFrame }
  | concluded (trusted : TrustedPeer) (ourFrame : SyncFrame) (merged : VersionedConfig)
      (stage : o.stage = .merged trusted ourFrame merged) :
      Advances deps store o
        { o with stage := .finished (.ok (outboundResult deps ourFrame merged)) }

/-- **Every step of its own** is one of these. -/
theorem advance_advances {deps : SyncDeps} {store : TrustedPeerStore} (o : Outbound)
    (move : OutboundMove) : o.Advances deps store (o.advance deps store move) := by
  cases move with
  | lookUp =>
      simp only [advance]
      split
      · next hstage =>
        have hlive : o.stage.isFinished = false := by rw [hstage]; rfl
        unfold outboundLookUp
        split
        · exact .failed _ hlive
        split
        · exact .failed _ hlive
        · next trusted hget => exact .found trusted hstage hget
      · exact .stay
  | connected =>
      simp only [advance]
      split
      · next trusted hstage =>
        unfold outboundConnected
        split
        · exact .failed _ (by rw [hstage]; rfl)
        · next pk _ => exact .connected trusted pk hstage
      · exact .stay
  | handshaken machineId publicKey =>
      simp only [advance]
      split
      · next trusted pk hstage =>
        unfold outboundHandshaken
        split
        · exact .failed _ (by rw [hstage]; rfl)
        · exact .handshaken trusted pk hstage
      · exact .stay
  | send nonce =>
      simp only [advance]
      split
      · next trusted ourState hstage =>
        split
        · exact .failed _ (by rw [hstage]; rfl)
        · next frame hframe => exact .sent trusted ourState nonce frame hstage hframe
      · exact .stay
  | receive body =>
      simp only [advance]
      split
      · next trusted nonce ourFrame hstage =>
        -- the answer is refused, or it is the peer's and signed
        split
        · exact .failed _ (by rw [hstage]; rfl)
        · next peerFrame hframe =>
          exact .received trusted nonce ourFrame peerFrame body hstage hframe
      · exact .stay
  | conclude =>
      simp only [advance]
      split
      · next trusted ourFrame merged hstage => exact .concluded trusted ourFrame merged hstage
      · exact .stay
  | fail e =>
      simp only [advance]
      split
      · exact .stay
      · exact .stay
      · exact .stay
      · -- neither before the lookup nor over
        next hfinished hdropped =>
        refine .failed e ?_
        cases hstage : o.stage with
        | finished result => exact absurd hstage (hfinished result)
        | dropped => exact absurd hstage hdropped
        | _ => rfl
  | drop =>
      simp only [advance]
      split
      · next habort =>
        rw [Bool.and_eq_true, Bool.not_eq_true'] at habort
        exact .dropped habort.2
      · exact .stay
  | askSnapshot => exact .stay
  | askMerge => exact .stay

/-- What can become of an outbound session in one step of its node. -/
inductive Moves (deps : SyncDeps) (store : TrustedPeerStore) (reply : VersionedConfig)
    (o : Outbound) : Outbound → Prop
  | stay : Moves deps store reply o o
  | abort : Moves deps store reply o { o with aborted := true }
  | advance (move : OutboundMove) : Moves deps store reply o (o.advance deps store move)
  | answer : Moves deps store reply o (o.answer reply)
  | askSnapshot (trusted : TrustedPeer) (stage : o.stage = .wantsSnapshot trusted) :
      Moves deps store reply o { o with stage := .awaitsSnapshot trusted }
  | askMerge (trusted : TrustedPeer) (ourFrame peerFrame : SyncFrame)
      (stage : o.stage = .wantsMerge trusted ourFrame peerFrame) :
      Moves deps store reply o { o with stage := .awaitsMerge trusted ourFrame peerFrame }

variable {deps : SyncDeps} {store : TrustedPeerStore} {reply : VersionedConfig} {o o' : Outbound}

/-- A session that goes on by itself keeps its peer. -/
theorem advance_peer (move : OutboundMove) : (o.advance deps store move).peer = o.peer := by
  unfold advance
  repeat' split
  all_goals rfl

/-- A session that gets an answer keeps its peer. -/
theorem answer_peer : (o.answer reply).peer = o.peer := by
  unfold answer
  split <;> rfl

/-- A session never changes whom it dials, in whatever way it goes on. -/
theorem Moves.peer_eq (h : o.Moves deps store reply o') : o'.peer = o.peer := by
  cases h with
  | advance move => exact advance_peer move
  | answer => exact answer_peer
  | _ => rfl

/-- A session that is over takes no step of its own: whatever is asked of it, it stays as it is. -/
theorem advance_finished (hfin : o.stage.isFinished = true) (move : OutboundMove) :
    o.advance deps store move = o := by
  obtain ⟨peer, stage, sent, aborted⟩ := o
  cases stage with
  | finished result => cases move <;> first | rfl | simp [advance, OutboundStage.isFinished]
  | dropped => cases move <;> first | rfl | simp [advance, OutboundStage.isFinished]
  | _ => cases hfin

/-- A session that is over waits for no answer. -/
theorem answer_finished (hfin : o.stage.isFinished = true) : o.answer reply = o := by
  obtain ⟨peer, stage, sent, aborted⟩ := o
  cases stage with
  | finished result => rfl
  | dropped => rfl
  | _ => cases hfin

/-- **A session that is over stays as it is.** -/
theorem Moves.finished (h : o.Moves deps store reply o') (hfin : o.stage.isFinished = true) :
    o'.stage = o.stage ∧ o'.sent = o.sent := by
  cases h with
  | stay => exact ⟨rfl, rfl⟩
  | abort => exact ⟨rfl, rfl⟩
  | advance move =>
      rw [advance_finished hfin]
      exact ⟨rfl, rfl⟩
  | answer =>
      rw [answer_finished hfin]
      exact ⟨rfl, rfl⟩
  | askSnapshot trusted stage =>
      rw [stage] at hfin
      cases hfin
  | askMerge trusted ourFrame peerFrame stage =>
      rw [stage] at hfin
      cases hfin

end Outbound

namespace Node

variable {deps : SyncDeps} {out : Outside} {n m n' : Node}

/-- A task that left `true` is that of a session that succeeded. -/
theorem outcome_true {p head : String} (h : n.outcome p = some (head, true)) :
    ∃ id o, n.syncTasks p = some (head, id) ∧ n.outbound[id]? = some o ∧
      o.stage.succeeded = true := by
  unfold outcome at h
  split at h
  · cases h
  · next head' id htask =>
    split at h
    · cases h
    · next o ho =>
      split at h
      · injection h with h
        injection h with hhead hsucc
        subst hhead
        exact ⟨id, o, htask, ho, hsucc⟩
      · cases h

/-- **What one step does to the bookkeeping**: to the outbound sessions, to the table of their tasks
and to the confirmed heads. -/
structure Steps (deps : SyncDeps) (n n' : Node) : Prop where
  /-- Every session goes on as a session can, and keeps its number. -/
  sessions : ∀ (id : ℕ) (o : Outbound), n.outbound[id]? = some o →
    ∃ o', n'.outbound[id]? = some o' ∧ o.Moves deps n.trust n'.versioned o'
  /-- A session that was not there has just been spawned. -/
  fresh : ∀ id o', n.outbound.length ≤ id → n'.outbound[id]? = some o' →
    ∃ peer, o' = Outbound.spawned peer
  /-- A task that was not there is a new session with its peer, tagged with the head. -/
  tasks : ∀ p head id, n'.syncTasks p = some (head, id) →
    n.syncTasks p = some (head, id) ∨
      n.outbound.length ≤ id ∧ head = n'.head deps ∧
        ∃ peer, n'.outbound[id]? = some (Outbound.spawned peer) ∧ peer.machineId = p
  /-- A head that was not confirmed is that of a task that succeeded. -/
  confirmed : ∀ p head, n'.syncConfirmed p = some head →
    n.syncConfirmed p = some head ∨ n.outcome p = some (head, true)

/-- No session is ever forgotten: their list only grows. -/
theorem Steps.length_le (h : n.Steps deps n') : n.outbound.length ≤ n'.outbound.length := by
  refine not_lt.mp fun hlt => ?_
  obtain ⟨o', ho', -⟩ := h.sessions _ _ (List.getElem?_eq_getElem hlt)
  rw [List.getElem?_eq_none le_rfl] at ho'
  cases ho'

/-- A step that touches no session and adds no entry. -/
theorem Steps.of_frame (hout : n'.outbound = n.outbound)
    (htasks : ∀ p t, n'.syncTasks p = some t → n.syncTasks p = some t)
    (hconfirmed : ∀ p head, n'.syncConfirmed p = some head →
      n.syncConfirmed p = some head ∨ n.outcome p = some (head, true)) : n.Steps deps n' where
  sessions id o ho := ⟨o, by rw [hout, ho], .stay⟩
  fresh id o' hid ho' := by
    rw [hout, List.getElem?_eq_none hid] at ho'
    cases ho'
  tasks p head id h := Or.inl (htasks p _ h)
  confirmed := hconfirmed

/-- A step that touches nothing of the bookkeeping is as `Steps` says. -/
theorem Steps.of_eq (hout : n'.outbound = n.outbound) (htasks : n'.syncTasks = n.syncTasks)
    (hconfirmed : n'.syncConfirmed = n.syncConfirmed) : n.Steps deps n' :=
  .of_frame hout (fun p t h => by rwa [htasks] at h) fun p head h => Or.inl (by rwa [hconfirmed] at h)

/-- A step of one session is as `Steps` says, if the session goes on as a session can and no task and
no confirmed head comes from nowhere. -/
theorem Steps.of_set {id : ℕ} {o o' : Outbound} (ho : n.outbound[id]? = some o)
    (hout : n'.outbound = n.outbound.set id o') (hmoves : o.Moves deps n.trust n'.versioned o')
    (htasks : ∀ p t, n'.syncTasks p = some t → n.syncTasks p = some t)
    (hconfirmed : ∀ p head, n'.syncConfirmed p = some head → n.syncConfirmed p = some head) :
    n.Steps deps n' where
  sessions j q hq := by
    rw [hout, List.getElem?_set]
    by_cases hj : id = j
    · subst hj
      rw [ho] at hq
      cases hq
      have hlt : id < n.outbound.length := (List.getElem?_eq_some_iff.mp ho).1
      exact ⟨o', by rw [if_pos rfl, if_pos hlt], hmoves⟩
    · exact ⟨q, by rw [if_neg hj, hq], .stay⟩
  fresh j q hj hq := by
    rw [List.getElem?_eq_none (by rw [hout, List.length_set]; exact hj)] at hq
    cases hq
  tasks p head id h := Or.inl (htasks p _ h)
  confirmed p head h := Or.inl (hconfirmed p head h)

/-! ## Dialing -/

/-- What dialing any number of peers does: new sessions come last, and a peer may have got one of
them as its task, tagged with the current head. Nothing else changes. -/
structure Pulled (deps : SyncDeps) (n n' : Node) : Prop where
  frame : n' = { n with outbound := n'.outbound, syncTasks := n'.syncTasks }
  dialed : ∃ peers : List DiscoveredPeer, n'.outbound = n.outbound ++ peers.map Outbound.spawned
  tasks : ∀ p t, n'.syncTasks p = some t → n.syncTasks p = some t ∨
    n.outbound.length ≤ t.2 ∧ t.1 = n.head deps ∧
      ∃ peer, n'.outbound[t.2]? = some (Outbound.spawned peer) ∧ peer.machineId = p

/-- Dialing nobody leaves everything as it is. -/
theorem Pulled.refl (n : Node) : n.Pulled deps n :=
  ⟨rfl, ⟨[], (List.append_nil _).symm⟩, fun _ _ h => Or.inl h⟩

/-- Dialing leaves the old sessions where they are, as new ones come last. -/
theorem Pulled.getElem? (h : n.Pulled deps n') {id : ℕ} {o : Outbound}
    (ho : n.outbound[id]? = some o) : n'.outbound[id]? = some o := by
  obtain ⟨peers, hpeers⟩ := h.dialed
  rw [hpeers, List.getElem?_append_left (List.getElem?_eq_some_iff.mp ho).1, ho]

/-- Dialing does not touch the document, and so not the head either. -/
theorem Pulled.head_eq (h : n.Pulled deps n') : n'.head deps = n.head deps := by
  rw [h.frame]
  rfl

/-- No session is lost by dialing: the new ones come after those that were there. -/
theorem Pulled.length_le (h : n.Pulled deps n') : n.outbound.length ≤ n'.outbound.length := by
  obtain ⟨peers, hpeers⟩ := h.dialed
  rw [hpeers, List.length_append]
  exact Nat.le_add_right _ _

/-- Dialing some peers and then some others is dialing them all. -/
theorem Pulled.trans (h : n.Pulled deps m) (h' : m.Pulled deps n') : n.Pulled deps n' where
  frame := by
    rw [h'.frame, h.frame]
  dialed := by
    obtain ⟨ps, hps⟩ := h.dialed
    obtain ⟨qs, hqs⟩ := h'.dialed
    exact ⟨ps ++ qs, by rw [hqs, hps, List.map_append, List.append_assoc]⟩
  tasks p t ht := by
    -- an entry is the old one, or made by the first dialing, or by the second
    rcases h'.tasks p t ht with ht | ⟨hlen, hhead, peer, hpeer, hp⟩
    · rcases h.tasks p t ht with ht | ⟨hlen, hhead, peer, hpeer, hp⟩
      · exact Or.inl ht
      · exact Or.inr ⟨hlen, hhead, peer, h'.getElem? hpeer, hp⟩
    · exact Or.inr ⟨h.length_le.trans hlen, hhead.trans h.head_eq, peer, hpeer, hp⟩

/-- Dialing one peer appends one session and makes it the task of this peer, under the current head.
-/
theorem dial_pulled (n : Node) (peer : DiscoveredPeer) : n.Pulled deps (n.dial deps peer) where
  frame := rfl
  dialed := ⟨[peer], rfl⟩
  tasks p t ht := by
    by_cases hp : p = peer.machineId
    · subst hp
      simp only [dial, mapInsert, Function.update_self, Option.some.injEq] at ht
      subst ht
      exact Or.inr ⟨le_rfl, rfl, peer, List.getElem?_concat_length, rfl⟩
    · simp only [dial, mapInsert, Function.update_of_ne hp] at ht
      exact Or.inl ht

/-- A peer that may be pulled from is dialed or left alone. Every guard of `maybe_pull_from` returns
with the node as it was. -/
theorem maybePullFrom_pulled (n : Node) (peer : DiscoveredPeer) :
    n.Pulled deps (n.maybePullFrom deps out peer) := by
  unfold maybePullFrom
  split
  · exact .refl n
  split
  · exact .refl n
  split
  · exact .refl n
  split
  · exact dial_pulled n peer
  · exact .refl n

/-- Pulling from every discovered peer, one after the other, only dials. -/
theorem pullAll_pulled (n : Node) : n.Pulled deps (n.pullAll deps out) := by
  have hfold : ∀ (peers : List DiscoveredPeer) (m : Node),
      m.Pulled deps (peers.foldl (maybePullFrom deps out) m) := by
    intro peers
    induction peers with
    | nil => exact fun m => .refl m
    | cons peer peers ih => exact fun m => (maybePullFrom_pulled m peer).trans (ih _)
  exact hfold _ n

/-- A step that is as `Steps` says may end with dialing peers, as long as it has begun no session
before. -/
theorem Steps.pulled (h : n.Steps deps m) (hpull : m.Pulled deps n')
    (hout : m.outbound.length = n.outbound.length) : n.Steps deps n' where
  sessions id o ho := by
    obtain ⟨o', ho', hmoves⟩ := h.sessions id o ho
    refine ⟨o', hpull.getElem? ho', ?_⟩
    rw [hpull.frame]
    exact hmoves
  fresh id o' hid ho' := by
    obtain ⟨peers, hpeers⟩ := hpull.dialed
    rw [hpeers, List.getElem?_append_right (hout ▸ hid)] at ho'
    obtain ⟨peer, -, hpeer⟩ := List.mem_map.mp (List.mem_of_getElem? ho')
    exact ⟨peer, hpeer.symm⟩
  tasks p head id ht := by
    rcases hpull.tasks p _ ht with ht | ⟨hlen, hhead, peer, hpeer, hp⟩
    · rcases h.tasks p head id ht with ht | ⟨hlen, hhead, peer, hpeer, hp⟩
      · exact Or.inl ht
      · exact Or.inr ⟨hlen, hhead.trans hpull.head_eq.symm, peer, hpull.getElem? hpeer, hp⟩
    · exact Or.inr ⟨hout ▸ hlen, hhead.trans hpull.head_eq.symm, peer, hpeer, hp⟩
  confirmed p head hc := by
    rw [hpull.frame] at hc
    exact h.confirmed p head hc

/-! ## The steps one by one -/

/-- The loop touches the bookkeeping only with a push: it forgets the confirmed heads and the
backoffs, and then dials whoever may be pulled from. -/
theorem handleLoop_steps (n : Node) (e : LoopEvent) : n.Steps deps (n.handleLoop deps out e) := by
  simp only [handleLoop]
  split
  · exact .of_eq rfl rfl rfl
  split
  · -- a push forgets every confirmed head before it dials
    refine Steps.pulled (m := { n with
      supervisor := n.supervisor.handle out.env e
      syncConfirmed := fun _ => none, syncBackoff := fun _ => none }) ?_ (pullAll_pulled _) rfl
    exact .of_frame rfl (fun _ _ h => h) nofun
  · exact .of_eq rfl rfl rfl

/-- The answer to a request is the state after it. -/
theorem answer_steps (hout : m.outbound = n.outbound) (htasks : m.syncTasks = n.syncTasks)
    (hconfirmed : m.syncConfirmed = n.syncConfirmed) (requester : Requester) :
    n.Steps deps (m.answer deps m.versioned requester) := by
  cases requester with
  | outbound id =>
      cases ho : m.outbound[id]? with
      | none =>
          rw [answer, ho]
          exact .of_eq hout htasks hconfirmed
      | some o =>
          have hset : m.answer deps m.versioned (.outbound id) =
              { m with outbound := m.outbound.set id (o.answer m.versioned) } := by
            rw [answer, ho]
          have hmoves : o.Moves deps n.trust m.versioned (o.answer m.versioned) := .answer
          rw [hset]
          refine .of_set (hout ▸ ho) (hout ▸ rfl) hmoves ?_ ?_
          · exact fun p t h => by rwa [← htasks]
          · exact fun p head h => by rwa [← hconfirmed]
  | inbound id =>
      cases hi : m.inbound[id]? with
      | none =>
          rw [answer, hi]
          exact .of_eq hout htasks hconfirmed
      | some i =>
          rw [answer, hi]
          exact .of_eq hout htasks hconfirmed

/-- Handling the oldest request answers its session and touches nothing else of the bookkeeping. -/
theorem handleOp_steps (n : Node) : n.Steps deps (n.handleOp deps out) := by
  cases hops : n.syncOps with
  | nil =>
      rw [handleOp, hops]
      exact .of_eq rfl rfl rfl
  | cons x rest =>
      rw [handleOp, hops]
      exact answer_steps (n := n) (m := { n with
        supervisor := n.supervisor.handle out.env (.syncOp x.1), syncOps := rest }) rfl rfl rfl x.2

/-- A found event forgets at most the confirmed head of its peer, and then may dial it. -/
theorem found_steps (n : Node) (peer : DiscoveredPeer) :
    n.Steps deps (n.found deps out peer) := by
  simp only [found]
  split
  · exact .of_eq rfl rfl rfl
  · refine Steps.pulled ?_ (maybePullFrom_pulled _ peer) rfl
    refine .of_frame rfl (fun _ _ h => h) fun p head h => Or.inl ?_
    by_cases hp : p = peer.machineId
    · subst hp
      simp [mapRemove] at h
    · simpa [mapRemove, Function.update_of_ne hp] using h

/-- An entry that is left after a removal was there before. -/
theorem mapRemove_some {V : Type} {t : String → Option V} {k p : String} {v : V}
    (h : mapRemove t k p = some v) : p ≠ k ∧ t p = some v := by
  by_cases hp : p = k
  · subst hp
    simp [mapRemove] at h
  · exact ⟨hp, by simpa [mapRemove, Function.update_of_ne hp] using h⟩

/-- A lost event takes the peer out of the tables, and aborts the task it had. -/
theorem lost_steps (n : Node) (machineId : String) : n.Steps deps (n.lost machineId) := by
  unfold lost
  split
  · exact .of_eq rfl rfl rfl
  · simp only []
    split
    · exact .of_frame rfl (fun _ _ h => h) fun _ _ h => Or.inl (mapRemove_some h).2
    · next id _ =>
      simp only [abort]
      split
      · exact .of_frame rfl (fun _ _ h => (mapRemove_some h).2)
          fun _ _ h => Or.inl (mapRemove_some h).2
      · next o ho =>
        exact .of_set ho rfl .abort (fun _ _ h => (mapRemove_some h).2)
          fun _ _ h => (mapRemove_some h).2

/-- The tick reaps the tasks that have ended and dials afterwards. Only here does a head get
confirmed, that of a task that succeeded. -/
theorem reconcile_steps (n : Node) : n.Steps deps (n.reconcileSyncSessions deps out) := by
  refine Steps.pulled (m := n.reap out.env.now) ?_ (pullAll_pulled _) rfl
  refine .of_frame rfl ?_ ?_
  · intro p t h
    simp only [reap] at h
    split at h
    · cases h
    · exact h
  · intro p head h
    simp only [reap] at h
    split at h
    · next head' hout =>
      cases h
      exact Or.inr hout
    · exact Or.inl h

/-- A step of one outbound session moves that session alone. Where it stands before one of its two
questions, the question goes into the channel if there is room. -/
theorem stepOutbound_steps (n : Node) (id : ℕ) (move : OutboundMove) :
    n.Steps deps (n.stepOutbound deps id move) := by
  unfold stepOutbound
  split
  · exact .of_eq rfl rfl rfl
  · next o ho =>
    split
    · next trusted hstage =>
      unfold ask
      split
      · exact .of_set ho rfl (.askSnapshot trusted hstage) (fun _ _ h => h) fun _ _ h => h
      · exact .of_eq rfl rfl rfl
    · next trusted ourFrame peerFrame hstage =>
      unfold ask
      split
      · exact .of_set ho rfl (.askMerge trusted ourFrame peerFrame hstage) (fun _ _ h => h)
          fun _ _ h => h
      · exact .of_eq rfl rfl rfl
    · exact .of_set ho rfl (.advance _) (fun _ _ h => h) fun _ _ h => h

/-- A step of one inbound session leaves the outbound ones and the tables alone. -/
theorem stepInbound_steps (n : Node) (id : ℕ) (move : InboundMove) :
    n.Steps deps (n.stepInbound deps id move) := by
  unfold stepInbound
  split
  · exact .of_eq rfl rfl rfl
  · split
    · unfold ask
      split <;> exact .of_eq rfl rfl rfl
    · unfold ask
      split <;> exact .of_eq rfl rfl rfl
    · exact .of_eq rfl rfl rfl

/-- **Every step of a node is as `Steps` says.** -/
theorem step_steps (n : Node) (input : Outside × NodeInput) : n.Steps deps (n.step deps input) := by
  unfold step
  split
  · exact .of_eq rfl rfl rfl
  · unfold stepRunning
    split
    · exact .of_eq rfl rfl rfl
    · exact handleLoop_steps n _
    · exact handleOp_steps n
    · exact found_steps n _
    · exact lost_steps n _
    · exact reconcile_steps n
    · exact .of_eq rfl rfl rfl
    · exact .of_eq rfl rfl rfl
    · exact stepOutbound_steps n _ _
    · exact .of_eq rfl rfl rfl
    · exact stepInbound_steps n _ _
    · exact .of_eq rfl rfl rfl

end Node

/-! ## Inbound sessions and requests -/

/-- What can become of an inbound session by a step of its own. -/
inductive Inbound.Advances (deps : SyncDeps) (store : TrustedPeerStore) (i : Inbound) :
    Inbound → Prop
  | stay : Advances deps store i i
  | failed (e : SessionError) (live : ∀ result, i.stage ≠ .finished result) :
      Advances deps store i { i with stage := .finished (.error e) }
  | snapshot (stage : i.stage = .accepted) :
      Advances deps store i { i with stage := .handshaking (trustSnapshot deps.ops.hex store) }
  | authenticated (snapshot : List (String × Bytes.Arr 32)) (machineId : String)
      (publicKey : Bytes.Arr 32) (stage : i.stage = .handshaking snapshot)
      (known : acceptCheck (resolveIn snapshot) machineId publicKey = .ok ()) :
      Advances deps store i { i with stage := .authenticated machineId }
  | reloaded (machineId : String) (trusted : TrustedPeer) (stage : i.stage = .authenticated machineId)
      (entry : store.get machineId = some trusted) :
      Advances deps store i { i with stage := .receiving machineId trusted }
  | received (machineId : String) (trusted : TrustedPeer) (peerFrame : SyncFrame) (body : Bytes)
      (stage : i.stage = .receiving machineId trusted)
      (checked : inboundReceive deps machineId trusted body = .ok peerFrame) :
      Advances deps store i { i with stage := .wantsSnapshot trusted peerFrame }
  | replied (trusted : TrustedPeer) (peerFrame reply : SyncFrame) (preHead : String)
      (merged : VersionedConfig) (stage : i.stage = .replying trusted peerFrame preHead merged)
      (made : inboundReply deps peerFrame merged = .ok reply) :
      Advances deps store i ⟨.finished (.ok (inboundResult deps preHead merged)), some reply⟩

/-- **Every step of its own** is one of these. -/
theorem Inbound.advance_advances {deps : SyncDeps} {store : TrustedPeerStore} (i : Inbound)
    (move : InboundMove) : i.Advances deps store (i.advance deps store move) := by
  cases move with
  | lookUp =>
      -- the trust store is looked into before the handshake, and once more after it
      simp only [advance]
      split
      · next hstage => exact .snapshot hstage
      · next machineId hstage =>
        unfold inboundReload
        split
        · exact .failed _ (by simp [hstage])
        · next trusted hget => exact .reloaded machineId trusted hstage hget
      · exact .stay
  | handshaken peer =>
      simp only [advance]
      split
      · next snapshot hstage =>
        cases peer with
        | anonymous => exact .failed _ (by simp [hstage])
        | authenticated machineId publicKey =>
            simp only [inboundHandshaken]
            split
            · exact .failed _ (by simp [hstage])
            · next hknown => exact .authenticated snapshot machineId publicKey hstage hknown
      · exact .stay
  | receive body =>
      simp only [advance]
      split
      · next machineId trusted hstage =>
        split
        · exact .failed _ (by simp [hstage])
        · next peerFrame hframe => exact .received machineId trusted peerFrame body hstage hframe
      · exact .stay
  | reply =>
      simp only [advance]
      split
      · next trusted peerFrame preHead merged hstage =>
        split
        · exact .failed _ (by simp [hstage])
        · next reply hreply => exact .replied trusted peerFrame reply preHead merged hstage hreply
      · exact .stay
  | fail e =>
      simp only [advance]
      split
      · exact .stay
      · next hlive => exact .failed e hlive
  -- the two questions to the node are answered by the node, not here
  | askSnapshot => exact .stay
  | askMerge => exact .stay

/-- What can become of an inbound session in one step of its node. -/
inductive Inbound.Moves (deps : SyncDeps) (store : TrustedPeerStore) (reply : VersionedConfig)
    (i : Inbound) : Inbound → Prop
  | stay : Moves deps store reply i i
  | advance (move : InboundMove) : Moves deps store reply i (i.advance deps store move)
  | answer : Moves deps store reply i (i.answer deps reply)
  | askSnapshot (trusted : TrustedPeer) (peerFrame : SyncFrame)
      (stage : i.stage = .wantsSnapshot trusted peerFrame) :
      Moves deps store reply i { i with stage := .awaitsSnapshot trusted peerFrame }
  | askMerge (trusted : TrustedPeer) (peerFrame : SyncFrame) (preHead : String)
      (stage : i.stage = .wantsMerge trusted peerFrame preHead) :
      Moves deps store reply i { i with stage := .awaitsMerge trusted peerFrame preHead }

namespace Node

/-- What the sessions of a node may put into the channel next. -/
inductive Asks (n : Node) : SyncOp × Requester → Prop
  | snapshot (requester : Requester) : Asks n (.snapshot, requester)
  | outbound (id : ℕ) (o : Outbound) (trusted : TrustedPeer) (ourFrame peerFrame : SyncFrame)
      (session : n.outbound[id]? = some o) (stage : o.stage = .wantsMerge trusted ourFrame peerFrame) :
      Asks n (.merge peerFrame.fromMachineId peerFrame.state, .outbound id)
  | inbound (id : ℕ) (i : Inbound) (trusted : TrustedPeer) (peerFrame : SyncFrame) (preHead : String)
      (session : n.inbound[id]? = some i) (stage : i.stage = .wantsMerge trusted peerFrame preHead) :
      Asks n (.merge trusted.machineId peerFrame.state, .inbound id)

/-- **What one step does to the inbound sessions and the channel.** -/
structure Serves (deps : SyncDeps) (n n' : Node) : Prop where
  sessions : ∀ i' ∈ n'.inbound, i' = ⟨.accepted, none⟩ ∨
    ∃ i ∈ n.inbound, i.Moves deps n.trust n'.versioned i'
  ops : ∀ x ∈ n'.syncOps, x ∈ n.syncOps ∨ n.Asks x

variable {deps : SyncDeps} {out : Outside} {n m n' : Node}

/-- A step that touches neither the inbound sessions nor the channel is as `Serves` says. -/
theorem Serves.of_eq (hin : n'.inbound = n.inbound) (hops : n'.syncOps = n.syncOps) :
    n.Serves deps n' where
  sessions i' hi' := Or.inr ⟨i', hin ▸ hi', .stay⟩
  ops _ hx := Or.inl (hops ▸ hx)

/-- Dialing at the end of a step concerns neither the inbound sessions nor the channel. -/
theorem Pulled.serves (h : m.Pulled deps n') (hin : m.inbound = n.inbound)
    (hops : m.syncOps = n.syncOps) : n.Serves deps n' := by
  rw [h.frame]
  exact .of_eq hin hops

/-- A step of one inbound session is as `Serves` says, if the session goes on as one can and the
channel gets only what a session may ask. -/
theorem Serves.of_set {id : ℕ} {i i' : Inbound} (hi : n.inbound[id]? = some i)
    (hin : n'.inbound = n.inbound.set id i') (hmoves : i.Moves deps n.trust n'.versioned i')
    (hops : ∀ x ∈ n'.syncOps, x ∈ n.syncOps ∨ n.Asks x) : n.Serves deps n' where
  sessions q hq := by
    right
    rw [hin] at hq
    rcases List.mem_or_eq_of_mem_set hq with hq | rfl
    · exact ⟨q, hq, .stay⟩
    · exact ⟨i, List.mem_of_getElem? hi, hmoves⟩
  ops := hops

/-- A request that is put into the channel comes last. -/
theorem mem_ask {op : SyncOp} {requester : Requester} {x : SyncOp × Requester}
    (h : x ∈ n.syncOps ++ [(op, requester)]) (hasks : n.Asks (op, requester)) :
    x ∈ n.syncOps ∨ n.Asks x := by
  rcases List.mem_append.mp h with h | h
  · exact Or.inl h
  · rw [List.mem_singleton.mp h]
    exact Or.inr hasks

/-- Handling the oldest request takes it out of the channel, and may answer an inbound session. -/
theorem handleOp_serves (n : Node) : n.Serves deps (n.handleOp deps out) := by
  cases hops : n.syncOps with
  | nil =>
      rw [handleOp, hops]
      exact .of_eq rfl rfl
  | cons x rest =>
      have hrest : ∀ y ∈ rest, y ∈ n.syncOps ∨ n.Asks y := by
        intro y hy
        rw [hops]
        exact Or.inl (List.mem_cons_of_mem x hy)
      obtain ⟨op, requester⟩ := x
      rw [handleOp, hops]
      cases requester with
      | outbound id =>
          simp only [answer]
          split <;> exact ⟨fun i hi => Or.inr ⟨i, hi, .stay⟩, hrest⟩
      | inbound id =>
          simp only [answer]
          split
          · exact ⟨fun i hi => Or.inr ⟨i, hi, .stay⟩, hrest⟩
          · next i hi => exact .of_set hi rfl .answer hrest

/-- A lost event concerns neither the inbound sessions nor the channel. -/
theorem lost_serves (n : Node) (machineId : String) : n.Serves deps (n.lost machineId) := by
  unfold lost
  split
  · exact .of_eq rfl rfl
  · simp only []
    split
    · exact .of_eq rfl rfl
    · unfold abort
      split <;> exact .of_eq rfl rfl

/-- An outbound session may put its question into the channel. No inbound session takes part. -/
theorem stepOutbound_serves (n : Node) (id : ℕ) (move : OutboundMove) :
    n.Serves deps (n.stepOutbound deps id move) := by
  unfold stepOutbound
  split
  · exact .of_eq rfl rfl
  · next o ho =>
    split
    · unfold ask
      split
      · exact ⟨fun i hi => Or.inr ⟨i, hi, .stay⟩, fun _ hx => mem_ask hx (.snapshot _)⟩
      · exact .of_eq rfl rfl
    · next trusted ourFrame peerFrame hstage =>
      unfold ask
      split
      · exact ⟨fun i hi => Or.inr ⟨i, hi, .stay⟩,
          fun x hx => mem_ask hx (.outbound id o trusted ourFrame peerFrame ho hstage)⟩
      · exact .of_eq rfl rfl
    · exact .of_eq rfl rfl

/-- A step of one inbound session moves that session alone, and may put its question into the
channel. -/
theorem stepInbound_serves (n : Node) (id : ℕ) (move : InboundMove) :
    n.Serves deps (n.stepInbound deps id move) := by
  unfold stepInbound
  split
  · exact .of_eq rfl rfl
  · next i hi =>
    split
    · next trusted peerFrame hstage =>
      unfold ask
      split
      · exact .of_set hi rfl (.askSnapshot trusted peerFrame hstage)
          fun _ hx => mem_ask hx (.snapshot _)
      · exact .of_eq rfl rfl
    · next trusted peerFrame preHead hstage =>
      unfold ask
      split
      · exact .of_set hi rfl (.askMerge trusted peerFrame preHead hstage)
          fun x hx => mem_ask hx (.inbound id i trusted peerFrame preHead hi hstage)
      · exact .of_eq rfl rfl
    · exact .of_set hi rfl (.advance _) fun x hx => Or.inl hx

/-- **Every step of a node is as `Serves` says.** -/
theorem step_serves (n : Node) (input : Outside × NodeInput) : n.Serves deps (n.step deps input) := by
  unfold step
  split
  · exact .of_eq rfl rfl
  unfold stepRunning
  split
  · exact .of_eq rfl rfl
  · simp only [handleLoop]
    split
    · exact .of_eq rfl rfl
    split
    · exact (pullAll_pulled _).serves rfl rfl
    · exact .of_eq rfl rfl
  · exact handleOp_serves n
  · simp only [found]
    split
    · exact .of_eq rfl rfl
    · exact (maybePullFrom_pulled _ _).serves rfl rfl
  · exact lost_serves n _
  · exact (pullAll_pulled _).serves rfl rfl
  · exact .of_eq rfl rfl
  · exact .of_eq rfl rfl
  · exact stepOutbound_serves n _ _
  · refine ⟨fun i hi => ?_, fun x hx => Or.inl hx⟩
    rcases List.mem_append.mp hi with hi | hi
    · exact Or.inr ⟨i, hi, .stay⟩
    · exact Or.inl (List.mem_singleton.mp hi)
  · exact stepInbound_serves n _ _
  · exact .of_eq rfl rfl

/-! ## The versioned document -/

end Node

/-- No event but a local edit can lower a stamp: it leaves the stamps alone, or it merges. -/
theorem Supervisor.DocsMoves.stamp_le_or_edit {s : Supervisor} {env : Env} {e : LoopEvent} {d : Docs}
    (h : s.DocsMoves env e d) (f : SharedField) :
    s.versioned.stamp f ≤ d.versioned.stamp f ∨
      ∃ c, d.versioned = (s.versioned.applyLocal c s.host.machineId).1 := by
  have hmerge : ∀ incoming,
      s.versioned.stamp f ≤ (s.versioned.merge incoming).1.stamp f := by
    intro incoming
    rw [VersionedConfig.merge_stamp]
    exact le_max_left _ _
  cases h with
  | keep userStopped => exact Or.inl le_rfl
  | snapshot asked => exact Or.inl le_rfl
  | edit c asked valid saved => exact Or.inr ⟨c, rfl⟩
  | reload c asked loaded differs => exact Or.inr ⟨c, rfl⟩
  | stale peer incoming asked outcome => exact Or.inl (hmerge incoming)
  | adopt peer incoming asked outcome valid => exact Or.inl (hmerge incoming)
  | rollBack peer incoming asked outcome invalid c loaded => exact Or.inl (hmerge incoming)
  | strand peer incoming asked invalid unloaded => exact Or.inl (hmerge incoming)

/-- A stamp falls only together with a change of its value. -/
theorem Supervisor.DocsMoves.stamp_le {s : Supervisor} {env : Env} {e : LoopEvent} {d : Docs}
    (h : s.DocsMoves env e d) (f : SharedField) (hvalue : s.versioned.value f = d.versioned.value f) :
    s.versioned.stamp f ≤ d.versioned.stamp f := by
  rcases h.stamp_le_or_edit f with hle | ⟨c, hc⟩
  · exact hle
  · rw [hc] at hvalue ⊢
    rw [VersionedConfig.applyLocal_value] at hvalue
    rw [VersionedConfig.applyLocal_stamp, if_pos hvalue]

namespace Node

variable {deps : SyncDeps} {out : Outside} {n m n' : Node}

/-- What the sync bookkeeping and the sessions never write to. -/
def core (n : Node) : Supervisor × TrustedPeerStore := (n.supervisor, n.trust)

/-- Dialing writes neither to the supervisor nor to the trust store. -/
theorem Pulled.core_eq (h : n.Pulled deps n') : n'.core = n.core := by
  rw [h.frame]
  rfl

/-- An answer goes into a session, not into the supervisor or the trust store. -/
theorem answer_core (n : Node) (reply : VersionedConfig) (requester : Requester) :
    (n.answer deps reply requester).core = n.core := by
  unfold answer
  split <;> split <;> rfl

/-- Asking writes neither to the supervisor nor to the trust store, if what the session makes of
having asked does not. -/
theorem ask_core (n : Node) (op : SyncOp) (requester : Requester) {asked : Node → Node}
    (h : ∀ m, (asked m).core = m.core) : (n.ask op requester asked).core = n.core := by
  unfold ask
  split
  · exact h _
  · rfl

/-- A found event writes neither to the supervisor nor to the trust store. -/
theorem found_core (n : Node) (peer : DiscoveredPeer) : (n.found deps out peer).core = n.core := by
  simp only [found]
  split
  · rfl
  · exact (maybePullFrom_pulled _ _).core_eq

/-- A lost event writes neither to the supervisor nor to the trust store. -/
theorem lost_core (n : Node) (machineId : String) : (n.lost machineId).core = n.core := by
  unfold lost
  split
  · rfl
  · simp only []
    split
    · rfl
    · unfold abort
      split <;> rfl

/-- A step of an outbound session writes neither to the supervisor nor to the trust store. -/
theorem stepOutbound_core (n : Node) (id : ℕ) (move : OutboundMove) :
    (n.stepOutbound deps id move).core = n.core := by
  unfold stepOutbound
  split
  · rfl
  split
  · exact ask_core _ _ _ fun _ => rfl
  · exact ask_core _ _ _ fun _ => rfl
  · rfl

/-- A step of an inbound session writes neither to the supervisor nor to the trust store. -/
theorem stepInbound_core (n : Node) (id : ℕ) (move : InboundMove) :
    (n.stepInbound deps id move).core = n.core := by
  unfold stepInbound
  split
  · rfl
  split
  · exact ask_core _ _ _ fun _ => rfl
  · exact ask_core _ _ _ fun _ => rfl
  · rfl

/-- **Who writes the document and the trust store**: the loop the one, revocations and pairings the
other. -/
inductive Writes (n : Node) (input : Outside × NodeInput) (versioned : VersionedConfig)
    (trust : TrustedPeerStore) : Prop
  | nothing (same : versioned = n.versioned) (trusted : trust = n.trust)
  | document (e : LoopEvent) (handled : versioned = (n.supervisor.handle input.1.env e).versioned)
      (trusted : trust = n.trust)
  | revocation (machineId : String) (fails : Option SaveFault)
      (asked : input.2 = .revokeTrust machineId fails) (same : versioned = n.versioned)
      (removed : trust = (n.trust.remove machineId fails).1)
  | pairing (peer : TrustedPeer) (fails : Option SaveFault) (asked : input.2 = .pair peer fails)
      (same : versioned = n.versioned) (upserted : trust = (n.trust.upsert peer fails).1)

/-- A step that leaves the supervisor and the trust store alone writes nothing. -/
theorem Writes.of_core {input : Outside × NodeInput} (h : n'.core = n.core) :
    n.Writes input n'.versioned n'.trust :=
  .nothing (congrArg (fun c => c.1.versioned) h) (congrArg Prod.snd h)

/-- What the loop handles may change the document, and leaves the trust store alone. -/
theorem handleLoop_writes (n : Node) (input : NodeInput) (e : LoopEvent) :
    n.Writes (out, input) (n.handleLoop deps out e).versioned (n.handleLoop deps out e).trust := by
  simp only [handleLoop]
  split
  · exact .document e (congrArg Docs.versioned (Supervisor.stopCore_docs _)) rfl
  split
  · rw [pushToTrustedPeers, (pullAll_pulled _).frame]
    exact .document e rfl rfl
  · exact .document e rfl rfl

/-- A request is handled by the supervisor, so it may change the document, and leaves the trust
store alone. -/
theorem handleOp_writes (n : Node) (input : NodeInput) :
    n.Writes (out, input) (n.handleOp deps out).versioned (n.handleOp deps out).trust := by
  cases hops : n.syncOps with
  | nil =>
      rw [handleOp, hops]
      exact .of_core rfl
  | cons x rest =>
      rw [handleOp, hops]
      have hcore := @answer_core deps { n with
        supervisor := n.supervisor.handle out.env (.syncOp x.1), syncOps := rest }
        (n.supervisor.handle out.env (.syncOp x.1)).versioned x.2
      exact .document (.syncOp x.1) (congrArg (fun c => c.1.versioned) hcore)
        (congrArg Prod.snd hcore)

/-- **Every step of a node is as `Writes` says.** -/
theorem step_writes (n : Node) (input : Outside × NodeInput) :
    n.Writes input (n.step deps input).versioned (n.step deps input).trust := by
  obtain ⟨out, input⟩ := input
  unfold step
  split
  · exact .of_core rfl
  cases input with
  | loop e =>
      cases e with
      | syncOp op => exact .of_core rfl
      | _ => exact handleLoop_writes n _ _
  | syncOp => exact handleOp_writes n _
  | found peer => exact .of_core (found_core n peer)
  | lost machineId => exact .of_core (lost_core n machineId)
  | tick => exact .of_core (pullAll_pulled (n.reap out.env.now)).core_eq
  | revokeTrust machineId fails => exact .revocation machineId fails rfl rfl rfl
  | pair peer fails => exact .pairing peer fails rfl rfl rfl
  | outbound id move => exact .of_core (stepOutbound_core n id move)
  | accept => exact .of_core rfl
  | inbound id move => exact .of_core (stepInbound_core n id move)
  | editConfig file => exact .nothing rfl rfl

/-- A step lowers no stamp of a value it keeps. -/
theorem step_stamp_le (n : Node) (input : Outside × NodeInput) (f : SharedField)
    (hvalue : n.versioned.value f = (n.step deps input).versioned.value f) :
    n.versioned.stamp f ≤ (n.step deps input).versioned.stamp f := by
  cases @step_writes deps n input with
  | nothing same trusted => rw [same]
  | document e handled trusted =>
      rw [handled] at hvalue ⊢
      exact (n.supervisor.handle_moves input.1.env e).stamp_le f hvalue
  | revocation machineId fails asked same removed => rw [same]
  | pairing peer fails asked same upserted => rw [same]

end Node

end Synbad
