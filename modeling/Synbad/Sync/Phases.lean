import Synbad.Sync.Rejection

/-! # The phases of a session

Both directions of a sync session do the same with the supervisor: they ask for a snapshot, keep its
head, ask for a merge and compare. What differs between them (handshake, frames, who sends first) is
forgotten here. A session of either direction is in one of seven phases, one step of the node moves it
as the phases allow (`step_phase`), and a run has handled for it exactly the requests its phase says
(`run_traced`).

The phases are an abstraction of the two stage machines: each stage has a phase, and a session's own
step is a step of its phase or none. `PhaseStep` adds what the node does: a request goes into the
channel, or the oldest request of a session is answered with the state after it. `Served` is the list
of what was handled for a session with the moments at which it was, and `Exchange` the complete one, a
snapshot and later a merge; from it a statement about a session's report becomes one about the two
states it compared. -/

namespace Synbad

/-- Where a session of either direction stands between its start and its report. Heads stand for the
states they are of. -/
inductive SyncPhase where
  /-- Nothing has been asked for yet. -/
  | opening
  | awaitsSnapshot
  /-- The head of the snapshot is known, and no merge has been asked for. -/
  | holds (preHead : String)
  | awaitsMerge (preHead : String) (incoming : VersionedConfig)
  | merged (preHead newHead : String)
  | reported (result : SessionResult)
  | failed

namespace SyncPhase

/-- What a session makes of its phase by itself: nothing, an error, or the report. -/
inductive Advances : SyncPhase → SyncPhase → Prop
  | stay (p : SyncPhase) : Advances p p
  | failed (p : SyncPhase) (live : ∀ r, p ≠ .reported r) : Advances p .failed
  | reported (preHead newHead : String) :
      Advances (.merged preHead newHead) (.reported ⟨preHead != newHead, newHead⟩)

/-- What the supervisor's answer with a state of this head makes of a phase. -/
def answer (head : String) : SyncPhase → SyncPhase
  | .awaitsSnapshot => .holds head
  | .awaitsMerge preHead _ => .merged preHead head
  | p => p

end SyncPhase

/-! ## The two directions -/

/-- The phase of an outbound session, by its stage. Its own frame has the snapshot in it. -/
def OutboundStage.phase (deps : SyncDeps) : OutboundStage → SyncPhase
  | .awaitsSnapshot _ => .awaitsSnapshot
  | .sending _ ourState => .holds (ourState.headHash deps.digest)
  | .receiving _ _ ourFrame => .holds (ourFrame.state.headHash deps.digest)
  | .wantsMerge _ ourFrame _ => .holds (ourFrame.state.headHash deps.digest)
  | .awaitsMerge _ ourFrame peerFrame =>
      .awaitsMerge (ourFrame.state.headHash deps.digest) peerFrame.state
  | .merged _ ourFrame reply =>
      .merged (ourFrame.state.headHash deps.digest) (reply.headHash deps.digest)
  | .finished (.ok result) => .reported result
  | .finished (.error _) => .failed
  | .dropped => .failed
  | _ => .opening

/-- The phase of an inbound session, by its stage. -/
def InboundStage.phase (deps : SyncDeps) : InboundStage → SyncPhase
  | .awaitsSnapshot _ _ => .awaitsSnapshot
  | .wantsMerge _ _ preHead => .holds preHead
  | .awaitsMerge _ peerFrame preHead => .awaitsMerge preHead peerFrame.state
  | .replying _ _ preHead reply => .merged preHead (reply.headHash deps.digest)
  | .finished (.ok result) => .reported result
  | .finished (.error _) => .failed
  | _ => .opening

variable {deps : SyncDeps} {store : TrustedPeerStore}

/-- A session that is over has no other phase than its end. -/
theorem OutboundStage.phase_live {stage : OutboundStage} (h : stage.isFinished = false)
    (r : SessionResult) : stage.phase deps ≠ .reported r := by
  cases stage with
  | finished _ => cases h
  | _ => simp [phase]

/-- **An outbound session advances as the phases allow.** Its frame carries the snapshot, so the head
stays that of the snapshot while the frame is under way. -/
theorem Outbound.Advances.phase {o o' : Outbound} (h : o.Advances deps store o') :
    (o.stage.phase deps).Advances (o'.stage.phase deps) := by
  cases h with
  | stay => exact .stay _
  | failed e live => exact .failed _ (OutboundStage.phase_live live)
  | dropped live => exact .failed _ (OutboundStage.phase_live live)
  | found trusted stage entry =>
      rw [stage]
      exact .stay _
  | connected trusted pk stage =>
      rw [stage]
      exact .stay _
  | handshaken trusted pk stage =>
      rw [stage]
      exact .stay _
  | sent trusted ourState nonce frame stage made =>
      -- the frame is around the snapshot, so its head is the one that was held
      have hphase : OutboundStage.phase deps (.receiving trusted nonce frame) =
          .holds (ourState.headHash deps.digest) := by
        rw [OutboundStage.phase, (outboundFrame_ok made).1]
      rw [stage]
      show SyncPhase.Advances _ (OutboundStage.phase deps (.receiving trusted nonce frame))
      rw [hphase]
      exact .stay _
  | received trusted nonce ourFrame peerFrame body stage checked =>
      rw [stage]
      exact .stay _
  | concluded trusted ourFrame merged stage =>
      rw [stage]
      exact .reported _ _

/-- **An inbound session advances as the phases allow**: each step of its own is nothing, an error or
the report, as far as its phase goes. -/
theorem Inbound.Advances.phase {i i' : Inbound} (h : i.Advances deps store i') :
    (i.stage.phase deps).Advances (i'.stage.phase deps) := by
  cases h with
  | stay => exact .stay _
  | failed e live =>
      -- a report is the end, and what has ended cannot fail
      refine .failed _ fun r hr => ?_
      cases hstage : i.stage with
      | finished result => exact live result hstage
      | _ => simp [hstage, InboundStage.phase] at hr
  | snapshot stage =>
      rw [stage]
      exact .stay _
  | authenticated snapshot machineId publicKey stage known =>
      rw [stage]
      exact .stay _
  | reloaded machineId trusted stage entry =>
      rw [stage]
      exact .stay _
  | received machineId trusted peerFrame body stage checked =>
      rw [stage]
      exact .stay _
  | replied trusted peerFrame reply preHead merged stage made =>
      rw [stage]
      exact .reported _ _

/-- An answer moves the phase of an outbound session. -/
theorem Outbound.answer_phase (o : Outbound) (reply : VersionedConfig) :
    (o.answer reply).stage.phase deps = (o.stage.phase deps).answer (reply.headHash deps.digest) := by
  obtain ⟨peer, stage, sent, aborted⟩ := o
  cases stage with
  | finished result => cases result <;> rfl
  | _ => rfl

/-- An answer moves the phase of an inbound session. -/
theorem Inbound.answer_phase (i : Inbound) (reply : VersionedConfig) :
    (i.answer deps reply).stage.phase deps =
      (i.stage.phase deps).answer (reply.headHash deps.digest) := by
  obtain ⟨stage, sent⟩ := i
  cases stage with
  | finished result => cases result <;> rfl
  | _ => rfl

/-! ## The node -/

namespace Node

variable {out : Outside} {n m n' : Node} {input : Outside × NodeInput} {who : Requester} {id : ℕ}
  {Taken : SyncOp → Prop}

/-- The phase of an outbound session that may not have been dialed yet. -/
def outboundPhase (deps : SyncDeps) (n : Node) (id : ℕ) : SyncPhase :=
  (n.outbound[id]?).elim .opening fun o => o.stage.phase deps

/-- The phase of an inbound session that may not have been accepted yet. -/
def inboundPhase (deps : SyncDeps) (n : Node) (id : ℕ) : SyncPhase :=
  (n.inbound[id]?).elim .opening fun i => i.stage.phase deps

/-- The phase of a session of either direction, by its number. -/
def phase (deps : SyncDeps) (n : Node) : Requester → SyncPhase
  | .outbound id => n.outboundPhase deps id
  | .inbound id => n.inboundPhase deps id

/-- **What one step does to one session**: it advances, it asks, or its oldest request is answered
with the state after the request. -/
inductive PhaseStep (deps : SyncDeps) (Taken : SyncOp → Prop) (n n' : Node) (who : Requester) : Prop
  | own (moves : (n.phase deps who).Advances (n'.phase deps who))
      (requests : n'.pending who = n.pending who)
  | askedSnapshot (before : n.phase deps who = .opening)
      (after : n'.phase deps who = .awaitsSnapshot)
      (requests : n'.pending who = n.pending who ++ [.snapshot])
  | askedMerge (preHead machineId : String) (incoming : VersionedConfig)
      (before : n.phase deps who = .holds preHead)
      (after : n'.phase deps who = .awaitsMerge preHead incoming)
      (requests : n'.pending who = n.pending who ++ [.merge machineId incoming])
  | answered (op : SyncOp) (taken : Taken op) (requests : n.pending who = op :: n'.pending who)
      (after : n'.phase deps who = (n.phase deps who).answer (n'.head deps))

/-- A step that touches neither the session nor its requests. -/
theorem PhaseStep.of_eq (hphase : n'.phase deps who = n.phase deps who)
    (hops : n'.pending who = n.pending who) : n.PhaseStep deps Taken n' who := by
  refine .own ?_ hops
  rw [hphase]
  exact .stay _

/-! ### Inbound sessions -/

/-- The phase of an inbound session that exists is that of its stage. -/
theorem inboundPhase_of_eq {i : Inbound} (h : n.inbound[id]? = some i) :
    n.phase deps (.inbound id) = i.stage.phase deps := by
  rw [phase, inboundPhase, h]
  rfl

/-- A step of an inbound session, seen from its phase. -/
theorem SessionStep.phaseStep (h : n.SessionStep deps Taken n' id) :
    n.PhaseStep deps Taken n' (.inbound id) := by
  -- a session's phase goes by its stage, so each step of the session is one of its phase
  cases h with
  | same session requests =>
      refine .of_eq ?_ requests
      rw [phase, phase, inboundPhase, inboundPhase, session]
  | accepted fresh session requests =>
      refine .of_eq ?_ requests
      rw [inboundPhase_of_eq session, phase, inboundPhase, fresh]
      rfl
  | own i move before session requests =>
      refine .own ?_ requests
      rw [inboundPhase_of_eq before, inboundPhase_of_eq session]
      exact (i.advance_advances move).phase
  | askedSnapshot i trusted peerFrame before stage session requests =>
      refine .askedSnapshot ?_ ?_ requests
      · rw [inboundPhase_of_eq before, stage]
        rfl
      · rw [inboundPhase_of_eq session]
        rfl
  | askedMerge i trusted peerFrame preHead before stage session requests =>
      refine .askedMerge preHead trusted.machineId peerFrame.state ?_ ?_ requests
      · rw [inboundPhase_of_eq before, stage]
        rfl
      · rw [inboundPhase_of_eq session]
        rfl
  | handled op taken requests session =>
      refine .answered op taken requests ?_
      rw [phase, phase, inboundPhase, inboundPhase, session]
      cases n.inbound[id]? with
      | none => rfl
      | some i => exact i.answer_phase n'.versioned

/-! ### Outbound sessions -/

/-- The phase of an outbound session that exists is that of its stage. -/
theorem outboundPhase_of_eq {o : Outbound} (h : n.outbound[id]? = some o) :
    n.phase deps (.outbound id) = o.stage.phase deps := by
  rw [phase, outboundPhase, h]
  rfl

/-- A step that leaves an outbound session and the channel alone. -/
theorem PhaseStep.of_outbound_eq (hout : n'.outbound[id]? = n.outbound[id]?)
    (hops : n'.syncOps = n.syncOps) : n.PhaseStep deps Taken n' (.outbound id) := by
  refine .of_eq ?_ ?_
  · rw [phase, phase, outboundPhase, outboundPhase, hout]
  · rw [pending, pending, hops]

/-- Dialing spawns sessions, and a spawned session is still in the opening phase. -/
theorem Pulled.phaseStep (h : m.Pulled deps n') (hout : m.outbound = n.outbound)
    (hops : m.syncOps = n.syncOps) : n.PhaseStep deps Taken n' (.outbound id) := by
  have hsame : n'.pending (.outbound id) = n.pending (.outbound id) := by
    rw [h.frame, pending, pending, hops]
  refine .of_eq ?_ hsame
  obtain ⟨peers, hpeers⟩ := h.dialed
  rw [phase, phase, outboundPhase, outboundPhase, hpeers, hout]
  by_cases hid : id < n.outbound.length
  · rw [List.getElem?_append_left hid]
  · rw [List.getElem?_append_right (not_lt.mp hid), List.getElem?_eq_none (not_lt.mp hid),
      List.getElem?_map]
    cases peers[id - n.outbound.length]? <;> rfl

/-- A step that puts a request of somebody else into the channel. -/
theorem PhaseStep.of_append {op : SyncOp} {requester : Requester}
    (hother : requester ≠ .outbound id) (hout : n'.outbound[id]? = n.outbound[id]?)
    (hops : n'.syncOps = n.syncOps ++ [(op, requester)]) :
    n.PhaseStep deps Taken n' (.outbound id) := by
  refine .of_eq ?_ ?_
  · rw [phase, phase, outboundPhase, outboundPhase, hout]
  · rw [pending, pending, hops, requestsFor_append_of_ne hother]

/-- Handling the oldest request answers the session it is from. For every other session nothing
changes. -/
theorem handleOp_phase (n : Node) (id : ℕ)
    (htaken : ∀ op, n.syncOps.head? = some (op, .outbound id) → Taken op) :
    n.PhaseStep deps Taken (n.handleOp deps out) (.outbound id) := by
  cases hops : n.syncOps with
  | nil =>
      rw [handleOp, hops]
      exact .of_outbound_eq rfl rfl
  | cons x rest =>
      obtain ⟨op, requester⟩ := x
      have hpending : n.pending (.outbound id) =
          requestsFor (.outbound id) ((op, requester) :: rest) := by
        rw [pending, hops]
      rw [handleOp, hops]
      cases requester with
      | inbound k =>
          -- an inbound session is answered, and no outbound one is touched
          rw [requestsFor_cons_of_ne (by simp)] at hpending
          simp only [answer]
          split <;> exact .of_eq rfl hpending.symm
      | outbound k =>
          by_cases hk : k = id
          · -- the session's own request: it is answered
            subst hk
            rw [requestsFor_cons_self] at hpending
            have htaken := htaken op (by rw [hops]; rfl)
            simp only [answer]
            split
            · next hnone =>
              -- nobody is there to read the answer
              refine .answered op htaken hpending ?_
              have hphase : n.phase deps (.outbound k) = .opening := by
                rw [phase, outboundPhase, show n.outbound[k]? = none from hnone]
                rfl
              rw [hphase]
              exact hphase
            · next o ho =>
              have hlt : k < n.outbound.length := (List.getElem?_eq_some_iff.mp ho).1
              refine .answered op htaken hpending ?_
              rw [outboundPhase_of_eq (List.getElem?_set_self hlt),
                outboundPhase_of_eq (n := n) ho]
              exact o.answer_phase _
          · have hne : Requester.outbound k ≠ .outbound id :=
              fun h => hk (Requester.outbound.inj h)
            rw [requestsFor_cons_of_ne hne] at hpending
            simp only [answer]
            split
            · exact .of_eq rfl hpending.symm
            · refine .of_eq ?_ hpending.symm
              rw [phase, phase, outboundPhase, outboundPhase]
              rw [List.getElem?_set_ne hk]

/-- A step of an outbound session moves the phase of this one only, and may add a question of it to
the channel. -/
theorem stepOutbound_phase (n : Node) (k : ℕ) (move : OutboundMove) (id : ℕ) :
    n.PhaseStep deps Taken (n.stepOutbound deps k move) (.outbound id) := by
  unfold stepOutbound
  split
  · exact .of_outbound_eq rfl rfl
  next o ho =>
  have hlt : k < n.outbound.length := (List.getElem?_eq_some_iff.mp ho).1
  by_cases hk : k = id
  · subst hk
    split
    · next trusted hstage =>
      -- without room in the channel the session waits where it is
      unfold ask
      split
      · refine .askedSnapshot ?_ ?_ (requestsFor_append_self _ _ _)
        · rw [outboundPhase_of_eq ho, hstage]
          rfl
        · rw [outboundPhase_of_eq (List.getElem?_set_self hlt)]
          rfl
      · exact .of_outbound_eq rfl rfl
    · next trusted ourFrame peerFrame hstage =>
      unfold ask
      split
      · refine .askedMerge (ourFrame.state.headHash deps.digest) _ peerFrame.state ?_ ?_
          (requestsFor_append_self _ _ _)
        · rw [outboundPhase_of_eq ho, hstage]
          rfl
        · rw [outboundPhase_of_eq (List.getElem?_set_self hlt)]
          rfl
      · exact .of_outbound_eq rfl rfl
    · refine .own ?_ rfl
      rw [outboundPhase_of_eq ho, outboundPhase_of_eq (List.getElem?_set_self hlt)]
      exact (o.advance_advances _).phase
  · have hne : Requester.outbound k ≠ .outbound id := fun h => hk (Requester.outbound.inj h)
    split
    · unfold ask
      split
      · exact .of_append hne (List.getElem?_set_ne hk) rfl
      · exact .of_outbound_eq rfl rfl
    · unfold ask
      split
      · exact .of_append hne (List.getElem?_set_ne hk) rfl
      · exact .of_outbound_eq rfl rfl
    · exact .of_outbound_eq (List.getElem?_set_ne hk) rfl

/-- A step of an inbound session moves no outbound one, and adds no question of one. -/
theorem stepInbound_phase (n : Node) (k : ℕ) (move : InboundMove) (id : ℕ) :
    n.PhaseStep deps Taken (n.stepInbound deps k move) (.outbound id) := by
  have hne : Requester.inbound k ≠ .outbound id := by simp
  unfold stepInbound
  split
  · exact .of_outbound_eq rfl rfl
  split
  · unfold ask
    split
    · exact .of_append hne rfl rfl
    · exact .of_outbound_eq rfl rfl
  · unfold ask
    split
    · exact .of_append hne rfl rfl
    · exact .of_outbound_eq rfl rfl
  · exact .of_outbound_eq rfl rfl

/-- An aborted session stays where it stands until the runtime drops it. -/
theorem abort_phase (n : Node) (k : ℕ) (hout : m.outbound = n.outbound)
    (hops : m.syncOps = n.syncOps) : n.PhaseStep deps Taken (m.abort k) (.outbound id) := by
  unfold abort
  split
  · exact .of_outbound_eq (by rw [hout]) hops
  next o ho =>
  by_cases hk : k = id
  · subst hk
    have hlt : k < m.outbound.length := (List.getElem?_eq_some_iff.mp ho).1
    have hsame : n.pending (.outbound k) = requestsFor (.outbound k) m.syncOps := by
      rw [hops]
      rfl
    refine .of_eq ?_ hsame.symm
    rw [outboundPhase_of_eq (List.getElem?_set_self hlt), outboundPhase_of_eq (hout ▸ ho)]
  · refine .of_outbound_eq ?_ hops
    rw [← hout]
    exact List.getElem?_set_ne hk

/-- A lost event may abort an outbound session, and an abort alone does not move its phase. -/
theorem lost_phase (n : Node) (machineId : String) (id : ℕ) :
    n.PhaseStep deps Taken (n.lost machineId) (.outbound id) := by
  unfold lost
  split
  · exact .of_outbound_eq rfl rfl
  · simp only []
    split
    · exact .of_outbound_eq rfl rfl
    · exact abort_phase n _ rfl rfl

/-! ### Both -/

variable (deps) in
/-- **Every step of a node is as `PhaseStep` says**, for every session of either direction. -/
theorem step_phase (n : Node) (input : Outside × NodeInput) (who : Requester) :
    n.PhaseStep deps (n.Takes input who) (n.step deps input) who := by
  cases who with
  | inbound id => exact (step_session deps n input id).phaseStep
  | outbound id =>
  obtain ⟨out, input⟩ := input
  unfold step
  split
  · exact .of_outbound_eq rfl rfl
  next hrunning =>
  unfold stepRunning
  split
  · exact .of_outbound_eq rfl rfl
  · -- an event of the loop: a local edit ends with dialing
    simp only [handleLoop]
    split
    · exact .of_outbound_eq rfl rfl
    split
    · exact (pullAll_pulled _).phaseStep rfl rfl
    · exact .of_outbound_eq rfl rfl
  · exact handleOp_phase n id fun op hhead => ⟨by simpa using hrunning, ‹_›, hhead⟩
  · -- a peer that shows something new is dialed
    simp only [found]
    split
    · exact .of_outbound_eq rfl rfl
    · exact (maybePullFrom_pulled _ _).phaseStep rfl rfl
  · exact lost_phase n _ id
  · exact (pullAll_pulled _).phaseStep rfl rfl
  · exact .of_outbound_eq rfl rfl
  · exact .of_outbound_eq rfl rfl
  · exact stepOutbound_phase n _ _ id
  · exact .of_outbound_eq rfl rfl
  · exact stepInbound_phase n _ _ id
  · exact .of_outbound_eq rfl rfl

/-! ## Over a run -/

variable {s : Supervisor} {trust : TrustedPeerStore} {acts : List (Outside × NodeInput)} {k : ℕ}
  {history : List (ℕ × SyncOp)}

/-- What has been handled for a session within the first `k` steps of a run: these requests, each at
its moment, and no other. -/
def Served (deps : SyncDeps) (s : Supervisor) (trust : TrustedPeerStore)
    (acts : List (Outside × NodeInput)) (who : Requester) (k : ℕ) (history : List (ℕ × SyncOp)) :
    Prop :=
  ∀ t op, (t, op) ∈ history ↔
    t < k ∧ ∃ input, acts[t]? = some input ∧ (run deps s trust acts t).Takes input who op

/-- At first nothing has been handled for any session. -/
theorem served_zero : Served deps s trust acts who 0 [] :=
  fun _ _ => ⟨nofun, fun h => absurd h.1 (Nat.not_lt_zero _)⟩

/-- A step that handles nothing of the session leaves the list of what was handled for it as it is. -/
theorem Served.idle (h : Served deps s trust acts who k history)
    (hnone : ∀ input op, acts[k]? = some input → ¬ (run deps s trust acts k).Takes input who op) :
    Served deps s trust acts who (k + 1) history := by
  intro t op
  rw [h t op]
  constructor
  · rintro ⟨htk, htaken⟩
    exact ⟨htk.trans (Nat.lt_succ_self k), htaken⟩
  · rintro ⟨htk, input, hinput, htakes⟩
    rcases Nat.lt_succ_iff_lt_or_eq.mp htk with htk | rfl
    · exact ⟨htk, input, hinput, htakes⟩
    · exact absurd htakes (hnone input op hinput)

/-- A step that handles a request of the session. -/
theorem Served.taken (h : Served deps s trust acts who k history) {op : SyncOp}
    (hinput : acts[k]? = some input) (htakes : (run deps s trust acts k).Takes input who op) :
    Served deps s trust acts who (k + 1) (history ++ [(k, op)]) := by
  intro t op'
  rw [List.mem_append, List.mem_singleton, h t op']
  constructor
  · rintro (⟨htk, htaken⟩ | heq)
    · exact ⟨htk.trans (Nat.lt_succ_self k), htaken⟩
    · cases heq
      exact ⟨Nat.lt_succ_self _, input, hinput, htakes⟩
  · rintro ⟨htk, input', hinput', htakes'⟩
    rcases Nat.lt_succ_iff_lt_or_eq.mp htk with htk | rfl
    · exact Or.inl ⟨htk, input', hinput', htakes'⟩
    · -- one step handles one request
      have hhead := htakes.2.2.symm.trans htakes'.2.2
      cases hhead
      exact Or.inr rfl

/-- **The exchange of a session with the supervisor**: a snapshot was handled for it at `i`, later a
merge at `j`, and nothing else; the heads are those of the states these left. -/
structure Exchange (deps : SyncDeps) (s : Supervisor) (trust : TrustedPeerStore)
    (acts : List (Outside × NodeInput)) (who : Requester) (k i j : ℕ) (machineId : String)
    (incoming : VersionedConfig) (preHead newHead : String) : Prop where
  order : i < j
  served : Served deps s trust acts who k [(i, .snapshot), (j, .merge machineId incoming)]
  preHead : preHead = (run deps s trust acts (i + 1)).head deps
  newHead : newHead = (run deps s trust acts (j + 1)).head deps

/-- What the phase of a session says about its requests and about the run so far. -/
def Traced (deps : SyncDeps) (s : Supervisor) (trust : TrustedPeerStore)
    (acts : List (Outside × NodeInput)) (who : Requester) (k : ℕ) (pending : List SyncOp) :
    SyncPhase → Prop
  | .opening => pending = [] ∧ Served deps s trust acts who k []
  | .awaitsSnapshot => pending = [.snapshot] ∧ Served deps s trust acts who k []
  | .holds preHead => pending = [] ∧ ∃ i, Served deps s trust acts who k [(i, .snapshot)] ∧
      preHead = (run deps s trust acts (i + 1)).head deps
  | .awaitsMerge preHead incoming => (∃ machineId, pending = [.merge machineId incoming]) ∧
      ∃ i, Served deps s trust acts who k [(i, .snapshot)] ∧
        preHead = (run deps s trust acts (i + 1)).head deps
  | .merged preHead newHead => pending = [] ∧
      ∃ i j machineId incoming,
        Exchange deps s trust acts who k i j machineId incoming preHead newHead
  | .reported result => pending = [] ∧ ∃ i j machineId incoming preHead newHead,
      Exchange deps s trust acts who k i j machineId incoming preHead newHead ∧
        result = ⟨preHead != newHead, newHead⟩
  | .failed => True

/-- A step that handles nothing of the session leaves its exchange as it is. -/
theorem Exchange.idle {i j : ℕ} {machineId : String} {incoming : VersionedConfig}
    {preHead newHead : String}
    (h : Exchange deps s trust acts who k i j machineId incoming preHead newHead)
    (hnone : ∀ input op, acts[k]? = some input → ¬ (run deps s trust acts k).Takes input who op) :
    Exchange deps s trust acts who (k + 1) i j machineId incoming preHead newHead :=
  ⟨h.order, h.served.idle hnone, h.preHead, h.newHead⟩

/-- What the phase says of the requests and of the run so far stays true over a moment at which
nothing of this session is handled. -/
theorem Traced.idle {requests : List SyncOp} {p : SyncPhase}
    (h : Traced deps s trust acts who k requests p)
    (hnone : ∀ input op, acts[k]? = some input → ¬ (run deps s trust acts k).Takes input who op) :
    Traced deps s trust acts who (k + 1) requests p := by
  cases p with
  | opening => exact ⟨h.1, h.2.idle hnone⟩
  | awaitsSnapshot => exact ⟨h.1, h.2.idle hnone⟩
  | holds preHead =>
      obtain ⟨hops, i, hserved, hhead⟩ := h
      exact ⟨hops, i, hserved.idle hnone, hhead⟩
  | awaitsMerge preHead incoming =>
      obtain ⟨hops, i, hserved, hhead⟩ := h
      exact ⟨hops, i, hserved.idle hnone, hhead⟩
  | merged preHead newHead =>
      obtain ⟨hops, i, j, machineId, incoming, hexchange⟩ := h
      exact ⟨hops, i, j, machineId, incoming, hexchange.idle hnone⟩
  | reported result =>
      obtain ⟨hops, i, j, machineId, incoming, preHead, newHead, hexchange, hresult⟩ := h
      exact ⟨hops, i, j, machineId, incoming, preHead, newHead, hexchange.idle hnone, hresult⟩
  | failed => trivial

/-- A session that goes on by itself keeps what its phase says of the run so far. -/
theorem Traced.advances {requests : List SyncOp} {p p' : SyncPhase}
    (h : Traced deps s trust acts who k requests p) (hmoves : p.Advances p') :
    Traced deps s trust acts who k requests p' := by
  cases hmoves with
  | stay => exact h
  | failed live => trivial
  | reported preHead newHead =>
      obtain ⟨hops, i, j, machineId, incoming, hexchange⟩ := h
      exact ⟨hops, i, j, machineId, incoming, preHead, newHead, hexchange, rfl⟩

/-- The oldest request of a session is answered. Only a session that waits has one. -/
theorem Traced.answer {op : SyncOp} {rest : List SyncOp} {p : SyncPhase}
    (h : Traced deps s trust acts who k (op :: rest) p) (hinput : acts[k]? = some input)
    (htakes : (run deps s trust acts k).Takes input who op) :
    Traced deps s trust acts who (k + 1) rest
      (p.answer ((run deps s trust acts (k + 1)).head deps)) := by
  cases p with
  | opening => cases h.1
  | awaitsSnapshot =>
      obtain ⟨hops, hserved⟩ := h
      cases hops
      exact ⟨rfl, k, hserved.taken hinput htakes, rfl⟩
  | holds preHead => cases h.1
  | awaitsMerge preHead incoming =>
      obtain ⟨⟨machineId, hops⟩, i, hserved, hhead⟩ := h
      cases hops
      -- the snapshot has been handled already, so before this step
      have hik : i < k := ((hserved i .snapshot).mp List.mem_cons_self).1
      exact ⟨rfl, i, k, machineId, incoming, hik, hserved.taken hinput htakes, hhead, rfl⟩
  | merged preHead newHead => cases h.1
  | reported result => cases h.1
  | failed => trivial

/-- **Step lemma**: one step of the node keeps what the phase of a session says. -/
theorem Traced.step (hinput : acts[k]? = some input)
    (h : Traced deps s trust acts who k ((run deps s trust acts k).pending who)
      ((run deps s trust acts k).phase deps who)) :
    Traced deps s trust acts who (k + 1) ((run deps s trust acts (k + 1)).pending who)
      ((run deps s trust acts (k + 1)).phase deps who) := by
  have hrun : run deps s trust acts (k + 1) = (run deps s trust acts k).step deps input :=
    Run.after_succ hinput
  have hstep := step_phase deps (run deps s trust acts k) input who
  rw [← hrun] at hstep
  -- nothing is handled by a step that leaves as many requests as there were
  have hnone : ((run deps s trust acts k).pending who).length ≤
      ((run deps s trust acts (k + 1)).pending who).length → ∀ input' op,
        acts[k]? = some input' → ¬ (run deps s trust acts k).Takes input' who op := by
    intro hlen input' op hinput' htakes
    cases hinput.symm.trans hinput'
    have heq := htakes.pending_eq deps
    rw [← hrun] at heq
    rw [heq, List.length_cons] at hlen
    omega
  cases hstep with
  | own moves requests =>
      rw [requests]
      exact (h.advances moves).idle (hnone (by rw [requests]))
  | askedSnapshot before after requests =>
      rw [before] at h
      have hidle := h.idle (hnone (by rw [requests]; simp))
      rw [after, requests, hidle.1]
      exact ⟨rfl, hidle.2⟩
  | askedMerge preHead machineId incoming before after requests =>
      rw [before] at h
      have hidle := h.idle (hnone (by rw [requests]; simp))
      rw [after, requests, hidle.1]
      exact ⟨⟨machineId, rfl⟩, hidle.2⟩
  | answered op taken requests after =>
      rw [requests] at h
      rw [after]
      exact h.answer hinput taken

variable (deps s trust acts who) in
/-- **Run lemma**: at every moment the phase of a session says what has been handled for it. -/
theorem run_traced (k : ℕ) :
    Traced deps s trust acts who k ((run deps s trust acts k).pending who)
      ((run deps s trust acts k).phase deps who) := by
  induction k with
  | zero => cases who <;> exact ⟨rfl, served_zero⟩
  | succ k ih =>
      cases hinput : acts[k]? with
      | none =>
          have hrun : run deps s trust acts (k + 1) = run deps s trust acts k :=
            Run.after_succ_none hinput
          rw [hrun]
          refine ih.idle fun input op h => ?_
          rw [hinput] at h
          cases h
      | some input => exact ih.step hinput

end Node

end Synbad
