import Synbad.Sync.Revocation

/-! # Rejected frames

An inbound session rejects a frame whose sender is not the peer of the connection, whose signature
does not verify, or whose nonce is not 16 bytes in hexadecimal. The first two are found when the frame
is read. The nonce is looked at when the reply is made, and by then the frame has been merged. So
whether a rejected frame leaves the documents alone hangs on its nonce.

To say that a session has had no effect one has to know what was handled for it, over the whole run.
`InboundStage.Expects` says what a session waits for at each of its stages and whether a merge of it
has been handled; every step keeps it (`Expected.step`), so it holds throughout (`run_expected`). A
session that rejects its frame where it reads it has not asked for a merge, and is over, so none is
ever handled. One that rejects it at its reply has had its merge. `rejected_without_effect_iff` is the
exact condition for a run: rejected frames have no effect precisely if no reply is made to a frame
whose nonce is bad. -/

namespace Synbad

open Bytes (Arr)

/-- A sequence of fallible steps fails where one of them does. -/
theorem except_bind_error {ε α β : Type} {x : Except ε α} {f : α → Except ε β} {e : ε} :
    (x >>= f) = .error e ↔ x = .error e ∨ ∃ a, x = .ok a ∧ f a = .error e := by
  cases x with
  | error e' => simp [bind, Except.bind]
  | ok a => simp [bind, Except.bind]

/-- An error that was renamed on its way was one before. -/
theorem mapError_error {ε δ α : Type} {f : ε → δ} {x : Except ε α} {e : δ}
    (h : x.mapError f = .error e) : ∃ e', e = f e' := by
  cases x with
  | error e' =>
      cases h
      exact ⟨e', rfl⟩
  | ok a => cases h

/-- The error says that the frame itself is not acceptable. -/
def SessionError.BlamesFrame : SessionError → Prop
  | .wrongSender _ _ => True
  | .verify _ => True
  | .badNonce => True
  | _ => False

/-- The nonce of the frame is the text of 16 bytes. -/
def SyncFrame.NonceOk (hex : HexCodec) (frame : SyncFrame) : Prop :=
  ∃ nonce : Arr 16, hex.decode frame.nonceHex = some nonce.val

/-- The requests of one session among those in the channel, oldest first. -/
def requestsFor (who : Requester) (ops : List (SyncOp × Requester)) : List SyncOp :=
  ops.filterMap fun x => if x.2 = who then some x.1 else none

/-- A request of the session itself, first in the channel, is the first of its requests. -/
theorem requestsFor_cons_self (who : Requester) (op : SyncOp) (ops : List (SyncOp × Requester)) :
    requestsFor who ((op, who) :: ops) = op :: requestsFor who ops := by
  simp [requestsFor]

/-- A request of somebody else, first in the channel, is not among the session's requests. -/
theorem requestsFor_cons_of_ne {who requester : Requester} {op : SyncOp}
    {ops : List (SyncOp × Requester)} (h : requester ≠ who) :
    requestsFor who ((op, requester) :: ops) = requestsFor who ops := by
  simp [requestsFor, h]

/-- The requests of one session in two lists after each other are those in the first and then those
in the second. -/
theorem requestsFor_append (who : Requester) (ops ops' : List (SyncOp × Requester)) :
    requestsFor who (ops ++ ops') = requestsFor who ops ++ requestsFor who ops' := by
  simp [requestsFor]

/-- A request that the session puts into the channel comes last among its requests. -/
theorem requestsFor_append_self (who : Requester) (op : SyncOp) (ops : List (SyncOp × Requester)) :
    requestsFor who (ops ++ [(op, who)]) = requestsFor who ops ++ [op] := by
  rw [requestsFor_append, requestsFor_cons_self]
  rfl

/-- A request that somebody else puts into the channel changes nothing of the session's requests. -/
theorem requestsFor_append_of_ne {who requester : Requester} (h : requester ≠ who) (op : SyncOp)
    (ops : List (SyncOp × Requester)) :
    requestsFor who (ops ++ [(op, requester)]) = requestsFor who ops := by
  rw [requestsFor_append, requestsFor_cons_of_ne h]
  exact List.append_nil _

namespace Node

variable {deps : SyncDeps} {out : Outside} {n n' : Node} {input : Outside × NodeInput} {id : ℕ}
  {Taken : SyncOp → Prop} {who : Requester}

/-- With this step the supervisor handles this request of this session. -/
def Takes (n : Node) (input : Outside × NodeInput) (who : Requester) (op : SyncOp) : Prop :=
  n.halted = false ∧ input.2 = .syncOp ∧ n.syncOps.head? = some (op, who)

/-- The requests of a session that wait in the channel. -/
def pending (n : Node) (who : Requester) : List SyncOp := requestsFor who n.syncOps

variable (deps) in
/-- A request that is taken leaves the channel, and was the oldest of its session. -/
theorem Takes.pending_eq {op : SyncOp} (h : n.Takes input who op) :
    n.pending who = op :: (n.step deps input).pending who := by
  obtain ⟨hrunning, hinput, hhead⟩ := h
  obtain ⟨out, input⟩ := input
  subst hinput
  obtain ⟨rest, hops⟩ : ∃ rest, n.syncOps = (op, who) :: rest :=
    ⟨n.syncOps.tail, (List.cons_head?_tail hhead).symm⟩
  have hrest : (n.step deps (out, .syncOp)).syncOps = rest := by
    rw [step, hrunning, if_neg (by simp), stepRunning, handleOp, hops]
    cases who <;> simp only [answer] <;> split <;> rfl
  rw [pending, pending, hrest, hops, requestsFor_cons_self]

variable (deps) in
/-- A request that is taken is handled by the supervisor. -/
theorem Takes.supervisor_eq {op : SyncOp} (h : n.Takes input who op) :
    (n.step deps input).supervisor = n.supervisor.handle input.1.env (.syncOp op) := by
  obtain ⟨hrunning, hinput, hhead⟩ := h
  obtain ⟨rest, hops⟩ : ∃ rest, n.syncOps = (op, who) :: rest :=
    ⟨n.syncOps.tail, (List.cons_head?_tail hhead).symm⟩
  rw [step, if_neg (by simp [hrunning])]
  unfold stepRunning
  rw [hinput]
  simp only [handleOp, hops]
  exact congrArg Prod.fst (answer_core _ _ _)

/-! ## One inbound session and its requests -/

/-- **What one step does to one inbound session and its requests.** A request that leaves the channel
has been taken. -/
inductive SessionStep (deps : SyncDeps) (Taken : SyncOp → Prop) (n n' : Node) (id : ℕ) : Prop
  | same (session : n'.inbound[id]? = n.inbound[id]?) (requests : n'.pending (.inbound id) = n.pending (.inbound id))
  | accepted (fresh : n.inbound[id]? = none) (session : n'.inbound[id]? = some ⟨.accepted, none⟩)
      (requests : n'.pending (.inbound id) = n.pending (.inbound id))
  | own (i : Inbound) (move : InboundMove) (before : n.inbound[id]? = some i)
      (session : n'.inbound[id]? = some (i.advance deps n.trust move))
      (requests : n'.pending (.inbound id) = n.pending (.inbound id))
  | askedSnapshot (i : Inbound) (trusted : TrustedPeer) (peerFrame : SyncFrame)
      (before : n.inbound[id]? = some i) (stage : i.stage = .wantsSnapshot trusted peerFrame)
      (session : n'.inbound[id]? = some { i with stage := .awaitsSnapshot trusted peerFrame })
      (requests : n'.pending (.inbound id) = n.pending (.inbound id) ++ [.snapshot])
  | askedMerge (i : Inbound) (trusted : TrustedPeer) (peerFrame : SyncFrame) (preHead : String)
      (before : n.inbound[id]? = some i) (stage : i.stage = .wantsMerge trusted peerFrame preHead)
      (session : n'.inbound[id]? = some { i with stage := .awaitsMerge trusted peerFrame preHead })
      (requests : n'.pending (.inbound id) = n.pending (.inbound id) ++ [.merge trusted.machineId peerFrame.state])
  | handled (op : SyncOp) (taken : Taken op) (requests : n.pending (.inbound id) = op :: n'.pending (.inbound id))
      (session : n'.inbound[id]? = (n.inbound[id]?).map (·.answer deps n'.versioned))

/-- A step that touches neither sessions nor requests is as `SessionStep` says. -/
theorem SessionStep.of_eq (hin : n'.inbound = n.inbound) (hops : n'.syncOps = n.syncOps) :
    n.SessionStep deps Taken n' id :=
  .same (by rw [hin]) (by rw [pending, pending, hops])

/-- Dialing at the end of a step leaves an inbound session and its requests as they were. -/
theorem Pulled.sessionStep {m : Node} (h : m.Pulled deps n') (hin : m.inbound = n.inbound)
    (hops : m.syncOps = n.syncOps) : n.SessionStep deps Taken n' id := by
  rw [h.frame]
  exact .of_eq hin hops

/-- A step that puts a request of somebody else into the channel. -/
theorem SessionStep.of_append {op : SyncOp} {requester : Requester}
    (hother : requester ≠ .inbound id) (hin : n'.inbound[id]? = n.inbound[id]?)
    (hops : n'.syncOps = n.syncOps ++ [(op, requester)]) : n.SessionStep deps Taken n' id := by
  refine .same hin ?_
  rw [pending, pending, hops]
  exact requestsFor_append_of_ne hother op n.syncOps

/-- A request of the session comes last among its own. -/
theorem pending_append_self {op : SyncOp} (hops : n'.syncOps = n.syncOps ++ [(op, .inbound id)]) :
    n'.pending (.inbound id) = n.pending (.inbound id) ++ [op] := by
  rw [pending, pending, hops]
  exact requestsFor_append_self (.inbound id) op n.syncOps

/-- Handling the oldest request answers the inbound session it is from, if it is from one. All other
inbound sessions keep their stages and their requests. -/
theorem handleOp_session (n : Node) (id : ℕ)
    (htaken : ∀ op, n.syncOps.head? = some (op, .inbound id) → Taken op) :
    n.SessionStep deps Taken (n.handleOp deps out) id := by
  cases hops : n.syncOps with
  | nil =>
      rw [handleOp, hops]
      exact .of_eq rfl rfl
  | cons x rest =>
      obtain ⟨op, requester⟩ := x
      have hrequests : n.pending (.inbound id) = requestsFor (.inbound id) ((op, requester) :: rest) := by
        rw [pending, hops]
      rw [handleOp, hops]
      cases requester with
      | outbound k =>
          -- an outbound session's request: nothing here is about this one
          rw [requestsFor_cons_of_ne (by simp)] at hrequests
          simp only [answer]
          split <;> exact .same rfl hrequests.symm
      | inbound k =>
          by_cases hk : k = id
          · -- the session's own request: it is answered
            subst hk
            rw [requestsFor_cons_self] at hrequests
            simp only [answer]
            split
            · next hnone => exact .handled op (htaken op (by rw [hops]; rfl)) hrequests (by simp [hnone])
            · next i hi =>
              have hlt : k < n.inbound.length := (List.getElem?_eq_some_iff.mp hi).1
              refine .handled op (htaken op (by rw [hops]; rfl)) hrequests ?_
              simp only [hi, Option.map_some]
              rw [List.getElem?_set_self hlt]
              rfl
          · have hne : Requester.inbound k ≠ .inbound id := fun h => hk (Requester.inbound.inj h)
            -- another session's request: those of this one stay as they are
            rw [requestsFor_cons_of_ne hne] at hrequests
            simp only [answer]
            split
            · exact .same rfl hrequests.symm
            · exact .same (List.getElem?_set_ne hk) hrequests.symm

/-- A step of an outbound session leaves every inbound one alone, with its requests. -/
theorem stepOutbound_session (n : Node) (k : ℕ) (move : OutboundMove) (id : ℕ) :
    n.SessionStep deps Taken (n.stepOutbound deps k move) id := by
  unfold stepOutbound
  split
  · exact .of_eq rfl rfl
  split
  · unfold ask
    split
    · have hne : Requester.outbound k ≠ .inbound id := by simp
      exact .of_append hne rfl rfl
    · exact .of_eq rfl rfl
  · unfold ask
    split
    · have hne : Requester.outbound k ≠ .inbound id := by simp
      exact .of_append hne rfl rfl
    · exact .of_eq rfl rfl
  · exact .of_eq rfl rfl

/-- A step of an inbound session advances it or puts its question into the channel, and leaves the
other inbound sessions alone. -/
theorem stepInbound_session (n : Node) (k : ℕ) (move : InboundMove) (id : ℕ) :
    n.SessionStep deps Taken (n.stepInbound deps k move) id := by
  unfold stepInbound
  split
  · exact .of_eq rfl rfl
  next i hi =>
  have hlt : k < n.inbound.length := (List.getElem?_eq_some_iff.mp hi).1
  by_cases hk : k = id
  · subst hk
    split
    -- of its own moves only the two questions put something into the queue
    · next trusted peerFrame hstage =>
      unfold ask
      split
      · exact .askedSnapshot i trusted peerFrame hi hstage (List.getElem?_set_self hlt)
          (pending_append_self rfl)
      · exact .of_eq rfl rfl
    · next trusted peerFrame preHead hstage =>
      unfold ask
      split
      · exact .askedMerge i trusted peerFrame preHead hi hstage (List.getElem?_set_self hlt)
          (pending_append_self rfl)
      · exact .of_eq rfl rfl
    · exact .own i _ hi (List.getElem?_set_self hlt) rfl
  · have hne : Requester.inbound k ≠ .inbound id := fun h => hk (Requester.inbound.inj h)
    split
    · unfold ask
      split
      · exact .of_append hne (List.getElem?_set_ne hk) rfl
      · exact .of_eq rfl rfl
    · unfold ask
      split
      · exact .of_append hne (List.getElem?_set_ne hk) rfl
      · exact .of_eq rfl rfl
    · exact .same (List.getElem?_set_ne hk) rfl

/-- A lost event leaves every inbound session alone, with its requests. -/
theorem lost_session (n : Node) (machineId : String) (id : ℕ) :
    n.SessionStep deps Taken (n.lost machineId) id := by
  unfold lost
  split
  · exact .of_eq rfl rfl
  · simp only []
    split
    · exact .of_eq rfl rfl
    · unfold abort
      split <;> exact .of_eq rfl rfl

variable (deps) in
/-- **Every step of a node is as `SessionStep` says**, for every inbound session. -/
theorem step_session (n : Node) (input : Outside × NodeInput) (id : ℕ) :
    n.SessionStep deps (n.Takes input (.inbound id)) (n.step deps input) id := by
  obtain ⟨out, input⟩ := input
  unfold step
  split
  · exact .of_eq rfl rfl
  next hrunning =>
  unfold stepRunning
  split
  · exact .of_eq rfl rfl
  · simp only [handleLoop]
    split
    · exact .of_eq rfl rfl
    split
    -- an edit that was taken dials the peers, which adds no inbound session
    · exact (pullAll_pulled _).sessionStep rfl rfl
    · exact .of_eq rfl rfl
  · exact handleOp_session n id fun op hhead => ⟨by simpa using hrunning, ‹_›, hhead⟩
  · simp only [found]
    split
    · exact .of_eq rfl rfl
    · exact (maybePullFrom_pulled _ _).sessionStep rfl rfl
  · exact lost_session n _ id
  · exact (pullAll_pulled _).sessionStep rfl rfl
  · exact .of_eq rfl rfl
  · exact .of_eq rfl rfl
  · exact stepOutbound_session n _ _ id
  · -- a new session gets the next number
    rcases lt_trichotomy id n.inbound.length with hlt | rfl | hgt
    · exact .same (List.getElem?_append_left hlt) rfl
    · exact .accepted (by simp) (by simp) rfl
    · refine .same ?_ rfl
      rw [List.getElem?_eq_none (by simp; omega), List.getElem?_eq_none (by omega)]
  · exact stepInbound_session n _ _ id
  · exact .of_eq rfl rfl

/-! ## What a stage says about the requests -/

/-- What waits in the channel at each stage of a session, and whether a merge of it has been handled. -/
def InboundStage.Expects (requests : List SyncOp) (merged : Prop) : InboundStage → Prop
  | .awaitsSnapshot _ _ => requests = [.snapshot] ∧ ¬ merged
  | .awaitsMerge trusted peerFrame _ => requests = [.merge trusted.machineId peerFrame.state]
  | .replying _ _ _ _ => merged
  | .finished _ => True
  | _ => requests = [] ∧ ¬ merged

/-- The same of a session that may not have been accepted yet. -/
def Expected (requests : List SyncOp) (merged : Prop) : Option Inbound → Prop
  | none => requests = [] ∧ ¬ merged
  | some i => InboundStage.Expects requests merged i.stage

/-- Nothing is expected of a step by which no request of the session leaves the channel. -/
theorem not_takes_of_length (h : (n.pending (.inbound id)).length ≤ ((n.step deps input).pending (.inbound id)).length)
    (op : SyncOp) : ¬ n.Takes input (.inbound id) op := by
  intro htakes
  rw [htakes.pending_eq deps, List.length_cons] at h
  exact absurd h (Nat.not_succ_le_self _)

/-- A session that takes a step of its own still waits for what its stage says. -/
theorem Expected.advance {i : Inbound} {store : TrustedPeerStore} {requests : List SyncOp}
    {merged : Prop} (h : Expected requests merged (some i)) (move : InboundMove) :
    Expected requests merged (some (i.advance deps store move)) := by
  have hadvances := @Inbound.advance_advances deps store i move
  generalize i.advance deps store move = i' at hadvances ⊢
  replace h : InboundStage.Expects requests merged i.stage := h
  cases hadvances with
  | stay => exact h
  | failed e live => trivial
  | snapshot stage =>
      rw [stage] at h
      exact h
  | authenticated snapshot machineId publicKey stage known =>
      rw [stage] at h
      exact h
  | reloaded machineId trusted stage entry =>
      rw [stage] at h
      exact h
  | received machineId trusted peerFrame body stage checked =>
      rw [stage] at h
      exact h
  | replied trusted peerFrame reply preHead merged stage made => trivial

/-- When the oldest request of a session is answered, its new stage waits for what is left, and a
merge counts as handled. -/
theorem Expected.answer {session : Option Inbound} {op : SyncOp} {rest : List SyncOp}
    {merged merged' : Prop} (h : Expected (op :: rest) merged session)
    (hmerged : merged' ↔ merged ∨ ∃ peer incoming, op = .merge peer incoming)
    (reply : VersionedConfig) :
    Expected rest merged' (session.map (·.answer deps reply)) := by
  -- a session that has nothing in the channel is not the one that is answered
  have hempty : ¬ (op :: rest = [] ∧ ¬ merged) := fun h => List.cons_ne_nil op rest h.1
  cases session with
  | none => exact absurd h hempty
  | some i =>
      obtain ⟨stage, sent⟩ := i
      cases stage with
      | awaitsSnapshot trusted peerFrame =>
          obtain ⟨hops, hnot⟩ : op :: rest = [.snapshot] ∧ ¬ merged := h
          cases hops
          refine ⟨rfl, ?_⟩
          rw [hmerged]
          rintro (hm | ⟨peer, incoming, heq⟩)
          · exact hnot hm
          · cases heq
      | awaitsMerge trusted peerFrame preHead =>
          have hops : op :: rest = [.merge trusted.machineId peerFrame.state] := h
          cases hops
          exact hmerged.mpr (Or.inr ⟨_, _, rfl⟩)
      | replying trusted peerFrame preHead reply => exact hmerged.mpr (Or.inl h)
      | finished result => trivial
      | accepted => exact absurd h hempty
      | handshaking snapshot => exact absurd h hempty
      | authenticated machineId => exact absurd h hempty
      | receiving machineId trusted => exact absurd h hempty
      | wantsSnapshot trusted peerFrame => exact absurd h hempty
      | wantsMerge trusted peerFrame preHead => exact absurd h hempty

/-- **Step lemma**: the stage of a session says what it waits for. -/
theorem Expected.step {merged merged' : Prop}
    (h : Expected (n.pending (.inbound id)) merged n.inbound[id]?)
    (hmerged : merged' ↔ merged ∨ ∃ peer incoming, n.Takes input (.inbound id) (.merge peer incoming)) :
    Expected ((n.step deps input).pending (.inbound id)) merged' (n.step deps input).inbound[id]? := by
  -- by a step that takes no request nothing has been merged
  have hkeep : (n.pending (.inbound id)).length ≤ ((n.step deps input).pending (.inbound id)).length →
      merged' = merged := by
    intro hlen
    have hnone : ¬ ∃ peer incoming, n.Takes input (.inbound id) (.merge peer incoming) := by
      rintro ⟨peer, incoming, htakes⟩
      exact not_takes_of_length hlen _ htakes
    rw [eq_iff_iff, hmerged, or_iff_left hnone]
  cases step_session deps n input id with
  | same session requests =>
      rw [session, requests, hkeep (by rw [requests])]
      exact h
  | accepted fresh session requests =>
      rw [fresh] at h
      rw [session, requests, hkeep (by rw [requests])]
      exact h
  | own i move before session requests =>
      rw [before] at h
      rw [session, requests, hkeep (by rw [requests])]
      exact h.advance move
  | askedSnapshot i trusted peerFrame before stage session requests =>
      simp only [before, Expected, stage] at h
      have hops : n.pending (.inbound id) = [] ∧ ¬ merged := h
      rw [session, requests, hkeep (by rw [requests]; simp), hops.1]
      exact ⟨rfl, hops.2⟩
  | askedMerge i trusted peerFrame preHead before stage session requests =>
      simp only [before, Expected, stage] at h
      have hops : n.pending (.inbound id) = [] ∧ ¬ merged := h
      rw [session, requests, hops.1]
      exact rfl
  | handled op taken requests session =>
      rw [requests] at h
      rw [session]
      refine h.answer (hmerged.trans (or_congr_right ⟨?_, ?_⟩)) _
      · rintro ⟨peer, incoming, htakes⟩
        have heq := htakes.pending_eq deps
        rw [requests] at heq
        exact ⟨peer, incoming, (List.cons.inj heq).1⟩
      · rintro ⟨peer, incoming, rfl⟩
        exact ⟨peer, incoming, taken⟩

/-! ## Over a run -/

variable {s : Supervisor} {trust : TrustedPeerStore} {acts : List (Outside × NodeInput)}

/-- A merge of this session has been handled within the first `k` steps. -/
def Merged (deps : SyncDeps) (s : Supervisor) (trust : TrustedPeerStore)
    (acts : List (Outside × NodeInput)) (k id : ℕ) : Prop :=
  ∃ j < k, ∃ input peer incoming, acts[j]? = some input ∧
    (run deps s trust acts j).Takes input (.inbound id) (.merge peer incoming)

/-- Within one more step a merge has been handled if it had been before or is taken in this step. -/
theorem merged_succ {k : ℕ} {input : Outside × NodeInput} (h : acts[k]? = some input) :
    Merged deps s trust acts (k + 1) id ↔ Merged deps s trust acts k id ∨
      ∃ peer incoming, (run deps s trust acts k).Takes input (.inbound id) (.merge peer incoming) := by
  constructor
  · rintro ⟨j, hj, input', peer, incoming, hinput, htakes⟩
    rcases Nat.lt_succ_iff_lt_or_eq.mp hj with hj | rfl
    · exact Or.inl ⟨j, hj, input', peer, incoming, hinput, htakes⟩
    · cases h.symm.trans hinput
      exact Or.inr ⟨peer, incoming, htakes⟩
  · rintro (⟨j, hj, hmerged⟩ | ⟨peer, incoming, htakes⟩)
    · exact ⟨j, hj.trans (Nat.lt_succ_self k), hmerged⟩
    · exact ⟨k, Nat.lt_succ_self k, input, peer, incoming, h, htakes⟩

variable (deps s trust acts id) in
/-- **Run lemma**: at every moment the stage of a session says what it waits for. -/
theorem run_expected (k : ℕ) : Expected ((run deps s trust acts k).pending (.inbound id))
    (Merged deps s trust acts k id) (run deps s trust acts k).inbound[id]? := by
  induction k with
  | zero => exact ⟨rfl, fun ⟨_, hj, _⟩ => absurd hj (Nat.not_lt_zero _)⟩
  | succ k ih =>
      cases h : acts[k]? with
      | none =>
          have hrun : run deps s trust acts (k + 1) = run deps s trust acts k :=
            Run.after_succ_none h
          have hmerged : Merged deps s trust acts (k + 1) id = Merged deps s trust acts k id := by
            refine propext ⟨?_, fun ⟨j, hj, hm⟩ => ⟨j, hj.trans (Nat.lt_succ_self k), hm⟩⟩
            rintro ⟨j, hj, input, peer, incoming, hinput, htakes⟩
            rcases Nat.lt_succ_iff_lt_or_eq.mp hj with hj | rfl
            · exact ⟨j, hj, input, peer, incoming, hinput, htakes⟩
            · rw [h] at hinput
              cases hinput
          rw [hrun, hmerged]
          exact ih
      | some input =>
          have hrun : run deps s trust acts (k + 1) = (run deps s trust acts k).step deps input :=
            Run.after_succ h
          rw [hrun]
          exact ih.step (merged_succ h)

/-! ## Rejections -/

/-- **A session rejects its frame**: it ends with an error of the frame where it reads the frame, or
where it makes the reply. -/
structure Rejects (deps : SyncDeps) (n : Node) (input : Outside × NodeInput) (id : ℕ)
    (e : SessionError) : Prop where
  running : n.halted = false
  move : (∃ body, input.2 = .inbound id (.receive body)) ∨ input.2 = .inbound id .reply
  live : ∃ i, n.inbound[id]? = some i ∧ ∀ result, i.stage ≠ .finished result
  finishes : ∃ i', (n.step deps input).inbound[id]? = some i' ∧ i'.stage = .finished (.error e)
  blames : e.BlamesFrame

/-- The session makes the reply to this frame in this step, after its merge. -/
structure Replies (n : Node) (input : Outside × NodeInput) (id : ℕ) (peerFrame : SyncFrame) :
    Prop where
  running : n.halted = false
  move : input.2 = .inbound id .reply
  stage : ∃ i trusted preHead merged, n.inbound[id]? = some i ∧
    i.stage = .replying trusted peerFrame preHead merged

variable (deps) in
/-- A move of its own sets an inbound session and touches nothing in the channel. -/
theorem step_inbound {move : InboundMove} {i : Inbound} (hrunning : n.halted = false)
    (hinput : input.2 = .inbound id move) (hi : n.inbound[id]? = some i)
    (hown : move ≠ .askSnapshot ∧ move ≠ .askMerge) :
    (n.step deps input).inbound[id]? = some (i.advance deps n.trust move) ∧
      (n.step deps input).pending (.inbound id) = n.pending (.inbound id) := by
  have hlt : id < n.inbound.length := (List.getElem?_eq_some_iff.mp hi).1
  have hstep : n.step deps input =
      { n with inbound := n.inbound.set id (i.advance deps n.trust move) } := by
    rw [step, if_neg (by simp [hrunning])]
    unfold stepRunning
    rw [hinput]
    simp only [stepInbound, hi]
    split
    · exact absurd rfl hown.1
    · exact absurd rfl hown.2
    · rfl
  rw [hstep]
  exact ⟨List.getElem?_set_self hlt, rfl⟩

/-- A good nonce is no reason to reject: what can still go wrong is our own reply. -/
theorem inboundReply_error {peerFrame : SyncFrame} {merged : VersionedConfig} {e : SessionError}
    (hnonce : peerFrame.NonceOk deps.ops.hex) (h : inboundReply deps peerFrame merged = .error e) :
    ¬ e.BlamesFrame := by
  obtain ⟨nonce, hnonce⟩ := hnonce
  rw [inboundReply, hnonce] at h
  rcases except_bind_error.mp h with h | ⟨bytes, hbytes, h⟩
  · cases h
  cases hbytes
  rw [Arr.ofBytes_val] at h
  rcases except_bind_error.mp h with h | ⟨nonce', hnonce', h⟩
  · cases h
  cases hnonce'
  rcases except_bind_error.mp h with h | ⟨reply, -, h⟩
  · obtain ⟨e', rfl⟩ := mapError_error h
    exact id
  rcases except_bind_error.mp h with h | ⟨body, -, h⟩
  · rcases except_bind_error.mp h with h | ⟨body, -, h⟩
    · obtain ⟨e', rfl⟩ := mapError_error h
      exact id
    · split at h
      · cases h
        exact id
      · cases h
  · cases h

/-- The reply fails with `BadNonce` for any nonce that is not 16 bytes in hexadecimal. -/
theorem inboundReply_of_bad {peerFrame : SyncFrame} {merged : VersionedConfig}
    (hnonce : ¬ peerFrame.NonceOk deps.ops.hex) : inboundReply deps peerFrame merged = .error .badNonce := by
  rw [inboundReply]
  cases hhex : deps.ops.hex.decode peerFrame.nonceHex with
  | none => rfl
  | some bytes =>
      cases harr : Arr.ofBytes 16 bytes with
      | none =>
          simp only [orError, bind, Except.bind, harr]
      | some nonce =>
          refine absurd ⟨nonce, ?_⟩ hnonce
          rw [hhex, Arr.val_of_ofBytes harr]

/-- A session that rejects where it reads the frame has asked for nothing yet, and is over; one that
rejects where it makes the reply has a bad nonce. -/
theorem Rejects.cases {e : SessionError} (h : n.Rejects deps input id e) :
    (∃ i i' machineId trusted, n.inbound[id]? = some i ∧ i.stage = .receiving machineId trusted ∧
      (n.step deps input).inbound[id]? = some i' ∧ i'.stage = .finished (.error e) ∧
        (n.step deps input).pending (.inbound id) = n.pending (.inbound id)) ∨
      ∃ peerFrame, n.Replies input id peerFrame ∧ ¬ peerFrame.NonceOk deps.ops.hex := by
  obtain ⟨i, hi, hlive⟩ := h.live
  obtain ⟨i', hi', hover⟩ := h.finishes
  rcases h.move with ⟨body, hinput⟩ | hinput
  · left
    obtain ⟨hset, hrequests⟩ :=
      step_inbound deps h.running hinput hi ⟨by simp, by simp⟩
    refine ⟨i, i', ?_⟩
    obtain rfl : i.advance deps n.trust (.receive body) = i' := Option.some.inj (hset.symm.trans hi')
    -- only a session that waits for the frame does anything with it
    have hchanged := hover
    simp only [Inbound.advance] at hchanged
    split at hchanged
    · next machineId trusted hstage => exact ⟨machineId, trusted, hi, hstage, hi', hover, hrequests⟩
    · exact absurd hchanged (hlive _)
  · right
    obtain ⟨hset, -⟩ := step_inbound deps h.running hinput hi ⟨by simp, by simp⟩
    obtain rfl : i.advance deps n.trust .reply = i' := Option.some.inj (hset.symm.trans hi')
    simp only [Inbound.advance] at hover
    split at hover
    · next trusted peerFrame preHead merged hstage =>
      refine ⟨peerFrame, ⟨h.running, hinput, i, trusted, preHead, merged, hi, hstage⟩, ?_⟩
      intro hnonce
      split at hover
      · next e' hreply =>
        simp only [InboundStage.finished.injEq, Except.error.injEq] at hover
        subst hover
        exact inboundReply_error hnonce hreply h.blames
      · simp at hover
    · exact absurd hover (hlive _)

/-- A reply to a frame with a bad nonce is a rejection. -/
theorem Replies.rejects {peerFrame : SyncFrame} (h : n.Replies input id peerFrame)
    (hnonce : ¬ peerFrame.NonceOk deps.ops.hex) : n.Rejects deps input id .badNonce := by
  obtain ⟨i, trusted, preHead, merged, hi, hstage⟩ := h.stage
  obtain ⟨hset, -⟩ := step_inbound deps h.running h.move hi ⟨nofun, nofun⟩
  refine ⟨h.running, Or.inr h.move, ⟨i, hi, by simp [hstage]⟩, ⟨_, hset, ?_⟩, trivial⟩
  simp only [Inbound.advance, hstage, inboundReply_of_bad hnonce]

/-! ### After the end -/

/-- The session is over and has nothing in the channel. -/
def Over (n : Node) (id : ℕ) : Prop :=
  n.pending (.inbound id) = [] ∧ ∃ i result, n.inbound[id]? = some i ∧ i.stage = .finished result

/-- A session that is over stays so, whatever the next step is. -/
theorem Over.step (h : n.Over id) (input : Outside × NodeInput) : (n.step deps input).Over id := by
  obtain ⟨hnone, i, result, hi, hstage⟩ := h
  cases step_session deps n input id with
  | same session requests => exact ⟨requests.trans hnone, i, result, session.trans hi, hstage⟩
  | accepted fresh session requests =>
      rw [hi] at fresh
      cases fresh
  | own i' move before session requests =>
      obtain rfl : i = i' := Option.some.inj (hi.symm.trans before)
      refine ⟨requests.trans hnone, _, result, session, ?_⟩
      cases move <;> simp only [Inbound.advance, hstage]
  | askedSnapshot i' trusted peerFrame before stage session requests =>
      obtain rfl : i = i' := Option.some.inj (hi.symm.trans before)
      rw [hstage] at stage
      cases stage
  | askedMerge i' trusted peerFrame preHead before stage session requests =>
      obtain rfl : i = i' := Option.some.inj (hi.symm.trans before)
      rw [hstage] at stage
      cases stage
  | handled op taken requests session =>
      rw [hnone] at requests
      cases requests

/-- Nothing of a session that is over is handled any more. -/
theorem Over.not_takes (h : n.Over id) (op : SyncOp) : ¬ n.Takes input (.inbound id) op := by
  rintro ⟨-, -, hhead⟩
  have hmem : (op, Requester.inbound id) ∈ n.syncOps := List.mem_of_head? hhead
  have hop : op ∈ n.pending (.inbound id) :=
    List.mem_filterMap.mpr ⟨_, hmem, by simp⟩
  rw [h.1] at hop
  cases hop

/-- From the moment a session is over, it is over at every later one. -/
theorem run_over {k : ℕ} (h : (run deps s trust acts k).Over id) {j : ℕ} (hkj : k ≤ j) :
    (run deps s trust acts j).Over id := by
  induction hkj with
  | refl => exact h
  | @step j _ ih =>
      cases hacts : acts[j]? with
      | none =>
          have hrun : run deps s trust acts (j + 1) = run deps s trust acts j :=
            Run.after_succ_none hacts
          rw [hrun]
          exact ih
      | some input =>
          have hrun : run deps s trust acts (j + 1) = (run deps s trust acts j).step deps input :=
            Run.after_succ hacts
          rw [hrun]
          exact ih.step input

/-! ### What a session without a merge does to the documents -/

/-- The documents of two supervisors are the same, in memory and on disk. -/
structure SameDocuments (a b : Supervisor) : Prop where
  config : a.config = b.config
  versioned : a.versioned = b.versioned
  disk : a.disk = b.disk

/-- A step of a session of its own leaves the documents alone, in memory and on disk. -/
theorem sameDocuments_own {move : InboundMove} (hinput : input.2 = .inbound id move) :
    SameDocuments (n.step deps input).supervisor n.supervisor := by
  have hcore : (n.step deps input).core = n.core := by
    unfold step
    split
    · rfl
    unfold stepRunning
    rw [hinput]
    exact stepInbound_core n id move
  have hsup : (n.step deps input).supervisor = n.supervisor := congrArg Prod.fst hcore
  exact ⟨by rw [hsup], by rw [hsup], by rw [hsup]⟩

/-- Handling a request for a snapshot leaves the documents alone. -/
theorem sameDocuments_snapshot (h : n.Takes input (.inbound id) .snapshot) :
    SameDocuments (n.step deps input).supervisor n.supervisor := by
  have hsup : (n.step deps input).supervisor = n.supervisor.handle input.1.env (.syncOp .snapshot) :=
    Takes.supervisor_eq deps h
  rw [hsup]
  exact ⟨rfl, rfl, rfl⟩

/-- **A session without effect**: no merge of it is ever handled, and neither its steps nor its
requests change a document. -/
def WithoutEffect (deps : SyncDeps) (s : Supervisor) (trust : TrustedPeerStore)
    (acts : List (Outside × NodeInput)) (id : ℕ) : Prop :=
  ∀ j input, acts[j]? = some input →
    (∀ peer incoming, ¬ (run deps s trust acts j).Takes input (.inbound id) (.merge peer incoming)) ∧
    ((∃ move, input.2 = .inbound id move) ∨
      (∃ op, (run deps s trust acts j).Takes input (.inbound id) op) →
        SameDocuments (run deps s trust acts (j + 1)).supervisor
          (run deps s trust acts j).supervisor)

/-- A session of which no merge is ever handled has no effect on any document. -/
theorem withoutEffect_of_not_merged
    (h : ∀ j input, acts[j]? = some input → ∀ peer incoming,
      ¬ (run deps s trust acts j).Takes input (.inbound id) (.merge peer incoming)) :
    WithoutEffect deps s trust acts id := by
  intro j input hinput
  have hrun : run deps s trust acts (j + 1) = (run deps s trust acts j).step deps input :=
    Run.after_succ hinput
  refine ⟨h j input hinput, ?_⟩
  rw [hrun]
  rintro (⟨move, hmove⟩ | ⟨op, hop⟩)
  · exact sameDocuments_own hmove
  · cases op with
    | snapshot => exact sameDocuments_snapshot hop
    | merge peer incoming => exact absurd hop (h j input hinput peer incoming)

/-- **Rejected frames have no effect, exactly as far as their nonces are good.** In every run of a
node: whenever a session rejects its frame it has had no effect and will have none, if and only if
every frame that comes to its reply has a nonce of 16 bytes. -/
theorem rejected_without_effect_iff (deps : SyncDeps) (s : Supervisor) (trust : TrustedPeerStore)
    (acts : List (Outside × NodeInput)) :
    (∀ k input id e, acts[k]? = some input → (run deps s trust acts k).Rejects deps input id e →
      WithoutEffect deps s trust acts id) ↔
    ∀ k input id peerFrame, acts[k]? = some input →
      (run deps s trust acts k).Replies input id peerFrame → peerFrame.NonceOk deps.ops.hex := by
  constructor
  · intro h k input id peerFrame hinput hreplies
    by_contra hnonce
    -- the session is about to reject a frame whose merge has been handled
    obtain ⟨i, trusted, preHead, merged, hi, hstage⟩ := hreplies.stage
    have hexpected := run_expected deps id s trust acts k
    rw [hi] at hexpected
    simp only [Expected, hstage] at hexpected
    obtain ⟨j, -, input', peer, incoming, hinput', htakes⟩ := hexpected
    exact (h k input id _ hinput (hreplies.rejects hnonce) j input' hinput').1 peer incoming htakes
  · intro h k input id e hinput hrejects
    rcases hrejects.cases with ⟨i, i', machineId, trusted, hi, hstage, hi', hover, hsame⟩ | hreply
    · -- rejected on reading: nothing was asked before, and nothing is asked after
      have hexpected := run_expected deps id s trust acts k
      rw [hi] at hexpected
      simp only [Expected, hstage] at hexpected
      obtain ⟨hnone, hnot⟩ : (run deps s trust acts k).pending (.inbound id) = [] ∧
        ¬ Merged deps s trust acts k id := hexpected
      have hover' : (run deps s trust acts (k + 1)).Over id := by
        rw [show run deps s trust acts (k + 1) = (run deps s trust acts k).step deps input from
          Run.after_succ hinput]
        exact ⟨hsame.trans hnone, i', _, hi', hover⟩
      refine withoutEffect_of_not_merged fun j input' hinput' peer incoming htakes => ?_
      rcases lt_trichotomy j k with hjk | rfl | hkj
      · exact hnot ⟨j, hjk, input', peer, incoming, hinput', htakes⟩
      · have hop := htakes.pending_eq deps
        rw [hnone] at hop
        cases hop
      · exact (run_over hover' hkj).not_takes _ htakes
    · obtain ⟨peerFrame, hreplies, hnonce⟩ := hreply
      exact absurd (h k input id peerFrame hinput hreplies) hnonce

/-! ### A short nonce -/

/-- The state of `b`, which is the initial one with another port. -/
def shortState : VersionedConfig := .initial { Config.default with port := 1 } "b"

/-- Machine `a`; the frames it reads are a nonce of 8 bytes and a signature around the state of `b`. -/
def shortDeps : SyncDeps :=
  { sampleDeps shortState with
    json := { sampleJson shortState with
      frameFromJson := fun body =>
        .ok ⟨"b", Sample.ops.hex.encode (body.take 8), shortState, Sample.ops.hex.encode (body.drop 8)⟩ } }

/-- What `b` sends: a nonce of 8 bytes and its signature over the state with that nonce. -/
def shortFrame : Bytes :=
  match canonicalStateBytes shortDeps.json "b" (Sample.pad 8 [7]).val shortState with
  | .ok bytes => (Sample.pad 8 [7]).val ++ (Sample.ops.sign (Sample.pad 32 [2]) bytes).val
  | .error _ => []

/-- A session with `b` from the first step to the reply. -/
def shortSession : List (Outside × NodeInput) :=
  calmly [.accept, .inbound 0 .lookUp, .inbound 0 (.handshaken (.authenticated "b" (Sample.pad 32 [2]))),
    .inbound 0 .lookUp, .inbound 0 (.receive shortFrame), .inbound 0 .askSnapshot, .syncOp,
    .inbound 0 .askMerge, .syncOp, .inbound 0 .reply]

/-- The run of this session with a nonce that is too short, with nothing else going on. -/
abbrev shortRun : ℕ → Node := run shortDeps sampleSupervisor sampleTrust shortSession

/-- The nonce of the frame a session replies to. -/
def replyNonce : Option Inbound → Option String
  | some ⟨.replying _ peerFrame _ _, _⟩ => some peerFrame.nonceHex
  | _ => none

/-- The merge of an inbound session that is first in the channel. -/
def firstMerge : List (SyncOp × Requester) → Option ℕ
  | (.merge _ _, .inbound id) :: _ => some id
  | _ => none

/-- In the run with the nonce that is too short, the merge is first in the channel after eight
steps. After the ninth the session stands before its reply, with the nonce of 8 bytes in hand. -/
theorem shortRun_facts :
    (shortRun 8).halted = false ∧ firstMerge (shortRun 8).syncOps = some 0 ∧
      (shortRun 9).halted = false ∧
      replyNonce (shortRun 9).inbound[0]? = some (Sample.ops.hex.encode (Sample.pad 8 [7]).val) := by
  decide +kernel

/-- A frame with a nonce of 8 bytes is merged, and then rejected. -/
theorem short_nonce_is_merged :
    ¬ ∀ (deps : SyncDeps) (s : Supervisor) (trust : TrustedPeerStore)
        (acts : List (Outside × NodeInput)) (k : ℕ) (input : Outside × NodeInput) (id : ℕ)
        (e : SessionError), acts[k]? = some input →
          (run deps s trust acts k).Rejects deps input id e → WithoutEffect deps s trust acts id := by
  intro h
  obtain ⟨hrunning, hmerge, hrunning', hnonce⟩ := shortRun_facts
  -- the ninth step handles the merge
  have htakes : ∃ peer incoming,
      (shortRun 8).Takes (sampleOutside, .syncOp) (.inbound 0) (.merge peer incoming) := by
    unfold firstMerge at hmerge
    split at hmerge
    · next peer incoming id rest hops =>
      obtain rfl : id = 0 := Option.some.inj hmerge
      exact ⟨peer, incoming, hrunning, rfl, by rw [hops]; rfl⟩
    · cases hmerge
  obtain ⟨peer, incoming, htakes⟩ := htakes
  -- the tenth looks at the nonce
  have hrejects : (shortRun 9).Rejects shortDeps (sampleOutside, .inbound 0 .reply) 0 .badNonce := by
    unfold replyNonce at hnonce
    split at hnonce
    · next trusted peerFrame preHead merged sent hi =>
      have hreplies : (shortRun 9).Replies (sampleOutside, .inbound 0 .reply) 0 peerFrame :=
        ⟨hrunning', rfl, _, trusted, preHead, merged, hi, rfl⟩
      refine hreplies.rejects ?_
      rintro ⟨nonce, hdecode⟩
      rw [Option.some.inj hnonce, show shortDeps.ops.hex = Sample.ops.hex from rfl,
        HexCodec.decode_encode] at hdecode
      have hlen := congrArg List.length (Option.some.inj hdecode)
      rw [Arr.length_val, Arr.length_val] at hlen
      exact absurd hlen (by decide)
    · cases hnonce
  exact (h shortDeps sampleSupervisor sampleTrust shortSession 9 _ 0 _ rfl hrejects 8 _ rfl).1 peer
    incoming htakes

end Node

end Synbad
