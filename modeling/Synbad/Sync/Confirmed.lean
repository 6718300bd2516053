import Synbad.Crypto.Completion
import Synbad.Lib.Lww
import Synbad.Sync.Bookkeeping

/-! # Confirmed heads

A head is confirmed for a peer when the task dialed at that head is found to have succeeded. By then
three moments have passed: the dial, which recorded the head; the snapshot, which is what was sent;
and the tick that took the result. This file follows a session through all three, first for what it
sent, and then for which session a confirmation can come from.

For the first, `Tracked` dates every session, every task and every confirmed head. The document sent
was held at some moment between the dial and the confirmation; the heads at those two moments are the
same, and if heads tell states apart and changes raise stamps then nothing happened in between. So
while the current head counts as confirmed, the peer has been sent the current state
(`confirmed_state_was_sent`).

For the second, a found event with a new head forgets the confirmed one. It stays forgotten until a
session dialed from then on succeeds, provided that no older task is still there whose result could be
taken instead (`new_head_is_pulled`); the sample at the end shows what that older task does. -/

namespace Synbad

open Bytes (Arr)

/-! ## What a session carries -/

/-- The frame has been written when a session stands here. -/
def OutboundStage.hasSent : OutboundStage → Bool
  | .receiving _ _ _ => true
  | .wantsMerge _ _ _ => true
  | .awaitsMerge _ _ _ => true
  | .merged _ _ _ => true
  | .finished (.ok _) => true
  | _ => false

/-- Neither a snapshot nor a frame is in hand when a session stands here. -/
def OutboundStage.rests : OutboundStage → Bool
  | .sending _ _ => false
  | stage => !stage.hasSent

/-- A session that rests has not written its frame. -/
theorem OutboundStage.hasSent_of_rests {stage : OutboundStage} (h : stage.rests = true) :
    stage.hasSent = false := by
  cases stage <;> first | rfl | simpa [rests] using h

/-- A session that succeeded has written its frame. -/
theorem OutboundStage.hasSent_of_succeeded {stage : OutboundStage} (h : stage.succeeded = true) :
    stage.hasSent = true := by
  cases stage with
  | finished result =>
      cases result with
      | ok _ => rfl
      | error _ => cases h
  | _ => cases h

/-- A session that succeeded is over, and takes no further step. -/
theorem OutboundStage.isFinished_of_succeeded {stage : OutboundStage} (h : stage.succeeded = true) :
    stage.isFinished = true := by
  cases stage with
  | finished _ => rfl
  | _ => cases h

/-- The frame is this machine's own around its state: what signing that state with some nonce
gives. -/
def SyncDeps.Signed (deps : SyncDeps) (frame : SyncFrame) : Prop :=
  ∃ nonce, signFrame deps.ops deps.json deps.signingKey deps.machineId nonce frame.state = .ok frame

/-- A signed frame is around the state it was made of. -/
theorem signFrame_state {ops : Primitives} {json : SyncJson} {signingKey : Arr 32}
    {machineId : String} {nonce : Arr 16} {state : VersionedConfig} {frame : SyncFrame}
    (h : signFrame ops json signingKey machineId nonce state = .ok frame) : frame.state = state := by
  obtain ⟨bytes, -, h⟩ := except_bind_ok.mp h
  cases h
  rfl

/-- The frame a session makes is signed, and is around its snapshot. -/
theorem outboundFrame_ok {deps : SyncDeps} {nonce : Arr 16} {state : VersionedConfig}
    {frame : SyncFrame} (h : outboundFrame deps nonce state = .ok frame) :
    frame.state = state ∧ deps.Signed frame := by
  obtain ⟨signed, hsign, h⟩ := except_bind_ok.mp h
  obtain ⟨body, -, h⟩ := except_bind_ok.mp h
  cases h
  have hstate := signFrame_state (mapError_ok hsign)
  exact ⟨hstate, nonce, by rw [hstate, mapError_ok hsign]⟩

/-- **What a session carries**: the state it was given, and the state it has sent under our
signature, are ones that `P` holds of; and what should have been sent has been. -/
structure Outbound.Carries (deps : SyncDeps) (P : VersionedConfig → Prop) (o : Outbound) : Prop where
  given : ∀ trusted state, o.stage = .sending trusted state → P state
  sent : ∀ frame, o.sent = some frame → P frame.state ∧ deps.Signed frame
  out : o.stage.hasSent = true → o.sent.isSome = true

namespace Outbound.Carries

variable {deps : SyncDeps} {P Q : VersionedConfig → Prop} {o o' : Outbound}

/-- What a session carries may be said with less. -/
theorem mono (h : o.Carries deps P) (hPQ : ∀ v, P v → Q v) : o.Carries deps Q where
  given trusted state hstage := hPQ _ (h.given trusted state hstage)
  sent frame hframe := ⟨hPQ _ (h.sent frame hframe).1, (h.sent frame hframe).2⟩
  out := h.out

/-- A new session carries nothing: it has been given no state and has sent none. -/
theorem spawned (peer : DiscoveredPeer) : (Outbound.spawned peer).Carries deps P where
  given trusted state h := OutboundStage.noConfusion h
  sent frame h := by simp [Outbound.spawned] at h
  out h := Bool.noConfusion h

/-- The session moves to a stage at which no frame need have been written. -/
theorem rest (h : o.Carries deps P) {stage : OutboundStage} (hrests : stage.rests = true) :
    ({ o with stage := stage } : Outbound).Carries deps P where
  given trusted state hstage := by
    have hsame : stage = .sending trusted state := hstage
    rw [hsame] at hrests
    cases hrests
  sent := h.sent
  out hsent := by
    have hsame : stage.hasSent = true := hsent
    rw [OutboundStage.hasSent_of_rests hrests] at hsame
    cases hsame

/-- The session has written its frame and goes on. -/
theorem goOn (h : o.Carries deps P) {stage : OutboundStage} (hsent : o.stage.hasSent = true)
    (hstage : stage.hasSent = true) : ({ o with stage := stage } : Outbound).Carries deps P where
  given trusted state hsame := by
    have hsending : stage = .sending trusted state := hsame
    rw [hsending] at hstage
    cases hstage
  sent := h.sent
  out _ := h.out hsent

/-- A session goes on by itself: what it is given it sends, and what it has sent stays sent. -/
theorem advances {store : TrustedPeerStore} (h : o.Carries deps P)
    (hadvances : o.Advances deps store o') : o'.Carries deps P := by
  cases hadvances with
  | stay => exact h
  | failed e live => exact h.rest rfl
  | dropped live => exact h.rest rfl
  | found trusted stage entry => exact h.rest rfl
  | connected trusted pk stage => exact h.rest rfl
  | handshaken trusted pk stage => exact h.rest rfl
  | sent trusted ourState nonce frame stage made =>
      -- the snapshot becomes the frame
      obtain ⟨hstate, hsigned⟩ := outboundFrame_ok made
      refine ⟨fun _ _ hsame => OutboundStage.noConfusion hsame, ?_, fun _ => rfl⟩
      intro frame' hframe'
      rw [← Option.some.inj hframe', hstate]
      exact ⟨h.given trusted ourState stage, hsigned⟩
  | received trusted nonce ourFrame peerFrame body stage checked =>
      exact h.goOn (by rw [stage]; rfl) rfl
  | concluded trusted ourFrame merged stage => exact h.goOn (by rw [stage]; rfl) rfl

/-- An answer is either the snapshot a session is to send or the state after its merge. In both
cases it carries what it should, if `P` holds of the answer. -/
theorem answer (h : o.Carries deps P) {reply : VersionedConfig} (hreply : P reply) :
    (o.answer reply).Carries deps P := by
  unfold Outbound.answer
  split
  · refine ⟨?_, h.sent, fun hsent => Bool.noConfusion hsent⟩
    intro trusted state hstage
    injection hstage with _ hstate
    rwa [← hstate]
  · next hstage => exact h.goOn (by rw [hstage]; rfl) rfl
  · exact h

/-- **A step of the node keeps what a session carries**, if `P` holds of what it may be given. -/
theorem moves {store : TrustedPeerStore} {reply : VersionedConfig} (h : o.Carries deps P)
    (hmoves : o.Moves deps store reply o') (hreply : P reply) : o'.Carries deps P := by
  cases hmoves with
  | stay => exact h
  | abort => exact ⟨h.given, h.sent, h.out⟩
  | advance move => exact h.advances (o.advance_advances move)
  | answer => exact h.answer hreply
  | askSnapshot trusted stage => exact h.rest rfl
  | askMerge trusted ourFrame peerFrame stage => exact h.goOn (by rw [stage]; rfl) rfl

end Outbound.Carries

/-! ## Dial, snapshot, confirmation -/

namespace Node

variable {deps : SyncDeps} {states : ℕ → Node} {k : ℕ}

/-- The document was this one at some moment from `d` to `k`. -/
def HeldBetween (states : ℕ → Node) (d k : ℕ) (v : VersionedConfig) : Prop :=
  ∃ t, d ≤ t ∧ t ≤ k ∧ v = (states t).versioned

/-- A session that was dialed at moment `d`, by moment `k`: what it carries was held at some moment
between the two. -/
structure DialedAt (deps : SyncDeps) (states : ℕ → Node) (k d : ℕ) (o : Outbound) : Prop where
  past : d ≤ k
  carries : o.Carries deps (HeldBetween states d k)

/-- **Every session, every task and every confirmed head can be dated**: what a session carries was
held after its dial, and the head of a task, or a confirmed one, is that of the moment of the dial. -/
structure Tracked (deps : SyncDeps) (states : ℕ → Node) (k : ℕ) : Prop where
  known : ∀ p head id, (states k).syncTasks p = some (head, id) → id < (states k).outbound.length
  sessions : ∀ id o, (states k).outbound[id]? = some o → ∃ d, DialedAt deps states k d o ∧
    ∀ p head, (states k).syncTasks p = some (head, id) →
      o.peer.machineId = p ∧ head = (states d).head deps
  confirmed : ∀ p head, (states k).syncConfirmed p = some head →
    ∃ (id : ℕ) (o : Outbound) (d : ℕ), (states k).outbound[id]? = some o ∧ o.peer.machineId = p ∧
      o.stage.succeeded = true ∧ DialedAt deps states k d o ∧ head = (states d).head deps

/-- Time passes for a session: what it carried it still carries, and what it is given now is held
now. -/
theorem DialedAt.moves {d : ℕ} {o o' : Outbound} (h : DialedAt deps states k d o)
    (hmoves : o.Moves deps (states k).trust (states (k + 1)).versioned o') :
    DialedAt deps states (k + 1) d o' where
  past := h.past.trans (Nat.le_succ k)
  carries := by
    have hlater : ∀ v, HeldBetween states d k v → HeldBetween states d (k + 1) v :=
      fun v ⟨t, hdt, htk, hv⟩ => ⟨t, hdt, htk.trans (Nat.le_succ k), hv⟩
    exact (h.carries.mono hlater).moves hmoves ⟨k + 1, h.past.trans (Nat.le_succ k), le_rfl, rfl⟩

/-- A task in the table is a session that exists: an old one is never forgotten, and a new entry
comes with its session. -/
theorem Tracked.known_step (h : Tracked deps states k)
    (hstep : (states k).Steps deps (states (k + 1))) (p head : String) (id : ℕ)
    (ht : (states (k + 1)).syncTasks p = some (head, id)) :
    id < (states (k + 1)).outbound.length := by
  rcases hstep.tasks p head id ht with hold | ⟨-, -, peer, hpeer, -⟩
  · obtain ⟨o', ho', -⟩ := hstep.sessions id _ (List.getElem?_eq_getElem (h.known p head id hold))
    exact (List.getElem?_eq_some_iff.mp ho').1
  · exact (List.getElem?_eq_some_iff.mp hpeer).1

/-- Every session can be dated after the step if all could before it. An old one keeps the moment of
its dial, and a new one is dialed at this moment. -/
theorem Tracked.sessions_step (h : Tracked deps states k)
    (hstep : (states k).Steps deps (states (k + 1))) (id : ℕ) (o' : Outbound)
    (ho' : (states (k + 1)).outbound[id]? = some o') :
    ∃ d, DialedAt deps states (k + 1) d o' ∧
      ∀ p head, (states (k + 1)).syncTasks p = some (head, id) →
        o'.peer.machineId = p ∧ head = (states d).head deps := by
  by_cases hid : id < (states k).outbound.length
  · -- an old session goes on, and its task, if it still has one, is the old one
    obtain ⟨o'', ho'', hmoves⟩ := hstep.sessions id _ (List.getElem?_eq_getElem hid)
    rw [ho'] at ho''
    cases ho''
    obtain ⟨d, hdialed, htask⟩ := h.sessions id _ (List.getElem?_eq_getElem hid)
    refine ⟨d, hdialed.moves hmoves, fun p head ht => ?_⟩
    rcases hstep.tasks p head id ht with hold | ⟨hlen, -⟩
    · rw [hmoves.peer_eq]
      exact htask p head hold
    · exact absurd hid (not_lt.mpr hlen)
  · -- a new session was dialed at this very moment
    obtain ⟨peer, rfl⟩ := hstep.fresh id o' (not_lt.mp hid) ho'
    refine ⟨k + 1, ⟨le_rfl, .spawned peer⟩, fun p head ht => ?_⟩
    rcases hstep.tasks p head id ht with hold | ⟨-, hhead, peer', hpeer', hp⟩
    · exact absurd (h.known p head id hold) hid
    · rw [ho'] at hpeer'
      cases hpeer'
      exact ⟨hp, hhead⟩

/-- A head confirmed after the step is that of a session that succeeded. It was confirmed before, or
this step takes the result of its task. -/
theorem Tracked.confirmed_step (h : Tracked deps states k)
    (hstep : (states k).Steps deps (states (k + 1))) (p head : String)
    (hc : (states (k + 1)).syncConfirmed p = some head) :
    ∃ (id : ℕ) (o : Outbound) (d : ℕ), (states (k + 1)).outbound[id]? = some o ∧
      o.peer.machineId = p ∧ o.stage.succeeded = true ∧ DialedAt deps states (k + 1) d o ∧
      head = (states d).head deps := by
  -- in both cases there is a session that had succeeded before this step
  obtain ⟨id, o, d, ho, hp, hsucc, hdialed, hhead⟩ : ∃ (id : ℕ) (o : Outbound) (d : ℕ),
      (states k).outbound[id]? = some o ∧ o.peer.machineId = p ∧ o.stage.succeeded = true ∧
      DialedAt deps states k d o ∧ head = (states d).head deps := by
    rcases hstep.confirmed p head hc with hold | hout
    · exact h.confirmed p head hold
    · obtain ⟨id, o, ht, ho, hsucc⟩ := outcome_true hout
      obtain ⟨d, hdialed, htask⟩ := h.sessions id o ho
      exact ⟨id, o, d, ho, (htask p head ht).1, hsucc, hdialed, (htask p head ht).2⟩
  obtain ⟨o', ho', hmoves⟩ := hstep.sessions id o ho
  refine ⟨id, o', d, ho', ?_, ?_, hdialed.moves hmoves, hhead⟩
  · rw [hmoves.peer_eq, hp]
  · rw [(hmoves.finished (OutboundStage.isFinished_of_succeeded hsucc)).1, hsucc]

/-- **Step lemma**: what could be dated before a step can be dated after it. -/
theorem Tracked.step (h : Tracked deps states k)
    (hstep : (states k).Steps deps (states (k + 1))) : Tracked deps states (k + 1) :=
  ⟨h.known_step hstep, h.sessions_step hstep, h.confirmed_step hstep⟩

/-! ## Runs -/

/-- The states a run of a freshly started node passes through. -/
def run (deps : SyncDeps) (s : Supervisor) (trust : TrustedPeerStore)
    (acts : List (Outside × NodeInput)) (k : ℕ) : Node :=
  Run.after (step deps) (new s trust) acts k

variable {s : Supervisor} {trust : TrustedPeerStore} {acts : List (Outside × NodeInput)}

/-- Every moment of a run does to the bookkeeping what a step may do. Past the last input nothing
moves. -/
theorem run_steps (k : ℕ) : (run deps s trust acts k).Steps deps (run deps s trust acts (k + 1)) := by
  cases h : acts[k]? with
  | none =>
      rw [run, run, Run.after_succ_none h]
      exact .of_eq rfl rfl rfl
  | some input =>
      rw [run, run, Run.after_succ h]
      exact step_steps _ input

/-- **Run lemma**: at every moment of a run everything can be dated. -/
theorem run_tracked (k : ℕ) : Tracked deps (run deps s trust acts) k := by
  induction k with
  | zero =>
      refine ⟨fun p head id h => ?_, fun id o h => ?_, fun p head h => ?_⟩
      · cases h
      · cases h
      · cases h
  | succ k ih => exact ih.step (run_steps k)

/-- Heads tell the shared states of a history apart. -/
def HeadsTellApart (deps : SyncDeps) (states : ℕ → Node) : Prop :=
  ∀ j k, (states j).head deps = (states k).head deps →
    (states j).versioned.sharedHashInput = (states k).versioned.sharedHashInput

/-- Every change of a shared value comes with a strictly higher stamp. -/
def ChangesRaiseStamps (states : ℕ → Node) : Prop :=
  ∀ k f, (states k).versioned.value f ≠ (states (k + 1)).versioned.value f →
    (states k).versioned.stamp f < (states (k + 1)).versioned.stamp f

/-- A shared field as a register, its value with the stamp of the write that put it there. -/
def register (n : Node) (f : SharedField) : Lww.Reg LamportTime f.Value :=
  ⟨n.versioned.stamp f, n.versioned.value f⟩

/-- Along a run in which changes raise stamps no stamp of a shared field ever falls. -/
theorem run_stamp_le (hstamps : ChangesRaiseStamps (run deps s trust acts)) (f : SharedField)
    (k : ℕ) : (run deps s trust acts k).versioned.stamp f ≤
      (run deps s trust acts (k + 1)).versioned.stamp f := by
  by_cases hvalue : (run deps s trust acts k).versioned.value f =
      (run deps s trust acts (k + 1)).versioned.value f
  · cases h : acts[k]? with
    | none => rw [run, run, Run.after_succ_none h]
    | some input =>
        rw [run, run, Run.after_succ h] at hvalue ⊢
        exact step_stamp_le _ input f hvalue
  · exact (hstamps k f hvalue).le

/-- **Between two moments with the same head nothing happened.** -/
theorem register_eq_of_head_eq (hhead : HeadsTellApart deps (run deps s trust acts))
    (hstamps : ChangesRaiseStamps (run deps s trust acts)) {d t k : ℕ} (hdt : d ≤ t) (htk : t ≤ k)
    (h : (run deps s trust acts d).head deps = (run deps s trust acts k).head deps)
    (f : SharedField) :
    (run deps s trust acts t).register f = (run deps s trust acts k).register f :=
  Lww.Reg.eq_of_stamp_eq (r := fun j => (run deps s trust acts j).register f)
    (run_stamp_le hstamps f) (fun j => hstamps j f) hdt htk
    (VersionedConfig.of_sharedHashInput_eq (hhead d k h) f).2

/-- **No local change is withheld from a peer**: while the current head counts as confirmed for a
peer, so that it is not dialed, a session with it that succeeded has sent it, under our signature,
the shared values and stamps of right now. -/
theorem confirmed_state_was_sent (deps : SyncDeps) (s : Supervisor) (trust : TrustedPeerStore)
    (acts : List (Outside × NodeInput)) (hhead : HeadsTellApart deps (run deps s trust acts))
    (hstamps : ChangesRaiseStamps (run deps s trust acts)) (k : ℕ) (p : String)
    (h : (run deps s trust acts k).syncConfirmed p = some ((run deps s trust acts k).head deps)) :
    ∃ (id : ℕ) (o : Outbound) (frame : SyncFrame),
      (run deps s trust acts k).outbound[id]? = some o ∧ o.peer.machineId = p ∧
      o.stage.succeeded = true ∧ o.sent = some frame ∧ deps.Signed frame ∧
      ∀ f, frame.state.value f = (run deps s trust acts k).versioned.value f ∧
        frame.state.stamp f = (run deps s trust acts k).versioned.stamp f := by
  obtain ⟨id, o, d, ho, hp, hsucc, hdialed, hhead'⟩ := (run_tracked k).confirmed p _ h
  have hsome := hdialed.carries.out (OutboundStage.hasSent_of_succeeded hsucc)
  obtain ⟨frame, hframe⟩ := Option.isSome_iff_exists.mp hsome
  obtain ⟨⟨t, hdt, htk, hstate⟩, hsigned⟩ := hdialed.carries.sent frame hframe
  refine ⟨id, o, frame, ho, hp, hsucc, hframe, hsigned, fun f => ?_⟩
  -- the snapshot lies between the dial and now
  have hreg := register_eq_of_head_eq hhead hstamps hdt htk hhead'.symm f
  rw [hstate]
  exact ⟨congrArg Lww.Reg.value hreg, congrArg Lww.Reg.stamp hreg⟩

/-! ### A session from dial to confirmation -/

/-- Stand-in serialisation to run the model with: a state shows its clock, our own frames show their
sender, and what the peer sends is its nonce and its signature around a known state. -/
def sampleJson (peerState : VersionedConfig) : SyncJson where
  stateToJson v := .ok (Bytes.toBe 8 v.clock)
  frameToJson f := .ok (ascii f.fromMachineId)
  frameFromJson body :=
    .ok ⟨"b", Sample.ops.hex.encode (body.take 16), peerState, Sample.ops.hex.encode (body.drop 16)⟩

/-- Machine `a`, whose peer is in this state, with stand-ins for what libraries do. -/
def sampleDeps (peerState : VersionedConfig) : SyncDeps where
  ops := Sample.ops
  json := sampleJson peerState
  digest x := toString x.port ++ "/" ++ toString x.portStamp.counter ++ x.portStamp.origin
  signingKey := Sample.pad 32 [1]
  machineId := "a"

/-- The supervisor of `a` at its start, with the default document on its disk. -/
def sampleSupervisor : Supervisor :=
  .fresh ⟨"a", ⟨"/state/synergy.conf"⟩, ⟨"/state/settings.ini"⟩, .ascii⟩
    ⟨.parsed Config.default, .missing, true⟩ Config.default (.initial Config.default "a") []

/-- The trust store of `a`, which has paired with `b`. -/
def sampleTrust : TrustedPeerStore :=
  ⟨.missing, [⟨"b", "b", Sample.ops.hex.encode (Sample.pad 32 [2]).val, "", 0⟩]⟩

/-- `b` as it is seen on the network with this head. -/
def samplePeer (configHead : String) : DiscoveredPeer :=
  ⟨"b", "b", "10.0.0.2", [], 24801, 24800, 24802, 0, "", 1, configHead⟩

/-- Nothing fails outside, and of all peers `b` is the one that is looked at. -/
def sampleOutside : Outside := ⟨.calm 0 100, ["b"], fun _ => false⟩

/-- What `b` answers in the session with this nonce. -/
def sampleAnswer (peerState : VersionedConfig) (nonce : Arr 16) : Bytes :=
  match canonicalStateBytes (sampleJson peerState) "b" nonce.val peerState with
  | .ok bytes => nonce.val ++ (Sample.ops.sign (Sample.pad 32 [2]) bytes).val
  | .error _ => []

/-- Session `id` with `b` from its first step up to the verified answer. -/
def sampleExchange (peerState : VersionedConfig) (id : ℕ) : List NodeInput :=
  [.outbound id .lookUp, .outbound id .connected, .outbound id (.handshaken "b" (Sample.pad 32 [2])),
    .outbound id .askSnapshot, .syncOp, .outbound id (.send (Sample.pad 16 [7])),
    .outbound id (.receive (sampleAnswer peerState (Sample.pad 16 [7])))]

/-- The rest of the session: its answer is merged and it ends well. -/
def sampleMerge (id : ℕ) : List NodeInput :=
  [.outbound id .askMerge, .syncOp, .outbound id .conclude]

/-- `b` is found, a session with it runs to its end, and a tick takes the result. -/
def sampleConfirmed : List NodeInput :=
  .found (samplePeer "0") :: sampleExchange (.initial Config.default "a") 0 ++ sampleMerge 0 ++
    [.tick]

/-- These inputs, one after the other, with nothing failing outside. -/
def calmly (inputs : List NodeInput) : List (Outside × NodeInput) :=
  inputs.map fun input => (sampleOutside, input)

deriving instance DecidableEq for VersionedConfig.SharedHashInput

/-- The run of the sample: machine `a` confirms the head it has sent to `b`. -/
abbrev sampleRun : ℕ → Node :=
  run (sampleDeps (.initial Config.default "a")) sampleSupervisor sampleTrust (calmly sampleConfirmed)

/-- Nothing shared changes along the run of the sample, so its heads tell its states apart. -/
theorem sampleRun_shared (k : ℕ) : (sampleRun k).versioned.sharedHashInput =
    (VersionedConfig.initial Config.default "a").sharedHashInput := by
  have hrun : ∀ k < 13, (sampleRun k).versioned.sharedHashInput =
      (VersionedConfig.initial Config.default "a").sharedHashInput := by
    decide +kernel
  by_cases hk : k < 13
  · exact hrun k hk
  · have hlen : (calmly sampleConfirmed).length = 12 := rfl
    have hend := hrun 12 (by decide)
    unfold sampleRun run Run.after at hend ⊢
    rw [List.take_of_length_le (by omega)] at hend ⊢
    exact hend

/-- Machine `a` has confirmed its state with `b`, and has sent it. -/
theorem confirmed_state_was_sent_sample :
    ∃ (id : ℕ) (o : Outbound) (frame : SyncFrame), (sampleRun 12).outbound[id]? = some o ∧
      o.peer.machineId = "b" ∧ o.stage.succeeded = true ∧ o.sent = some frame ∧
      (sampleDeps (.initial Config.default "a")).Signed frame ∧
      ∀ f, frame.state.value f = (sampleRun 12).versioned.value f ∧
        frame.state.stamp f = (sampleRun 12).versioned.stamp f := by
  refine confirmed_state_was_sent (sampleDeps (.initial Config.default "a")) sampleSupervisor
    sampleTrust (calmly sampleConfirmed) ?_ ?_ 12 "b" (by decide +kernel)
  · intro j k _
    rw [sampleRun_shared j, sampleRun_shared k]
  · intro k f hne
    have hsame := (sampleRun_shared k).trans (sampleRun_shared (k + 1)).symm
    exact absurd (VersionedConfig.of_sharedHashInput_eq hsame f).1 hne

/-! ## Which session confirms

A found event with a new head forgets the confirmed one, so that the peer is pulled from again. If a
task of the peer is still in the table, nothing is dialed, and when that older task has succeeded the
head is confirmed by it all the same. -/

/-- The peer a found event announces, and nobody for any other input. -/
def announced : NodeInput → Option DiscoveredPeer
  | .found peer => some peer
  | _ => none

/-- A found event shows a new head of a peer that is visible and trusted. -/
structure ShowsNewHead (n : Node) (peer : DiscoveredPeer) : Prop where
  running : n.halted = false
  visible : ∃ old, n.peers peer.machineId = some old ∧ old.configHead ≠ peer.configHead
  trusted : n.trust.contains peer.machineId = true

/-- **New heads are pulled**: such an event forgets the confirmed head of the peer, and from then on
it is set only by a session with the peer that was not there when the event came. -/
def PullsNewHeads (deps : SyncDeps) (s : Supervisor) (trust : TrustedPeerStore)
    (acts : List (Outside × NodeInput)) : Prop :=
  ∀ i out peer, acts[i]? = some (out, .found peer) →
    (run deps s trust acts i).ShowsNewHead peer →
    (run deps s trust acts (i + 1)).syncConfirmed peer.machineId = none ∧
    ∀ j, i < j → ∀ head,
      (run deps s trust acts j).syncConfirmed peer.machineId ≠ some head →
      (run deps s trust acts (j + 1)).syncConfirmed peer.machineId = some head →
      ∃ (id : ℕ) (o : Outbound), (run deps s trust acts i).outbound.length ≤ id ∧
        (run deps s trust acts j).syncTasks peer.machineId = some (head, id) ∧
        (run deps s trust acts j).outbound[id]? = some o ∧ o.peer.machineId = peer.machineId ∧
        o.stage.succeeded = true

/-- No task of the peer is in the table, or one that has ended without success. -/
def Unbound (n : Node) (p : String) : Prop :=
  ∀ head id, n.syncTasks p = some (head, id) →
    ∃ o, n.outbound[id]? = some o ∧ o.stage.isFinished = true ∧ o.stage.succeeded = false

/-- A task of the peer is a session from number `first` on, or has ended without success. -/
def Renewed (n : Node) (p : String) (first : ℕ) : Prop :=
  ∀ head id, n.syncTasks p = some (head, id) → first ≤ id ∨
    ∃ o, n.outbound[id]? = some o ∧ o.stage.isFinished = true ∧ o.stage.succeeded = false

/-- A peer whose tasks are new ones keeps such tasks: an entry that appears is a newer session
still, and one that failed stays failed. -/
theorem Renewed.step {n n' : Node} {p : String} {first : ℕ} (h : n.Renewed p first)
    (hfirst : first ≤ n.outbound.length) (hstep : n.Steps deps n') : n'.Renewed p first := by
  intro head id ht
  rcases hstep.tasks p head id ht with hold | ⟨hlen, -⟩
  · rcases h head id hold with hid | ⟨o, ho, hfin, hsucc⟩
    · exact Or.inl hid
    · obtain ⟨o', ho', hmoves⟩ := hstep.sessions id o ho
      have hstage := (hmoves.finished hfin).1
      exact Or.inr ⟨o', ho', by rw [hstage, hfin], by rw [hstage, hsucc]⟩
  · exact Or.inl (hfirst.trans hlen)

/-- An event with a new head forgets the confirmed one. -/
theorem ShowsNewHead.forgets {n : Node} {peer : DiscoveredPeer} (h : n.ShowsNewHead peer)
    (out : Outside) : (n.step deps (out, .found peer)).syncConfirmed peer.machineId = none := by
  obtain ⟨old, hold, hhead⟩ := h.visible
  have hchanged : unchanged old peer = false := by
    unfold unchanged
    rw [beq_false_of_ne hhead]
    simp
  have hfound : n.step deps (out, .found peer) = n.found deps out peer := by
    rw [step, h.running]
    rfl
  rw [hfound]
  simp only [found, hold, Option.any_some, hchanged, Bool.false_eq_true, if_false]
  rw [(maybePullFrom_pulled _ peer).frame]
  exact Function.update_self _ _ _

/-- From an event on at which the peer is unbound, its tasks are new ones. -/
theorem renewed_after {p : String} {i : ℕ} (h : (run deps s trust acts i).Unbound p) {j : ℕ}
    (hij : i ≤ j) : (run deps s trust acts j).Renewed p (run deps s trust acts i).outbound.length ∧
      (run deps s trust acts i).outbound.length ≤ (run deps s trust acts j).outbound.length := by
  induction hij with
  | refl => exact ⟨fun head id ht => Or.inr (h head id ht), le_rfl⟩
  | @step j _ ih => exact ⟨ih.1.step ih.2 (run_steps j), ih.2.trans (run_steps j).length_le⟩

/-- **A new head is pulled when no older task can still succeed**: in a run in which every event with
a new head of a peer finds none of its tasks in the table, or one that has failed, the head of the
peer is next confirmed by a session dialed for that event or later. -/
theorem new_head_is_pulled (deps : SyncDeps) (s : Supervisor) (trust : TrustedPeerStore)
    (acts : List (Outside × NodeInput))
    (hunbound : ∀ i out peer, acts[i]? = some (out, .found peer) →
      (run deps s trust acts i).ShowsNewHead peer →
      (run deps s trust acts i).Unbound peer.machineId) : PullsNewHeads deps s trust acts := by
  intro i out peer hi hshows
  refine ⟨?_, fun j hij head hnot hset => ?_⟩
  · rw [run, Run.after_succ hi]
    exact hshows.forgets out
  obtain ⟨hrenewed, -⟩ := renewed_after (hunbound i out peer hi hshows) hij.le
  rcases (run_steps j).confirmed _ head hset with hold | hout
  · exact absurd hold hnot
  obtain ⟨id, o, ht, ho, hsucc⟩ := outcome_true hout
  obtain ⟨d, -, htask⟩ := (@run_tracked deps s trust acts j).sessions id o ho
  refine ⟨id, o, ?_, ht, ho, (htask _ head ht).1, hsucc⟩
  rcases hrenewed head id ht with hid | ⟨o', ho', -, hsucc'⟩
  · exact hid
  · -- the older task failed, so it is not the one that confirms
    rw [ho] at ho'
    cases ho'
    rw [hsucc] at hsucc'
    cases hsucc'

/-- `b` is seen without a sync port and then with one and a new head. A session runs to its end, and a
tick takes the result. -/
def sampleAnnounced : List NodeInput :=
  .found { samplePeer "0" with syncPort := 0 } :: .found (samplePeer "1") ::
    sampleExchange (.initial Config.default "a") 0 ++ sampleMerge 0 ++ [.tick]

/-- The new head of `b` is pulled: at the end of the sample it is the one that is confirmed for `b`,
as the general theorem has it. -/
theorem new_head_is_pulled_sample :
    (run (sampleDeps (.initial Config.default "a")) sampleSupervisor sampleTrust
        (calmly sampleAnnounced) 13).syncConfirmed "b" = some "24800/1a" ∧
      PullsNewHeads (sampleDeps (.initial Config.default "a")) sampleSupervisor sampleTrust
        (calmly sampleAnnounced) := by
  refine ⟨by decide +kernel, new_head_is_pulled _ _ _ _ ?_⟩
  intro i out peer hi hshows head id ht
  match i with
  | 0 =>
      -- nobody is visible yet
      obtain ⟨old, hold, -⟩ := hshows.visible
      cases hold
  | 1 =>
      cases hi
      cases ht
  | i + 2 =>
      -- nobody is found after that
      have hrest : ∀ x ∈ (calmly sampleAnnounced).drop 2, announced x.2 = none := by
        decide +kernel
      have hmem : (out, NodeInput.found peer) ∈ (calmly sampleAnnounced).drop 2 := by
        refine List.mem_of_getElem? (i := i) ?_
        rw [List.getElem?_drop, Nat.add_comm]
        exact hi
      cases hrest _ hmem

/-- `b` is found and a session with it runs to its end. Then `b` is seen with a new head, and a tick
takes the result of the session. -/
def sampleRediscovered : List NodeInput :=
  .found (samplePeer "0") :: sampleExchange (.initial Config.default "a") 0 ++ sampleMerge 0 ++
    [.found (samplePeer "1"), .tick]

/-- **An older session confirms**: the session that has just ended took `b`'s state before `b` showed
its new head, and its result is taken afterwards. The new head is not pulled. -/
theorem old_session_confirms_new_head :
    ¬ PullsNewHeads (sampleDeps (.initial Config.default "a")) sampleSupervisor sampleTrust
      (calmly sampleRediscovered) := by
  have hfacts :
      let states := run (sampleDeps (.initial Config.default "a")) sampleSupervisor sampleTrust
        (calmly sampleRediscovered)
      let p := (samplePeer "1").machineId
      (states 11).halted = false ∧ (states 11).peers p = some (samplePeer "0") ∧
        (states 11).trust.contains p = true ∧ (states 11).outbound.length = 1 ∧
        (states 12).syncConfirmed p = none ∧ (states 12).syncTasks p = some ("24800/1a", 0) ∧
        (states (12 + 1)).syncConfirmed p = some "24800/1a" := by
    decide +kernel
  obtain ⟨hrunning, hpeer, htrusted, hlen, hnone, htask, hset⟩ := hfacts
  intro h
  have hshows : (run (sampleDeps (.initial Config.default "a")) sampleSupervisor sampleTrust
      (calmly sampleRediscovered) 11).ShowsNewHead (samplePeer "1") :=
    ⟨hrunning, ⟨samplePeer "0", hpeer, by decide +kernel⟩, htrusted⟩
  obtain ⟨-, hlater⟩ := h 11 sampleOutside (samplePeer "1") rfl hshows
  obtain ⟨id, o, hid, htask', -⟩ := hlater 12 (by decide) "24800/1a"
    (fun hsome => nomatch hnone.symm.trans hsome) hset
  have hsame := htask.symm.trans htask'
  have hzero : 0 = id := congrArg Prod.snd (Option.some.inj hsame)
  omega

end Node

end Synbad
