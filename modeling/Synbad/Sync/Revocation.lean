import Synbad.Sync.Confirmed

/-! # Revocation

`RevokeTrust` removes the entry of a machine from the trust store and closes its audio session. Sync
looks into the store when a session starts, and again when an inbound peer has shown who it is, but a
session keeps the entry it was given, and nobody looks at the store when a merge is applied. So a
machine is cut off only once the entries handed out before are gone.

`MayMerge` says of a stage whether a session there may still put a merge of the machine into the
channel; without an entry in the store no step leads to such a stage (`Outbound.Moves.mayMerge`,
`Inbound.Moves.mayMerge`). A machine is `Severed` if it has no entry, no merge of it is queued and no
session may still queue one. That is kept by every step until the machine is paired again
(`Severed.step`), and a revocation that comes while nothing is under way leads to it, which gives
`revocation_is_final`. The run at the end shows the other case: a merge that is queued at the moment
of the revocation is applied after it. -/

namespace Synbad

/-! ## Who may still merge -/

/-- A session that stands here may still put a merge of this machine into the channel. -/
def OutboundStage.MayMerge (machineId : String) : OutboundStage → Prop
  | .connecting trusted => trusted.machineId = machineId
  | .handshaking trusted _ => trusted.machineId = machineId
  | .wantsSnapshot trusted => trusted.machineId = machineId
  | .awaitsSnapshot trusted => trusted.machineId = machineId
  | .sending trusted _ => trusted.machineId = machineId
  | .receiving trusted _ _ => trusted.machineId = machineId
  | .wantsMerge _ _ peerFrame => peerFrame.fromMachineId = machineId
  | _ => False

/-- A session that stands here may still put a merge of this machine into the channel. -/
def InboundStage.MayMerge (machineId : String) : InboundStage → Prop
  | .receiving _ trusted => trusted.machineId = machineId
  | .wantsSnapshot trusted _ => trusted.machineId = machineId
  | .awaitsSnapshot trusted _ => trusted.machineId = machineId
  | .wantsMerge trusted _ _ => trusted.machineId = machineId
  | _ => False

/-- The peer's frame that is let through names the trusted peer. -/
theorem outboundReceive_sender {deps : SyncDeps} {trusted : TrustedPeer} {nonce : Bytes.Arr 16}
    {body : Bytes} {frame : SyncFrame} (h : outboundReceive deps trusted nonce body = .ok frame) :
    frame.fromMachineId = trusted.machineId := by
  unfold outboundReceive at h
  obtain ⟨peerFrame, -, h⟩ := except_bind_ok.mp h
  by_cases hsender : peerFrame.fromMachineId ≠ trusted.machineId
  · rw [if_pos hsender] at h
    cases h
  · rw [if_neg hsender] at h
    obtain ⟨-, -, h⟩ := except_bind_ok.mp h
    cases h
    exact not_not.mp hsender

/-- By itself a session comes to merge for a machine only with the machine's entry. -/
theorem Outbound.Advances.mayMerge {deps : SyncDeps} {store : TrustedPeerStore} {o o' : Outbound}
    {machineId : String} (h : o.Advances deps store o') (hnone : store.get machineId = none)
    (hmay : o'.stage.MayMerge machineId) : o.stage.MayMerge machineId := by
  cases h with
  | stay => exact hmay
  | failed e live => exact hmay.elim
  | dropped live => exact hmay.elim
  | found trusted stage entry =>
      -- the entry found is that of the peer, so it is not this machine's
      exact absurd hmay (TrustedPeerStore.machineId_ne_of_get hnone entry)
  | connected trusted pk stage =>
      rw [stage]
      exact hmay
  | handshaken trusted pk stage =>
      rw [stage]
      exact hmay
  | sent trusted ourState nonce frame stage made =>
      rw [stage]
      exact hmay
  | received trusted nonce ourFrame peerFrame body stage checked =>
      -- the frame let through is from the peer of the entry
      have hsame : peerFrame.fromMachineId = machineId := hmay
      rw [stage]
      show trusted.machineId = machineId
      rw [← outboundReceive_sender checked, hsame]
  | concluded trusted ourFrame merged stage => exact hmay.elim

/-- **A machine without an entry gets no further**: a session that may not merge for it does not
come to it by a step. -/
theorem Outbound.Moves.mayMerge {deps : SyncDeps} {store : TrustedPeerStore}
    {reply : VersionedConfig} {o o' : Outbound} {machineId : String}
    (h : o.Moves deps store reply o') (hnone : store.get machineId = none)
    (hmay : o'.stage.MayMerge machineId) : o.stage.MayMerge machineId := by
  cases h with
  | stay => exact hmay
  | abort => exact hmay
  | advance move => exact (o.advance_advances move).mayMerge hnone hmay
  | answer =>
      unfold Outbound.answer at hmay
      split at hmay
      · next hstage =>
        rw [hstage]
        exact hmay
      · exact hmay.elim
      · exact hmay
  | askSnapshot trusted stage =>
      rw [stage]
      exact hmay
  | askMerge trusted ourFrame peerFrame stage => exact hmay.elim

/-- The same of an inbound session: the reload is where it meets the store. -/
theorem Inbound.Advances.mayMerge {deps : SyncDeps} {store : TrustedPeerStore} {i i' : Inbound}
    {machineId : String} (h : i.Advances deps store i') (hnone : store.get machineId = none)
    (hmay : i'.stage.MayMerge machineId) : i.stage.MayMerge machineId := by
  cases h with
  | stay => exact hmay
  | failed e live => exact hmay.elim
  | snapshot stage => exact hmay.elim
  | authenticated snapshot machineId' publicKey stage known => exact hmay.elim
  | reloaded machineId' trusted stage entry =>
      exact absurd hmay (TrustedPeerStore.machineId_ne_of_get hnone entry)
  | received machineId' trusted peerFrame body stage checked =>
      rw [stage]
      exact hmay
  | replied trusted peerFrame reply preHead merged stage made => exact hmay.elim

/-- **A machine without an entry gets no further**, on the inbound side. -/
theorem Inbound.Moves.mayMerge {deps : SyncDeps} {store : TrustedPeerStore}
    {reply : VersionedConfig} {i i' : Inbound} {machineId : String}
    (h : i.Moves deps store reply i') (hnone : store.get machineId = none)
    (hmay : i'.stage.MayMerge machineId) : i.stage.MayMerge machineId := by
  cases h with
  | stay => exact hmay
  | advance move => exact (i.advance_advances move).mayMerge hnone hmay
  | answer =>
      unfold Inbound.answer at hmay
      split at hmay
      · next hstage =>
        rw [hstage]
        exact hmay
      · exact hmay.elim
      · exact hmay
  | askSnapshot trusted peerFrame stage =>
      rw [stage]
      exact hmay
  | askMerge trusted peerFrame preHead stage => exact hmay.elim

/-! ## Cut off -/

namespace Node

variable {deps : SyncDeps} {n : Node} {machineId : String}

/-- No merge of this machine is queued, and no session may still queue one with an entry it holds. -/
structure Quiet (n : Node) (machineId : String) : Prop where
  queued : ∀ incoming requester, (SyncOp.merge machineId incoming, requester) ∉ n.syncOps
  outbound : ∀ o ∈ n.outbound, ¬ o.stage.MayMerge machineId
  inbound : ∀ i ∈ n.inbound, ¬ i.stage.MayMerge machineId

/-- This input pairs the machine, and its entry is saved. -/
def Pairs (n : Node) (machineId : String) : NodeInput → Prop
  | .pair peer fails => peer.machineId = machineId ∧ (n.trust.upsert peer fails).2 = .ok ()
  | _ => False

/-- A step other than a pairing gives nobody an entry. -/
theorem step_get_none (hnone : n.trust.get machineId = none) (input : Outside × NodeInput)
    (hpairs : ¬ n.Pairs machineId input.2) : (n.step deps input).trust.get machineId = none := by
  cases @step_writes deps n input with
  | nothing same trusted => rw [trusted, hnone]
  | document e handled trusted => rw [trusted, hnone]
  | revocation removed fails asked same hremoved =>
      rw [hremoved]
      exact TrustedPeerStore.get_remove_none removed hnone
  | pairing peer fails asked same upserted =>
      rw [upserted]
      by_cases hid : peer.machineId = machineId
      · -- the pairing of this machine failed, so the store in memory is the old one
        cases hresult : (n.trust.upsert peer fails).2 with
        | ok _ =>
            rw [asked] at hpairs
            exact absurd ⟨hid, hresult⟩ hpairs
        | error e =>
            rw [TrustedPeerStore.get, TrustedPeerStore.upsert_peers_of_error hresult]
            exact hnone
      · exact (TrustedPeerStore.get_upsert_of_ne fails hid).trans hnone

/-- The machine is cut off: it has no entry, and nothing of it is under way. -/
structure Severed (n : Node) (machineId : String) : Prop where
  untrusted : n.trust.get machineId = none
  quiet : n.Quiet machineId

/-- **A machine that is cut off stays so** until it is paired. -/
theorem Severed.step (h : n.Severed machineId) (input : Outside × NodeInput)
    (hpairs : ¬ n.Pairs machineId input.2) : (n.step deps input).Severed machineId where
  untrusted := step_get_none h.untrusted input hpairs
  quiet := by
    have hsteps := @step_steps deps n input
    have hserves := @step_serves deps n input
    refine ⟨fun incoming requester hmem => ?_, fun o' ho' hmay => ?_, fun i' hi' hmay => ?_⟩
    · -- a merge in the channel was there before, or a session has just asked for it
      rcases hserves.ops _ hmem with hold | hasks
      · exact h.quiet.queued incoming requester hold
      · generalize hx : (SyncOp.merge machineId incoming, requester) = x at hasks
        cases hasks with
        | snapshot r => cases hx
        | outbound id o trusted ourFrame peerFrame session stage =>
            refine h.quiet.outbound o (List.mem_of_getElem? session) ?_
            rw [stage]
            injection hx with hop
            injection hop with hid
            exact hid.symm
        | inbound id i trusted peerFrame preHead session stage =>
            refine h.quiet.inbound i (List.mem_of_getElem? session) ?_
            rw [stage]
            injection hx with hop
            injection hop with hid
            exact hid.symm
    · -- a session is an old one that has taken a step, or has just been spawned
      obtain ⟨id, hid⟩ := List.mem_iff_getElem?.mp ho'
      by_cases hlt : id < n.outbound.length
      · obtain ⟨o'', ho'', hmoves⟩ := hsteps.sessions id _ (List.getElem?_eq_getElem hlt)
        rw [hid] at ho''
        cases ho''
        exact h.quiet.outbound _ (List.getElem_mem hlt) (hmoves.mayMerge h.untrusted hmay)
      · obtain ⟨peer, rfl⟩ := hsteps.fresh id o' (not_lt.mp hlt) hid
        exact hmay
    -- an inbound session may merge as one that was there and has moved on
    · rcases hserves.sessions i' hi' with rfl | ⟨i, hi, hmoves⟩
      · exact hmay
      · exact h.quiet.inbound i hi (hmoves.mayMerge h.untrusted hmay)

/-- A revocation that is answered `Ok` cuts off a machine of which nothing is under way. -/
theorem severed_of_revoked {out : Outside} {fails : Option SaveFault} (hrunning : n.halted = false)
    (hok : (n.revokeTrust machineId fails).2 = .ok) (hquiet : n.Quiet machineId) :
    (n.step deps (out, .revokeTrust machineId fails)).Severed machineId := by
  have hstep : n.step deps (out, .revokeTrust machineId fails) =
      (n.revokeTrust machineId fails).1 := by
    rw [step, hrunning]
    rfl
  have hremoved : (n.trust.remove machineId fails).2 = .ok true := by
    unfold revokeTrust at hok
    cases hresult : (n.trust.remove machineId fails).2 with
    | error e =>
        simp only [hresult] at hok
        cases hok
    | ok removed =>
        cases removed with
        | true => rfl
        | false =>
            simp only [hresult] at hok
            cases hok
  rw [hstep]
  exact ⟨TrustedPeerStore.get_remove_self hremoved, hquiet.queued, hquiet.outbound, hquiet.inbound⟩

/-! ## Runs -/

variable {s : Supervisor} {trust : TrustedPeerStore} {acts : List (Outside × NodeInput)}

/-- Step `i` of the run revokes the trust in this machine, and is answered `Ok`. -/
def RevokedAt (deps : SyncDeps) (s : Supervisor) (trust : TrustedPeerStore)
    (acts : List (Outside × NodeInput)) (i : ℕ) (machineId : String) : Prop :=
  ∃ out fails, acts[i]? = some (out, .revokeTrust machineId fails) ∧
    (run deps s trust acts i).halted = false ∧
    ((run deps s trust acts i).revokeTrust machineId fails).2 = .ok

/-- The machine whose merge is the oldest request of the channel, if it is a merge. -/
def nextOrigin (n : Node) : Option String :=
  match n.syncOps with
  | (.merge machineId _, _) :: _ => some machineId
  | _ => none

/-- Step `j` of the run applies a merge from this machine. -/
def MergedAt (deps : SyncDeps) (s : Supervisor) (trust : TrustedPeerStore)
    (acts : List (Outside × NodeInput)) (j : ℕ) (machineId : String) : Prop :=
  ∃ out, acts[j]? = some (out, .syncOp) ∧ (run deps s trust acts j).halted = false ∧
    (run deps s trust acts j).nextOrigin = some machineId

/-- **Revocation is final**: after it no merge of the machine is applied until it is paired again. -/
def RevocationFinal (deps : SyncDeps) (s : Supervisor) (trust : TrustedPeerStore)
    (acts : List (Outside × NodeInput)) : Prop :=
  ∀ i machineId, RevokedAt deps s trust acts i machineId → ∀ j, i < j →
    (∀ k input, i < k → k < j → acts[k]? = some input →
      ¬ (run deps s trust acts k).Pairs machineId input.2) →
    ¬ MergedAt deps s trust acts j machineId

/-- From a revocation with nothing under way on the machine is cut off, as long as it is not
paired. -/
theorem severed_after {i : ℕ} (hrevoked : RevokedAt deps s trust acts i machineId)
    (hquiet : (run deps s trust acts i).Quiet machineId) {j : ℕ} (hij : i < j)
    (hpairs : ∀ k input, i < k → k < j → acts[k]? = some input →
      ¬ (run deps s trust acts k).Pairs machineId input.2) :
    (run deps s trust acts j).Severed machineId := by
  obtain ⟨out, fails, hi, hrunning, hok⟩ := hrevoked
  -- from the step after the revocation on, being cut off is what every step keeps
  induction hij with
  | refl =>
      show (run deps s trust acts (i + 1)).Severed machineId
      rw [run, Run.after_succ hi]
      exact severed_of_revoked hrunning hok hquiet
  | @step j hij ih =>
      have hsevered := ih fun k input hik hkj => hpairs k input hik (hkj.trans (Nat.lt_succ_self j))
      cases hj : acts[j]? with
      | none => rwa [run, Run.after_succ_none hj]
      | some input =>
          rw [run, Run.after_succ hj]
          exact hsevered.step input (hpairs j input hij (Nat.lt_succ_self j) hj)

/-- **Revocation is final when nothing is under way**: in a run in which every revocation that is
answered `Ok` comes while no merge of the machine is queued and no session holds its entry with its
merge still to come, no merge of a revoked machine is applied until it is paired again. -/
theorem revocation_is_final (deps : SyncDeps) (s : Supervisor) (trust : TrustedPeerStore)
    (acts : List (Outside × NodeInput))
    (hquiet : ∀ i machineId, RevokedAt deps s trust acts i machineId →
      (run deps s trust acts i).Quiet machineId) : RevocationFinal deps s trust acts := by
  intro i machineId hrevoked j hij hpairs
  rintro ⟨out, -, -, hnext⟩
  have hquiet := (severed_after hrevoked (hquiet i machineId hrevoked) hij hpairs).quiet
  unfold nextOrigin at hnext
  split at hnext
  · next m incoming requester rest hops =>
    refine hquiet.queued incoming requester ?_
    rw [hops, Option.some.inj hnext]
    exact List.mem_cons_self
  · cases hnext

/-- `b` is dialed, and revoked before the session has looked it up. -/
def sampleRevokedEarly : List NodeInput :=
  [.found (samplePeer "0"), .revokeTrust "b" none, .outbound 0 .lookUp, .syncOp]

/-- The session finds no entry, and nothing of `b` is merged. -/
theorem revocation_is_final_sample :
    RevocationFinal (sampleDeps (.initial Config.default "a")) sampleSupervisor sampleTrust
      (calmly sampleRevokedEarly) := by
  refine revocation_is_final _ _ _ _ fun i machineId hrevoked => ?_
  obtain ⟨out, fails, hi, -⟩ := hrevoked
  match i with
  | 0 => cases hi
  | 1 =>
      refine ⟨fun _ _ => List.not_mem_nil, fun o ho => ?_, fun i hi => (List.not_mem_nil hi).elim⟩
      rw [List.mem_singleton.mp ho]
      exact id
  | 2 => cases hi
  | 3 => cases hi

/-- The state of `b`, which is the initial one with the port changed. -/
def samplePeerPort : VersionedConfig := .initial { Config.default with port := 24801 } "b"

/-- `b` is revoked while a merge of it is queued. -/
def sampleRevokedLate : List NodeInput :=
  .found (samplePeer "0") :: sampleExchange samplePeerPort 0 ++
    [.outbound 0 .askMerge, .revokeTrust "b" none, .syncOp]

/-- **A queued merge outlives the revocation**: the revocation is answered `Ok`, and the port of `b`
is taken over all the same. -/
theorem queued_merge_outlives_revocation :
    (run (sampleDeps samplePeerPort) sampleSupervisor sampleTrust (calmly sampleRevokedLate)
        11).supervisor.config.port = 24801 ∧
      ¬ RevocationFinal (sampleDeps samplePeerPort) sampleSupervisor sampleTrust
        (calmly sampleRevokedLate) := by
  have hfacts :
      let states := run (sampleDeps samplePeerPort) sampleSupervisor sampleTrust
        (calmly sampleRevokedLate)
      (states 11).supervisor.config.port = 24801 ∧ (states 9).halted = false ∧
        (states 9).trust.peers = sampleTrust.peers ∧ (states 10).halted = false ∧
        (states 10).nextOrigin = some "b" := by
    decide +kernel
  obtain ⟨hport, hrunning, hpeers, hrunning', hnext⟩ := hfacts
  refine ⟨hport, fun h => h 9 "b" ⟨sampleOutside, none, rfl, hrunning, ?_⟩ 10 (by decide) ?_
    ⟨sampleOutside, rfl, hrunning', hnext⟩⟩
  · simp only [revokeTrust, TrustedPeerStore.remove, hpeers]
    rfl
  · intro k input h9 h10
    omega

end Node

end Synbad
