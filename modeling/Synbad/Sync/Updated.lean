import Synbad.Supervisor.Restarts
import Synbad.Sync.Phases
import Synbad.Sync.Stamping

/-! # Whether a session updated us

A session compares the head of its snapshot with the head after its merge and reports the difference
as "updated". The merge was one of several things that may have happened in between. Its own outcome
is not what is reported, and a merge that is rolled back keeps the stamps it has taken. So the report
is right exactly when a merge that takes nothing finds the state of the snapshot, and no merge is
rolled back.

`ReportsRightly` is that condition, in terms of the state of the snapshot and of what the merge finds.
A simpler form of it (`reportsRightly_iff_of_le`) holds where no stamp has fallen since the snapshot,
which is so along a run as long as no counter is at the top of its range (`run_stamp_le_of_lt`). The
phases of a session give the two states it compared, whichever direction it has, so that
`updated_tells_truth_iff` is about every session of a run that has reported: it told the truth exactly
if its merge met the condition. The sample is an edit that falls between the two. -/

namespace Synbad

/-! ## What a merge leaves -/

namespace Supervisor

variable {s : Supervisor} {env : Env} {machineId : String} {incoming : VersionedConfig}

/-- The merge of this state overwrites a shared field: its outcome is `Updated`, and it is not rolled
back. -/
def Overwrites (s : Supervisor) (env : Env) (machineId : String) (incoming : VersionedConfig) : Prop :=
  (s.versioned.merge incoming).2 = .updated ∧
    ¬ s.RollsBack env (.syncOp (.merge machineId incoming))

/-- A merge that is not rolled back leaves the merged state. -/
theorem merge_versioned (h : ¬ s.RollsBack env (.syncOp (.merge machineId incoming))) :
    (s.handle env (.syncOp (.merge machineId incoming))).versioned =
      (s.versioned.merge incoming).1 := by
  show (s.handleMerge env incoming).versioned = _
  cases houtcome : (s.versioned.merge incoming).2 with
  | noChange =>
      -- the state is answered as it is, before anything is validated
      simp only [handleMerge, houtcome]
  | updated =>
      rcases handleMerge_cases s env incoming with ⟨-, heq⟩ | ⟨-, heq⟩ | ⟨hbad, heq⟩
      · rw [heq]
        rfl
      · rw [heq]
        exact congrArg Docs.versioned (adoptMerged_docs _ env)
      · -- rejected, and no file to go back to: the merged state stays
        have hunloaded : ∀ c, (s.merging incoming).disk.loadConfig env ≠ .ok (some c) :=
          fun c hc => h ⟨houtcome, hbad, c, hc⟩
        rw [heq, rollBack_of_not_loaded hunloaded]
        rfl

/-- A merge that is rolled back leaves the document of the file under the merged stamps. -/
theorem merge_versioned_of_rollsBack (h : s.RollsBack env (.syncOp (.merge machineId incoming)))
    {c : Config} (hc : s.disk.loadConfig env = .ok (some c)) :
    (s.handle env (.syncOp (.merge machineId incoming))).versioned =
      { (s.versioned.merge incoming).1 with config := c } := by
  obtain ⟨houtcome, hbad, -⟩ := h
  show (s.handleMerge env incoming).versioned = _
  rcases handleMerge_cases s env incoming with ⟨hnone, -⟩ | ⟨hvalid, -⟩ | ⟨-, heq⟩
  · rw [hnone] at houtcome
    cases houtcome
  · exact absurd hvalid hbad
  · have hloaded : (s.merging incoming).disk.loadConfig env = .ok (some c) := hc
    rw [heq, rollBack_of_loaded hloaded]
    rfl

end Supervisor

/-! ## When the report is right -/

/-- **The condition for a right report**, in terms of the state `pre` of the snapshot and of what the
merge finds. -/
structure ReportsRightly (pre : VersionedConfig) (s : Supervisor) (env : Env) (machineId : String)
    (incoming : VersionedConfig) : Prop where
  /-- Where the peer has nothing newer, nothing has changed since the snapshot. -/
  idle : (∀ f, incoming.stamp f ≤ s.versioned.stamp f) → ∀ f, s.versioned.entry f = pre.entry f
  /-- Where it has, taking that does not bring back the snapshot. -/
  taken : (∃ f, s.versioned.stamp f < incoming.stamp f) →
    ¬ s.RollsBack env (.syncOp (.merge machineId incoming)) → ∃ f,
      (if s.versioned.stamp f < incoming.stamp f then incoming.entry f else s.versioned.entry f) ≠
        pre.entry f
  /-- Where that is rolled back, the document of the file under the newer stamps is the snapshot. -/
  refused : s.RollsBack env (.syncOp (.merge machineId incoming)) →
    ∀ c, s.disk.loadConfig env = .ok (some c) →
      ∀ f, (c.value f, max (s.versioned.stamp f) (incoming.stamp f)) = pre.entry f

section Condition

variable {pre : VersionedConfig} {s : Supervisor} {env : Env} {machineId : String}
  {incoming : VersionedConfig}

/-- A shared entry differs after the merge from the snapshot exactly when the merge overwrote one, if
and only if the condition holds. -/
theorem reportsRightly_iff :
    ((∃ f, (s.handle env (.syncOp (.merge machineId incoming))).versioned.entry f ≠ pre.entry f) ↔
      s.Overwrites env machineId incoming) ↔ ReportsRightly pre s env machineId incoming := by
  by_cases hroll : s.RollsBack env (.syncOp (.merge machineId incoming))
  · -- rolled back: the merge overwrote nothing, so nothing may differ
    obtain ⟨c, hc⟩ := hroll.2.2
    have hnot : ¬ s.Overwrites env machineId incoming := fun h => h.2 hroll
    have hnewer : ∃ f, s.versioned.stamp f < incoming.stamp f :=
      (VersionedConfig.merge_outcome _ _).mp hroll.1
    have hentry : ∀ f, (s.handle env (.syncOp (.merge machineId incoming))).versioned.entry f =
        (c.value f, max (s.versioned.stamp f) (incoming.stamp f)) := by
      intro f
      rw [Supervisor.merge_versioned_of_rollsBack hroll hc, ← VersionedConfig.merge_stamp]
      rfl
    simp only [hentry, iff_false_intro hnot, iff_false, not_exists, not_not]
    constructor
    · intro h
      -- a merge that was rolled back had something newer, so it is not the idle case
      refine ⟨fun hidle => ?_, fun _ hnotRoll => absurd hroll hnotRoll, fun _ c' hc' => ?_⟩
      · obtain ⟨f, hf⟩ := hnewer
        exact absurd (hidle f) (not_le.mpr hf)
      · cases hc.symm.trans hc'
        exact h
    · exact fun h => h.refused hroll c hc
  · have hentry : ∀ f, (s.handle env (.syncOp (.merge machineId incoming))).versioned.entry f =
        if s.versioned.stamp f < incoming.stamp f then incoming.entry f
        else s.versioned.entry f := by
      intro f
      rw [Supervisor.merge_versioned hroll, VersionedConfig.merge_entry]
    simp only [hentry]
    by_cases hnewer : ∃ f, s.versioned.stamp f < incoming.stamp f
    · -- something is taken: something has to differ
      have hyes : s.Overwrites env machineId incoming :=
        ⟨(VersionedConfig.merge_outcome _ _).mpr hnewer, hroll⟩
      rw [iff_true_intro hyes, iff_true]
      constructor
      · intro h
        refine ⟨fun hidle => ?_, fun _ _ => h, fun h' => absurd h' hroll⟩
        obtain ⟨f, hf⟩ := hnewer
        exact absurd (hidle f) (not_le.mpr hf)
      · exact fun h => h.taken hnewer hroll
    · -- nothing is taken: nothing may differ
      have hidle : ∀ f, incoming.stamp f ≤ s.versioned.stamp f :=
        fun f => not_lt.mp fun hf => hnewer ⟨f, hf⟩
      have hnot : ¬ s.Overwrites env machineId incoming :=
        fun h => hnewer ((VersionedConfig.merge_outcome _ _).mp h.1)
      simp only [iff_false_intro hnot, iff_false, not_exists, not_not, if_neg (not_lt.mpr (hidle _))]
      exact ⟨fun h => ⟨fun _ => h, fun h' => absurd h' hnewer, fun h' => absurd h' hroll⟩,
        fun h => h.idle hidle⟩

/-- **Where no stamp has fallen since the snapshot**, the report is right exactly when the merge is not
rolled back, and finds something newer or the state of the snapshot. -/
theorem reportsRightly_iff_of_le (hle : ∀ f, pre.stamp f ≤ s.versioned.stamp f) :
    ReportsRightly pre s env machineId incoming ↔
      ¬ s.RollsBack env (.syncOp (.merge machineId incoming)) ∧
        ((∃ f, s.versioned.stamp f < incoming.stamp f) ∨
          ∀ f, s.versioned.entry f = pre.entry f) := by
  constructor
  · intro h
    constructor
    · intro hroll
      -- a stamp that was taken is newer than that of the snapshot
      obtain ⟨c, hc⟩ := hroll.2.2
      obtain ⟨f, hf⟩ := (VersionedConfig.merge_outcome _ _).mp hroll.1
      have hstamp : max (s.versioned.stamp f) (incoming.stamp f) = pre.stamp f :=
        congrArg Prod.snd (h.refused hroll c hc f)
      rw [max_eq_right hf.le] at hstamp
      exact absurd (hle f) (not_le.mpr (hstamp ▸ hf))
    · by_cases hnewer : ∃ f, s.versioned.stamp f < incoming.stamp f
      · exact Or.inl hnewer
      · exact Or.inr (h.idle fun f => not_lt.mp fun hf => hnewer ⟨f, hf⟩)
  · rintro ⟨hroll, hcases⟩
    refine ⟨fun hidle => ?_, fun hnewer _ => ?_, fun h => absurd h hroll⟩
    · rcases hcases with ⟨f, hf⟩ | hsame
      · exact absurd (hidle f) (not_le.mpr hf)
      · exact hsame
    · obtain ⟨f, hf⟩ := hnewer
      refine ⟨f, fun heq => ?_⟩
      rw [if_pos hf] at heq
      have hstamp : incoming.stamp f = pre.stamp f := congrArg Prod.snd heq
      exact absurd (hle f) (not_le.mpr (hstamp ▸ hf))

end Condition

/-! ## Stamps along a run -/

/-- Below the top of the counters no event lowers a stamp: the one that a local edit gives to a changed
value is above all others. -/
theorem Supervisor.DocsMoves.stamp_le_of_lt {s : Supervisor} {env : Env} {e : LoopEvent} {d : Docs}
    (h : s.DocsMoves env e d) (hlow : s.versioned.bound < u64Max) (f : SharedField) :
    s.versioned.stamp f ≤ d.versioned.stamp f := by
  rcases h.stamp_le_or_edit f with hle | ⟨c, hc⟩
  · exact hle
  rw [hc, VersionedConfig.applyLocal_stamp]
  split
  · exact le_rfl
  · refine (LamportTime.lt_of_counter_lt ?_).le
    have hmem : (s.versioned.stamp f).counter ∈ s.versioned.counters :=
      List.mem_cons_of_mem _ (s.versioned.stamps.stamp_mem_counters f)
    have hcounter := VersionedConfig.le_bound hmem
    rw [VersionedConfig.nextCounter_of_lt hlow]
    exact Nat.lt_succ_of_le hcounter

namespace Node

variable {deps : SyncDeps} {n : Node} {input : Outside × NodeInput} {who : Requester}

/-- Below the top of the counters no step lowers a stamp. -/
theorem step_stamp_le_of_lt (hlow : n.versioned.bound < u64Max) (f : SharedField) :
    n.versioned.stamp f ≤ (n.step deps input).versioned.stamp f := by
  cases @step_writes deps n input with
  | nothing same trusted => rw [same]
  | document e handled trusted =>
      rw [handled]
      exact (n.supervisor.handle_moves input.1.env e).stamp_le_of_lt hlow f
  | revocation machineId fails asked same removed => rw [same]
  | pairing peer fails asked same upserted => rw [same]

variable {s : Supervisor} {trust : TrustedPeerStore} {acts : List (Outside × NodeInput)}

/-- **Run lemma**: between two moments no stamp falls, as long as no counter is at the top. -/
theorem run_stamp_le_of_lt {i j : ℕ} (hij : i ≤ j)
    (hlow : ∀ t, i ≤ t → t < j → (run deps s trust acts t).versioned.bound < u64Max)
    (f : SharedField) :
    (run deps s trust acts i).versioned.stamp f ≤ (run deps s trust acts j).versioned.stamp f := by
  induction hij with
  | refl => exact le_rfl
  | @step j hij ih =>
      have hprefix : ∀ t, i ≤ t → t < j → (run deps s trust acts t).versioned.bound < u64Max :=
        fun t hit htj => hlow t hit (htj.trans (Nat.lt_succ_self j))
      refine (ih hprefix).trans ?_
      cases hinput : acts[j]? with
      | none =>
          have hrun : run deps s trust acts (j + 1) = run deps s trust acts j :=
            Run.after_succ_none hinput
          rw [hrun]
      | some input =>
          have hrun : run deps s trust acts (j + 1) = (run deps s trust acts j).step deps input :=
            Run.after_succ hinput
          rw [hrun]
          exact step_stamp_le_of_lt (hlow j hij (Nat.lt_succ_self j)) f

/-! ## Reports -/

/-- What a session that is over reports to the user interface, an error apart. -/
def report (n : Node) : Requester → Option SessionResult
  | .outbound id => n.outbound[id]?.bind fun o =>
      match o.stage with
      | .finished (.ok result) => some result
      | _ => none
  | .inbound id => n.inbound[id]?.bind fun i =>
      match i.stage with
      | .finished (.ok result) => some result
      | _ => none

/-- A session that has reported is in the last phase. -/
theorem phase_of_report {result : SessionResult} (h : n.report who = some result) :
    n.phase deps who = .reported result := by
  cases who with
  | outbound id =>
      obtain ⟨o, ho, hresult⟩ := Option.bind_eq_some_iff.mp h
      rw [outboundPhase_of_eq ho]
      split at hresult
      · next result' hstage =>
        cases hresult
        rw [hstage]
        rfl
      · cases hresult
  | inbound id =>
      obtain ⟨i, hi, hresult⟩ := Option.bind_eq_some_iff.mp h
      rw [inboundPhase_of_eq hi]
      split at hresult
      · next result' hstage =>
        cases hresult
        rw [hstage]
        rfl
      · cases hresult

/-- A request that is taken leaves the document that handling it does. -/
theorem Takes.versioned_eq {op : SyncOp} (h : n.Takes input who op) :
    (n.step deps input).versioned = (n.supervisor.handle input.1.env (.syncOp op)).versioned := by
  rw [Node.versioned, h.supervisor_eq deps]

/-- Heads of a history differ exactly when a shared entry does. -/
theorem head_ne_iff {states : ℕ → Node} (hheads : HeadsTellApart deps states) (i j : ℕ) :
    (states i).head deps ≠ (states j).head deps ↔
      ∃ f, (states j).versioned.entry f ≠ (states i).versioned.entry f := by
  have hshared : (states i).head deps = (states j).head deps ↔
      (states i).versioned.sharedHashInput = (states j).versioned.sharedHashInput :=
    ⟨hheads i j, fun h => congrArg deps.digest h⟩
  rw [ne_eq, hshared, VersionedConfig.sharedHashInput_eq_iff, not_forall]
  exact exists_congr fun f => not_congr eq_comm

/-- **When "updated" tells the truth**: whichever way a session went, and whatever else was handled
while it ran, once it has reported there is one snapshot, handled at `i`, and one merge, handled at
`j`; and its report is that this merge overwrote a shared field if and only if the merge finds what
`ReportsRightly` says. While no counter is at the top, that is: the merge is not rolled back, and it
takes something newer or finds the state of the snapshot. -/
theorem updated_tells_truth_iff (deps : SyncDeps) (s : Supervisor) (trust : TrustedPeerStore)
    (acts : List (Outside × NodeInput)) (hheads : HeadsTellApart deps (run deps s trust acts))
    (k : ℕ) (who : Requester) (result : SessionResult)
    (hreport : (run deps s trust acts k).report who = some result) :
    ∃ i j machineId incoming out, i < j ∧
      Served deps s trust acts who k [(i, .snapshot), (j, .merge machineId incoming)] ∧
      acts[j]? = some (out, .syncOp) ∧
      ((result.updated = true ↔
          (run deps s trust acts j).supervisor.Overwrites out.env machineId incoming) ↔
        ReportsRightly (run deps s trust acts (i + 1)).versioned
          (run deps s trust acts j).supervisor out.env machineId incoming) ∧
      ((∀ t, i < t → t < j → (run deps s trust acts t).versioned.bound < u64Max) →
        (ReportsRightly (run deps s trust acts (i + 1)).versioned
            (run deps s trust acts j).supervisor out.env machineId incoming ↔
          ¬ (run deps s trust acts j).supervisor.RollsBack out.env
              (.syncOp (.merge machineId incoming)) ∧
            ((∃ f, (run deps s trust acts j).versioned.stamp f < incoming.stamp f) ∨
              ∀ f, (run deps s trust acts j).versioned.entry f =
                (run deps s trust acts (i + 1)).versioned.entry f))) := by
  have htraced := run_traced deps who s trust acts k
  rw [phase_of_report hreport] at htraced
  obtain ⟨-, i, j, machineId, incoming, preHead, newHead, hexchange, rfl⟩ := htraced
  -- the merge was handled at `j`
  obtain ⟨-, ⟨out, input⟩, hinput, htakes⟩ :=
    (hexchange.served j (.merge machineId incoming)).mp (by simp)
  obtain rfl : input = .syncOp := htakes.2.1
  have hafter : (run deps s trust acts (j + 1)).versioned =
      ((run deps s trust acts j).supervisor.handle out.env
        (.syncOp (.merge machineId incoming))).versioned := by
    rw [show run deps s trust acts (j + 1) = (run deps s trust acts j).step deps (out, .syncOp) from
      Run.after_succ hinput]
    exact htakes.versioned_eq
  refine ⟨i, j, machineId, incoming, out, hexchange.order, hexchange.served, hinput, ?_, ?_⟩
  · have hflag : (preHead != newHead) = true ↔
        ∃ f, (run deps s trust acts (j + 1)).versioned.entry f ≠
          (run deps s trust acts (i + 1)).versioned.entry f := by
      rw [bne_iff_ne, hexchange.preHead, hexchange.newHead]
      exact head_ne_iff hheads (i + 1) (j + 1)
    -- the state after the merge is what handling it makes of the state it found
    rw [hafter] at hflag
    show ((preHead != newHead) = true ↔ _) ↔ _
    rw [hflag]
    exact reportsRightly_iff
  · intro hlow
    exact reportsRightly_iff_of_le fun f =>
      run_stamp_le_of_lt hexchange.order (fun t hit htj => hlow t hit htj) f

/-- The session of the sample reports that nothing was updated, and takes nothing. -/
theorem updated_tells_truth_iff_sample :
    ∃ (i j : ℕ) (machineId : String) (incoming : VersionedConfig) (out : Outside), i < j ∧
      Served (sampleDeps (.initial Config.default "a")) sampleSupervisor sampleTrust
        (calmly sampleConfirmed) (.outbound 0) 11
        [(i, .snapshot), (j, .merge machineId incoming)] ∧
      ((false = true ↔ (sampleRun j).supervisor.Overwrites out.env machineId incoming) ↔
        ReportsRightly (sampleRun (i + 1)).versioned (sampleRun j).supervisor out.env machineId
          incoming) := by
  have hheads : HeadsTellApart (sampleDeps (.initial Config.default "a")) sampleRun := by
    intro j k _
    rw [sampleRun_shared j, sampleRun_shared k]
  obtain ⟨i, j, machineId, incoming, out, hij, hserved, -, hiff, -⟩ :=
    updated_tells_truth_iff (sampleDeps (.initial Config.default "a")) sampleSupervisor sampleTrust
      (calmly sampleConfirmed) hheads 11 (.outbound 0) ⟨false, "24800/1a"⟩ (by decide +kernel)
  exact ⟨i, j, machineId, incoming, out, hij, hserved, hiff⟩

/-! ## An edit between the snapshot and the merge -/

/-- The default document with another port, which is the edit of the sample. -/
def otherPort : Config := { Config.default with port := 1 }

/-- `b` is found in the state that `a` is in, and a session with it runs to its end. The user of `a`
changes the port after the snapshot. -/
def sampleEdited : List NodeInput :=
  .found (samplePeer "0") :: sampleExchange (.initial Config.default "a") 0 ++
    .loop (.request (.setConfig otherPort)) :: sampleMerge 0

/-- The run of this session, with nothing failing outside. -/
abbrev editedRun : ℕ → Node :=
  run (sampleDeps (.initial Config.default "a")) sampleSupervisor sampleTrust (calmly sampleEdited)

/-- The merge that comes next in the channel takes something. -/
def nextMergeUpdates (n : Node) : Bool :=
  match n.syncOps.head? with
  | some (.merge _ incoming, _) => (n.versioned.merge incoming).2 == .updated
  | _ => false

/-- The shared values and stamps of `a` after the edit. -/
def sampleEditedShared : VersionedConfig.SharedHashInput :=
  ((VersionedConfig.initial Config.default "a").applyLocal otherPort "a").1.sharedHashInput

/-- The shared half of `a` before the edit and after it, which nothing else in the run changes. -/
theorem editedRun_shared (k : ℕ) : (editedRun k).versioned.sharedHashInput =
    if k < 9 then (VersionedConfig.initial Config.default "a").sharedHashInput
    else sampleEditedShared := by
  have hrun : ∀ k < 13, (editedRun k).versioned.sharedHashInput =
      if k < 9 then (VersionedConfig.initial Config.default "a").sharedHashInput
      else sampleEditedShared := by
    decide +kernel
  by_cases hk : k < 13
  · exact hrun k hk
  · have hlen : (calmly sampleEdited).length = 12 := rfl
    have hend := hrun 12 (by decide)
    rw [if_neg (by omega)] at hend ⊢
    unfold editedRun run Run.after at hend ⊢
    rw [List.take_of_length_le (by omega)] at hend ⊢
    exact hend

/-- The session reports an update, and its merge took nothing. -/
theorem edit_is_reported_as_update :
    ¬ ∀ (deps : SyncDeps) (s : Supervisor) (trust : TrustedPeerStore)
        (acts : List (Outside × NodeInput)), HeadsTellApart deps (run deps s trust acts) →
      ∀ (k : ℕ) (who : Requester) (result : SessionResult),
        (run deps s trust acts k).report who = some result →
        ∃ i j machineId incoming out, i < j ∧
          Served deps s trust acts who k [(i, .snapshot), (j, .merge machineId incoming)] ∧
          acts[j]? = some (out, .syncOp) ∧
          (result.updated = true ↔
            (run deps s trust acts j).supervisor.Overwrites out.env machineId incoming) := by
  intro h
  have hheads : HeadsTellApart (sampleDeps (.initial Config.default "a")) editedRun := by
    have hdigest : (sampleDeps (.initial Config.default "a")).digest
        (VersionedConfig.initial Config.default "a").sharedHashInput ≠
        (sampleDeps (.initial Config.default "a")).digest sampleEditedShared := by
      decide +kernel
    intro j k hhead
    rw [head, head, VersionedConfig.headHash, VersionedConfig.headHash, editedRun_shared j,
      editedRun_shared k] at hhead
    rw [editedRun_shared j, editedRun_shared k]
    split at hhead <;> split at hhead
    · next hj hk => rw [if_pos hj, if_pos hk]
    · exact absurd hhead hdigest
    · exact absurd hhead.symm hdigest
    · next hj hk => rw [if_neg hj, if_neg hk]
  obtain ⟨i, j, machineId, incoming, out, -, hserved, hinput, hiff⟩ :=
    h _ sampleSupervisor sampleTrust (calmly sampleEdited) hheads 12 (.outbound 0) ⟨true, "1/2a"⟩
      (by decide +kernel)
  -- no merge of this run takes anything
  have hnone : ∀ j < 12, nextMergeUpdates (editedRun j) = false := by decide +kernel
  obtain ⟨hj, input, -, htakes⟩ := (hserved j (.merge machineId incoming)).mp (by simp)
  have hupdated := (hiff.mp rfl).1
  have hsome : nextMergeUpdates (editedRun j) = true := by
    rw [nextMergeUpdates, htakes.2.2]
    exact beq_iff_eq.mpr hupdated
  rw [hnone j hj] at hsome
  cases hsome

end Node

end Synbad
