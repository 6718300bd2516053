import Synbad.Sync.Gossip
import Synbad.Lib.Lww
import Mathlib.Data.List.Forall2

/-! # Convergence of gossiping replicas

Each shared field of a replica is a last-write-wins register. The central invariant (`tracks_after`)
says that after any number of steps of any run, the register of a replica or of a snapshot is the
latest of the writes it has absorbed. Writes are identified by their stamps (`coherent_writes`)
because a replica's clock never falls and every fresh stamp lies above it. Convergence is then the
uniqueness of the latest write.

The network is that of the gossip: any number of replicas, each with edits of its own, and snapshots
that are merged whenever they arrive, late, twice or never. What a replica has absorbed is a set of
origins, initial states and edits; a merge absorbs the union (`VersionedConfig.merge_reg`), an edit
adds itself (`VersionedConfig.applyLocal_reg`). The counters are `u64`, so what is shown is for runs
in which they stay below the last one; that short runs do so is shown beside it. `lww_convergence` is
stated for any two states or snapshots of the run, field by field. -/

namespace Synbad

/-- A shared field as a last-write-wins register, its value with the stamp of the write that put it
there. -/
def VersionedConfig.reg (v : VersionedConfig) (f : SharedField) : Lww.Reg LamportTime f.Value :=
  ⟨v.stamp f, v.value f⟩

/-- **A merge joins registers**: of each shared field the merged document has the join of the two
registers. -/
theorem VersionedConfig.merge_reg (v other : VersionedConfig) (f : SharedField) :
    (v.merge other).1.reg f = (v.reg f).join (other.reg f) := by
  rw [reg, merge_value, merge_stamp, Lww.Reg.join]
  by_cases h : v.stamp f < other.stamp f
  · rw [if_pos h, max_eq_right h.le]
    exact (if_pos h).symm
  · rw [if_neg h, max_eq_left (not_lt.mp h)]
    exact (if_neg h).symm

/-- **An edit writes the fields it changes and leaves the others.** -/
theorem VersionedConfig.applyLocal_reg (v : VersionedConfig) (c : Config) (origin : String)
    (f : SharedField) :
    (v.applyLocal c origin).1.reg f =
      if v.value f = c.value f then v.reg f else ⟨⟨v.nextCounter, origin⟩, c.value f⟩ := by
  rw [reg, applyLocal_value, applyLocal_stamp]
  by_cases h : v.value f = c.value f
  · rw [if_pos h, if_pos h, reg, h]
  · rw [if_neg h, if_neg h]

namespace Net

variable {ι : Type} [DecidableEq ι] (machineId : ι → String) (configs : ι → Config)
  (acts : List (Action ι))

/-- All counters of a replica lie below `u64::MAX` throughout the run. -/
def CountersBelow : Prop :=
  ∀ n i, ((after machineId configs acts n).replica i).clock < u64Max ∧
    ((after machineId configs acts n).replica i).stamps.maxCounter < u64Max

/-- A state some replica holds at some moment of the run, or a snapshot taken in it. -/
def Carried (v : VersionedConfig) : Prop :=
  (∃ n i, v = (after machineId configs acts n).replica i) ∨
    ∃ n, v ∈ (after machineId configs acts n).sent

/-! ## Writes -/

/-- What an initial state or an edit of the run wrote to a shared field. -/
def wrote (f : SharedField) : Origin ι → Option (Lww.Reg LamportTime f.Value)
  | .initial i => some ⟨⟨1, machineId i⟩, (configs i).value f⟩
  | .edit n =>
      match acts[n]? with
      | some (.edit i c) =>
          let v := (after machineId configs acts n).replica i
          if v.value f = c.value f then none
          else some ⟨⟨v.nextCounter, machineId i⟩, c.value f⟩
      | _ => none

/-- The writes to a shared field among a set of initial states and edits. -/
def writes (f : SharedField) (H : Set (Origin ι)) : Set (Lww.Reg LamportTime f.Value) :=
  {r | ∃ o ∈ H, wrote machineId configs acts f o = some r}

variable {machineId configs acts}

/-- The writes of a union are the union of the writes. -/
theorem writes_union (f : SharedField) (H K : Set (Origin ι)) :
    writes machineId configs acts f (H ∪ K) =
      writes machineId configs acts f H ∪ writes machineId configs acts f K := by
  ext r
  constructor
  · rintro ⟨o, ho | ho, hw⟩
    exacts [Or.inl ⟨o, ho, hw⟩, Or.inr ⟨o, ho, hw⟩]
  · rintro (⟨o, ho, hw⟩ | ⟨o, ho, hw⟩)
    exacts [⟨o, Or.inl ho, hw⟩, ⟨o, Or.inr ho, hw⟩]

/-- An origin that wrote to the field adds its write to the writes of the field. -/
theorem writes_insert_some {f : SharedField} {o : Origin ι} {H : Set (Origin ι)}
    {r : Lww.Reg LamportTime f.Value} (h : wrote machineId configs acts f o = some r) :
    writes machineId configs acts f (insert o H) = insert r (writes machineId configs acts f H) := by
  ext x
  constructor
  · rintro ⟨o', rfl | ho', hw⟩
    · exact Or.inl (Option.some.inj (hw.symm.trans h))
    · exact Or.inr ⟨o', ho', hw⟩
  · rintro (rfl | ⟨o', ho', hw⟩)
    · exact ⟨o, Or.inl rfl, h⟩
    · exact ⟨o', Or.inr ho', hw⟩

/-- An origin that wrote nothing to the field adds nothing to its writes. -/
theorem writes_insert_none {f : SharedField} {o : Origin ι} {H : Set (Origin ι)}
    (h : wrote machineId configs acts f o = none) :
    writes machineId configs acts f (insert o H) = writes machineId configs acts f H := by
  ext x
  constructor
  · rintro ⟨o', rfl | ho', hw⟩
    · rw [h] at hw
      cases hw
    · exact ⟨o', ho', hw⟩
  · rintro ⟨o', ho', hw⟩
    exact ⟨o', Or.inr ho', hw⟩

/-- A write made by an edit: whose edit it was, and the fresh stamp it carries. -/
theorem wrote_edit {f : SharedField} {n : ℕ} {r : Lww.Reg LamportTime f.Value}
    (h : wrote machineId configs acts f (.edit n) = some r) :
    ∃ i c, acts[n]? = some (.edit i c) ∧
      r = ⟨⟨((after machineId configs acts n).replica i).nextCounter, machineId i⟩, c.value f⟩ ∧
      (after machineId configs acts (n + 1)).replica i =
        (((after machineId configs acts n).replica i).applyLocal c (machineId i)).1 ∧
      ((after machineId configs acts n).replica i).value f ≠ c.value f := by
  rw [wrote] at h
  split at h
  · next i c hact =>
    by_cases hv : ((after machineId configs acts n).replica i).value f = c.value f
    · simp [hv] at h
    · simp only [hv, if_false, Option.some.injEq] at h
      refine ⟨i, c, hact, h.symm, ?_, hv⟩
      rw [after, Run.after_succ hact]
      exact set_replica_self ..
  · cases h

/-! ## Clocks -/

/-- No step lowers a replica's clock, as long as the counters before it are below `u64::MAX`. -/
theorem clock_step_le (hlow : ∀ i, ((after machineId configs acts n).replica i).clock < u64Max ∧
      ((after machineId configs acts n).replica i).stamps.maxCounter < u64Max)
    (a : Action ι) (i : ι) :
    ((after machineId configs acts n).replica i).clock ≤
      (((after machineId configs acts n).step machineId a).replica i).clock := by
  rcases step_replica machineId (after machineId configs acts n) a i with
    h | ⟨c, -, h⟩ | ⟨k, v, -, -, h⟩
  · rw [h]
  · rw [h, VersionedConfig.applyLocal_clock]
    split
    · exact le_rfl
    · rw [VersionedConfig.nextCounter_eq (hlow i).1 (hlow i).2]
      exact (le_max_left _ _).trans (Nat.le_succ _)
  · rw [h, VersionedConfig.merge_clock]
    exact (le_max_left _ _).trans (le_max_left _ _)

/-- A replica's clock never falls along a run whose counters stay below `u64::MAX`. -/
theorem clock_mono (hlow : CountersBelow machineId configs acts) (i : ι) :
    Monotone fun n => ((after machineId configs acts n).replica i).clock :=
  Run.monotone (f := fun net : Net ι => (net.replica i).clock)
    fun n a _ => clock_step_le (hlow n) a i

/-- The counter of a write lies in `(clock before, clock after]` of the replica that made it. -/
theorem wrote_edit_counter (hlow : CountersBelow machineId configs acts) {f : SharedField} {n : ℕ}
    {r : Lww.Reg LamportTime f.Value} (h : wrote machineId configs acts f (.edit n) = some r) :
    ∃ i, r.stamp.origin = machineId i ∧
      ((after machineId configs acts n).replica i).clock < r.stamp.counter ∧
      r.stamp.counter = ((after machineId configs acts (n + 1)).replica i).clock := by
  obtain ⟨i, c, -, rfl, hnext, hv⟩ := wrote_edit h
  refine ⟨i, rfl, ?_, ?_⟩
  · have hc := VersionedConfig.nextCounter_eq (hlow n i).1 (hlow n i).2
    exact hc ▸ Nat.lt_succ_of_le (le_max_left _ _)
  · rw [hnext, VersionedConfig.applyLocal_clock, if_neg]
    exact fun heq => hv (VersionedConfig.value_eq_of_eq heq f)

/-- Replicas start at clock one and stay above it. -/
theorem one_le_clock (hlow : CountersBelow machineId configs acts) (n : ℕ) (i : ι) :
    1 ≤ ((after machineId configs acts n).replica i).clock :=
  clock_mono hlow i (Nat.zero_le n)

/-- **Stamps identify writes**: two writes of the run with one stamp are one write. -/
theorem coherent_writes (hid : Function.Injective machineId)
    (hlow : CountersBelow machineId configs acts) (f : SharedField) (H : Set (Origin ι)) :
    Lww.Coherent (writes machineId configs acts f H) := by
  -- an edit's counter is above its replica's clock, which is at least one at the start and at
  -- least the counter of every earlier edit of that replica
  have hinit : ∀ {i n} {x y : Lww.Reg LamportTime f.Value},
      wrote machineId configs acts f (.initial i) = some x →
      wrote machineId configs acts f (.edit n) = some y → x.stamp ≠ y.stamp := by
    intro i n x y hx hy hst
    obtain ⟨j, -, hlt, -⟩ := wrote_edit_counter hlow hy
    have hone := one_le_clock hlow n j
    have hx1 : x.stamp.counter = 1 := by rw [← Option.some.inj hx]
    rw [← hst, hx1] at hlt
    omega
  have hedit : ∀ {m n} {x y : Lww.Reg LamportTime f.Value}, m < n →
      wrote machineId configs acts f (.edit m) = some x →
      wrote machineId configs acts f (.edit n) = some y → x.stamp ≠ y.stamp := by
    intro m n x y hmn hx hy hst
    obtain ⟨i, hoi, -, hi⟩ := wrote_edit_counter hlow hx
    obtain ⟨j, hoj, hj, -⟩ := wrote_edit_counter hlow hy
    have hij : i = j := hid (by rw [← hoi, ← hoj, hst])
    subst hij
    have hmono := clock_mono hlow i (Nat.succ_le_of_lt hmn)
    rw [← hst, hi] at hj
    exact absurd hmono (not_le.mpr hj)
  rintro x ⟨o, -, hx⟩ y ⟨o', -, hy⟩ hst
  cases o with
  | initial i =>
      cases o' with
      | initial j =>
          have hij : i = j := by
            apply hid
            rw [wrote, Option.some.injEq] at hx hy
            rw [← hx, ← hy] at hst
            exact congrArg LamportTime.origin hst
          subst hij
          exact Option.some.inj (hx.symm.trans hy)
      | edit n => exact absurd hst (hinit hx hy)
  | edit m =>
      cases o' with
      | initial j => exact absurd hst.symm (hinit hy hx)
      | edit n =>
          rcases lt_trichotomy m n with hmn | rfl | hmn
          · exact absurd hst (hedit hmn hx hy)
          · exact Option.some.inj (hx.symm.trans hy)
          · exact absurd hst.symm (hedit hmn hy hx)

/-! ## The latest write -/

/-- A fresh stamp lies above every stamp the replica holds. -/
theorem stamp_lt_fresh {v : VersionedConfig} (hc : v.clock < u64Max)
    (hs : v.stamps.maxCounter < u64Max) (f : SharedField) (origin : String) :
    v.stamp f < ⟨v.nextCounter, origin⟩ := by
  apply LamportTime.lt_of_counter_lt
  rw [VersionedConfig.nextCounter_eq hc hs]
  exact Nat.lt_succ_of_le
    ((FieldStamps.le_maxCounter (v.stamps.stamp_mem_counters f)).trans (le_max_right _ _))

/-- The invariant: replicas and snapshots hold the latest write they have absorbed. -/
structure Tracks (machineId : ι → String) (configs : ι → Config) (acts : List (Action ι))
    (net : Net ι) (h : History ι) : Prop where
  replica : ∀ i f,
    Lww.Latest (writes machineId configs acts f (h.absorbed i)) ((net.replica i).reg f)
  sent : List.Forall₂ (fun v s => ∀ f, Lww.Latest (writes machineId configs acts f s) (v.reg f))
    net.sent h.sent

/-- The start of a run: a replica holds its initial write. -/
theorem tracks_start : Tracks machineId configs acts (start machineId configs) History.start := by
  refine ⟨fun i f => ?_, .nil⟩
  have hw : writes machineId configs acts f {Origin.initial i} =
      {⟨⟨1, machineId i⟩, (configs i).value f⟩} := by
    ext r
    constructor
    · rintro ⟨o, rfl, hw⟩
      exact (Option.some.inj hw).symm
    · rintro rfl
      exact ⟨_, rfl, rfl⟩
  have hreg : ((start machineId configs).replica i).reg f =
      ⟨⟨1, machineId i⟩, (configs i).value f⟩ := by
    cases f <;> rfl
  rw [History.start, hw, hreg]
  exact Lww.Latest.singleton _

/-- One step of the run keeps the invariant, with the history that is one step longer. -/
theorem tracks_step (hlow : CountersBelow machineId configs acts) {n : ℕ} {h : History ι}
    {a : Action ι} (ha : acts[n]? = some a) (hlen : h.length = n)
    (ih : Tracks machineId configs acts (after machineId configs acts n) h) :
    Tracks machineId configs acts ((after machineId configs acts n).step machineId a) (h.step a) := by
  set net := after machineId configs acts n with hnet
  cases a with
  | edit i c =>
      refine ⟨fun j f => ?_, ih.sent⟩
      by_cases hj : j = i
      · subst hj
        have hreplica : (net.step machineId (.edit j c)).replica j =
            ((net.replica j).applyLocal c (machineId j)).1 := set_replica_self ..
        have habs : (h.step (.edit j c)).absorbed j = insert (.edit n) (h.absorbed j) := by
          rw [← hlen]
          exact Function.update_self ..
        rw [hreplica, habs, VersionedConfig.applyLocal_reg]
        -- A field the edit leaves as it was keeps its stamp; the others get a fresh, larger one.
        by_cases hv : (net.replica j).value f = c.value f
        · have hnone : wrote machineId configs acts f (.edit n) = none := by
            simp [wrote, ha, ← hnet, hv]
          rw [if_pos hv, writes_insert_none hnone]
          exact ih.replica j f
        · have hsome : wrote machineId configs acts f (.edit n) =
              some ⟨⟨(net.replica j).nextCounter, machineId j⟩, c.value f⟩ := by
            simp [wrote, ha, ← hnet, hv]
          rw [if_neg hv, writes_insert_some hsome]
          exact (ih.replica j f).insert (stamp_lt_fresh (hlow n j).1 (hlow n j).2 f _)
      · have hreplica : (net.step machineId (.edit i c)).replica j = net.replica j :=
          set_replica_of_ne _ _ hj
        have habs : (h.step (.edit i c)).absorbed j = h.absorbed j := Function.update_of_ne hj ..
        rw [hreplica, habs]
        exact ih.replica j f
  | snapshot i =>
      exact ⟨ih.replica, List.rel_append ih.sent (.cons (ih.replica i) .nil)⟩
  | deliver k i =>
      cases hk : net.sent[k]? with
      | none =>
          -- A snapshot that was never taken: nothing is delivered, here or in the history.
          have hks : h.sent[k]? = none := by
            rw [List.getElem?_eq_none_iff] at hk ⊢
            rwa [← ih.sent.length_eq]
          have hstep : net.step machineId (.deliver k i) = net := by simp [step, hk]
          rw [hstep]
          exact ⟨by simpa [History.step, hks] using ih.replica, ih.sent⟩
      | some v =>
          obtain ⟨hlt, rfl⟩ := List.getElem?_eq_some_iff.mp hk
          have hlts : k < h.sent.length := ih.sent.length_eq ▸ hlt
          have hsnap := ih.sent.get hlt hlts
          have hstep : net.step machineId (.deliver k i) =
              net.set i ((net.replica i).merge net.sent[k]).1 := by simp [step, hk]
          have habs : (h.step (.deliver k i)).absorbed =
              Function.update h.absorbed i (h.absorbed i ∪ h.sent[k]) := by
            simp [History.step, List.getElem?_eq_getElem hlts]
          rw [hstep]
          refine ⟨fun j f => ?_, ih.sent⟩
          rw [habs]
          by_cases hj : j = i
          · -- The merge joins the registers, the history the sets they are the latest of.
            subst hj
            rw [set_replica_self, Function.update_self, VersionedConfig.merge_reg, writes_union]
            exact (ih.replica j f).join (hsnap f)
          · rw [set_replica_of_ne _ _ hj, Function.update_of_ne hj]
            exact ih.replica j f

/-- **The run keeps the invariant**: after any number of steps, replicas and snapshots hold the
latest write they have absorbed. -/
theorem tracks_after (hlow : CountersBelow machineId configs acts) (n : ℕ) :
    Tracks machineId configs acts (after machineId configs acts n) (History.after acts n) := by
  induction n with
  | zero => exact tracks_start
  | succ n ih =>
      cases ha : acts[n]? with
      | none =>
          rw [after, Run.after_succ_none ha, History.after, Run.after_succ_none ha]
          exact ih
      | some a =>
          have hn : n < acts.length := (List.getElem?_eq_some_iff.mp ha).1
          rw [after, Run.after_succ ha, History.after, Run.after_succ ha]
          exact tracks_step hlow ha (History.length_after hn.le) ih

/-- Every state or snapshot of the run holds a write of the run in each shared field. -/
theorem carried_mem_writes (hlow : CountersBelow machineId configs acts) {v : VersionedConfig}
    (hv : Carried machineId configs acts v) (f : SharedField) :
    v.reg f ∈ writes machineId configs acts f Set.univ := by
  have huniv : ∀ {s : Set (Origin ι)} {r}, r ∈ writes machineId configs acts f s →
      r ∈ writes machineId configs acts f Set.univ := fun ⟨o, _, ho⟩ => ⟨o, trivial, ho⟩
  rcases hv with ⟨n, i, rfl⟩ | ⟨n, hmem⟩
  · exact huniv ((tracks_after hlow n).replica i f).mem
  · obtain ⟨k, hk, rfl⟩ := List.mem_iff_getElem.mp hmem
    have hks : k < (History.after acts n).sent.length := (tracks_after hlow n).sent.length_eq ▸ hk
    exact huniv ((tracks_after hlow n).sent.get hk hks f).mem

/-- One step of the run lowers no stamp of a shared field, at any replica. -/
theorem stamp_step_le (hlow : CountersBelow machineId configs acts) (n : ℕ) (a : Action ι) (i : ι)
    (f : SharedField) :
    ((after machineId configs acts n).replica i).stamp f ≤
      (((after machineId configs acts n).step machineId a).replica i).stamp f := by
  rcases step_replica machineId (after machineId configs acts n) a i with
    h | ⟨c, -, h⟩ | ⟨k, v, -, -, h⟩
  · rw [h]
  · rw [h, VersionedConfig.applyLocal_stamp]
    split
    · exact le_rfl
    · exact (stamp_lt_fresh (hlow n i).1 (hlow n i).2 f _).le
  · rw [h, VersionedConfig.merge_stamp]
    exact le_max_left _ _

/-- Two states that hold the latest of the same writes agree on the field. -/
theorem reg_eq_of_absorbed_eq (hid : Function.Injective machineId)
    (hlow : CountersBelow machineId configs acts) {m n : ℕ} {i j : ι}
    (h : (History.after acts m).absorbed i = (History.after acts n).absorbed j) (f : SharedField) :
    ((after machineId configs acts m).replica i).reg f =
      ((after machineId configs acts n).replica j).reg f := by
  have hi := (tracks_after hlow m).replica i f
  have hj := (tracks_after hlow n).replica j f
  rw [h] at hi
  exact hi.unique (coherent_writes hid hlow f _) hj

/-! ## Short runs stay in range -/

/-- All counters of a state are at most `b`. -/
def BoundedBy (b : ℕ) (v : VersionedConfig) : Prop := v.clock ≤ b ∧ v.stamps.maxCounter ≤ b

/-- An edit raises a bound on all counters by one, as it stamps with a counter just above the
clock. -/
theorem BoundedBy.applyLocal {b : ℕ} {v : VersionedConfig} (h : BoundedBy b v) (c : Config)
    (origin : String) : BoundedBy (b + 1) (v.applyLocal c origin).1 := by
  have hnext : v.nextCounter ≤ b + 1 :=
    (Nat.mod_le _ _).trans (Nat.succ_le_succ (max_le h.1 h.2))
  refine ⟨?_, VersionedConfig.applyLocal_maxCounter_le (h.2.trans (Nat.le_succ b)) hnext⟩
  rw [VersionedConfig.applyLocal_clock]
  split
  · exact h.1.trans (Nat.le_succ b)
  · exact hnext

/-- A merge keeps a bound that both of its sides have. -/
theorem BoundedBy.merge {b : ℕ} {v w : VersionedConfig} (hv : BoundedBy b v) (hw : BoundedBy b w) :
    BoundedBy b (v.merge w).1 :=
  ⟨max_le (max_le hv.1 hw.1) hw.2, VersionedConfig.merge_maxCounter_le hv.2 hw.2⟩

/-- A bound may be raised. -/
theorem BoundedBy.mono {b b' : ℕ} {v : VersionedConfig} (h : BoundedBy b v) (hb : b ≤ b') :
    BoundedBy b' v := ⟨h.1.trans hb, h.2.trans hb⟩

/-- After `n` steps no counter exceeds `n + 1`. -/
theorem boundedBy_after (n : ℕ) :
    (∀ i, BoundedBy (n + 1) ((after machineId configs acts n).replica i)) ∧
      ∀ v ∈ (after machineId configs acts n).sent, BoundedBy (n + 1) v := by
  induction n with
  | zero =>
      refine ⟨fun i => ⟨le_rfl, ?_⟩, fun v hv => absurd hv List.not_mem_nil⟩
      exact (FieldStamps.maxCounter_all _).le
  | succ n ih =>
      cases ha : acts[n]? with
      | none =>
          rw [after, Run.after_succ_none ha]
          -- without an act nothing changes, and the bound only grows
          exact ⟨fun i => (ih.1 i).mono (Nat.le_succ _), fun v hv => (ih.2 v hv).mono (Nat.le_succ _)⟩
      | some a =>
          rw [after, Run.after_succ ha, ← after]
          constructor
          · intro i
            rcases step_replica machineId (after machineId configs acts n) a i with
              h | ⟨c, -, h⟩ | ⟨k, v, -, hk, h⟩
            · rw [h]
              exact (ih.1 i).mono (Nat.le_succ _)
            · -- Only an edit raises a counter, and by one.
              rw [h]
              exact (ih.1 i).applyLocal c _
            -- a merge takes a counter that was sent, and so is bounded
            · rw [h]
              exact ((ih.1 i).merge (ih.2 v (List.mem_of_getElem? hk))).mono (Nat.le_succ _)
          · intro v hv
            rcases step_sent machineId (after machineId configs acts n) a with h | ⟨i, -, h⟩
            · rw [h] at hv
              exact (ih.2 v hv).mono (Nat.le_succ _)
            · rw [h, List.mem_append, List.mem_singleton] at hv
              rcases hv with hv | rfl
              · exact (ih.2 v hv).mono (Nat.le_succ _)
              · exact (ih.1 i).mono (Nat.le_succ _)

/-- A run of fewer than `2^64 - 2` steps keeps all counters below `u64::MAX`. -/
theorem countersBelow_of_length (h : acts.length + 1 < u64Max) :
    CountersBelow machineId configs acts := by
  intro n i
  have hmin : after machineId configs acts n = after machineId configs acts (min n acts.length) := by
    rw [after, after, Run.after, Run.after, ← List.take_take, List.take_length]
  have hb : BoundedBy (min n acts.length + 1)
      ((after machineId configs acts (min n acts.length)).replica i) := (boundedBy_after _).1 i
  have hle : min n acts.length + 1 ≤ acts.length + 1 := Nat.succ_le_succ (min_le_right _ _)
  rw [hmin]
  exact ⟨(hb.1.trans hle).trans_lt h, (hb.2.trans hle).trans_lt h⟩

/-! ## Convergence -/

/-- **Last-write-wins convergence.** For replicas with distinct machine ids, in every run whose
counters stay below `u64::MAX`: states and snapshots with the same stamp on a shared field have the
same value there; no replica's stamp on a shared field ever falls; and replicas that have absorbed
the same initial states and edits, at whatever moments and by whatever routes, agree on every shared
value and stamp, and so on the advertised head. -/
theorem lww_convergence (hid : Function.Injective machineId)
    (hlow : CountersBelow machineId configs acts) :
    (∀ f v w, Carried machineId configs acts v → Carried machineId configs acts w →
      v.stamp f = w.stamp f → v.value f = w.value f) ∧
    (∀ f i m n, m ≤ n → ((after machineId configs acts m).replica i).stamp f ≤
      ((after machineId configs acts n).replica i).stamp f) ∧
    ∀ m n i j, (History.after acts m).absorbed i = (History.after acts n).absorbed j →
      (∀ f, ((after machineId configs acts m).replica i).value f =
          ((after machineId configs acts n).replica j).value f ∧
        ((after machineId configs acts m).replica i).stamp f =
          ((after machineId configs acts n).replica j).stamp f) ∧
      ∀ digest, ((after machineId configs acts m).replica i).headHash digest =
        ((after machineId configs acts n).replica j).headHash digest := by
  refine ⟨fun f v w hv hw hst => ?_, fun f i m n hmn => ?_, fun m n i j habs => ?_⟩
  · have heq := coherent_writes hid hlow f Set.univ (v.reg f) (carried_mem_writes hlow hv f)
      (w.reg f) (carried_mem_writes hlow hw f) hst
    exact congrArg Lww.Reg.value heq
  · exact Run.monotone (f := fun net : Net ι => (net.replica i).stamp f)
      (fun n a _ => stamp_step_le hlow n a i f) hmn
  · have hreg := reg_eq_of_absorbed_eq hid hlow habs
    have hval := fun f => congrArg Lww.Reg.value (hreg f)
    have hst := fun f => congrArg Lww.Reg.stamp (hreg f)
    refine ⟨fun f => ⟨hval f, hst f⟩, fun digest => ?_⟩
    rw [VersionedConfig.headHash, VersionedConfig.headHash,
      VersionedConfig.sharedHashInput_congr hval hst]

/-- Two replicas exchange one edit; afterwards they have absorbed the same and agree. -/
theorem lww_convergence_exchange :
    let machineId : Bool → String := fun b => if b then "beta" else "alpha"
    let acts : List (Action Bool) :=
      [.edit false { Config.default with port := 24900 }, .snapshot false, .deliver 0 true,
        .snapshot true, .deliver 1 false]
    let net := after machineId (fun _ => Config.default) acts 5
    (net.replica true).config.port = 24900 ∧
      (net.replica true).stamp .port = (net.replica false).stamp .port ∧
      ∀ digest, (net.replica true).headHash digest = (net.replica false).headHash digest := by
  intro machineId acts net
  have hid : Function.Injective machineId := fun a b => by
    revert a b
    decide
  have hlow : CountersBelow machineId (fun _ => Config.default) acts :=
    countersBelow_of_length (by decide)
  have habs : (History.after acts 5).absorbed true = (History.after acts 5).absorbed false := by
    have ht : (History.after acts 5).absorbed true =
        {Origin.initial true} ∪ insert (Origin.edit 0) {Origin.initial false} := rfl
    have hf : (History.after acts 5).absorbed false =
        insert (Origin.edit 0) {Origin.initial false} ∪
          ({Origin.initial true} ∪ insert (Origin.edit 0) {Origin.initial false}) := rfl
    rw [ht, hf]
    ext o
    simp only [Set.mem_union, Set.mem_insert_iff, Set.mem_singleton_iff]
    tauto
  obtain ⟨hfields, hhead⟩ := (lww_convergence hid hlow).2.2 5 5 true false habs
  exact ⟨by decide, (hfields .port).2, hhead⟩

end Net

end Synbad
