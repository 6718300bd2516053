import Synbad.Sync.Versioned
import Synbad.Lib.Run

/-! # What an edit stamps and what a merge takes

`apply_local`, `merge`, `max_counter` and the hash input of `head_hash` are four hand-written lists
over the fields of one struct. Here they are compared with each other:

* an edit gives a fresh stamp to exactly the stamped fields it changes, and that stamp beats every
  counter the replica has ever held or been shown, as long as none of them was `u64::MAX`;
* a merge takes from the peer exactly the shared fields whose stamp is newer there, keeps every
  per-machine field and stamp, and reports `Updated` exactly when that moved something.

For the first a `Replica` runs along with a state and records every counter it has held or been shown;
what it has observed stays covered by what it holds (`inv_step`, `inv_after`), so a counter above all
it holds is above all it has observed. At the top of the range the addition wraps, and
`edit_dominates_iff` says exactly that this is where it fails. For the second, `merge_exact` puts the
parts together, and adds that merging again brings nothing and that two peers who have merged each
other stay quiet. -/

namespace Synbad

/-! ## The stamped fields -/

/-- The fields that carry a stamp, the per-machine ones included. -/
inductive StampedField where
  | role
  | serverName
  | serverAddress
  | port
  | servicePort
  | screens
  | links
  | options
  | clipboardSharing
  | binaries
  deriving DecidableEq, Repr

/-- The stamp of a field of the document. -/
def FieldStamps.get (s : FieldStamps) : StampedField → LamportTime
  | .role => s.role
  | .serverName => s.serverName
  | .serverAddress => s.serverAddress
  | .port => s.port
  | .servicePort => s.servicePort
  | .screens => s.screens
  | .links => s.links
  | .options => s.options
  | .clipboardSharing => s.clipboardSharing
  | .binaries => s.binaries

/-- Two documents differ in a stamped field, by the `!=` of the field's type. -/
def Config.differs (a b : Config) : StampedField → Bool
  | .role => a.role != b.role
  | .serverName => a.serverName != b.serverName
  | .serverAddress => a.serverAddress != b.serverAddress
  | .port => a.port != b.port
  | .servicePort => a.servicePort != b.servicePort
  | .screens => a.screens != b.screens
  | .links => a.links != b.links
  | .options => decide (a.options ≠ b.options)
  | .clipboardSharing => a.clipboardSharing != b.clipboardSharing
  | .binaries => !a.binaries.eq b.binaries

/-- `maxCounter` bounds the counter of every stamp, and nothing less does. -/
theorem FieldStamps.maxCounter_le_iff_get {s : FieldStamps} {n : ℕ} :
    s.maxCounter ≤ n ↔ ∀ f, (s.get f).counter ≤ n := by
  rw [maxCounter_le_iff]
  constructor
  · intro h f
    refine h _ ?_
    cases f <;> simp [get, counters]
  · intro h
    simp only [counters, List.forall_mem_cons, List.not_mem_nil, false_implies, implies_true,
      and_true]
    exact ⟨h .role, h .serverName, h .serverAddress, h .port, h .servicePort, h .screens,
      h .links, h .options, h .clipboardSharing, h .binaries⟩

namespace VersionedConfig

variable {v : VersionedConfig} {c : Config} {origin : String}

/-! ## The largest counter of a state -/

/-- The largest counter known to this state, of its clock and all its stamps. -/
def bound (v : VersionedConfig) : ℕ := max v.clock v.stamps.maxCounter

/-- The counters a state carries: its clock and its ten stamps. -/
def counters (v : VersionedConfig) : List ℕ := v.clock :: v.stamps.counters

/-- The bound of a state is the largest of its counters. -/
theorem bound_lt_iff {n : ℕ} : v.bound < n ↔ ∀ k ∈ v.counters, k < n := by
  rw [bound, max_lt_iff, counters, List.forall_mem_cons]
  refine and_congr_right fun hclock => ⟨fun h k hk => ?_, fun h => ?_⟩
  · exact (FieldStamps.le_maxCounter hk).trans_lt h
  · have hle : v.stamps.maxCounter ≤ n - 1 :=
      FieldStamps.maxCounter_le_iff.mpr fun k hk => Nat.le_sub_one_of_lt (h k hk)
    omega

/-- Every counter of a state is within its bound. -/
theorem le_bound {k : ℕ} (h : k ∈ v.counters) : k ≤ v.bound :=
  Nat.lt_succ_iff.mp (bound_lt_iff.mp (Nat.lt_succ_self v.bound) k h)

/-- Below the top of the range the next counter is one more than the bound: it does not wrap. -/
theorem nextCounter_of_lt (h : v.bound < u64Max) : v.nextCounter = v.bound + 1 :=
  Nat.mod_eq_of_lt (Nat.succ_lt_succ h)

/-- An edit never lowers the bound, as long as it is below `u64::MAX`. -/
theorem bound_le_applyLocal (h : v.bound < u64Max) (c : Config) :
    v.bound ≤ (v.applyLocal c origin).1.bound := by
  by_cases heq : v.config.eq c = true
  · rw [applyLocal_of_eq heq]
  · have hclock : (v.applyLocal c origin).1.clock = v.bound + 1 := by
      rw [applyLocal_clock, if_neg heq, nextCounter_of_lt h]
    calc v.bound ≤ (v.applyLocal c origin).1.clock := by omega
      _ ≤ (v.applyLocal c origin).1.bound := le_max_left _ _

/-- A merge lowers the stamp of no field. -/
theorem get_le_merge (v other : VersionedConfig) (f : StampedField) :
    v.stamps.get f ≤ (v.merge other).1.stamps.get f := by
  have hshared : ∀ g, v.stamp g ≤ (v.merge other).1.stamp g := by
    intro g
    rw [merge_stamp]
    exact le_max_left _ _
  -- the stamps of the per-machine fields are not touched
  cases f with
  | port => exact hshared .port
  | screens => exact hshared .screens
  | links => exact hshared .links
  | options => exact hshared .options
  | clipboardSharing => exact hshared .clipboardSharing
  | role => exact le_rfl
  | serverName => exact le_rfl
  | serverAddress => exact le_rfl
  | servicePort => exact le_rfl
  | binaries => exact le_rfl

/-- A merge never lowers the bound, as it lowers neither the clock nor a stamp. -/
theorem bound_le_merge (v other : VersionedConfig) : v.bound ≤ (v.merge other).1.bound := by
  have hclock : v.clock ≤ (v.merge other).1.clock := by
    rw [merge_clock, max_assoc]
    exact le_max_left _ _
  refine max_le_max hclock (FieldStamps.maxCounter_le_iff_get.mpr fun f => ?_)
  calc (v.stamps.get f).counter
      ≤ ((v.merge other).1.stamps.get f).counter :=
        LamportTime.counter_le_of_le (get_le_merge v other f)
    _ ≤ (v.merge other).1.stamps.maxCounter := FieldStamps.maxCounter_le_iff_get.mp le_rfl f

/-- A merge raises the clock to every counter of the peer. -/
theorem bound_le_clock_merge (v other : VersionedConfig) :
    other.bound ≤ (v.merge other).1.clock := by
  rw [merge_clock, bound]
  exact max_le_max (le_max_right _ _) le_rfl

/-! ## What an edit stamps -/

/-- **An edit stamps exactly what it changed**, field by field. -/
theorem applyLocal_get (h : v.config.eq c = false) (f : StampedField) :
    (v.applyLocal c origin).1.stamps.get f =
      if v.config.differs c f then ⟨v.nextCounter, origin⟩ else v.stamps.get f := by
  rw [applyLocal, if_neg (by simp [h])]
  cases f <;> rfl

/-- An edit to a document that differs installs it as it is. -/
theorem applyLocal_config_of_ne (h : v.config.eq c = false) :
    (v.applyLocal c origin).1.config = c := by
  rw [applyLocal, if_neg (by simp [h])]

end VersionedConfig

/-! ## A replica and everything it has observed -/

/-- What happens to a replica's state: a local edit, or the merge of a peer's state. -/
inductive ReplicaStep where
  | edit (config : Config) (origin : String)
  | merge (other : VersionedConfig)

/-- A replica's state, with every counter it has held or been shown so far. -/
structure Replica where
  state : VersionedConfig
  observed : List ℕ

namespace Replica

/-- At first a replica has observed what it holds. -/
def start (v : VersionedConfig) : Replica := ⟨v, v.counters⟩

/-- One step. A merge observes all counters of the peer's state, whether or not it takes them. -/
def step (r : Replica) : ReplicaStep → Replica
  | .edit config origin =>
      let next := (r.state.applyLocal config origin).1
      ⟨next, r.observed ++ next.counters⟩
  | .merge other =>
      let next := (r.state.merge other).1
      ⟨next, r.observed ++ other.counters ++ next.counters⟩

/-- The replica after the first `n` steps of a run. -/
def after (v : VersionedConfig) (steps : List ReplicaStep) (n : ℕ) : Replica :=
  Run.after step (start v) steps n

/-- What an edit is documented to do: the sum is one a `u64` holds, its value beats everything
observed, and exactly the changed fields take it as their stamp. -/
structure Dominates (r : Replica) (config : Config) (origin : String) : Prop where
  fits : max r.state.clock r.state.stamps.maxCounter + 1 ≤ u64Max
  beats : ∀ k ∈ r.observed, k < (r.state.applyLocal config origin).1.clock
  stamped : ∀ f, (r.state.applyLocal config origin).1.stamps.get f =
    if r.state.config.differs config f then
      ⟨(r.state.applyLocal config origin).1.clock, origin⟩
    else r.state.stamps.get f
  installed : (r.state.applyLocal config origin).1.config = config

/-- Nothing observed so far has reached `u64::MAX`. -/
def BelowTop (r : Replica) : Prop := ∀ k ∈ r.observed, k < u64Max

/-- What a replica holds it has observed, and until the top of the range is observed its bound
covers all that it has observed. -/
structure Inv (r : Replica) : Prop where
  holds : ∀ k ∈ r.state.counters, k ∈ r.observed
  covers : r.BelowTop → ∀ k ∈ r.observed, k ≤ r.state.bound

/-- A replica that has observed just what it holds satisfies the invariant. -/
theorem inv_start (v : VersionedConfig) : (start v).Inv :=
  ⟨fun _ hk => hk, fun _ _ hk => VersionedConfig.le_bound hk⟩

/-- A replica that has not observed the top of the range can still count. -/
theorem Inv.bound_lt {r : Replica} (h : r.Inv) (hlow : r.BelowTop) : r.state.bound < u64Max :=
  VersionedConfig.bound_lt_iff.mpr fun k hk => hlow k (h.holds k hk)

/-- **Step lemma**: what has been observed stays covered by what is held. -/
theorem inv_step {r : Replica} (h : r.Inv) (a : ReplicaStep) : (r.step a).Inv := by
  cases a with
  | edit config origin =>
      refine ⟨fun k hk => List.mem_append_right _ hk, fun hlow k hk => ?_⟩
      have hold : r.BelowTop := fun j hj => hlow j (List.mem_append_left _ hj)
      rcases List.mem_append.mp hk with hk | hk
      · -- an old counter: the edit does not lower the bound, since it cannot wrap
        exact (h.covers hold k hk).trans
          (VersionedConfig.bound_le_applyLocal (h.bound_lt hold) config)
      · exact VersionedConfig.le_bound hk
  | merge other =>
      refine ⟨fun k hk => List.mem_append_right _ hk, fun hlow k hk => ?_⟩
      have hold : r.BelowTop := fun j hj =>
        hlow j (List.mem_append_left _ (List.mem_append_left _ hj))
      rcases List.mem_append.mp hk with hk | hk
      · rcases List.mem_append.mp hk with hk | hk
        · exact (h.covers hold k hk).trans (VersionedConfig.bound_le_merge _ _)
        · -- a counter of the peer: its clock and all its stamps went into our clock
          calc k ≤ other.bound := VersionedConfig.le_bound hk
            _ ≤ (r.state.merge other).1.clock := VersionedConfig.bound_le_clock_merge _ _
            _ ≤ (r.state.merge other).1.bound := le_max_left _ _
      · exact VersionedConfig.le_bound hk

/-- **Run lemma**: at every moment of a run what a replica has observed is covered by what it
holds. -/
theorem inv_after (v : VersionedConfig) (steps : List ReplicaStep) (n : ℕ) :
    (after v steps n).Inv :=
  Run.invariant (inv_start v) (fun _ a _ h => inv_step h a) n

/-- **An edit beats everything observed exactly below the top of the range.** -/
theorem Inv.dominates_iff {r : Replica} (h : r.Inv) {config : Config} {origin : String}
    (hne : r.state.config.eq config = false) : r.Dominates config origin ↔ r.BelowTop := by
  have hclock : (r.state.applyLocal config origin).1.clock = r.state.nextCounter := by
    rw [VersionedConfig.applyLocal_clock, hne]
    rfl
  constructor
  · -- the fresh counter is a `u64`, so whatever it beats is below `u64::MAX`
    intro hdom k hk
    have hfresh : r.state.nextCounter ≤ u64Max :=
      Nat.le_of_lt_succ (Nat.mod_lt _ (Nat.succ_pos _))
    have hbeat := hdom.beats k hk
    rw [hclock] at hbeat
    exact lt_of_lt_of_le hbeat hfresh
  · intro hlow
    have hlt := h.bound_lt hlow
    have hnext := VersionedConfig.nextCounter_of_lt hlt
    refine ⟨hlt, fun k hk => ?_, fun f => ?_, VersionedConfig.applyLocal_config_of_ne hne⟩
    · rw [hclock, hnext]
      exact Nat.lt_succ_of_le (h.covers hlow k hk)
    · rw [hclock]
      exact VersionedConfig.applyLocal_get hne f

/-- **Lamport dominance, exactly**: along every run of edits and merges, an edit to an equal
document changes nothing, and an edit to a differing one stamps exactly the changed fields, with a
counter above everything the replica ever held or was shown, if and only if none of that was
`u64::MAX`. -/
theorem edit_dominates_iff (v : VersionedConfig) (steps : List ReplicaStep) (n : ℕ)
    (config : Config) (origin : String) :
    ((after v steps n).state.config.eq config = true →
      (after v steps n).state.applyLocal config origin = ((after v steps n).state, false)) ∧
    ((after v steps n).state.config.eq config = false →
      ((after v steps n).Dominates config origin ↔ (after v steps n).BelowTop)) :=
  ⟨VersionedConfig.applyLocal_of_eq, fun hne => (inv_after v steps n).dominates_iff hne⟩

/-- A peer's state with the clock at the top of the range. -/
def topClock : VersionedConfig := ⟨Config.default, FieldStamps.all ⟨1, "b"⟩, u64Max⟩

/-- One frame from a peer whose clock is `u64::MAX` ends the dominance: the next edit wraps. -/
theorem edit_wraps_after_top_clock :
    ¬ ∀ (v : VersionedConfig) (steps : List ReplicaStep) (n : ℕ) (config : Config)
        (origin : String), (after v steps n).state.config.eq config = false →
          (after v steps n).Dominates config origin := by
  intro h
  have hdom := h (VersionedConfig.initial Config.default "a") [.merge topClock] 1
    { Config.default with port := 1 } "a" (by decide)
  exact absurd hdom.fits (by decide)

end Replica

/-! ## What a merge takes -/

namespace VersionedConfig

/-- Two states agree on everything that belongs to one machine. -/
structure SameMachine (a b : VersionedConfig) : Prop where
  role : a.config.role = b.config.role
  serverName : a.config.serverName = b.config.serverName
  serverAddress : a.config.serverAddress = b.config.serverAddress
  servicePort : a.config.servicePort = b.config.servicePort
  syncPort : a.config.syncPort = b.config.syncPort
  autostart : a.config.autostart = b.config.autostart
  binaries : a.config.binaries = b.config.binaries
  audio : a.config.audio = b.config.audio
  roleStamp : a.stamps.role = b.stamps.role
  serverNameStamp : a.stamps.serverName = b.stamps.serverName
  serverAddressStamp : a.stamps.serverAddress = b.stamps.serverAddress
  servicePortStamp : a.stamps.servicePort = b.stamps.servicePort
  binariesStamp : a.stamps.binaries = b.stamps.binaries

/-- A shared field's value with its stamp, as the two travel together. -/
def entry (v : VersionedConfig) (f : SharedField) : f.Value × LamportTime := (v.value f, v.stamp f)

variable (a b : VersionedConfig)

/-- **A merge leaves the machine's own half alone**: its fields, their stamps and nothing else. -/
theorem merge_sameMachine : (a.merge b).1.SameMachine a :=
  ⟨rfl, rfl, rfl, rfl, rfl, rfl, rfl, rfl, rfl, rfl, rfl, rfl, rfl⟩

/-- **A merge takes the newer entry**, field by field. -/
theorem merge_entry (f : SharedField) :
    (a.merge b).1.entry f = if a.stamp f < b.stamp f then b.entry f else a.entry f := by
  rw [entry, merge_value, merge_stamp]
  by_cases h : a.stamp f < b.stamp f
  · rw [if_pos h, if_pos h, max_eq_right h.le, entry]
  · rw [if_neg h, if_neg h, max_eq_left (not_lt.mp h), entry]

/-- A merge reports an update exactly when it changed an entry. -/
theorem merge_outcome_iff_entry :
    (a.merge b).2 = .updated ↔ ∃ f, (a.merge b).1.entry f ≠ a.entry f := by
  rw [merge_outcome]
  -- a newer stamp changes the entry even where the value is the same
  refine exists_congr fun f => ⟨fun h heq => ?_, fun h => ?_⟩
  · rw [merge_entry, if_pos h] at heq
    exact h.ne (congrArg Prod.snd heq).symm
  · by_contra hlt
    exact h (by rw [merge_entry, if_neg hlt])

/-- A merge reports no change exactly when no stamp of the peer is newer. -/
theorem merge_noChange_iff : (a.merge b).2 = .noChange ↔ ∀ f, b.stamp f ≤ a.stamp f := by
  have hnot : (a.merge b).2 = .noChange ↔ ¬ (a.merge b).2 = .updated := by
    cases (a.merge b).2 <;> simp
  rw [hnot, merge_outcome]
  simp only [not_exists, not_lt]

/-! ### Repeating a merge -/

/-- A merge without a newer stamp keeps the stamps. -/
theorem merge_stamp_of_le {a b : VersionedConfig} {f : SharedField}
    (h : b.stamp f ≤ a.stamp f) : (a.merge b).1.stamp f = a.stamp f := by
  rw [merge_stamp, max_eq_left h]

/-- **Merging the same state again brings nothing**: the second time its outcome is `NoChange`. -/
theorem merge_again : ((a.merge b).1.merge b).2 = .noChange := by
  rw [merge_noChange_iff]
  intro f
  rw [merge_stamp]
  exact le_max_right _ _

/-- Two states with the same stamps on all shared fields. -/
def Level (a b : VersionedConfig) : Prop := ∀ f, a.stamp f = b.stamp f

/-- One merge between two peers: the left absorbs the right, or the right the left. -/
def exchange (p : VersionedConfig × VersionedConfig) (intoLeft : Bool) :
    VersionedConfig × VersionedConfig :=
  if intoLeft then ((p.1.merge p.2).1, p.2) else (p.1, (p.2.merge p.1).1)

/-- Once two peers are level, a merge between them changes neither and keeps them level. -/
theorem Level.exchange {p : VersionedConfig × VersionedConfig} (h : Level p.1 p.2)
    (intoLeft : Bool) : Level (exchange p intoLeft).1 (exchange p intoLeft).2 := by
  intro f
  cases intoLeft with
  | true => exact (merge_stamp_of_le (h f).ge).trans (h f)
  | false => exact (h f).trans (merge_stamp_of_le (h f).le).symm

/-- Level peers have nothing to tell each other: whichever merges the other, the outcome is
`NoChange`. -/
theorem Level.noChange {a b : VersionedConfig} (h : Level a b) :
    (a.merge b).2 = .noChange ∧ (b.merge a).2 = .noChange :=
  ⟨(merge_noChange_iff a b).mpr fun f => (h f).ge, (merge_noChange_iff b a).mpr fun f => (h f).le⟩

/-- Every further merge between the two, in any order, reports no change. -/
def Quiet (a b : VersionedConfig) : Prop :=
  ∀ (merges : List Bool) (n : ℕ),
    let p := Run.after exchange (a, b) merges n
    (p.1.merge p.2).2 = .noChange ∧ (p.2.merge p.1).2 = .noChange

/-- **Level peers stay quiet**: no further merge between them, in any order, reports a change. -/
theorem Level.quiet {a b : VersionedConfig} (h : Level a b) : Quiet a b := by
  intro merges n
  -- level is the invariant: a merge between level peers takes nothing
  have hrun : Level (Run.after VersionedConfig.exchange (a, b) merges n).1
      (Run.after VersionedConfig.exchange (a, b) merges n).2 :=
    Run.invariant (P := fun p : VersionedConfig × VersionedConfig => Level p.1 p.2) h (fun _ d _ hp => hp.exchange d) n
  exact hrun.noChange

/-- After merging each way, the second time with the merged state, the peers are level. -/
theorem level_exchanged : Level (a.merge b).1 (b.merge (a.merge b).1).1 := by
  intro f
  rw [merge_stamp b, merge_stamp a, max_comm (b.stamp f), max_assoc, max_self]

/-- Also when both merge what the other held before. -/
theorem level_crossed : Level (a.merge b).1 (b.merge a).1 := by
  intro f
  rw [merge_stamp, merge_stamp, max_comm]

/-! ### The advertised head -/

/-- The hash input is made of the shared entries. -/
theorem sharedHashInput_eq_iff {v w : VersionedConfig} :
    v.sharedHashInput = w.sharedHashInput ↔ ∀ f, v.entry f = w.entry f := by
  constructor
  · intro h f
    exact Prod.ext (of_sharedHashInput_eq h f).1 (of_sharedHashInput_eq h f).2
  · intro h
    exact sharedHashInput_congr (fun f => congrArg Prod.fst (h f))
      (fun f => congrArg Prod.snd (h f))

/-- **The head moves exactly with an update**, for a digest without a collision here. -/
theorem headHash_ne_iff {digest : SharedHashInput → String}
    (hdigest : digest (a.merge b).1.sharedHashInput = digest a.sharedHashInput →
      (a.merge b).1.sharedHashInput = a.sharedHashInput) :
    (a.merge b).1.headHash digest ≠ a.headHash digest ↔ (a.merge b).2 = .updated := by
  have hinput : (a.merge b).1.headHash digest = a.headHash digest ↔
      (a.merge b).1.sharedHashInput = a.sharedHashInput :=
    ⟨hdigest, fun h => congrArg digest h⟩
  rw [ne_eq, hinput, sharedHashInput_eq_iff, merge_outcome_iff_entry, not_forall]

/-- **A merge is exact.** It keeps the machine's own fields and stamps, takes exactly the newer
entries, reports exactly whether one moved, has nothing left to do the second time, falls silent
for good once the peers have exchanged states, and moves the head hash exactly with an update. -/
theorem merge_exact (digest : SharedHashInput → String)
    (hdigest : digest (a.merge b).1.sharedHashInput = digest a.sharedHashInput →
      (a.merge b).1.sharedHashInput = a.sharedHashInput) :
    (a.merge b).1.SameMachine a ∧
      (∀ f, (a.merge b).1.entry f = if a.stamp f < b.stamp f then b.entry f else a.entry f) ∧
      ((a.merge b).2 = .updated ↔ ∃ f, (a.merge b).1.entry f ≠ a.entry f) ∧
      ((a.merge b).1.merge b).2 = .noChange ∧
      Quiet (a.merge b).1 (b.merge (a.merge b).1).1 ∧
      Quiet (a.merge b).1 (b.merge a).1 ∧
      ((a.merge b).1.headHash digest ≠ a.headHash digest ↔ (a.merge b).2 = .updated) :=
  ⟨merge_sameMachine a b, merge_entry a b, merge_outcome_iff_entry a b, merge_again a b,
    (level_exchanged a b).quiet, (level_crossed a b).quiet, headHash_ne_iff a b hdigest⟩

/-- Two fresh machines: the second one's equal counters win by its name, and the head moves. -/
theorem merge_exact_fresh :
    let a := initial Config.default "a"
    let b := initial { Config.default with port := 1 } "b"
    (a.merge b).1.config.port = 1 ∧ (a.merge b).1.SameMachine a := by
  refine ⟨by decide, (merge_exact (initial Config.default "a")
    (initial { Config.default with port := 1 } "b") (fun x => toString x.port) ?_).1⟩
  intro h
  exact absurd h (by decide)

end VersionedConfig

end Synbad
