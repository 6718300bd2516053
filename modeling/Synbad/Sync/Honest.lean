import Synbad.Sync.Gossip

/-! # Merging individually valid documents

Validity couples fields that are merged one by one: links must name screens, and a machine's own
`serverName`, which is never merged, must be one of the shared screens. `merge_valid_iff` says exactly
when two accepted documents merge into an accepted one (`Compatible`), and `accepted_iff_compatible`
lifts this to whole runs of honest replicas: the merges of a run are all accepted exactly when each of
them is between compatible states. Concurrent edits of *different* fields need not be compatible
(`concurrent_edits_rejected`).

There are four ways in which the screens and the links of two documents can be combined, by which of
the two sides has the newer stamp for each. Where both come from one side they fit together, up to the
receiver's own name. Where they come from different sides nothing makes them fit, and that is what
compatibility asks for. A merge that is not accepted is rolled back by the daemon as far as its values
go, which is not part of this module. -/

namespace Synbad

/-- Both ends of a link are screens of the layout. -/
def Link.Within (screens : List Screen) (l : Link) : Prop :=
  Config.hasScreen screens l.from = true ∧ Config.hasScreen screens l.to = true

namespace VersionedConfig

/-- Merging `other` into `v` mixes no layout that does not fit together: screens that win contain
the receiver's own name; screens that win alone contain the ends of the receiver's links; links
that win alone have their ends among the receiver's screens. -/
def Compatible (v other : VersionedConfig) : Prop :=
  (v.stamp .screens < other.stamp .screens →
    Config.hasScreen other.config.screens v.config.serverName = true) ∧
  (v.stamp .screens < other.stamp .screens → ¬ v.stamp .links < other.stamp .links →
    ∀ l ∈ v.config.links, l.Within other.config.screens) ∧
  (¬ v.stamp .screens < other.stamp .screens → v.stamp .links < other.stamp .links →
    ∀ l ∈ other.config.links, l.Within v.config.screens)

/-- The screens after a merge are the peer's if their stamp is newer there, and our own otherwise. -/
theorem merge_screens (v other : VersionedConfig) :
    (v.merge other).1.config.screens =
      if v.stamp .screens < other.stamp .screens then other.config.screens else v.config.screens :=
  merge_value v other .screens

/-- The links after a merge are the peer's if their stamp is newer there, and our own otherwise. -/
theorem merge_links (v other : VersionedConfig) :
    (v.merge other).1.config.links =
      if v.stamp .links < other.stamp .links then other.config.links else v.config.links :=
  merge_value v other .links

/-- The links of an accepted document fit a set of screens as soon as their ends lie in it. -/
theorem linksOk_iff_within {screens : List Screen} {c : Config} (hc : c.Valid) :
    (∀ l ∈ c.links, Config.LinkOk screens l) ↔ ∀ l ∈ c.links, l.Within screens := by
  have hne : ∀ l ∈ c.links, l.from ≠ l.to := fun l hl => ((Config.valid_iff.mp hc).2.1 l hl).2.2
  constructor
  · exact fun h l hl => ⟨(h l hl).1, (h l hl).2.1⟩
  · exact fun h l hl => ⟨(h l hl).1, (h l hl).2, hne l hl⟩

/-- **When two accepted documents merge into an accepted one.** -/
theorem merge_valid_iff {v other : VersionedConfig} (hv : v.config.Valid)
    (ho : other.config.Valid) : (v.merge other).1.config.Valid ↔ Compatible v other := by
  obtain ⟨hvname, hvlinks, hvclient⟩ := Config.valid_iff.mp hv
  obtain ⟨-, holinks, -⟩ := Config.valid_iff.mp ho
  have hclient : (v.merge other).1.config.role = .client →
      (v.merge other).1.config.serverAddress.isSome = true := hvclient
  have hname : (v.merge other).1.config.serverName = v.config.serverName := rfl
  rw [Config.valid_iff, hname, merge_screens, merge_links, Compatible]
  by_cases hs : v.stamp .screens < other.stamp .screens
  · by_cases hl : v.stamp .links < other.stamp .links
    · -- the whole layout comes from the peer
      simp only [hs, hl, if_true, not_true_eq_false, false_implies, implies_true, and_true,
        forall_const]
      exact ⟨fun h => h.1, fun h => ⟨h, holinks, hclient⟩⟩
    · simp only [hs, hl, if_true, if_false, not_true_eq_false, not_false_eq_true, false_implies,
        implies_true, and_true, forall_const, linksOk_iff_within hv]
      exact ⟨fun h => ⟨h.1, h.2.1⟩, fun h => ⟨h.1, h.2, hclient⟩⟩
  · by_cases hl : v.stamp .links < other.stamp .links
    · simp only [hs, hl, if_true, if_false, not_false_eq_true, false_implies, true_and,
        forall_const, linksOk_iff_within ho]
      exact ⟨fun h => h.2.1, fun h => ⟨hvname, h, hclient⟩⟩
    · simp only [hs, hl, if_false, false_implies, implies_true, and_true, iff_true]
      exact ⟨hvname, hvlinks, hclient⟩

end VersionedConfig

namespace Net

variable {ι : Type} [DecidableEq ι] (machineId : ι → String) (configs : ι → Config)
  (acts : List (Action ι))

/-- Every replica starts from an accepted document and every edit is to one. -/
def HonestRun (configs : ι → Config) (acts : List (Action ι)) : Prop :=
  (∀ i, (configs i).Valid) ∧ ∀ i c, Action.edit i c ∈ acts → c.Valid

/-- If this step is a merge, the merged document is accepted. -/
def MergeAccepted (net : Net ι) : Action ι → Prop
  | .deliver k i => ∀ v, net.sent[k]? = some v → ((net.replica i).merge v).1.config.Valid
  | _ => True

/-- If this step is a merge, it is between compatible states. -/
def MergeCompatible (net : Net ι) : Action ι → Prop
  | .deliver k i => ∀ v, net.sent[k]? = some v → (net.replica i).Compatible v
  | _ => True

/-- Every replica and every snapshot carries an accepted document. -/
def AllValid (net : Net ι) : Prop :=
  (∀ i, (net.replica i).config.Valid) ∧ ∀ v ∈ net.sent, v.config.Valid

variable {machineId configs acts}

/-- An edit to an accepted document leaves an accepted document. -/
theorem applyLocal_valid {v : VersionedConfig} {c : Config} (hv : v.config.Valid) (hc : c.Valid)
    (origin : String) : (v.applyLocal c origin).1.config.Valid := by
  rcases VersionedConfig.applyLocal_config v c origin with h | ⟨h, -⟩
  · rwa [h]
  · rwa [h]

/-- A step with an honest edit or an accepted merge keeps all documents accepted. -/
theorem allValid_step {net : Net ι} {a : Action ι} (h : AllValid net)
    (hedit : ∀ i c, a = .edit i c → c.Valid) (hmerge : MergeAccepted net a) :
    AllValid (net.step machineId a) := by
  constructor
  · intro j
    rcases step_replica machineId net a j with hj | ⟨c, rfl, hj⟩ | ⟨k, v, rfl, hk, hj⟩
    · rw [hj]
      exact h.1 j
    · rw [hj]
      exact applyLocal_valid (h.1 j) (hedit j c rfl) _
    · rw [hj]
      exact hmerge v hk
  · intro v hv
    rcases step_sent machineId net a with hs | ⟨i, -, hs⟩
    · rw [hs] at hv
      exact h.2 v hv
    · rw [hs, List.mem_append, List.mem_singleton] at hv
      rcases hv with hv | rfl
      · exact h.2 v hv
      · exact h.1 i

omit [DecidableEq ι] in
/-- Between accepted documents, a merge is accepted exactly when it is compatible. -/
theorem mergeAccepted_iff {net : Net ι} (h : AllValid net) (a : Action ι) :
    MergeAccepted net a ↔ MergeCompatible net a := by
  cases a with
  | edit i c => exact Iff.rfl
  | snapshot i => exact Iff.rfl
  | deliver k i =>
      have hiff : ∀ v, net.sent[k]? = some v →
          (((net.replica i).merge v).1.config.Valid ↔ (net.replica i).Compatible v) :=
        fun v hk => VersionedConfig.merge_valid_iff (h.1 i) (h.2 v (List.mem_of_getElem? hk))
      exact ⟨fun H v hk => (hiff v hk).mp (H v hk), fun H v hk => (hiff v hk).mpr (H v hk)⟩

/-- In an honest run whose merges are all accepted, all documents stay accepted. -/
theorem allValid_after (hrun : HonestRun configs acts)
    (hmerge : ∀ n a, acts[n]? = some a → AllValid (after machineId configs acts n) →
      MergeAccepted (after machineId configs acts n) a) (n : ℕ) :
    AllValid (after machineId configs acts n) := by
  refine Run.invariant ⟨hrun.1, fun v hv => absurd hv List.not_mem_nil⟩ (fun n a ha ih => ?_) n
  refine allValid_step ih (fun i c hac => ?_) (hmerge n a ha ih)
  exact hrun.2 i c (hac ▸ List.mem_of_getElem? ha)

/-- **When honest replicas accept each other.** In every run of honest replicas, the merges are all
accepted exactly when each of them is between compatible states; and then every document in the
network stays accepted. -/
theorem accepted_iff_compatible (hrun : HonestRun configs acts) :
    ((∀ n a, acts[n]? = some a → MergeAccepted (after machineId configs acts n) a) ↔
      ∀ n a, acts[n]? = some a → MergeCompatible (after machineId configs acts n) a) ∧
    ((∀ n a, acts[n]? = some a → MergeCompatible (after machineId configs acts n) a) →
      ∀ n, AllValid (after machineId configs acts n)) := by
  have hvalid : (∀ n a, acts[n]? = some a → MergeCompatible (after machineId configs acts n) a) →
      ∀ n, AllValid (after machineId configs acts n) := fun h =>
    allValid_after hrun fun n a ha hv => (mergeAccepted_iff hv a).mpr (h n a ha)
  refine ⟨⟨fun h n a ha => ?_, fun h n a ha => ?_⟩, hvalid⟩
  · exact (mergeAccepted_iff (allValid_after hrun (fun n a ha _ => h n a ha) n) a).mp (h n a ha)
  · exact (mergeAccepted_iff (hvalid h n) a).mpr (h n a ha)

/-! ## Two concurrent edits -/

/-- A screen with no aliases and no monitors, at the canvas's origin. -/
def plainScreen (name : String) : Screen := ⟨name, [], ⟨0, 0, 160, 120⟩, []⟩

/-- Three screens, seen from the machine that is the named one of them. -/
def threeScreens (name : String) : Config :=
  { Config.default with
    serverName := name
    screens := [plainScreen "alpha", plainScreen "beta", plainScreen "gamma"] }

/-- Alpha links itself to gamma while beta removes the screen gamma; alpha then merges beta. -/
def concurrentEdits : List (Action Bool) :=
  [.edit false { threeScreens "alpha" with links := [⟨"alpha", .right, "gamma"⟩] },
    .edit true { threeScreens "beta" with screens := [plainScreen "alpha", plainScreen "beta"] },
    .snapshot true, .deliver 0 false]

/-- **Valid edits of different fields can merge into a rejected document.** The merged document
has beta's screens and alpha's link to the removed screen. -/
theorem concurrent_edits_rejected :
    HonestRun (fun b => threeScreens (if b then "beta" else "alpha")) concurrentEdits ∧
      ¬ ∀ n a, concurrentEdits[n]? = some a →
        MergeAccepted
          (after (fun b => if b then "beta-id" else "alpha-id")
            (fun b => threeScreens (if b then "beta" else "alpha")) concurrentEdits n) a := by
  refine ⟨⟨by decide, fun i c hc => ?_⟩, fun h => ?_⟩
  · simp only [concurrentEdits, List.mem_cons, List.not_mem_nil, or_false, Action.edit.injEq,
      reduceCtorEq] at hc
    rcases hc with ⟨-, rfl⟩ | ⟨-, rfl⟩ <;> decide
  · have hmerge := h 3 (.deliver 0 false) rfl _ rfl
    revert hmerge
    decide

/-- Beta adds a screen instead of removing one: alpha's merge is compatible and accepted. -/
theorem accepted_iff_compatible_added_screen :
    let configs : Bool → Config := fun b => threeScreens (if b then "beta" else "alpha")
    let acts : List (Action Bool) :=
      [.edit true
          { threeScreens "beta" with
            screens := (threeScreens "beta").screens ++ [plainScreen "delta"] },
        .snapshot true, .deliver 0 false]
    ∀ n, AllValid (after (fun b => if b then "beta-id" else "alpha-id") configs acts n) := by
  intro configs acts
  have hrun : HonestRun configs acts := by
    refine ⟨by decide, fun i c hc => ?_⟩
    simp only [acts, List.mem_cons, List.not_mem_nil, or_false, Action.edit.injEq,
      reduceCtorEq] at hc
    obtain ⟨-, rfl⟩ := hc
    decide
  refine (accepted_iff_compatible hrun).2 fun n a ha => ?_
  match n, ha with
  | 0, ha =>
      cases ha
      trivial
  | 1, ha =>
      cases ha
      trivial
  | 2, ha =>
      cases ha
      intro v hv
      cases hv
      simp only [VersionedConfig.Compatible, Link.Within]
      decide
  | n + 3, ha => cases ha

end Net

end Synbad
