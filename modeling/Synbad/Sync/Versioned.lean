import Synbad.Config.Basic
import Mathlib.Data.Prod.Lex
import Mathlib.Data.List.MinMax

/-! # Versioned configuration

The data layer of `synbad-sync`: a `Config` whose top-level fields carry Lamport stamps,
`VersionedConfig::apply_local` for local edits and `VersionedConfig::merge` for per-field
last-write-wins merging.

The five *shared* fields are named by `SharedField`, so that what `applyLocal` and `merge` do to a
shared field is said once for all five. Counters are `u64`; the one addition the code makes (`+ 1` in
`apply_local`) wraps as an optimised build does.

The definitions follow the source field by field, and the lemmas after them say of each operation what
it does to the value and to the stamp of any shared field: an edit installs its value and stamps what
it changed (`applyLocal_value`, `applyLocal_stamp`); a merge has the larger stamp, and the value that
belongs to it (`merge_stamp`, `merge_value`). Nothing later unfolds the two operations again. The head
that a machine advertises is a digest of the shared half of the state, values and stamps, and only
through the digest does it depend on a library. -/

namespace Synbad

/-! ## Lamport stamps -/

/-- `u64::MAX`, the greatest counter there is. -/
def u64Max : Nat := 2 ^ 64 - 1

/-- A logical timestamp: a `u64` counter and the machine that issued it. -/
@[ext] structure LamportTime where
  counter : Nat
  origin : String
  deriving DecidableEq, Repr

namespace LamportTime

/-- `Ord::cmp`: stamps compare by counter, and where the counters are equal by origin. -/
def cmp (a b : LamportTime) : Ordering := (compare a.counter b.counter).then (compare a.origin b.origin)

/-- A stamp as a pair in the lexicographic order. -/
def key (t : LamportTime) : ℕ ×ₗ String := toLex (t.counter, t.origin)

/-- A stamp is known by its counter and its origin. -/
theorem key_injective : Function.Injective key := by
  intro a b h
  have hpair : (a.counter, a.origin) = (b.counter, b.origin) := h
  exact LamportTime.ext (congrArg Prod.fst hpair) (congrArg Prod.snd hpair)

/-- Stamps are ordered as their pairs are, so any two of them compare. -/
instance : LinearOrder LamportTime := LinearOrder.lift' key key_injective

/-- The order of stamps, spelled out: by counter, then by origin. -/
theorem lt_iff {a b : LamportTime} :
    a < b ↔ a.counter < b.counter ∨ a.counter = b.counter ∧ a.origin < b.origin :=
  Prod.Lex.toLex_lt_toLex

/-- The order used throughout is the one `cmp` computes. -/
theorem cmp_eq_lt {a b : LamportTime} : a.cmp b = .lt ↔ a < b := by
  rw [lt_iff, cmp, Ordering.then_eq_lt, compare_lt_iff_lt, compare_lt_iff_lt, compare_eq_iff_eq]

/-- A stamp with a larger counter is larger, whatever the origins are. -/
theorem lt_of_counter_lt {a b : LamportTime} (h : a.counter < b.counter) : a < b :=
  lt_iff.mpr (Or.inl h)

/-- A stamp that is no larger has no larger counter. -/
theorem counter_le_of_le {a b : LamportTime} (h : a ≤ b) : a.counter ≤ b.counter :=
  not_lt.mp fun hlt => (lt_of_counter_lt hlt).not_ge h

/-- The larger of two stamps has a counter below any bound that both counters have. -/
theorem counter_max_le {a b : LamportTime} {n : ℕ} (ha : a.counter ≤ n) (hb : b.counter ≤ n) :
    (max a b).counter ≤ n := by
  rcases max_choice a b with h | h <;> rw [h] <;> assumption

end LamportTime

/-- One stamp for each of the ten top-level fields that are stamped. -/
structure FieldStamps where
  role : LamportTime
  serverName : LamportTime
  serverAddress : LamportTime
  port : LamportTime
  servicePort : LamportTime
  screens : LamportTime
  links : LamportTime
  options : LamportTime
  clipboardSharing : LamportTime
  binaries : LamportTime
  deriving DecidableEq, Repr

namespace FieldStamps

/-- `FieldStamps::all`: the same stamp on every field. -/
def all (stamp : LamportTime) : FieldStamps :=
  ⟨stamp, stamp, stamp, stamp, stamp, stamp, stamp, stamp, stamp, stamp⟩

/-- The ten counters, in the order of the fields. -/
def counters (s : FieldStamps) : List ℕ :=
  [s.role.counter, s.serverName.counter, s.serverAddress.counter, s.port.counter,
    s.servicePort.counter, s.screens.counter, s.links.counter, s.options.counter,
    s.clipboardSharing.counter, s.binaries.counter]

/-- `FieldStamps::max_counter`: the largest of the ten counters. -/
def maxCounter (s : FieldStamps) : ℕ := s.counters.foldl max 0

/-- `maxCounter` bounds all ten counters, and nothing less does. -/
theorem maxCounter_le_iff {s : FieldStamps} {n : ℕ} :
    s.maxCounter ≤ n ↔ ∀ c ∈ s.counters, c ≤ n := by
  simp only [maxCounter, counters, List.foldl_cons, List.foldl_nil, List.forall_mem_cons,
    List.not_mem_nil, false_implies, implies_true, and_true, max_le_iff, Nat.zero_le, true_and,
    and_assoc]

/-- Every counter of the stamps is at most `maxCounter`. -/
theorem le_maxCounter {s : FieldStamps} {c : ℕ} (h : c ∈ s.counters) : c ≤ s.maxCounter :=
  maxCounter_le_iff.mp le_rfl c h

@[simp] theorem maxCounter_all (t : LamportTime) : (all t).maxCounter = t.counter := by
  simp [maxCounter, counters, all]

end FieldStamps

/-- What a merge did to the receiving side: it took a field at least, or none. -/
inductive MergeOutcome where
  | noChange
  | updated
  deriving DecidableEq, Repr

/-- A document with the stamps and the clock that make it mergeable. -/
structure VersionedConfig where
  config : Config
  stamps : FieldStamps
  clock : ℕ

/-! ## The shared fields -/

/-- The fields that are merged across machines. A field that is not among them stays a machine's
own. -/
inductive SharedField where
  | port
  | screens
  | links
  | options
  | clipboardSharing
  deriving DecidableEq, Repr

/-- The type of a shared field's value, for each of the five. -/
def SharedField.Value : SharedField → Type
  | .port => ℕ
  | .screens => List Screen
  | .links => List Link
  | .options => BTreeMap String String
  | .clipboardSharing => Bool

/-- Two values of a shared field can be compared, whichever field it is. -/
instance (f : SharedField) : DecidableEq f.Value :=
  match f with
  | .port => inferInstanceAs (DecidableEq ℕ)
  | .screens => inferInstanceAs (DecidableEq (List Screen))
  | .links => inferInstanceAs (DecidableEq (List Link))
  | .options => inferInstanceAs (DecidableEq (BTreeMap String String))
  | .clipboardSharing => inferInstanceAs (DecidableEq Bool)

/-- The value of a shared field in a document. -/
def Config.value (c : Config) : (f : SharedField) → f.Value
  | .port => c.port
  | .screens => c.screens
  | .links => c.links
  | .options => c.options
  | .clipboardSharing => c.clipboardSharing

/-- The stamp of a shared field among the stamps. -/
def FieldStamps.stamp (s : FieldStamps) : SharedField → LamportTime
  | .port => s.port
  | .screens => s.screens
  | .links => s.links
  | .options => s.options
  | .clipboardSharing => s.clipboardSharing

/-- The counter of a shared field's stamp is among the counters of all stamps. -/
theorem FieldStamps.stamp_mem_counters (s : FieldStamps) (f : SharedField) :
    (s.stamp f).counter ∈ s.counters := by
  cases f <;> simp [FieldStamps.stamp, FieldStamps.counters]

namespace VersionedConfig

/-- The value of a shared field in a versioned document. -/
def value (v : VersionedConfig) (f : SharedField) : f.Value := v.config.value f

/-- The stamp of a shared field in a versioned document. -/
def stamp (v : VersionedConfig) (f : SharedField) : LamportTime := v.stamps.stamp f

/-- `VersionedConfig::initial`: every field is stamped `(1, origin)`, and the clock is at one. -/
def initial (config : Config) (origin : String) : VersionedConfig :=
  ⟨config, FieldStamps.all ⟨1, origin⟩, 1⟩

/-- `VersionedConfig::from_parts`, for a document that was read with its sidecar. -/
def fromParts (config : Config) (stamps : FieldStamps) (clock : ℕ) : VersionedConfig :=
  ⟨config, stamps, clock⟩

/-! ## Local edits -/

/-- The counter the next local edit is stamped with. -/
def nextCounter (v : VersionedConfig) : ℕ := (max v.clock v.stamps.maxCounter + 1) % (u64Max + 1)

/-- The per-field stamping of `apply_local`: a field that changed takes the fresh stamp. -/
def restamp (changed : Bool) (fresh old : LamportTime) : LamportTime := if changed then fresh else old

/-- `VersionedConfig::apply_local`: the new state and whether anything changed. An edit to an equal
document changes nothing; any other takes the clock on, and stamps the fields that differ. -/
def applyLocal (v : VersionedConfig) (newConfig : Config) (origin : String) :
    VersionedConfig × Bool :=
  if v.config.eq newConfig then (v, false)
  else
    let clock := v.nextCounter
    let stamp : LamportTime := ⟨clock, origin⟩
    let c := v.config
    let stamps : FieldStamps :=
      { role := restamp (c.role != newConfig.role) stamp v.stamps.role
        serverName := restamp (c.serverName != newConfig.serverName) stamp v.stamps.serverName
        serverAddress :=
          restamp (c.serverAddress != newConfig.serverAddress) stamp v.stamps.serverAddress
        port := restamp (c.port != newConfig.port) stamp v.stamps.port
        servicePort := restamp (c.servicePort != newConfig.servicePort) stamp v.stamps.servicePort
        screens := restamp (c.screens != newConfig.screens) stamp v.stamps.screens
        links := restamp (c.links != newConfig.links) stamp v.stamps.links
        options := restamp (decide (c.options ≠ newConfig.options)) stamp v.stamps.options
        clipboardSharing :=
          restamp (c.clipboardSharing != newConfig.clipboardSharing) stamp v.stamps.clipboardSharing
        binaries := restamp (!c.binaries.eq newConfig.binaries) stamp v.stamps.binaries }
    (⟨newConfig, stamps, clock⟩, true)

/-! ## Merging -/

/-- One field of `merge`: the peer's value and stamp replace ours when its stamp is higher. -/
def mergeField {α : Type} (ours theirs : α × LamportTime) : α × LamportTime :=
  if ours.2 < theirs.2 then theirs else ours

/-- `VersionedConfig::merge`: the merged state and its outcome. Each shared field is taken from the
side with the newer stamp, and the clock rises above everything seen. -/
def merge (v other : VersionedConfig) : VersionedConfig × MergeOutcome :=
  let port := mergeField (v.config.port, v.stamps.port) (other.config.port, other.stamps.port)
  let screens :=
    mergeField (v.config.screens, v.stamps.screens) (other.config.screens, other.stamps.screens)
  let links := mergeField (v.config.links, v.stamps.links) (other.config.links, other.stamps.links)
  let options :=
    mergeField (v.config.options, v.stamps.options) (other.config.options, other.stamps.options)
  let clipboardSharing :=
    mergeField (v.config.clipboardSharing, v.stamps.clipboardSharing)
      (other.config.clipboardSharing, other.stamps.clipboardSharing)
  let changed :=
    decide (v.stamps.port < other.stamps.port) || decide (v.stamps.screens < other.stamps.screens) ||
      decide (v.stamps.links < other.stamps.links) ||
      decide (v.stamps.options < other.stamps.options) ||
      decide (v.stamps.clipboardSharing < other.stamps.clipboardSharing)
  ({ config :=
      { v.config with
        port := port.1, screens := screens.1, links := links.1, options := options.1,
        clipboardSharing := clipboardSharing.1 }
     stamps :=
      { v.stamps with
        port := port.2, screens := screens.2, links := links.2, options := options.2,
        clipboardSharing := clipboardSharing.2 }
     -- the peer's whole stamp range, per-machine fields included
     clock := max (max v.clock other.clock) other.stamps.maxCounter },
   if changed then .updated else .noChange)

/-! ## What an edit does to a shared field -/

/-- An edit to an equal document changes nothing, the clock included. -/
theorem applyLocal_of_eq {v : VersionedConfig} {c : Config} {origin : String}
    (h : v.config.eq c = true) : v.applyLocal c origin = (v, false) := by
  rw [applyLocal, if_pos h]

/-- After an edit the document is the new one, or `==` to it. -/
theorem applyLocal_config (v : VersionedConfig) (c : Config) (origin : String) :
    (v.applyLocal c origin).1.config = c ∨
      (v.applyLocal c origin).1 = v ∧ v.config.eq c = true := by
  by_cases h : v.config.eq c = true
  · rw [applyLocal_of_eq h]
    exact Or.inr ⟨rfl, h⟩
  · left
    rw [applyLocal, if_neg h]

/-- Documents that compare as equal agree on every shared field. -/
theorem value_eq_of_eq {a b : Config} (h : a.eq b = true) (f : SharedField) :
    a.value f = b.value f := by
  obtain ⟨-, -, -, hp, hs, hl, ho, hc⟩ := Config.eq_fields h
  cases f <;> assumption

/-- **An edit installs its value**: every shared field holds what the new document says. -/
theorem applyLocal_value (v : VersionedConfig) (c : Config) (origin : String) (f : SharedField) :
    (v.applyLocal c origin).1.value f = c.value f := by
  rcases applyLocal_config v c origin with h | ⟨h, heq⟩
  · rw [value, h]
  · rw [h, value, value_eq_of_eq heq]

/-- **An edit stamps what it changed**: a shared field takes the fresh stamp exactly when its
value changed. -/
theorem applyLocal_stamp (v : VersionedConfig) (c : Config) (origin : String) (f : SharedField) :
    (v.applyLocal c origin).1.stamp f =
      if v.value f = c.value f then v.stamp f else ⟨v.nextCounter, origin⟩ := by
  by_cases h : v.config.eq c = true
  · rw [applyLocal_of_eq h, value, value_eq_of_eq h, if_pos rfl]
  · rw [applyLocal, if_neg h]
    -- the field's own comparison is the one on its value, up to the decision procedure used
    cases f <;>
      simp only [stamp, value, FieldStamps.stamp, Config.value, restamp, bne_iff_ne,
        decide_eq_true_eq, ne_eq, ite_not] <;>
      congr

/-- An edit to a differing document moves the clock to the fresh counter; otherwise it stays. -/
theorem applyLocal_clock (v : VersionedConfig) (c : Config) (origin : String) :
    (v.applyLocal c origin).1.clock = if v.config.eq c then v.clock else v.nextCounter := by
  by_cases h : v.config.eq c = true
  · rw [applyLocal_of_eq h, if_pos h]
  · rw [applyLocal, if_neg h, if_neg h]

/-- Every counter after an edit is an old one or the fresh one. -/
theorem applyLocal_maxCounter_le {v : VersionedConfig} {c : Config} {origin : String} {n : ℕ}
    (hv : v.stamps.maxCounter ≤ n) (hn : v.nextCounter ≤ n) :
    (v.applyLocal c origin).1.stamps.maxCounter ≤ n := by
  by_cases h : v.config.eq c = true
  · rw [applyLocal_of_eq h]
    exact hv
  · have hrestamp : ∀ (b : Bool) (t : LamportTime), t.counter ≤ n →
        (restamp b ⟨v.nextCounter, origin⟩ t).counter ≤ n := by
      intro b t ht
      rw [restamp]
      split
      · exact hn
      · exact ht
    rw [FieldStamps.maxCounter_le_iff] at hv ⊢
    rw [applyLocal, if_neg h]
    simp only [FieldStamps.counters, List.forall_mem_cons, List.not_mem_nil, false_implies,
      implies_true, and_true] at hv ⊢
    obtain ⟨h1, h2, h3, h4, h5, h6, h7, h8, h9, h10⟩ := hv
    exact ⟨hrestamp _ _ h1, hrestamp _ _ h2, hrestamp _ _ h3, hrestamp _ _ h4, hrestamp _ _ h5,
      hrestamp _ _ h6, hrestamp _ _ h7, hrestamp _ _ h8, hrestamp _ _ h9, hrestamp _ _ h10⟩

/-- Below the top of the range the fresh counter is one past everything the replica holds. -/
theorem nextCounter_eq {v : VersionedConfig} (hc : v.clock < u64Max)
    (hs : v.stamps.maxCounter < u64Max) : v.nextCounter = max v.clock v.stamps.maxCounter + 1 := by
  have hmax : max v.clock v.stamps.maxCounter < u64Max := max_lt hc hs
  exact Nat.mod_eq_of_lt (Nat.succ_lt_succ hmax)

/-! ## What a merge does to a shared field -/

/-- **The merged stamp is the larger of the two.** -/
theorem merge_stamp (v other : VersionedConfig) (f : SharedField) :
    (v.merge other).1.stamp f = max (v.stamp f) (other.stamp f) := by
  have hfield : ∀ {α : Type} (x y : α) (s t : LamportTime),
      (mergeField (x, s) (y, t)).2 = max s t := by
    intro α x y s t
    by_cases h : s < t
    · rw [mergeField, if_pos h, max_eq_right h.le]
    · rw [mergeField, if_neg h, max_eq_left (not_lt.mp h)]
  cases f <;> exact hfield _ _ _ _

/-- **The merged value travels with its stamp**: it is the peer's exactly if the stamp is newer
there. -/
theorem merge_value (v other : VersionedConfig) (f : SharedField) :
    (v.merge other).1.value f = if v.stamp f < other.stamp f then other.value f else v.value f := by
  have hfield : ∀ {α : Type} (x y : α) (s t : LamportTime),
      (mergeField (x, s) (y, t)).1 = if s < t then y else x := by
    intro α x y s t
    by_cases h : s < t
    · rw [mergeField, if_pos h, if_pos h]
    · rw [mergeField, if_neg h, if_neg h]
  cases f <;> exact hfield _ _ _ _

/-- The per-machine half of the document is untouched by a merge. -/
theorem merge_local (v other : VersionedConfig) :
    (v.merge other).1.config =
      { v.config with
        port := (v.merge other).1.config.port, screens := (v.merge other).1.config.screens,
        links := (v.merge other).1.config.links, options := (v.merge other).1.config.options,
        clipboardSharing := (v.merge other).1.config.clipboardSharing } := rfl

/-- The clock after a merge is the largest of both clocks and the peer's counters. -/
theorem merge_clock (v other : VersionedConfig) :
    (v.merge other).1.clock = max (max v.clock other.clock) other.stamps.maxCounter := rfl

/-- A merge brings in no counter that neither side had. -/
theorem merge_maxCounter_le {v other : VersionedConfig} {n : ℕ} (hv : v.stamps.maxCounter ≤ n)
    (ho : other.stamps.maxCounter ≤ n) : (v.merge other).1.stamps.maxCounter ≤ n := by
  have hfield : ∀ f, ((v.merge other).1.stamp f).counter ≤ n := by
    intro f
    rw [merge_stamp]
    exact LamportTime.counter_max_le
      ((FieldStamps.le_maxCounter (v.stamps.stamp_mem_counters f)).trans hv)
      ((FieldStamps.le_maxCounter (other.stamps.stamp_mem_counters f)).trans ho)
  rw [FieldStamps.maxCounter_le_iff] at hv ⊢
  simp only [FieldStamps.counters, List.forall_mem_cons, List.not_mem_nil, false_implies,
    implies_true, and_true] at hv ⊢
  obtain ⟨h1, h2, h3, -, h5, -, -, -, -, h10⟩ := hv
  exact ⟨h1, h2, h3, hfield .port, h5, hfield .screens, hfield .links, hfield .options,
    hfield .clipboardSharing, h10⟩

/-- The outcome says whether some shared field of the peer was newer. -/
theorem merge_outcome (v other : VersionedConfig) :
    (v.merge other).2 = .updated ↔ ∃ f, v.stamp f < other.stamp f := by
  have hany : (v.merge other).2 = .updated ↔
      v.stamp .port < other.stamp .port ∨ v.stamp .screens < other.stamp .screens ∨
        v.stamp .links < other.stamp .links ∨ v.stamp .options < other.stamp .options ∨
        v.stamp .clipboardSharing < other.stamp .clipboardSharing := by
    simp only [merge, stamp, FieldStamps.stamp]
    rw [ite_eq_left_iff]
    simp only [reduceCtorEq, imp_false, Bool.or_eq_true, decide_eq_true_eq, or_assoc, not_not]
  rw [hany]
  constructor
  · rintro (h | h | h | h | h)
    exacts [⟨_, h⟩, ⟨_, h⟩, ⟨_, h⟩, ⟨_, h⟩, ⟨_, h⟩]
  · rintro ⟨f, h⟩
    cases f <;> simp [h]

/-- A merge without effect leaves the document as it was. -/
theorem merge_config_of_noChange {v other : VersionedConfig} (h : (v.merge other).2 ≠ .updated) :
    (v.merge other).1.config = v.config := by
  have hval : ∀ f, (v.merge other).1.value f = v.value f := by
    intro f
    rw [merge_value, if_neg]
    exact fun hlt => h ((merge_outcome v other).mpr ⟨f, hlt⟩)
  have hp : (v.merge other).1.config.port = v.config.port := hval .port
  have hs : (v.merge other).1.config.screens = v.config.screens := hval .screens
  have hl : (v.merge other).1.config.links = v.config.links := hval .links
  have ho : (v.merge other).1.config.options = v.config.options := hval .options
  have hc : (v.merge other).1.config.clipboardSharing = v.config.clipboardSharing :=
    hval .clipboardSharing
  rw [merge_local, hp, hs, hl, ho, hc]

/-! ## The advertised head -/

/-- What `head_hash` serialises: the shared values, then their stamps. -/
structure SharedHashInput where
  port : ℕ
  screens : List Screen
  links : List Link
  options : BTreeMap String String
  clipboardSharing : Bool
  portStamp : LamportTime
  screensStamp : LamportTime
  linksStamp : LamportTime
  optionsStamp : LamportTime
  clipboardSharingStamp : LamportTime

/-- The hash input of a state: its shared half and nothing else. -/
def sharedHashInput (v : VersionedConfig) : SharedHashInput where
  port := v.config.port
  screens := v.config.screens
  links := v.config.links
  options := v.config.options
  clipboardSharing := v.config.clipboardSharing
  portStamp := v.stamps.port
  screensStamp := v.stamps.screens
  linksStamp := v.stamps.links
  optionsStamp := v.stamps.options
  clipboardSharingStamp := v.stamps.clipboardSharing

/-- `VersionedConfig::head_hash`; `digest` is the JSON serialisation followed by the truncated
SHA-256, both from libraries. -/
def headHash (digest : SharedHashInput → String) (v : VersionedConfig) : String :=
  digest v.sharedHashInput

/-- The hash input is the shared values and stamps, and nothing else. -/
theorem sharedHashInput_congr {v w : VersionedConfig} (hv : ∀ f, v.value f = w.value f)
    (hs : ∀ f, v.stamp f = w.stamp f) : v.sharedHashInput = w.sharedHashInput := by
  have h1 : v.config.port = w.config.port := hv .port
  have h2 : v.config.screens = w.config.screens := hv .screens
  have h3 : v.config.links = w.config.links := hv .links
  have h4 : v.config.options = w.config.options := hv .options
  have h5 : v.config.clipboardSharing = w.config.clipboardSharing := hv .clipboardSharing
  have s1 : v.stamps.port = w.stamps.port := hs .port
  have s2 : v.stamps.screens = w.stamps.screens := hs .screens
  have s3 : v.stamps.links = w.stamps.links := hs .links
  have s4 : v.stamps.options = w.stamps.options := hs .options
  have s5 : v.stamps.clipboardSharing = w.stamps.clipboardSharing := hs .clipboardSharing
  simp only [sharedHashInput, h1, h2, h3, h4, h5, s1, s2, s3, s4, s5]

/-- The shared values and stamps can be read off the hash input. -/
theorem of_sharedHashInput_eq {v w : VersionedConfig}
    (h : v.sharedHashInput = w.sharedHashInput) (f : SharedField) :
    v.value f = w.value f ∧ v.stamp f = w.stamp f := by
  cases f with
  | port => exact ⟨congrArg (·.port) h, congrArg (·.portStamp) h⟩
  | screens => exact ⟨congrArg (·.screens) h, congrArg (·.screensStamp) h⟩
  | links => exact ⟨congrArg (·.links) h, congrArg (·.linksStamp) h⟩
  | options => exact ⟨congrArg (·.options) h, congrArg (·.optionsStamp) h⟩
  | clipboardSharing =>
      exact ⟨congrArg (·.clipboardSharing) h, congrArg (·.clipboardSharingStamp) h⟩

end VersionedConfig

end Synbad
