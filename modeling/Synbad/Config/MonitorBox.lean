import Synbad.Config.Basic
import Synbad.Lib.I32

/-! # The bounding box of a machine's monitors

`Screen::monitor_bbox` folds `i32` origins and `u32` sizes in `i32` arithmetic. The two axes are the
same computation, so it is taken one axis at a time: what the fold keeps exactly, and which lists of
monitors it measures exactly.

A size is converted, the far end of a monitor is a sum, and the extent is a difference; each of the
three may leave the range of an `i32`. `Spans` is the exact length that segments cover, in whole
numbers. `exact_extent_iff` says that an axis is measured without wrapping exactly when no far end
passes the last `i32` and none is further than that from any start; `bboxExact_iff` puts the two axes
together. A size needs no condition of its own: one that does not fit has its monitor's two ends
further apart than that already. Origins and sizes may be any that a document or a peer can state. -/

namespace Synbad

open I32

/-! ## The source -/

/-- Every `i32` origin and `u32` size, as a document or a peer may state them. -/
def MonitorInfo.Representable (m : MonitorInfo) : Prop :=
  Fits m.x ∧ Fits m.y ∧ m.w < 4294967296 ∧ m.h < 4294967296

/-- Whether a monitor is one the code can represent can be computed. -/
instance (m : MonitorInfo) : Decidable m.Representable := inferInstanceAs (Decidable (_ ∧ _))

/-- `min_x` and `max_x`, or `min_y` and `max_y`: what the fold keeps along one axis. -/
structure Axis where
  lo : ℤ
  hi : Tracked

namespace Axis

/-- Where both bounds stand before the first monitor: at the opposite ends of the `i32`. -/
def start : Axis := ⟨MAX, .given MIN⟩

/-- One monitor along one axis: `max.max(at + size as i32)`. -/
def reach (a : Axis) (m : ℤ × ℕ) : Axis where
  lo := min a.lo m.1
  hi := a.hi.max ((Tracked.given m.1).add (.asI32 m.2))

/-- `(max - min) as u32`: the extent along the axis, and whether it was computed without wrapping. -/
def extent (a : Axis) : Tracked := (a.hi.sub (.given a.lo)).asU32

end Axis

/-- What the fold keeps along both axes. -/
structure Extents where
  x : Axis
  y : Axis

/-- One monitor, which reaches along both axes. -/
def Extents.reach (e : Extents) (m : MonitorInfo) : Extents :=
  ⟨e.x.reach (m.x, m.w), e.y.reach (m.y, m.h)⟩

/-- `monitor_bbox`: width and height over all monitors, and nothing where there are none. -/
def Screen.monitorBbox (s : Screen) : Option (Tracked × Tracked) :=
  if s.monitors.isEmpty then none
  else
    let e := s.monitors.foldl Extents.reach ⟨Axis.start, Axis.start⟩
    some (e.x.extent, e.y.extent)

/-! ## One axis -/

/-- The exact length that segments cover: from the leftmost start to the rightmost end. -/
def Spans (l : List (ℤ × ℕ)) (length : ℤ) : Prop :=
  ∃ right left, IsGreatest {e | ∃ m ∈ l, e = m.1 + m.2} right ∧
    IsLeast {e | ∃ m ∈ l, e = m.1} left ∧ length = right - left

namespace Axis

variable {l : List (ℤ × ℕ)} {a : Axis} {m : ℤ × ℕ}

/-- The far end of one monitor is exact when its size is a signed number and the end fits. -/
theorem exact_end :
    ((Tracked.given m.1).add (.asI32 m.2)).exact = true ↔ Fits m.2 ∧ Fits (m.1 + m.2) := by
  rw [Tracked.exact_add, Tracked.exact_given, Tracked.exact_asI32]
  constructor
  · rintro ⟨⟨-, hsize⟩, hend⟩
    rw [Tracked.value_given, Tracked.value_asI32 (Tracked.exact_asI32.mpr hsize)] at hend
    exact ⟨hsize, hend⟩
  · rintro ⟨hsize, hend⟩
    refine ⟨⟨rfl, hsize⟩, ?_⟩
    rwa [Tracked.value_given, Tracked.value_asI32 (Tracked.exact_asI32.mpr hsize)]

/-- The near bound is the least of the start value and every origin. -/
theorem lo_foldl (l : List (ℤ × ℕ)) (a : Axis) :
    (l.foldl reach a).lo ≤ a.lo ∧ (∀ m ∈ l, (l.foldl reach a).lo ≤ m.1) ∧
      ((l.foldl reach a).lo = a.lo ∨ ∃ m ∈ l, (l.foldl reach a).lo = m.1) := by
  induction l generalizing a with
  | nil => exact ⟨le_refl _, fun m hm => absurd hm List.not_mem_nil, Or.inl rfl⟩
  | cons k l ih =>
      obtain ⟨hle, hall, hfrom⟩ := ih (a.reach k)
      have hstep : (a.reach k).lo = min a.lo k.1 := rfl
      rw [List.foldl_cons]
      refine ⟨by omega, ?_, ?_⟩
      · intro m hm
        rcases List.mem_cons.mp hm with rfl | hm
        · omega
        · exact hall m hm
      · rcases hfrom with hfrom | ⟨m, hm, hfrom⟩
        · rcases min_choice a.lo k.1 with hmin | hmin
          · exact Or.inl (by rw [hfrom, hstep, hmin])
          · exact Or.inr ⟨k, List.mem_cons_self, by rw [hfrom, hstep, hmin]⟩
        · exact Or.inr ⟨m, List.mem_cons_of_mem k hm, hfrom⟩

/-- The far bound is exact when every far end is. -/
theorem exact_foldl (l : List (ℤ × ℕ)) (a : Axis) :
    (l.foldl reach a).hi.exact = true ↔
      a.hi.exact = true ∧ ∀ m ∈ l, Fits m.2 ∧ Fits (m.1 + m.2) := by
  induction l generalizing a with
  | nil => exact ⟨fun h => ⟨h, fun m hm => absurd hm List.not_mem_nil⟩, fun h => h.1⟩
  | cons k l ih =>
      rw [List.foldl_cons, ih, reach, Tracked.exact_max, exact_end, List.forall_mem_cons, and_assoc]

/-- An exact far bound is the greatest of the start value and every far end. -/
theorem hi_foldl (l : List (ℤ × ℕ)) (a : Axis) (h : ∀ m ∈ l, Fits m.2 ∧ Fits (m.1 + m.2)) :
    a.hi.value ≤ (l.foldl reach a).hi.value ∧
      (∀ m ∈ l, m.1 + m.2 ≤ (l.foldl reach a).hi.value) ∧
      ((l.foldl reach a).hi.value = a.hi.value ∨
        ∃ m ∈ l, (l.foldl reach a).hi.value = m.1 + m.2) := by
  induction l generalizing a with
  | nil => exact ⟨le_refl _, fun m hm => absurd hm List.not_mem_nil, Or.inl rfl⟩
  | cons k l ih =>
      obtain ⟨hsize, hend⟩ := h k List.mem_cons_self
      obtain ⟨hle, hall, hfrom⟩ := ih (a.reach k) fun m hm => h m (List.mem_cons_of_mem k hm)
      have hexact : ((Tracked.given k.1).add (.asI32 k.2)).exact = true :=
        exact_end.mpr ⟨hsize, hend⟩
      have hstep : (a.reach k).hi.value = max a.hi.value (k.1 + k.2) := by
        rw [reach, Tracked.value_max, Tracked.value_add hexact, Tracked.value_given,
          Tracked.value_asI32 (Tracked.exact_asI32.mpr hsize)]
      rw [List.foldl_cons]
      refine ⟨by omega, ?_, ?_⟩
      · intro m hm
        rcases List.mem_cons.mp hm with rfl | hm
        · omega
        · exact hall m hm
      · rcases hfrom with hfrom | ⟨m, hm, hfrom⟩
        · rcases max_choice a.hi.value (k.1 + k.2) with hmax | hmax
          · exact Or.inl (by rw [hfrom, hstep, hmax])
          · exact Or.inr ⟨k, List.mem_cons_self, by rw [hfrom, hstep, hmax]⟩
        · exact Or.inr ⟨m, List.mem_cons_of_mem k hm, hfrom⟩

/-- The near bound of a list of monitors is the leftmost origin. -/
theorem isLeast_lo (hne : l ≠ []) (hx : ∀ m ∈ l, Fits m.1) :
    IsLeast {e | ∃ m ∈ l, e = m.1} (l.foldl reach start).lo := by
  obtain ⟨hle, hall, hfrom⟩ := lo_foldl l start
  obtain ⟨k, hk⟩ := List.exists_mem_of_ne_nil l hne
  refine ⟨?_, ?_⟩
  · rcases hfrom with hfrom | ⟨m, hm, hfrom⟩
    · -- no origin is left of the start value, so the one at hand is the start value itself
      have hmax : k.1 ≤ MAX := (hx k hk).2
      have hstart : start.lo = MAX := rfl
      have hlow := hall k hk
      exact ⟨k, hk, by omega⟩
    · exact ⟨m, hm, hfrom⟩
  · rintro e ⟨m, hm, rfl⟩
    exact hall m hm

/-- An exact far bound of a list of monitors is the rightmost end. -/
theorem isGreatest_hi (hne : l ≠ []) (h : ∀ m ∈ l, Fits m.2 ∧ Fits (m.1 + m.2)) :
    IsGreatest {e | ∃ m ∈ l, e = m.1 + m.2} (l.foldl reach start).hi.value := by
  obtain ⟨hle, hall, hfrom⟩ := hi_foldl l start h
  obtain ⟨k, hk⟩ := List.exists_mem_of_ne_nil l hne
  refine ⟨?_, ?_⟩
  · rcases hfrom with hfrom | ⟨m, hm, hfrom⟩
    · have hmin : MIN ≤ k.1 + k.2 := (h k hk).2.1
      have hstart : start.hi.value = MIN := rfl
      have hhigh := hall k hk
      exact ⟨k, hk, by omega⟩
    · exact ⟨m, hm, hfrom⟩
  · rintro e ⟨m, hm, rfl⟩
    exact hall m hm

/-- No far end passes the last `i32`, and no two monitors are further apart than the last `i32`. -/
def WithinI32 (l : List (ℤ × ℕ)) : Prop :=
  ∀ m ∈ l, m.1 + m.2 ≤ MAX ∧ ∀ k ∈ l, m.1 + m.2 - k.1 ≤ MAX

/-- Within `i32`, every size and every far end fits. -/
theorem WithinI32.fits (h : WithinI32 l) (hx : ∀ m ∈ l, Fits m.1) (hm : m ∈ l) :
    Fits m.2 ∧ Fits (m.1 + m.2) := by
  obtain ⟨hend, hpair⟩ := h m hm
  have hself := hpair m hm
  obtain ⟨hlow, hhigh⟩ := hx m hm
  unfold Fits MIN MAX at *
  omega

/-- **An axis is measured without wrapping exactly when it stays within `i32`.** -/
theorem exact_extent_iff (hne : l ≠ []) (hx : ∀ m ∈ l, Fits m.1) :
    (l.foldl reach start).extent.exact = true ↔ WithinI32 l := by
  have hleast := isLeast_lo hne hx
  constructor
  · intro h
    -- nothing has wrapped: neither the right edges, nor the width, nor the conversion
    obtain ⟨hsub, -⟩ := Tracked.exact_asU32.mp h
    obtain ⟨⟨hhi, -⟩, hfits⟩ := Tracked.exact_sub.mp hsub
    obtain ⟨-, hends⟩ := (exact_foldl l start).mp hhi
    have hgreatest := isGreatest_hi hne hends
    intro m hm
    refine ⟨(hends m hm).2.2, fun k hk => ?_⟩
    have hright := hgreatest.2 ⟨m, hm, rfl⟩
    have hleft := hleast.2 ⟨k, hk, rfl⟩
    have hlast := hfits.2
    rw [Tracked.value_given] at hlast
    omega
  · intro h
    have hends : ∀ m ∈ l, Fits m.2 ∧ Fits (m.1 + m.2) := fun m hm => h.fits hx hm
    have hgreatest := isGreatest_hi hne hends
    -- the widest pair of monitors is one of those that fit
    obtain ⟨m, hm, hright⟩ := hgreatest.1
    obtain ⟨k, hk, hleft⟩ := hleast.1
    have hpair := (h m hm).2 k hk
    have horder := hleast.2 ⟨m, hm, rfl⟩
    have hfits : Fits ((l.foldl reach start).hi.value - (l.foldl reach start).lo) := by
      unfold Fits MIN
      omega
    have hsub : ((l.foldl reach start).hi.sub (.given (l.foldl reach start).lo)).exact = true :=
      Tracked.exact_sub.mpr ⟨⟨(exact_foldl l start).mpr ⟨rfl, hends⟩, rfl⟩, hfits⟩
    refine Tracked.exact_asU32.mpr ⟨hsub, ?_⟩
    rw [Tracked.value_sub hsub, Tracked.value_given]
    omega

/-- An axis that is measured without wrapping is measured exactly. -/
theorem spans_extent (hne : l ≠ []) (hx : ∀ m ∈ l, Fits m.1)
    (h : (l.foldl reach start).extent.exact = true) :
    Spans l (l.foldl reach start).extent.value := by
  obtain ⟨hsub, -⟩ := Tracked.exact_asU32.mp h
  obtain ⟨⟨hhi, -⟩, hfits⟩ := Tracked.exact_sub.mp hsub
  obtain ⟨-, hends⟩ := (exact_foldl l start).mp hhi
  refine ⟨_, _, isGreatest_hi hne hends, isLeast_lo hne hx, ?_⟩
  have hvalue := Tracked.value_sub hsub
  rw [extent, Tracked.value_asU32 h (by rwa [hvalue]), hvalue, Tracked.value_given]

end Axis

/-- A list of segments covers one length only: where it starts and where it ends are determined. -/
theorem Spans.unique {l : List (ℤ × ℕ)} {m n : ℤ} (hm : Spans l m) (hn : Spans l n) : m = n := by
  obtain ⟨right, left, hright, hleft, rfl⟩ := hm
  obtain ⟨right', left', hright', hleft', rfl⟩ := hn
  rw [hright.unique hright', hleft.unique hleft']

/-! ## Both axes -/

namespace Screen

/-- The monitors along the horizontal axis: where each starts and how wide it is. -/
def columns (s : Screen) : List (ℤ × ℕ) := s.monitors.map fun m => (m.x, m.w)

/-- The monitors along the vertical axis: where each starts and how high it is. -/
def rows (s : Screen) : List (ℤ × ℕ) := s.monitors.map fun m => (m.y, m.h)

/-- The fold over monitors is the fold over each axis. -/
theorem foldl_reach (l : List MonitorInfo) (e : Extents) :
    l.foldl Extents.reach e =
      ⟨(l.map fun m => (m.x, m.w)).foldl Axis.reach e.x,
        (l.map fun m => (m.y, m.h)).foldl Axis.reach e.y⟩ := by
  induction l generalizing e with
  | nil => rfl
  | cons m l ih => rw [List.foldl_cons, ih, List.map_cons, List.map_cons]; rfl

/-- The box of a machine with monitors is the extent of each axis. -/
theorem monitorBbox_eq {s : Screen} (hne : s.monitors ≠ []) :
    s.monitorBbox = some ((s.columns.foldl Axis.reach Axis.start).extent,
      (s.rows.foldl Axis.reach Axis.start).extent) := by
  have hempty : s.monitors.isEmpty = false := List.isEmpty_eq_false_iff.mpr hne
  rw [monitorBbox, hempty, foldl_reach]
  rfl

/-- Width and height are returned exactly wherever they fit in `u32`, and nothing on the way to
them wraps. -/
def BboxExact (s : Screen) : Prop :=
  ∃ width height, s.monitorBbox = some (width, height) ∧
    (∀ n, Spans s.columns n → n < 4294967296 → width.value = n) ∧
    (∀ n, Spans s.rows n → n < 4294967296 → height.value = n) ∧
    width.exact = true ∧ height.exact = true

/-- Staying within `i32` along both axes, read off the monitors. -/
theorem withinI32_iff (s : Screen) :
    Axis.WithinI32 s.columns ∧ Axis.WithinI32 s.rows ↔ ∀ m ∈ s.monitors,
      (m.x + m.w ≤ MAX ∧ ∀ k ∈ s.monitors, m.x + m.w - k.x ≤ MAX) ∧
      (m.y + m.h ≤ MAX ∧ ∀ k ∈ s.monitors, m.y + m.h - k.y ≤ MAX) := by
  unfold Axis.WithinI32 columns rows
  simp only [List.forall_mem_map]
  exact ⟨fun h m hm => ⟨h.1 m hm, h.2 m hm⟩, fun h => ⟨fun m hm => (h m hm).1, fun m hm => (h m hm).2⟩⟩

/-- **The box is exact exactly for the monitors that stay within `i32`**: no right or bottom edge
passes the last `i32`, and no edge is further than that from any left or top edge. -/
theorem bboxExact_iff (s : Screen) (hne : s.monitors ≠ [])
    (hr : ∀ m ∈ s.monitors, m.Representable) :
    s.BboxExact ↔ ∀ m ∈ s.monitors,
      (m.x + m.w ≤ MAX ∧ ∀ k ∈ s.monitors, m.x + m.w - k.x ≤ MAX) ∧
      (m.y + m.h ≤ MAX ∧ ∀ k ∈ s.monitors, m.y + m.h - k.y ≤ MAX) := by
  have hcols : s.columns ≠ [] := fun h => hne (List.map_eq_nil_iff.mp h)
  have hrows : s.rows ≠ [] := fun h => hne (List.map_eq_nil_iff.mp h)
  have hx : ∀ p ∈ s.columns, Fits p.1 := by
    intro p hp
    obtain ⟨m, hm, rfl⟩ := List.mem_map.mp hp
    exact (hr m hm).1
  have hy : ∀ p ∈ s.rows, Fits p.1 := by
    intro p hp
    obtain ⟨m, hm, rfl⟩ := List.mem_map.mp hp
    exact (hr m hm).2.1
  rw [← withinI32_iff, ← Axis.exact_extent_iff hcols hx, ← Axis.exact_extent_iff hrows hy]
  constructor
  · rintro ⟨width, height, heq, -, -, hwidth, hheight⟩
    rw [monitorBbox_eq hne, Option.some.injEq, Prod.mk.injEq] at heq
    obtain ⟨rfl, rfl⟩ := heq
    exact ⟨hwidth, hheight⟩
  · rintro ⟨hwidth, hheight⟩
    refine ⟨_, _, monitorBbox_eq hne, ?_, ?_, hwidth, hheight⟩
    · intro n hn _
      exact (Axis.spans_extent hcols hx hwidth).unique hn
    · intro n hn _
      exact (Axis.spans_extent hrows hy hheight).unique hn

/-- One display of the usual size, for which the box is exact. -/
theorem bboxExact_iff_display :
    (⟨"a", [], ⟨0, 0, 160, 160⟩, [⟨0, 0, 1920, 1080, true⟩]⟩ : Screen).BboxExact := by
  refine (bboxExact_iff _ (by decide) ?_).mpr ?_
  · intro m hm
    obtain rfl := List.mem_singleton.mp hm
    decide
  · decide

/-- A monitor of `2147483648` pixels next to one of `100` leaves a box of `100`: its size turns
negative, so its right edge is never the greatest. -/
theorem bboxExact_fails :
    let s : Screen := ⟨"a", [], ⟨0, 0, 160, 160⟩,
      [⟨0, 0, 2147483648, 1, true⟩, ⟨0, 0, 100, 1, false⟩]⟩
    s.monitors ≠ [] ∧ (∀ m ∈ s.monitors, m.Representable) ∧ Spans s.columns 2147483648 ∧
      s.monitorBbox.map (fun box => box.1.value) = some 100 ∧ ¬ s.BboxExact := by
  intro s
  have hright : ∀ p ∈ s.columns, p.1 + p.2 ≤ 2147483648 := by decide
  have hleft : ∀ p ∈ s.columns, 0 ≤ p.1 := by decide
  have hspans : Spans s.columns 2147483648 := by
    refine ⟨2147483648, 0, ⟨⟨(0, 2147483648), by decide, by decide⟩, ?_⟩,
      ⟨⟨(0, 100), by decide, by decide⟩, ?_⟩, by decide⟩
    · rintro e ⟨p, hp, rfl⟩
      exact hright p hp
    · rintro e ⟨p, hp, rfl⟩
      exact hleft p hp
  have hvalue : s.monitorBbox.map (fun box => box.1.value) = some 100 := by decide
  refine ⟨by decide, ?_, hspans, hvalue, ?_⟩
  · decide
  · rintro ⟨width, height, heq, hwidth, -⟩
    rw [heq, Option.map_some, Option.some.injEq] at hvalue
    have hexact := hwidth _ hspans (by decide)
    exact absurd (hvalue.symm.trans hexact) (by decide)

end Screen

end Synbad
