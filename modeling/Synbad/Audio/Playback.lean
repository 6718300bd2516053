import Synbad.Audio.Capture
import Synbad.Lib.Run

/-! # The playback jitter buffer

The pump task appends samples to a buffer and drops the oldest ones when the buffer would exceed the
jitter cap; the sound device's callback takes samples from its front and pads with silence. Every
sample that was pushed is played once, dropped once, or still there.

`Jitter.pump` and `fillOutputFromBuffer` are the two operations; how a sample becomes one of the
device's format is a parameter. A `Trace` records what was pushed and what became of the samples that
left, oldest first. `Accounted` is the invariant: the samples that left, in their order, followed by
the buffer, are those that were pushed, and the counter counts those that were dropped. Every push and
every callback keeps it (`Accounted.step`).

`Trace.conserved` is the result, for every run of pushes and callbacks of any sizes and channels:
nothing is lost, doubled or reordered; the depth after a push is bounded by the cap or the frame, and
exactly the target where the cap was exceeded (`length_pump`); and a callback writes what it plays to
every slot of its frame. -/

namespace Synbad

namespace Playback

/-! ## The source -/

/-- The shared buffer and the `dropped_samples` counter, an `AtomicU64`. -/
structure Jitter where
  buffer : List Int16
  dropped : UInt64
  deriving DecidableEq

/-- What the pump task does with one frame of samples: the state it leaves, and the samples that
`drain` removed. -/
def Jitter.pump (j : Jitter) (target cap : ℕ) (samples : List Int16) : Jitter × List Int16 :=
  if samples.isEmpty then (j, [])
  else
    let projected := j.buffer.length + samples.length
    let dropN := if cap < projected then min (projected - target) j.buffer.length else 0
    let dropped := if 0 < dropN then j.dropped + UInt64.ofNat dropN else j.dropped
    (⟨j.buffer.drop dropN ++ samples, dropped⟩, j.buffer.take dropN)

/-- `out.chunks_mut(ch)`: the output cut into chunks of this size, the last of which may be
shorter. -/
def chunksMut {S : Type*} (ch : ℕ) (h : 0 < ch) (out : List S) : List (List S) :=
  let r := (Drainer.blocks ch h).run () out
  r.out ++ if r.rest.isEmpty then [] else [r.rest]

/-- The loop over the chunks: each takes the next sample, silence where there is none, to all of its
slots. -/
def fillChunks {S : Type*} (render : Int16 → S) : List Int16 → List (List S) → List (List S)
  | _, [] => []
  | [], chunk :: chunks => chunk.map (fun _ => render 0) :: fillChunks render [] chunks
  | sample :: iter, chunk :: chunks =>
      chunk.map (fun _ => render sample) :: fillChunks render iter chunks

/-- How many samples a callback takes: one for each whole frame of its output, as far as there are
any. -/
def takeCount (ch length depth : ℕ) : ℕ := min (length / max ch 1) depth

/-- `fill_output_from_buffer`: what is written to `out`, and the buffer left behind. -/
def fillOutputFromBuffer {S : Type*} (fromMono : Int16 → S) (out : List S) (buf : List Int16)
    (ch : ℕ) (gain : Gain) : List S × List Int16 :=
  let take := takeCount ch out.length buf.length
  let chunks := chunksMut (max ch 1) (Nat.le_max_right _ 1) out
  ((fillChunks (fun s => fromMono (gain.apply s)) (buf.take take) chunks).flatten, buf.drop take)

/-! ## What is written -/

section

variable {S : Type*} {render : Int16 → S} {ch : ℕ} {h : 0 < ch}

/-- The first chunk, where there is a whole one. -/
theorem chunksMut_of_le {out : List S} (hle : ch ≤ out.length) :
    chunksMut ch h out = out.take ch :: chunksMut ch h (out.drop ch) := by
  have hrun := Drainer.run_of_le (d := Drainer.blocks ch h) (s := ()) hle
  unfold chunksMut
  rw [hrun]
  rfl

/-- What is shorter than a chunk is a chunk of its own, unless it is empty. -/
theorem chunksMut_of_lt {out : List S} (hlt : out.length < ch) :
    chunksMut ch h out = if out.isEmpty then [] else [out] := by
  have hrun := Drainer.run_of_lt (d := Drainer.blocks ch h) (s := ()) hlt
  unfold chunksMut
  rw [hrun]
  rfl

/-- One chunk: its slots take the next sample, and the rest goes on behind it. -/
theorem fillChunks_cons (iter : List Int16) (chunk : List S) (chunks : List (List S)) :
    fillChunks render iter (chunk :: chunks) =
      chunk.map (fun _ => render (iter.getD 0 0)) :: fillChunks render iter.tail chunks := by
  cases iter <;> rfl

/-- **Every slot holds the sample of its frame**, across all channels, and silence where the samples
have run out. -/
theorem getElem?_fillChunks (iter : List Int16) (out : List S) (i : ℕ) :
    (fillChunks render iter (chunksMut ch h out)).flatten[i]? =
      if i < out.length then some (render (iter.getD (i / ch) 0)) else none := by
  -- induction on the length of the buffer, as each chunk takes a frame off both
  generalize hn : out.length = n
  induction n using Nat.strong_induction_on generalizing out iter i with
  | _ n ih =>
      subst hn
      rcases Nat.lt_or_ge out.length ch with hlt | hle
      -- the last chunk may be short of slots, and all it has are of one frame
      · rw [chunksMut_of_lt hlt]
        cases out with
        | nil =>
            show (fillChunks render iter []).flatten[i]? = none
            rw [fillChunks]
            rfl
        | cons slot out =>
            show (fillChunks render iter [slot :: out]).flatten[i]? = _
            rw [fillChunks_cons, fillChunks, List.flatten_singleton, List.getElem?_map]
            split
            case isTrue hi =>
              rw [List.getElem?_eq_getElem hi, Nat.div_eq_of_lt (by omega)]
              rfl
            case isFalse hi =>
              rw [List.getElem?_eq_none (by omega)]
              rfl
      · have hshort : (out.drop ch).length < out.length := by
          rw [List.length_drop]
          omega
        have hfirst : ((out.take ch).map fun _ => render (iter.getD 0 0)).length = ch := by
          rw [List.length_map, List.length_take_of_le hle]
        rw [chunksMut_of_le hle, fillChunks_cons, List.flatten_cons]
        rcases Nat.lt_or_ge i ch with hi | hi
        · rw [List.getElem?_append_left (by omega), List.getElem?_map, List.getElem?_take_of_lt hi,
            List.getElem?_eq_getElem (by omega), Nat.div_eq_of_lt hi, if_pos (by omega)]
          rfl
        · -- a slot behind the first chunk is one frame earlier in the rest
          have hframe : i / ch = (i - ch) / ch + 1 := by
            rw [Nat.div_eq_sub_div h hi]
          rw [List.getElem?_append_right (by omega), hfirst,
            ih _ hshort iter.tail (out.drop ch) (i - ch) rfl, List.length_drop, hframe]
          have htail : iter.tail.getD ((i - ch) / ch) 0 = iter.getD ((i - ch) / ch + 1) 0 := by
            cases iter <;> rfl
          rw [htail]
          exact if_congr (by omega) rfl rfl

end

/-! ## One push -/

namespace Jitter

variable (j : Jitter) (target cap : ℕ) (samples : List Int16)

/-- A push takes samples off the front and puts the new ones at the back. -/
theorem pump_split :
    ∃ kept, j.buffer = (j.pump target cap samples).2 ++ kept ∧
      (j.pump target cap samples).1.buffer = kept ++ samples := by
  unfold pump
  split
  case isTrue hempty =>
    rw [List.isEmpty_iff.mp hempty]
    exact ⟨j.buffer, rfl, (List.append_nil _).symm⟩
  case isFalse => exact ⟨_, (List.take_append_drop _ j.buffer).symm, rfl⟩

/-- The counter counts what a push drops, and wraps around as a `u64` does. -/
theorem dropped_pump :
    (j.pump target cap samples).1.dropped =
      j.dropped + UInt64.ofNat (j.pump target cap samples).2.length := by
  unfold pump
  split
  case isTrue => exact (UInt64.add_zero _).symm
  case isFalse =>
    dsimp only
    set dropN := if cap < j.buffer.length + samples.length
      then min (j.buffer.length + samples.length - target) j.buffer.length else 0 with hdrop
    have hlen : (j.buffer.take dropN).length = dropN := by
      rw [List.length_take, hdrop]
      split <;> omega
    rw [hlen]
    split
    case isTrue => rfl
    case isFalse hzero =>
      rw [Nat.eq_zero_of_not_pos hzero]
      exact (UInt64.add_zero _).symm

variable {j target cap samples}

/-- **The depth after a push**: at most the cap or the frame, and exactly the target or the frame
where the push overflowed the cap. -/
theorem length_pump (hle : target ≤ cap) (hne : samples ≠ []) :
    (j.pump target cap samples).1.buffer.length ≤ max cap samples.length ∧
      (cap < j.buffer.length + samples.length →
        (j.pump target cap samples).1.buffer.length = max target samples.length) := by
  have hempty : samples.isEmpty = false := List.isEmpty_eq_false_iff.mpr hne
  have hlength : (j.pump target cap samples).1.buffer.length =
      j.buffer.length - (if cap < j.buffer.length + samples.length
        then min (j.buffer.length + samples.length - target) j.buffer.length else 0) +
        samples.length := by
    rw [pump, hempty]
    show List.length (_ ++ _) = _
    rw [List.length_append, List.length_drop]
  rw [hlength]
  split
  case isTrue hover => exact ⟨by omega, fun _ => by omega⟩
  case isFalse hroom => exact ⟨by omega, fun hover => absurd hover hroom⟩

end Jitter

/-! ## Runs -/

/-- What became of samples at the front of the buffer. -/
inductive Fate where
  | played (samples : List Int16)
  | dropped (samples : List Int16)

namespace Fate

/-- The samples, whatever became of them. -/
def samples : Fate → List Int16
  | played s => s
  | dropped s => s

/-- The samples that were played, and none of those that were dropped. -/
def heard : Fate → List Int16
  | played s => s
  | dropped _ => []

/-- The samples that were dropped, and none of those that were played. -/
def lost : Fate → List Int16
  | played _ => []
  | dropped s => s

/-- What was played is part of the samples, in order. -/
theorem heard_sublist (fates : List Fate) : (fates.flatMap heard).Sublist (fates.flatMap samples) := by
  induction fates with
  | nil => exact List.Sublist.refl _
  | cons fate fates ih =>
      rw [List.flatMap_cons, List.flatMap_cons]
      refine List.Sublist.append ?_ ih
      cases fate with
      | played s => exact List.Sublist.refl s
      | dropped s => exact List.nil_sublist s

/-- Every sample was either played or dropped: the two counts add up. -/
theorem length_samples (fates : List Fate) :
    (fates.flatMap samples).length =
      (fates.flatMap heard).length + (fates.flatMap lost).length := by
  induction fates with
  | nil => rfl
  | cons fate fates ih =>
      simp only [List.flatMap_cons, List.length_append, ih]
      cases fate <;> simp only [samples, heard, lost, List.length_nil] <;> omega

end Fate

variable {S : Type*}

/-- What happens to the buffer: a frame from the pump, or a callback with its output buffer, its
channels and the gain of the moment. -/
inductive Tick (S : Type*) where
  | push (samples : List Int16)
  | callback (out : List S) (ch : ℕ) (gain : Gain)

/-- The buffer, what was pushed so far, and what became of the samples that left, oldest first. -/
structure Trace where
  jitter : Jitter
  pushed : List Int16
  fates : List Fate

namespace Trace

/-- An empty buffer, of which nothing has become anything yet. -/
def start : Trace := ⟨⟨[], 0⟩, [], []⟩

/-- One push or one callback, with what becomes of the samples that leave. -/
def step (fromMono : Int16 → S) (target cap : ℕ) (t : Trace) : Tick S → Trace
  | .push samples =>
      let r := t.jitter.pump target cap samples
      ⟨r.1, t.pushed ++ samples, t.fates ++ [.dropped r.2]⟩
  | .callback out ch gain =>
      let buf := t.jitter.buffer
      let r := fillOutputFromBuffer fromMono out buf ch gain
      ⟨⟨r.2, t.jitter.dropped⟩, t.pushed,
        t.fates ++ [.played (buf.take (takeCount ch out.length buf.length))]⟩

/-- Every sample that was pushed left in its turn or is still there, and the counter counts those
that were dropped. -/
structure Accounted (t : Trace) : Prop where
  order : t.fates.flatMap Fate.samples ++ t.jitter.buffer = t.pushed
  counted : t.jitter.dropped = UInt64.ofNat (t.fates.flatMap Fate.lost).length

variable {fromMono : Int16 → S} {target cap : ℕ} {t : Trace}

/-- Before the first tick nothing has come in and nothing has gone. -/
theorem accounted_start : start.Accounted := ⟨rfl, rfl⟩

/-- **Every push and every callback accounts for its samples.** -/
theorem Accounted.step (h : t.Accounted) (tick : Tick S) :
    (t.step fromMono target cap tick).Accounted := by
  cases tick with
  | push samples =>
      obtain ⟨kept, hbuffer, hafter⟩ := t.jitter.pump_split target cap samples
      refine ⟨?_, ?_⟩
      · show (t.fates ++ [Fate.dropped _]).flatMap Fate.samples ++
          (t.jitter.pump target cap samples).1.buffer = t.pushed ++ samples
        rw [List.flatMap_append, List.flatMap_singleton, hafter, ← h.order, hbuffer]
        simp only [Fate.samples, List.append_assoc]
      · show (t.jitter.pump target cap samples).1.dropped =
          UInt64.ofNat ((t.fates ++ [Fate.dropped _]).flatMap Fate.lost).length
        rw [t.jitter.dropped_pump, h.counted, List.flatMap_append, List.flatMap_singleton,
          List.length_append, UInt64.ofNat_add]
        rfl
  | callback out ch gain =>
      refine ⟨?_, ?_⟩
      · show (t.fates ++ [Fate.played _]).flatMap Fate.samples ++ List.drop _ _ = t.pushed
        rw [List.flatMap_append, List.flatMap_singleton, List.append_assoc, Fate.samples,
          List.take_append_drop, h.order]
      · show t.jitter.dropped = UInt64.ofNat ((t.fates ++ [Fate.played _]).flatMap Fate.lost).length
        rw [List.flatMap_append, List.flatMap_singleton, Fate.lost, List.append_nil, h.counted]

/-- What a callback plays and writes: the first samples of the buffer, each to all channels of its
frame, and silence behind them. -/
theorem step_callback (out : List S) (ch : ℕ) (gain : Gain) :
    ∃ played : List Int16,
      (t.step fromMono target cap (.callback out ch gain)).fates = t.fates ++ [.played played] ∧
      played.length = min (out.length / max ch 1) t.jitter.buffer.length ∧
      ∀ i, (fillOutputFromBuffer fromMono out t.jitter.buffer ch gain).1[i]? =
        if i < out.length then some (fromMono ((played[i / max ch 1]?).elim 0 gain.apply))
        else none := by
  refine ⟨_, rfl, ?_, ?_⟩
  · rw [List.length_take, takeCount]
    omega
  · intro i
    refine (getElem?_fillChunks _ out i).trans (if_congr Iff.rfl (congrArg some ?_) rfl)
    rw [List.getD_eq_getElem?_getD]
    -- past the samples a slot holds silence, which the gain leaves alone
    cases (t.jitter.buffer.take (takeCount ch out.length t.jitter.buffer.length))[i / max ch 1]? with
    | none => exact congrArg fromMono gain.apply_zero
    | some s => rfl

/-- **The jitter buffer conserves its samples and stays bounded.** In every state of every run: the
samples that left, in the order they left, followed by the buffer are those that were pushed, so what
was played keeps its order and nothing is played twice; as many were pushed as were played, dropped
and are there, and the counter counts the dropped ones. After every push the depth is at most the
cap or the frame, and exactly the target or the frame where it overflowed; and every callback plays
as many samples as it wants frames, or all there are, each in every channel of its frame, with
silence for the rest. -/
theorem conserved (fromMono : Int16 → S) (target cap : ℕ) (hle : target ≤ cap)
    (ticks : List (Tick S)) (n : ℕ) :
    let t := Run.after (step fromMono target cap) start ticks n
    let t' := Run.after (step fromMono target cap) start ticks (n + 1)
    (t.fates.flatMap Fate.samples ++ t.jitter.buffer = t.pushed ∧
      (t.fates.flatMap Fate.heard ++ t.jitter.buffer).Sublist t.pushed) ∧
    (t.pushed.length = (t.fates.flatMap Fate.heard).length + (t.fates.flatMap Fate.lost).length +
        t.jitter.buffer.length ∧
      t.jitter.dropped = UInt64.ofNat (t.fates.flatMap Fate.lost).length) ∧
    (∀ samples, ticks[n]? = some (.push samples) → samples ≠ [] →
      t'.jitter.buffer.length ≤ max cap samples.length ∧
        (cap < t.jitter.buffer.length + samples.length →
          t'.jitter.buffer.length = max target samples.length)) ∧
    (∀ out ch gain, ticks[n]? = some (.callback out ch gain) →
      ∃ played : List Int16, t'.fates = t.fates ++ [.played played] ∧
        played.length = min (out.length / max ch 1) t.jitter.buffer.length ∧
        ∀ i, (fillOutputFromBuffer fromMono out t.jitter.buffer ch gain).1[i]? =
          if i < out.length then some (fromMono ((played[i / max ch 1]?).elim 0 gain.apply))
          else none) := by
  intro t t'
  -- one invariant over the ticks gives all but the last two
  have haccounted : t.Accounted :=
    Run.invariant accounted_start (fun _ tick _ h => h.step tick) n
  refine ⟨⟨haccounted.order, ?_⟩, ⟨?_, haccounted.counted⟩, ?_, ?_⟩
  · rw [← haccounted.order]
    exact List.Sublist.append (Fate.heard_sublist t.fates) (List.Sublist.refl _)
  · rw [← haccounted.order, List.length_append, Fate.length_samples]
  · intro samples htick hne
    have hnext : t' = t.step fromMono target cap (.push samples) := Run.after_succ htick
    rw [hnext]
    exact Jitter.length_pump hle hne
  · intro out ch gain htick
    have hnext : t' = t.step fromMono target cap (.callback out ch gain) := Run.after_succ htick
    rw [hnext]
    exact step_callback out ch gain

/-- Two pushes, the second over a cap of four, and a stereo callback. -/
theorem conserved_stereo :
    let ticks : List (Tick Int16) :=
      [.push [1, 2, 3], .push [4, 5], .callback [0, 0, 0, 0, 0] 2 ⟨id, rfl⟩]
    let t := Run.after (step id 3 4) start ticks 3
    t.fates.flatMap Fate.samples ++ t.jitter.buffer = t.pushed := by
  intro ticks t
  exact (conserved id 3 4 (by decide) ticks 3).1.1

end Trace

end Playback

end Synbad
