import Synbad.Discovery.Binding
import Mathlib.Data.Sym.Sym2

/-! # What a transcript says

Both ends of a pairing session compute the transcript from the two Hellos, each with its own first.
For Hellos of different keys the bytes are those of the unordered pair: they do not depend on who is
named first, and no other pair has them, wherever the text stands. So neither has another pair the
code of these two, collisions of the hash apart, nor a signature over their transcript.

That the order of the two does not matter is because the smaller key is put first. That no other pair
has the bytes rests on the lengths in front of the fields, which say where each field ends, and so on
the fields being short enough for a `u32` to hold their lengths. The code is six bytes of the hash as
hex digits in groups; two pairs with one code are two transcripts whose hashes begin alike
(`SasCollision`), and that is the only way. -/

namespace Synbad

open Bytes (Arr)

/-! ## The unordered pair -/

section Pair

variable {a b c d : PairHello}

/-- Hellos of different keys stand in the same order exactly if they are the same pair. -/
theorem PairHellos.ordered_eq_iff (hab : a.pubkeyHex ≠ b.pubkeyHex) (hcd : c.pubkeyHex ≠ d.pubkeyHex) :
    PairHellos.ordered ⟨a, b⟩ = PairHellos.ordered ⟨c, d⟩ ↔ s(a, b) = s(c, d) := by
  have hcases : ∀ x y : PairHello,
      PairHellos.ordered ⟨x, y⟩ = (x, y) ∨ PairHellos.ordered ⟨x, y⟩ = (y, x) := by
    intro x y
    unfold PairHellos.ordered
    split
    · exact Or.inl rfl
    · exact Or.inr rfl
  rw [Sym2.eq_iff]
  constructor
  · intro h
    rcases hcases a b with hlo | hlo <;> rcases hcases c d with hlo' | hlo' <;>
      rw [hlo, hlo', Prod.mk.injEq] at h
    · exact Or.inl h
    · exact Or.inr h
    · exact Or.inr h.symm
    · exact Or.inl h.symm
  · rintro (⟨rfl, rfl⟩ | ⟨rfl, rfl⟩)
    · rfl
    · exact PairHellos.ordered_swap hab

/-- **The transcript is the unordered pair**: Hellos of different keys whose fields have lengths that
a `u32` holds have one transcript exactly if they are the same two. -/
theorem canonicalTranscript_eq_iff (ha : a.Fits) (hb : b.Fits) (hc : c.Fits) (hd : d.Fits)
    (hab : a.pubkeyHex ≠ b.pubkeyHex) (hcd : c.pubkeyHex ≠ d.pubkeyHex) :
    canonicalTranscript a b = canonicalTranscript c d ↔ s(a, b) = s(c, d) := by
  have hinj : canonicalTranscript a b = canonicalTranscript c d ↔
      PairHellos.ordered ⟨a, b⟩ = PairHellos.ordered ⟨c, d⟩ :=
    @PairHellos.transcript_inj ⟨a, b⟩ ⟨c, d⟩ ⟨ha, hb⟩ ⟨hc, hd⟩
  rw [hinj, PairHellos.ordered_eq_iff hab hcd]

end Pair

/-! ## The code -/

/-- Hyphens between groups hide nothing: two texts that are grouped alike and read the same are the
same. -/
theorem hyphenated_injective (n : ℕ) : Function.Injective (hyphenated n) := by
  let group : Char × ℕ → List Char := fun p => if 0 < p.2 ∧ p.2 % n = 0 then ['-', p.1] else [p.1]
  have hne : ∀ p, group p ≠ [] := by
    intro p
    simp only [group]
    split <;> simp
  -- whether there is a hyphen depends on the position alone
  have hgroup : ∀ (c c' : Char) (i : ℕ) (r r' : List Char),
      group (c, i) ++ r = group (c', i) ++ r' → c = c' ∧ r = r' := by
    intro c c' i r r' h
    by_cases hi : 0 < i ∧ i % n = 0 <;> simpa [group, hi] using h
  have hlists : ∀ (l l' : List Char) (i : ℕ),
      (l.zipIdx i).flatMap group = (l'.zipIdx i).flatMap group → l = l' := by
    intro l
    induction l with
    | nil =>
        intro l' i h
        cases l' with
        | nil => rfl
        | cons c' l' => exact absurd (List.append_eq_nil_iff.mp h.symm).1 (hne (c', i))
    | cons c l ih =>
        intro l' i h
        cases l' with
        | nil => exact absurd (List.append_eq_nil_iff.mp h).1 (hne (c, i))
        | cons c' l' =>
            obtain ⟨rfl, htail⟩ := hgroup c c' i _ _ h
            rw [ih l' (i + 1) htail]
  intro s s' h
  exact String.toList_injective (hlists s.toList s'.toList 0 (String.ofList_injective h))

/-- Two different transcripts whose hashes begin with the same six bytes. -/
def SasCollision (ops : Primitives) (t t' : Bytes) : Prop :=
  t ≠ t' ∧ (ops.sha256 (t ++ sasDomain)).val.take 6 = (ops.sha256 (t' ++ sasDomain)).val.take 6

/-- The code is the first six bytes of the hash. -/
theorem sasCode_eq_iff {ops : Primitives} {t t' : Bytes} :
    sasCode ops t = sasCode ops t' ↔ t = t' ∨ SasCollision ops t t' := by
  constructor
  · intro h
    by_cases ht : t = t'
    · exact Or.inl ht
    · exact Or.inr ⟨ht, ops.hex.encode_injective (hyphenated_injective 2 h)⟩
  · rintro (rfl | ⟨-, hbytes⟩)
    · rfl
    · rw [sasCode, sasCode, hbytes]

/-! ## The pair -/

/-- A signature under this key is over one message. -/
def Verifier.Binds (verify : Verifier) (pk : Arr 32) : Prop :=
  ∀ m m' sig, verify pk m sig = true → verify pk m' sig = true → m = m'

/-- **Transcripts, codes and signatures are of one pair.** For Hellos of different keys with fields
that a `u32` can count, the transcripts are equal exactly if the unordered pairs are; the codes are
equal exactly if the pairs are or the hash collides; and what is accepted as a signature over both
transcripts, under a key whose signatures are over one message, is so for one pair. -/
theorem transcript_determines_pair {a b c d : PairHello} (ha : a.Fits) (hb : b.Fits) (hc : c.Fits)
    (hd : d.Fits) (hab : a.pubkeyHex ≠ b.pubkeyHex) (hcd : c.pubkeyHex ≠ d.pubkeyHex) :
    (canonicalTranscript a b = canonicalTranscript c d ↔ s(a, b) = s(c, d)) ∧
    (∀ ops : Primitives,
      sasCode ops (canonicalTranscript a b) = sasCode ops (canonicalTranscript c d) ↔
        s(a, b) = s(c, d) ∨ SasCollision ops (canonicalTranscript a b) (canonicalTranscript c d)) ∧
    ∀ (ops : Primitives) (verify : Verifier) (pk : Arr 32) (pubkeyHex sigHex : String),
      ops.hex.decode pubkeyHex = some pk.val → verify.Binds pk →
      verifySignature ops verify pubkeyHex (canonicalTranscript a b) sigHex = .ok () →
      verifySignature ops verify pubkeyHex (canonicalTranscript c d) sigHex = .ok () →
        s(a, b) = s(c, d) := by
  have hpair := canonicalTranscript_eq_iff ha hb hc hd hab hcd
  refine ⟨hpair, fun ops => ?_, ?_⟩
  · rw [sasCode_eq_iff, hpair]
  · intro ops verify pk pubkeyHex sigHex hpk hbinds h h'
    obtain ⟨pk₁, sig₁, hpk₁, hsig₁, hverify₁⟩ := verifySignature_written h
    obtain ⟨pk₂, sig₂, hpk₂, hsig₂, hverify₂⟩ := verifySignature_written h'
    obtain rfl : pk₁ = pk := Subtype.ext (Option.some.inj (hpk₁.symm.trans hpk))
    obtain rfl : pk₂ = pk₁ := Subtype.ext (Option.some.inj (hpk₂.symm.trans hpk))
    obtain rfl : sig₂ = sig₁ := Subtype.ext (Option.some.inj (hsig₂.symm.trans hsig₁))
    exact hpair.mp (hbinds _ _ _ hverify₁ hverify₂)

/-- Text that has moved from the machine id to the display name makes another transcript. -/
theorem transcript_determines_pair_sample :
    canonicalTranscript ⟨"00", "", "ab", ""⟩ ⟨"01", "", "", ""⟩ ≠
      canonicalTranscript ⟨"00", "", "a", "b"⟩ ⟨"01", "", "", ""⟩ := by
  intro h
  have hpair := (transcript_determines_pair (a := ⟨"00", "", "ab", ""⟩) (b := ⟨"01", "", "", ""⟩)
    (c := ⟨"00", "", "a", "b"⟩) (d := ⟨"01", "", "", ""⟩)
    ⟨by decide +kernel, by decide +kernel, by decide +kernel, by decide +kernel⟩
    ⟨by decide +kernel, by decide +kernel, by decide +kernel, by decide +kernel⟩
    ⟨by decide +kernel, by decide +kernel, by decide +kernel, by decide +kernel⟩
    ⟨by decide +kernel, by decide +kernel, by decide +kernel, by decide +kernel⟩
    (by decide) (by decide)).1.mp h
  revert hpair
  decide

end Synbad
