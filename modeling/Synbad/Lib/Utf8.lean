import Synbad.Lib.Bytes

/-! # Decoding UTF-8 with replacement

Bytes that are not UTF-8 are decoded as far as they go: an incomplete or ill-formed sequence becomes
one replacement character, up to the first byte that cannot continue it. Which bytes may come second
depends on the first one, as overlong forms, surrogates and numbers past the last character are
excluded; `secondLow` and `secondHigh` are the two ends of that range.

`lossy` is `String::from_utf8_lossy`, character by character. The result that is used of it is
`lossy_snoc`: an ASCII byte behind some bytes is decoded on its own, whatever they break off in. A
carriage return at the end of a line is such a byte, so taking it off before the line is decoded and
taking it off afterwards are the same, even of a line that is no UTF-8 at all. -/

namespace Utf8

/-- The replacement character, U+FFFD, which stands for what could not be decoded. -/
def replacement : Char := '\uFFFD'

/-- A byte that continues a sequence: its two leading bits are one and zero. -/
def isCont (b : UInt8) : Bool := 0x80 ≤ b && b ≤ 0xBF

/-- How long a sequence is, by its first byte; zero where no sequence begins. -/
def width (b : UInt8) : ℕ :=
  if 0xC2 ≤ b && b ≤ 0xDF then 2
  else if 0xE0 ≤ b && b ≤ 0xEF then 3
  else if 0xF0 ≤ b && b ≤ 0xF4 then 4
  else 0

/-- The least byte that may come second: overlong forms are excluded. -/
def secondLow (b : UInt8) : UInt8 := if b = 0xE0 then 0xA0 else if b = 0xF0 then 0x90 else 0x80

/-- The greatest byte that may come second: surrogates and numbers past the last character are
excluded. -/
def secondHigh (b : UInt8) : UInt8 := if b = 0xED then 0x9F else if b = 0xF4 then 0x8F else 0xBF

/-- A byte that may come second behind `b`: between the least and the greatest that the first one
allows. -/
def isSecond (b c : UInt8) : Bool := secondLow b ≤ c && c ≤ secondHigh b

/-- The number of a character with six more bits, those of a byte that continues it. -/
def push (n : ℕ) (c : UInt8) : ℕ := n * 64 + c.toNat % 64

/-- The character that a byte and those behind it begin with, and how many of those it takes; past
the end there are zeroes, which continue nothing. -/
def decodeOne (b : UInt8) (rest : Bytes) : Char × ℕ :=
  let c₁ := rest.getD 0 0
  let c₂ := rest.getD 1 0
  let c₃ := rest.getD 2 0
  if b < 0x80 then (Char.ofNat b.toNat, 0)
  else if width b = 2 then
    if isCont c₁ then (Char.ofNat (push (b.toNat % 32) c₁), 1) else (replacement, 0)
  else if width b = 3 then
    if isSecond b c₁ then
      if isCont c₂ then (Char.ofNat (push (push (b.toNat % 16) c₁) c₂), 2) else (replacement, 1)
    else (replacement, 0)
  else if width b = 4 then
    if isSecond b c₁ then
      if isCont c₂ then
        if isCont c₃ then (Char.ofNat (push (push (push (b.toNat % 8) c₁) c₂) c₃), 3)
        else (replacement, 2)
      else (replacement, 1)
    else (replacement, 0)
  else (replacement, 0)

/-- `String::from_utf8_lossy`: the characters of some bytes, one after the other, with a replacement
character for each maximal part that begins no sequence or breaks off. -/
def lossy : Bytes → List Char
  | [] => []
  | b :: rest =>
      let d := decodeOne b rest
      d.1 :: lossy (rest.drop d.2)
termination_by bytes => bytes.length
decreasing_by
  rw [List.length_drop, List.length_cons]
  omega

/-- No bytes make no characters. -/
theorem lossy_nil : lossy [] = [] := by rw [lossy]

/-- The first character takes as many bytes as it has, and the rest is decoded after that. -/
theorem lossy_cons (b : UInt8) (rest : Bytes) :
    lossy (b :: rest) = (decodeOne b rest).1 :: lossy (rest.drop (decodeOne b rest).2) := by
  rw [lossy]

variable {a b : UInt8} {rest : Bytes} {i : ℕ}

/-! ## One more ASCII byte -/

/-- An ASCII byte continues no sequence. -/
theorem isCont_ascii (h : a < 0x80) : isCont a = false := by
  unfold isCont
  rw [decide_eq_false (UInt8.not_le.mpr h), Bool.false_and]

/-- An ASCII byte is the second of no sequence. -/
theorem isSecond_ascii (h : a < 0x80) : isSecond b a = false := by
  have hlow : 0x80 ≤ secondLow b := by
    unfold secondLow
    split
    · decide
    · split <;> decide
  have hlt : a < secondLow b := UInt8.lt_of_lt_of_le h hlow
  unfold isSecond
  rw [decide_eq_false (UInt8.not_le.mpr hlt), Bool.false_and]

/-- A byte that is there is still there with another one behind it. -/
theorem getD_snoc (a : UInt8) (h : i < rest.length) :
    (rest ++ [a]).getD i 0 = rest.getD i 0 := by
  rw [List.getD_eq_getElem?_getD, List.getD_eq_getElem?_getD, List.getElem?_append_left h]

variable {P : UInt8 → Bool}

/-- A test that fails past the end fails with an ASCII byte there. -/
theorem test_snoc (hzero : P 0 = false) (ha : P a = false) (rest : Bytes) (i : ℕ) :
    P ((rest ++ [a]).getD i 0) = P (rest.getD i 0) := by
  rcases Nat.lt_trichotomy i rest.length with h | rfl | h
  · rw [getD_snoc a h]
  · rw [List.getD_eq_getElem?_getD, List.getD_eq_getElem?_getD,
      List.getElem?_append_right (Nat.le_refl _), Nat.sub_self, List.getElem?_eq_none (Nat.le_refl _)]
    exact ha.trans hzero.symm
  · have hlong : (rest ++ [a]).length ≤ i := by
      rw [List.length_append, List.length_singleton]
      omega
    rw [List.getD_eq_getElem?_getD, List.getD_eq_getElem?_getD, List.getElem?_eq_none hlong,
      List.getElem?_eq_none (by omega)]

/-- A test that succeeds was not made past the end. -/
theorem lt_of_test (hzero : P 0 = false) (h : P (rest.getD i 0) = true) : i < rest.length := by
  by_contra hge
  rw [List.getD_eq_getElem?_getD, List.getElem?_eq_none (by omega)] at h
  exact Bool.false_ne_true (hzero.symm.trans h)

/-- A sequence takes no more bytes than there are, and an ASCII byte behind them changes nothing. -/
theorem decodeOne_snoc (ha : a < 0x80) (b : UInt8) (rest : Bytes) :
    decodeOne b (rest ++ [a]) = decodeOne b rest ∧ (decodeOne b rest).2 ≤ rest.length := by
  have hzero : (0 : UInt8) < 0x80 := by decide
  have hcont := test_snoc (isCont_ascii hzero) (isCont_ascii ha) rest
  have hsecond := test_snoc (isSecond_ascii (b := b) hzero) (isSecond_ascii ha) rest
  have hlt : ∀ i, isCont (rest.getD i 0) = true → i < rest.length :=
    fun i h => lt_of_test (isCont_ascii hzero) h
  have hlt' : isSecond b (rest.getD 0 0) = true → 0 < rest.length :=
    fun h => lt_of_test (isSecond_ascii hzero) h
  unfold decodeOne
  dsimp only
  rw [hcont 0, hcont 1, hcont 2, hsecond 0]
  -- the length of a sequence goes by its first byte; each test of the bytes behind it is the same
  -- with one more
  split
  · exact ⟨rfl, Nat.zero_le _⟩
  split
  · split
    · next h =>
      rw [getD_snoc a (hlt 0 h)]
      exact ⟨rfl, hlt 0 h⟩
    · exact ⟨rfl, Nat.zero_le _⟩
  split
  · split
    · next h =>
      split
      · next h' =>
        rw [getD_snoc a (hlt' h), getD_snoc a (hlt 1 h')]
        exact ⟨rfl, hlt 1 h'⟩
      · exact ⟨rfl, hlt' h⟩
    · exact ⟨rfl, Nat.zero_le _⟩
  split
  · split
    · next h =>
      split
      · next h' =>
        split
        · next h'' =>
          rw [getD_snoc a (hlt' h), getD_snoc a (hlt 1 h'), getD_snoc a (hlt 2 h'')]
          exact ⟨rfl, hlt 2 h''⟩
        · exact ⟨rfl, hlt 1 h'⟩
      · exact ⟨rfl, hlt' h⟩
    · exact ⟨rfl, Nat.zero_le _⟩
  · exact ⟨rfl, Nat.zero_le _⟩

/-- **An ASCII byte behind some bytes is decoded on its own**, whatever they break off in. -/
theorem lossy_snoc (ha : a < 0x80) (bytes : Bytes) :
    lossy (bytes ++ [a]) = lossy bytes ++ [Char.ofNat a.toNat] := by
  generalize hn : bytes.length = n
  induction n using Nat.strong_induction_on generalizing bytes with
  | _ n ih =>
      cases bytes with
      | nil =>
          have hone : decodeOne a [] = (Char.ofNat a.toNat, 0) := if_pos ha
          rw [List.nil_append, lossy_cons, lossy_nil, hone, List.drop_nil, lossy_nil]
          rfl
      | cons b rest =>
          obtain ⟨hdecode, hle⟩ := decodeOne_snoc ha b rest
          have hshort : (rest.drop (decodeOne b rest).2).length < n := by
            rw [List.length_drop, ← hn, List.length_cons]
            omega
          rw [List.cons_append, lossy_cons, lossy_cons, hdecode, List.drop_append_of_le_length hle,
            ih _ hshort _ rfl, List.cons_append]

end Utf8
