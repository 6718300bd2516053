import Mathlib.Tactic.Ring
import Mathlib.Data.List.TakeDrop

/-! # Bytes on a wire

Big-endian integers as lists of bytes, fields with their length in front, buffers that are filled from
the front, strings of a fixed length and their parts, and hexadecimal text. Nothing here knows what
the bytes mean.

An integer that fits its width is recovered from its bytes (`fromBe_toBe_of_lt`), and a field with its
length in front can be read off the front of whatever it is followed by (`pushField_append_inj`):
these two are why a frame, and a transcript that is signed, can be taken apart in one way only. A
string of fixed length, `Arr n`, carries its length as a proof. Hexadecimal text is written by a
library of its own, so it is a parameter, `HexCodec`, with the few facts that are relied on;
`HexCodec.standard` is a value of it that computes, with which an example can be evaluated. -/

/-- A string of bytes, as it is read from and written to a wire or a file. -/
abbrev Bytes := List UInt8

namespace Bytes

/-! ## Big-endian integers -/

/-- The low `width` bytes of `n`, most significant first. -/
def toBe : ℕ → ℕ → Bytes
  | 0, _ => []
  | width + 1, n => toBe width (n / 256) ++ [UInt8.ofNat n]

/-- The number whose big-endian form this is: the bytes are digits to the base 256, the first of them
the most significant. -/
def fromBe (bs : Bytes) : ℕ := bs.foldl (fun acc b => acc * 256 + b.toNat) 0

/-- A number is written in as many bytes as it is given. -/
@[simp] theorem length_toBe (width n : ℕ) : (toBe width n).length = width := by
  induction width generalizing n with
  | zero => rfl
  | succ width ih => rw [toBe, List.length_append, ih, List.length_singleton]

/-- **Decoding undoes encoding**, up to the width: what the low `width` bytes of `n` decode to is `n`
modulo `256 ^ width`. -/
theorem fromBe_toBe (width n : ℕ) : fromBe (toBe width n) = n % 256 ^ width := by
  induction width generalizing n with
  | zero => rw [pow_zero, Nat.mod_one, toBe, fromBe, List.foldl_nil]
  | succ width ih =>
      have hlast : (UInt8.ofNat n).toNat = n % 256 := UInt8.toNat_ofNat'
      have hhead : fromBe (toBe width (n / 256)) = n / 256 % 256 ^ width := ih (n / 256)
      unfold fromBe at hhead
      rw [toBe, fromBe, List.foldl_append, List.foldl_cons, List.foldl_nil, hhead, hlast, pow_succ,
        Nat.mul_comm (256 ^ width) 256, Nat.mod_mul]
      ring

/-- A number below `256 ^ width` is recovered from its `width` bytes. -/
theorem fromBe_toBe_of_lt {width n : ℕ} (h : n < 256 ^ width) : fromBe (toBe width n) = n := by
  rw [fromBe_toBe, Nat.mod_eq_of_lt h]

/-- Two numbers below `256 ^ width` with the same `width` bytes are equal. -/
theorem toBe_inj {width m n : ℕ} (hm : m < 256 ^ width) (hn : n < 256 ^ width)
    (h : toBe width m = toBe width n) : m = n := by
  rw [← fromBe_toBe_of_lt hm, h, fromBe_toBe_of_lt hn]

/-! ## Fields -/

/-- The bytes of a text, in UTF-8. -/
def utf8 (s : String) : Bytes := s.toUTF8.data.toList

/-- A field with its length in front, as a big-endian `u32`. -/
def pushField (field : Bytes) : Bytes := toBe 4 field.length ++ field

/-- A field takes four bytes more than it holds. -/
@[simp] theorem length_pushField (field : Bytes) : (pushField field).length = 4 + field.length := by
  rw [pushField, List.length_append, length_toBe]

/-- **A field can be read off the front**: its length says where it ends. -/
theorem pushField_append_inj {f g rest rest' : Bytes} (hf : f.length < 2 ^ 32)
    (hg : g.length < 2 ^ 32) (h : pushField f ++ rest = pushField g ++ rest') :
    f = g ∧ rest = rest' := by
  simp only [pushField, List.append_assoc] at h
  obtain ⟨hlen, hrest⟩ := List.append_inj h (by rw [length_toBe, length_toBe])
  have hsame : f.length = g.length :=
    toBe_inj (by simpa using hf) (by simpa using hg) hlen
  exact List.append_inj hrest hsame

/-- A text is determined by its bytes: the encoding in UTF-8 is injective. -/
theorem utf8_injective : Function.Injective utf8 := by
  intro s t h
  have harr : s.toUTF8.data = t.toUTF8.data := Array.toList_inj.mp h
  exact String.toByteArray_inj.mp (ByteArray.ext harr)

/-- The bytes of a text are those of its characters, one after the other. -/
theorem utf8_eq (s : String) : utf8 s = s.toList.flatMap String.utf8EncodeChar := by
  have hbytes : s.toUTF8 = (s.toList.flatMap String.utf8EncodeChar).toByteArray :=
    String.utf8Encode_toList.symm
  rw [utf8, hbytes, List.data_toByteArray]

/-- A text of ASCII characters takes one byte for each. -/
theorem length_utf8 {s : String} (h : ∀ c ∈ s.toList, c.val ≤ 127) :
    (utf8 s).length = s.toList.length := by
  rw [utf8_eq]
  generalize s.toList = cs at h ⊢
  induction cs with
  | nil => rfl
  | cons c cs ih =>
      have hc : c.utf8Size = 1 := Char.utf8Size_eq_one_iff.mpr (h c List.mem_cons_self)
      have hcs := ih fun d hd => h d (List.mem_cons_of_mem _ hd)
      rw [List.flatMap_cons, List.length_append, String.length_utf8EncodeChar, hc, hcs,
        List.length_cons, Nat.add_comm]

/-- The first bytes of an ASCII text are its first characters. -/
theorem take_utf8 {cs : List Char} (h : ∀ c ∈ cs, c.val ≤ 127) (k : ℕ) :
    (utf8 (String.ofList cs)).take k = utf8 (String.ofList (cs.take k)) := by
  rw [utf8_eq, utf8_eq, String.toList_ofList, String.toList_ofList]
  induction cs generalizing k with
  | nil => simp
  | cons c cs ih =>
      have hone : (String.utf8EncodeChar c).length = 1 := by
        rw [String.length_utf8EncodeChar, Char.utf8Size_eq_one_iff]
        exact h c List.mem_cons_self
      cases k with
      | zero => simp
      | succ k =>
          rw [List.take_succ_cons, List.flatMap_cons, List.flatMap_cons, List.take_append, hone,
            List.take_of_length_le (by omega), Nat.add_sub_cancel,
            ih (fun c hc => h c (List.mem_cons_of_mem _ hc))]

/-! ## Filling a buffer -/

/-- Write `bs` into `buf` at `off`, as a read into `&mut buf[off..]` does. -/
def overwrite (buf : Bytes) (off : ℕ) (bs : Bytes) : Bytes :=
  buf.take off ++ bs ++ buf.drop (off + bs.length)

/-- A write that fits into the buffer keeps the length of the buffer. -/
theorem length_overwrite {buf bs : Bytes} {off : ℕ} (h : off + bs.length ≤ buf.length) :
    (overwrite buf off bs).length = buf.length := by
  simp only [overwrite, List.length_append, List.length_take, List.length_drop]
  omega

/-- After a write at `off`, the part of the buffer up to its end is what stood before `off`, followed
by what was written. -/
theorem take_overwrite {buf bs : Bytes} {off : ℕ} (h : off ≤ buf.length) :
    (overwrite buf off bs).take (off + bs.length) = buf.take off ++ bs := by
  have hlen : (buf.take off ++ bs).length = off + bs.length := by
    rw [List.length_append, List.length_take, min_eq_left h]
  rw [overwrite, ← hlen, List.take_left]

/-! ## Strings of a fixed length -/

/-- `[u8; n]`: a string of exactly `n` bytes. The length is part of the type, so that a key or a nonce
of the wrong length cannot be built. -/
def Arr (n : ℕ) : Type := { bs : Bytes // bs.length = n }

/-- Whether two arrays of bytes are equal can be computed. -/
instance (n : ℕ) : DecidableEq (Arr n) := inferInstanceAs (DecidableEq { bs : Bytes // bs.length = n })

namespace Arr

variable {m n : ℕ}

@[simp] theorem length_val (a : Arr n) : a.val.length = n := a.property

/-- A string of bytes as one of length `n`, if that is its length. -/
def ofBytes (n : ℕ) (bs : Bytes) : Option (Arr n) := if h : bs.length = n then some ⟨bs, h⟩ else none

/-- The `n` bytes of a string from `off` on, as a string of that length of its own; the bound says
that they are all there. -/
def slice (a : Arr m) (off n : ℕ) (h : off + n ≤ m) : Arr n :=
  ⟨(a.val.drop off).take n, by rw [List.length_take, List.length_drop, a.length_val]; omega⟩

/-- A string of the right length is taken as it is. -/
theorem ofBytes_val (a : Arr n) : ofBytes n a.val = some a := by
  rw [ofBytes, dif_pos a.length_val]
  rfl

/-- What was taken as a string of length `n` is that string. -/
theorem val_of_ofBytes {bs : Bytes} {a : Arr n} (h : ofBytes n bs = some a) : a.val = bs := by
  unfold ofBytes at h
  split at h
  · cases h
    rfl
  · cases h

/-- The part that was put there is what is found there. -/
theorem slice_eq {a : Arr m} {off n : ℕ} {h : off + n ≤ m} {pre suf : Bytes} {b : Arr n}
    (hpre : pre.length = off) (ha : a.val = pre ++ b.val ++ suf) : a.slice off n h = b := by
  apply Subtype.ext
  show (a.val.drop off).take n = b.val
  rw [ha, List.append_assoc, ← hpre, List.drop_left, List.take_append_of_le_length (by simp),
    List.take_of_length_le (by simp)]

/-- Two strings of fixed lengths one after the other determine both. -/
theorem append_inj {a a' : Arr n} {bs bs' : Bytes} (h : a.val ++ bs = a'.val ++ bs') :
    a = a' ∧ bs = bs' := by
  obtain ⟨ha, hbs⟩ := List.append_inj h (by rw [a.length_val, a'.length_val])
  exact ⟨Subtype.ext ha, hbs⟩

end Arr

/-! ## Hexadecimal text -/

/-- The digit of a half-byte in lower case: `0` to `9`, then `a` to `f`. -/
def hexDigit (n : ℕ) : Char := if n < 10 then Char.ofNat (48 + n) else Char.ofNat (87 + n)

/-- The half-byte that a hexadecimal digit stands for, in either case, and nothing for any other
character. -/
def hexValue (c : Char) : Option ℕ :=
  if '0' ≤ c ∧ c ≤ '9' then some (c.toNat - 48)
  else if 'a' ≤ c ∧ c ≤ 'f' then some (c.toNat - 87)
  else if 'A' ≤ c ∧ c ≤ 'F' then some (c.toNat - 55)
  else none

/-- `hex::encode`: the two digits of each byte in turn, the upper half first, in lower case. -/
def hexEncode (bs : Bytes) : String :=
  String.ofList (bs.flatMap fun b => [hexDigit (b.toNat / 16), hexDigit (b.toNat % 16)])

/-- The bytes of a list of digits, two for each byte. -/
def hexPairs : List Char → Option Bytes
  | [] => some []
  | [_] => none
  | hi :: lo :: rest => do
      let h ← hexValue hi
      let l ← hexValue lo
      let bs ← hexPairs rest
      some (UInt8.ofNat (16 * h + l) :: bs)

/-- `hex::decode`: the bytes of a text of digits, or nothing if a character is none or their number is
odd. -/
def hexDecode (s : String) : Option Bytes := hexPairs s.toList

/-- Every digit that is written reads back as the half-byte it was written for. -/
theorem hexValue_hexDigit {n : ℕ} (h : n < 16) : hexValue (hexDigit n) = some n := by
  revert n
  decide

/-- **Decoding undoes encoding**: the digits that are written for some bytes read back as these
bytes. -/
theorem hexDecode_hexEncode (bs : Bytes) : hexDecode (hexEncode bs) = some bs := by
  rw [hexDecode, hexEncode, String.toList_ofList]
  induction bs with
  | nil => rfl
  | cons b bs ih =>
      have hhi : b.toNat / 16 < 16 := by
        have := b.toNat_lt
        omega
      have hlo : b.toNat % 16 < 16 := Nat.mod_lt _ (by decide)
      have hbyte : UInt8.ofNat (16 * (b.toNat / 16) + b.toNat % 16) = b := by
        rw [Nat.div_add_mod, UInt8.ofNat_toNat]
      rw [List.flatMap_cons, List.cons_append, List.cons_append, List.nil_append, hexPairs,
        hexValue_hexDigit hhi, hexValue_hexDigit hlo, ih]
      simp only [Option.bind_eq_bind, Option.bind_some, hbyte]

/-- The text has two digits for each byte. -/
theorem length_hexEncode (bs : Bytes) : (hexEncode bs).length = 2 * bs.length := by
  rw [hexEncode, String.length_ofList]
  induction bs with
  | nil => rfl
  | cons b bs ih =>
      rw [List.flatMap_cons, List.length_append, ih, List.length_cons]
      simp only [List.length_cons, List.length_nil]
      omega

/-- Hexadecimal digits are ASCII, so that a text of them is as long in bytes as in characters. -/
theorem le_of_hexValue {c : Char} {n : ℕ} (h : hexValue c = some n) : c.val ≤ 127 := by
  unfold hexValue at h
  split at h
  · next hc => exact UInt32.le_trans hc.2 (by decide)
  · split at h
    · next hc => exact UInt32.le_trans hc.2 (by decide)
    · split at h
      · next hc => exact UInt32.le_trans hc.2 (by decide)
      · cases h

/-- Text that decodes is made of digits, two for each byte. -/
theorem hexPairs_some {cs : List Char} {bs : Bytes} (h : hexPairs cs = some bs) :
    cs.length = 2 * bs.length ∧ ∀ c ∈ cs, c.val ≤ 127 := by
  fun_induction hexPairs cs generalizing bs with
  | case1 =>
      cases h
      simp
  | case2 => cases h
  | case3 hi lo rest ih =>
      simp only [Option.bind_eq_bind, Option.bind_eq_some_iff, Option.some.injEq] at h
      obtain ⟨a, ha, b, hb, bs', hbs, rfl⟩ := h
      obtain ⟨hlen, hascii⟩ := ih hbs
      refine ⟨by simp only [List.length_cons, hlen]; omega, ?_⟩
      intro c hc
      rcases List.mem_cons.mp hc with rfl | hc
      · exact le_of_hexValue ha
      · rcases List.mem_cons.mp hc with rfl | hc
        · exact le_of_hexValue hb
        · exact hascii c hc

/-- In a text that decodes every character is a hexadecimal digit. -/
theorem hexValue_of_hexPairs {cs : List Char} {bs : Bytes} (h : hexPairs cs = some bs) {c : Char}
    (hc : c ∈ cs) : hexValue c ≠ none := by
  fun_induction hexPairs cs generalizing bs with
  | case1 => cases hc
  | case2 => cases h
  | case3 hi lo rest ih =>
      simp only [Option.bind_eq_bind, Option.bind_eq_some_iff] at h
      obtain ⟨a, ha, b, hb, bs', hbs, -⟩ := h
      rcases List.mem_cons.mp hc with rfl | hc
      · rw [ha]
        exact Option.some_ne_none a
      · rcases List.mem_cons.mp hc with rfl | hc
        · rw [hb]
          exact Option.some_ne_none b
        · exact ih hbs hc

/-- A text of letters, digits and hyphens only: no quote, no separator and no line break can occur in
it. -/
def Plain (s : String) : Prop := ∀ c ∈ s.toList, c.isAlphanum = true ∨ c = '-'

/-- Letters and digits stand in the three ASCII ranges of upper case, lower case and digits. All that
is needed of them later is this, as numbers. -/
theorem alphanum_toNat {c : Char} (h : c.isAlphanum = true) :
    ((65 ≤ c.toNat ∧ c.toNat ≤ 90) ∨ 97 ≤ c.toNat ∧ c.toNat ≤ 122) ∨ 48 ≤ c.toNat ∧ c.toNat ≤ 57 := by
  change ((decide (65 ≤ c.val ∧ c.val ≤ 90) ||
    (decide (97 ≤ c.val) && decide (c.val ≤ 122))) ||
    (decide (48 ≤ c.val) && decide (c.val ≤ 57))) = true at h
  simp only [Bool.or_eq_true, Bool.and_eq_true, decide_eq_true_eq, UInt32.le_iff_toNat_le] at h
  exact h

/-- The digit of a half-byte is a letter or a digit of ASCII. -/
theorem plain_hexDigit {n : ℕ} (h : n < 16) : (hexDigit n).isAlphanum = true := by
  revert n
  decide

/-- Hexadecimal text consists of letters and digits alone. -/
theorem plain_hexEncode (bs : Bytes) : Plain (hexEncode bs) := by
  intro c hc
  rw [hexEncode, String.toList_ofList] at hc
  obtain ⟨b, -, hb⟩ := List.mem_flatMap.mp hc
  have hb' := b.toNat_lt
  rcases List.mem_cons.mp hb with rfl | hb
  · exact Or.inl (plain_hexDigit (by omega))
  · rw [List.mem_singleton.mp hb]
    exact Or.inl (plain_hexDigit (by omega))

end Bytes

/-- **A library for hexadecimal text**, with what is documented of one: it writes two digits for each
byte, letters and digits of ASCII, and reads its own text back; any text that it reads has two characters
of ASCII for each byte. -/
structure HexCodec where
  /-- `hex::encode`: the text of some bytes. -/
  encode : Bytes → String
  /-- `hex::decode`: the bytes a text stands for, or nothing if it is not hexadecimal. -/
  decode : String → Option Bytes
  decode_encode : ∀ bs, decode (encode bs) = some bs
  length_encode : ∀ bs, (encode bs).length = 2 * bs.length
  plain_encode : ∀ bs, Bytes.Plain (encode bs)
  decode_some : ∀ s bs, decode s = some bs →
    s.toList.length = 2 * bs.length ∧ ∀ c ∈ s.toList, c.val ≤ 127

namespace HexCodec

/-- Different bytes have different texts, as the text decodes to the bytes it was made from. -/
theorem encode_injective (hex : HexCodec) : Function.Injective hex.encode := by
  intro a b h
  have hdecode := congrArg hex.decode h
  rw [hex.decode_encode, hex.decode_encode] at hdecode
  exact Option.some.inj hdecode

/-- Hexadecimal text takes two bytes for each byte it stands for. -/
theorem length_utf8_of_decode (hex : HexCodec) {s : String} {bs : Bytes} (h : hex.decode s = some bs) :
    (Bytes.utf8 s).length = 2 * bs.length := by
  obtain ⟨hlen, hascii⟩ := hex.decode_some s bs h
  rw [Bytes.length_utf8 hascii, hlen]

/-- The library that writes lower case and reads either. -/
def standard : HexCodec where
  encode := Bytes.hexEncode
  decode := Bytes.hexDecode
  decode_encode := Bytes.hexDecode_hexEncode
  length_encode := Bytes.length_hexEncode
  plain_encode := Bytes.plain_hexEncode
  decode_some _ _ := Bytes.hexPairs_some

end HexCodec
