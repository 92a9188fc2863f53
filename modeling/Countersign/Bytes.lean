/-!
# Byte strings and their readings

Everything that is hashed, signed, stored or sent is a list of bytes. This module gives the three
readings of such a list that the rest of the library uses:

* **as a number**, big-endian or little-endian, of a fixed width (`ofNatBE`, `toNatBE`,
  `ofNatLE`, `toNatLE`): writing never fails, it keeps the number modulo `256 ^ width`;
* **as text**, which is UTF-8 or nothing (`ofText`, `toText?`);
* **as a shape**, padded or cut into pieces of one size (`padRight`, `chunks`).

The main facts are that writing has the stated width (`length_ofNatBE`) and that text reads back
(`toText?_ofText`).
-/

namespace Countersign

/-- A byte string. -/
abbrev Bytes := List UInt8

namespace Bytes

/-! ### Numbers -/

/-- Big-endian writing. The number modulo `256 ^ width` in exactly `width` bytes, the most
significant first. -/
def ofNatBE : (width : Nat) → Nat → Bytes
  | 0, _ => []
  | width + 1, n => ofNatBE width (n / 256) ++ [UInt8.ofNat n]

/-- Big-endian reading. The number whose base-256 digits are the bytes, the first the most
significant. -/
def toNatBE (bytes : Bytes) : Nat :=
  bytes.foldl (fun n b => 256 * n + b.toNat) 0

/-- Little-endian writing. The number modulo `256 ^ width`, the least significant byte first. -/
def ofNatLE : (width : Nat) → Nat → Bytes
  | 0, _ => []
  | width + 1, n => UInt8.ofNat n :: ofNatLE width (n / 256)

/-- Little-endian reading. -/
def toNatLE (bytes : Bytes) : Nat :=
  bytes.foldr (fun b n => 256 * n + b.toNat) 0

@[simp] theorem length_ofNatBE (width n : Nat) : (ofNatBE width n).length = width := by
  induction width generalizing n with
  | zero => rfl
  | succ width ih => simp [ofNatBE, ih]

@[simp] theorem length_ofNatLE (width n : Nat) : (ofNatLE width n).length = width := by
  induction width generalizing n with
  | zero => rfl
  | succ width ih => simp [ofNatLE, ih]

@[simp] theorem toNatBE_nil : toNatBE [] = 0 := rfl

@[simp] theorem toNatBE_concat (bytes : Bytes) (b : UInt8) :
    toNatBE (bytes ++ [b]) = 256 * toNatBE bytes + b.toNat := by
  simp [toNatBE]

/-- What is written reads back modulo the range of the width. -/
theorem toNatBE_ofNatBE (width n : Nat) : toNatBE (ofNatBE width n) = n % Nat.pow 256 width := by
  induction width generalizing n with
  | zero => simp [ofNatBE, Nat.mod_one]
  | succ width ih =>
    have h : (UInt8.ofNat n).toNat = n % 256 := by simp
    have power : Nat.pow 256 (width + 1) = 256 * Nat.pow 256 width := Nat.mul_comm _ _
    rw [ofNatBE, toNatBE_concat, ih, h, power, Nat.mod_mul, Nat.add_comm]

/-- A number within the range of the width is read back as it is. -/
theorem toNatBE_ofNatBE_of_lt {width n : Nat} (h : n < Nat.pow 256 width) :
    toNatBE (ofNatBE width n) = n := by
  rw [toNatBE_ofNatBE, Nat.mod_eq_of_lt h]

/-- **Reading and writing again** gives back the bytes. -/
theorem ofNatBE_toNatBE (bytes : Bytes) : ofNatBE bytes.length (toNatBE bytes) = bytes := by
  induction h : bytes.length generalizing bytes with
  | zero => rw [List.length_eq_zero_iff.mp h]; rfl
  | succ n ih =>
    -- The last byte is the remainder, and the quotient stands for those before it.
    rcases List.eq_nil_or_concat bytes with rfl | ⟨front, last, rfl⟩
    · cases h
    rw [List.concat_eq_append] at h ⊢
    have hlength : front.length = n := by simpa using h
    have hlast := last.toNat_lt
    have hquotient : (256 * toNatBE front + last.toNat) / 256 = toNatBE front := by omega
    have hremainder : UInt8.ofNat (256 * toNatBE front + last.toNat) = last := by
      rw [← UInt8.toNat_inj, UInt8.toNat_ofNat']
      omega
    rw [toNatBE_concat, ofNatBE, hquotient, hremainder, ih front hlength]

theorem toNatBE_lt (bytes : Bytes) : toNatBE bytes < Nat.pow 256 bytes.length := by
  have h := toNatBE_ofNatBE bytes.length (toNatBE bytes)
  rw [ofNatBE_toNatBE] at h
  rw [h]
  exact Nat.mod_lt _ (Nat.pow_pos (by decide))

/-! ### Text -/

/-- The UTF-8 bytes of a text. -/
def ofText (text : String) : Bytes :=
  text.toByteArray.data.toList

/-- The text that a byte string spells in UTF-8, if it spells one. -/
def toText? (bytes : Bytes) : Option String :=
  String.fromUTF8? (ByteArray.mk bytes.toArray)

/-- The bytes of some characters one after the other. -/
theorem ofText_ofList (cs : List Char) :
    ofText (String.ofList cs) = cs.flatMap String.utf8EncodeChar := by
  simp [ofText, List.utf8Encode]

/-- A text is spelt by its own bytes. -/
@[simp] theorem toText?_ofText (text : String) : toText? (ofText text) = some text := by
  simp only [toText?, ofText, Array.toArray_toList, String.fromUTF8?]
  exact dif_pos text.isValidUTF8

/-! ### Shapes -/

/-- Zeros on the right up to `width` bytes; a longer byte string stays as it is. The words of a text
that is encoded for the contract are filled up in this way. -/
def padRight (width : Nat) (bytes : Bytes) : Bytes :=
  bytes ++ List.replicate (width - bytes.length) 0

/-- Pieces of `size` bytes, the last one perhaps shorter, at most `count` of them. Counting the
pieces makes the recursion structural. -/
def chunks (size : Nat) : (count : Nat) → Bytes → List Bytes
  | 0, _ => []
  | count + 1, bytes => bytes.take size :: chunks size count (bytes.drop size)

/-- Bytewise exclusive or, as long as the shorter of the two. -/
def xor (a b : Bytes) : Bytes :=
  List.zipWith (· ^^^ ·) a b

end Bytes

end Countersign
