import Countersign.Text.Hex
import Countersign.Crypto.Keccak

/-!
# Words and addresses

The two fixed-width values of the bridge contract: words of 256 bits and account addresses of 160
bits. Both are written in lower-case hexadecimal behind `0x` in records and keys; shown to a person,
an address carries a checksum in the case of its letters (`Address.checksummed`).

Reading takes the digits in any case and forgives a missing prefix (`Address.parse`, `Word.parse`).
-/

namespace Countersign

/-- A word of the contract: 256 bits, with the arithmetic of such. -/
abbrev Word := BitVec 256

namespace Word

/-- The 32 bytes of a word, big-endian. -/
def toBytes (w : Word) : Bytes :=
  Bytes.ofNatBE 32 w.toNat

/-- The word of a byte string, which should have 32 bytes. -/
def ofBytes (bytes : Bytes) : Word :=
  BitVec.ofNat 256 (Bytes.toNatBE bytes)

/-- The word of exactly 32 bytes. -/
def ofBytes? (bytes : Bytes) : Option Word :=
  if bytes.length = 32 then some (ofBytes bytes) else none

/-- A count as a word. -/
def ofUInt64 (n : UInt64) : Word :=
  BitVec.ofNat 256 n.toNat

/-- Lower-case hexadecimal behind `0x`. -/
def render (w : Word) : String :=
  Hex.encodePrefixed w.toBytes

/-- Reading hexadecimal in any case, behind an optional `0x` or `0X`. -/
def parse (text : Bytes) : Except Hex.Fault Word :=
  (Hex.decodeExactly 32 (Hex.stripAnyPrefix text)).map ofBytes

@[simp] theorem length_toBytes (w : Word) : w.toBytes.length = 32 := by
  simp [toBytes]

/-- A word is given back by its bytes. -/
@[simp] theorem ofBytes_toBytes (w : Word) : ofBytes w.toBytes = w := by
  rw [ofBytes, toBytes, Bytes.toNatBE_ofNatBE_of_lt w.isLt]
  simp

end Word

/-- An account address: 160 bits. It is a type of its own, so that no number is taken for an
address. -/
structure Address where
  bits : BitVec 160
deriving DecidableEq

namespace Address

/-- The 20 bytes of an address, big-endian. -/
def toBytes (a : Address) : Bytes :=
  Bytes.ofNatBE 20 a.bits.toNat

/-- The address of a byte string, which should have 20 bytes. -/
def ofBytes (bytes : Bytes) : Address :=
  ⟨BitVec.ofNat 160 (Bytes.toNatBE bytes)⟩

/-- The address of nobody. -/
def zero : Address := ⟨0⟩

/-- An address as a word of the contract, with zeros in front. -/
def toWord (a : Address) : Word :=
  a.bits.setWidth 256

/-- Lower-case hexadecimal behind `0x`. -/
def render (a : Address) : String :=
  Hex.encodePrefixed a.toBytes

/-- Reading hexadecimal in any case, behind an optional `0x` or `0X`. -/
def parse (text : Bytes) : Except Hex.Fault Address :=
  (Hex.decodeExactly 20 (Hex.stripAnyPrefix text)).map ofBytes

/-- The checksummed form. A letter among the digits is upper case exactly if the half byte at its
place in the hash of the lower-case digits is at least 8. -/
def checksummed (a : Address) : String :=
  let digits := a.toBytes.flatMap Hex.digits
  let hash := Keccak.hash (digits.map fun c => UInt8.ofNat c.toNat)
  let halves := hash.flatMap fun b => [b.toNat / 16, b.toNat % 16]
  String.ofList ('0' :: 'x' :: (digits.zip halves).map fun (c, h) => if 8 ≤ h then c.toUpper else c)

@[simp] theorem length_toBytes (a : Address) : a.toBytes.length = 20 := by
  simp [toBytes]

/-- An address is given back by its bytes. -/
@[simp] theorem ofBytes_toBytes (a : Address) : ofBytes a.toBytes = a := by
  obtain ⟨bits⟩ := a
  rw [ofBytes, toBytes, Bytes.toNatBE_ofNatBE_of_lt bits.isLt]
  simp

end Address

end Countersign
