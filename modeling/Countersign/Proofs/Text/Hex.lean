import Countersign.Address

/-!
# Words and addresses read back

Every reader of hexadecimal text in the library accepts what the writers write. A text of digits has
no prefix of its own (`Hex.stripAnyPrefix_of_decodePairs`), so it does not matter whether a reader
takes a prefix away first:

* `Address.parse_digits` for the digits alone, as they stand in a key;
* `Address.parse_render` and `Word.parse_render` for the whole text.
-/

namespace Countersign

namespace Bytes

/-- The bytes of a text behind another one stand behind its bytes. -/
@[simp] theorem ofText_append (s t : String) : ofText (s ++ t) = ofText s ++ ofText t := by
  simp [ofText]

end Bytes

namespace Hex

/-- Digits have no prefix, in whatever case: the second character of one is an `x`. -/
theorem stripAnyPrefix_of_decodePairs {text bytes : Bytes} {position : Nat}
    (h : decodePairs position text = .ok bytes) : stripAnyPrefix text = text := by
  unfold stripAnyPrefix
  -- The second byte would have to be a digit and an `x`.
  split
  · next rest =>
    rw [decodePairs] at h
    cases h
  · next rest =>
    rw [decodePairs] at h
    cases h
  · rfl

/-- In particular those that are written have none. -/
theorem stripAnyPrefix_digitBytes (bytes : Bytes) :
    stripAnyPrefix (bytes.flatMap digitBytes) = bytes.flatMap digitBytes :=
  stripAnyPrefix_of_decodePairs (decodePairs_digitBytes 0 bytes)

/-- Digits of the right number are read as the bytes that they were written for. -/
theorem decodeExactly_digitBytes (bytes : Bytes) :
    decodeExactly bytes.length (bytes.flatMap digitBytes) = .ok bytes := by
  rw [decodeExactly, length_flatMap_digitBytes, decodePairs_digitBytes]
  simp

/-- A whole text, prefix and digits, is left with its digits, so both forms are read alike. -/
theorem stripAnyPrefix_encodePrefixed (bytes : Bytes) :
    stripAnyPrefix (Bytes.ofText (encodePrefixed bytes)) = bytes.flatMap digitBytes := by
  rw [encodePrefixed, Bytes.ofText_append, ofText_encode]
  rfl

end Hex

/-- An address is read from its digits. -/
theorem Address.parse_digits (a : Address) :
    Address.parse (Bytes.ofText (Hex.encode a.toBytes)) = .ok a := by
  have h := Hex.decodeExactly_digitBytes a.toBytes
  rw [Address.length_toBytes] at h
  rw [Address.parse, Hex.ofText_encode, Hex.stripAnyPrefix_digitBytes, h]
  simp [Except.map]

/-- An address is read from its text, as it is written with a prefix. -/
theorem Address.parse_render (a : Address) : Address.parse (Bytes.ofText a.render) = .ok a := by
  have h := Hex.decodeExactly_digitBytes a.toBytes
  rw [Address.length_toBytes] at h
  rw [Address.parse, Address.render, Hex.stripAnyPrefix_encodePrefixed, h]
  simp [Except.map]

/-- A word is read from its text, as it is written with a prefix. -/
theorem Word.parse_render (w : Word) : Word.parse (Bytes.ofText w.render) = .ok w := by
  have h := Hex.decodeExactly_digitBytes w.toBytes
  rw [Word.length_toBytes] at h
  rw [Word.parse, Word.render, Hex.stripAnyPrefix_encodePrefixed, h]
  simp [Except.map]

end Countersign
