import Countersign.Proofs.Signature.Canonical
import Countersign.Proofs.Signature.Digests
import Countersign.Proofs.Text.Digits

/-!
# Taking signatures apart

What becomes of a text that should be a signature is settled in an order (`Vrs.Decomposes`): is it
digits, are these 65 bytes, is the recovery byte known, is `s` in the lower half of the group's
order. The first of these that fails gives the error; if none does, the parts come out with the
recovery byte in its normal form. `Vrs.parse_eq_iff` says that nothing else happens.

Any 65 bytes are the bytes of some parts (`Vrs.exists_toBytes`), so all of it can be said of parts,
whatever their recovery byte is.

From a signature a second one is made by a change of sign: `s` becomes the order minus `s`, and the
recovery byte that of the other parity (`Vrs.Twins`). As the order is odd, exactly one of the two is
in the lower half, and so exactly one is accepted. That makes signatures canonical
(`Vrs.parse_takes_apart`).
-/

namespace Countersign

/-- A text without one leading `0x`. A second one is left, and is no digits. -/
def unprefixed : List Char → List Char
  | '0' :: 'x' :: digits => digits
  | text => text

theorem unprefixed_append (digits : List Char) : unprefixed (['0', 'x'] ++ digits) = digits :=
  rfl

namespace Hex

/-- Digits of some bytes, two for each, in either case. Several texts may spell the same bytes,
which is why signatures are compared as parts. -/
def Spells (text : List Char) (bytes : Bytes) : Prop :=
  lowerCase text = bytes.flatMap digits

/-- The prefix is taken from the bytes as it is from the text. -/
theorem stripPrefix_ofText (text : List Char) :
    stripPrefix (Bytes.ofText (String.ofList text)) =
      Bytes.ofText (String.ofList (unprefixed text)) := by
  unfold unprefixed
  split
  · rw [Bytes.ofText_ofList, Bytes.ofText_ofList]
    rfl
  · next hother =>
    unfold stripPrefix
    split
    · next rest hbytes =>
      obtain ⟨digits, hdigits, -⟩ := exists_of_ofText_eq_zero_cons hbytes (by decide)
      exact absurd hdigits (hother digits)
    · rfl

end Hex

theorem decodeSignature_eq (text : String) :
    decodeSignature text =
      match Hex.decode (Bytes.ofText (String.ofList (unprefixed text.toList))) with
      | .ok bytes => .ok bytes
      | .error fault => .error (.malformed (signatureFault fault)) := by
  rw [← Hex.stripPrefix_ofText, String.ofList_toList]
  rfl

namespace Vrs

/-! ### Parts and their bytes -/

/-- **Any 65 bytes are those of some parts.** The parts are cut out in their order, and nothing is
left over. -/
theorem exists_toBytes {bytes : Bytes} (h : bytes.length = signatureLength) :
    ∃ y : Vrs, y.toBytes = bytes := by
  have hlength : bytes.length = 65 := h
  have hlast : bytes.drop 64 = [bytes.getD 64 0] := by
    have hlt : 64 < bytes.length := by omega
    rw [List.drop_eq_getElem_cons hlt, List.drop_of_length_le (by omega),
      List.getD_eq_getElem?_getD, List.getElem?_eq_getElem hlt, Option.getD_some]
  refine ⟨⟨bytes.getD 64 0, .ofBytes (bytes.take 32), .ofBytes ((bytes.drop 32).take 32)⟩, ?_⟩
  have hr : (bytes.take 32).length = 32 := by
    rw [List.length_take]
    omega
  have hs : ((bytes.drop 32).take 32).length = 32 := by
    rw [List.length_take, List.length_drop]
    omega
  show Word.toBytes _ ++ (Word.toBytes _ ++ [bytes.getD 64 0]) = bytes
  rw [Word.toBytes_ofBytes hr, Word.toBytes_ofBytes hs, ← hlast]
  calc bytes.take 32 ++ ((bytes.drop 32).take 32 ++ bytes.drop 64)
      = bytes.take 32 ++ ((bytes.drop 32).take 32 ++ (bytes.drop 32).drop 32) := by
        rw [List.drop_drop]
    _ = bytes := by rw [List.take_append_drop, List.take_append_drop]

/-- Parts are told apart by their bytes, as each part stands at its own place. -/
theorem toBytes_injective {y z : Vrs} (h : y.toBytes = z.toBytes) : y = z := by
  obtain ⟨hr, hrest⟩ := List.append_inj h (by simp)
  obtain ⟨hs, hv⟩ := List.append_inj hrest (by simp)
  have hr := congrArg Word.ofBytes hr
  have hs := congrArg Word.ofBytes hs
  simp only [Word.ofBytes_toBytes] at hr hs
  cases y
  cases z
  cases hr
  cases hs
  cases hv
  rfl

/-- The recovery bytes that are known: two from before the offset of 27 was added, and two with
it. -/
def recoveryBytes : List UInt8 :=
  [0, 1, 27, 28]

/-- A known recovery byte in its normal form: 0 is read as 27, and 1 as 28. -/
def normalRecovery (v : UInt8) : UInt8 :=
  if v = 0 then 27 else if v = 1 then 28 else v

theorem normalRecovery?_eq (v : UInt8) :
    normalRecovery? v = if v ∈ recoveryBytes then some (normalRecovery v) else none := by
  have hknown : v ∈ recoveryBytes ↔ v = 0 ∨ v = 1 ∨ v = 27 ∨ v = 28 := by
    simp [recoveryBytes]
  unfold normalRecovery? normalRecovery
  by_cases hzero : v = 0
  · rw [if_pos hzero, if_pos hzero, if_pos (hknown.mpr (.inl hzero))]
  by_cases hone : v = 1
  · rw [if_neg hzero, if_neg hzero, if_pos hone, if_pos hone,
      if_pos (hknown.mpr (.inr (.inl hone)))]
  rw [if_neg hzero, if_neg hzero, if_neg hone, if_neg hone]
  simp only [hknown, or_iff_right hzero, or_iff_right hone]

/-- A signature with its recovery byte in the normal form, `r` and `s` as they are. -/
def normal (y : Vrs) : Vrs :=
  { y with v := normalRecovery y.v }

/-- The bytes change in the last place only. -/
theorem toBytes_normal (y : Vrs) : y.normal.toBytes = y.toBytes.set 64 (normalRecovery y.v) := by
  show y.r.toBytes ++ (y.s.toBytes ++ [normalRecovery y.v]) =
    (y.r.toBytes ++ (y.s.toBytes ++ [y.v])).set 64 (normalRecovery y.v)
  rw [List.set_append_right _ _ (by simp), List.set_append_right _ _ (by simp)]
  simp

/-! ### What becomes of a text -/

/-- **What becomes of a text** without a prefix, the cases in the order in which they are tried.
Each case has the conditions of its own test only; that the tests before it were passed can be seen
from what it speaks of. -/
inductive Decomposes (text : List Char) : Except SignatureError Vrs → Prop
  /-- It is not made of the digits of some bytes. -/
  | noDigits {fault : Hex.Fault} (hfault : Hex.FaultOf (Bytes.ofText (String.ofList text)) fault) :
      Decomposes text (.error (.malformed (signatureFault fault)))
  | wrongLength {bytes : Bytes} (hspells : Hex.Spells text bytes) (hlength : bytes.length ≠ 65) :
      Decomposes text (.error (.malformed ("expected 65 bytes, got " ++ toString bytes.length)))
  | unknownRecovery {y : Vrs} (hspells : Hex.Spells text y.toBytes) (hv : y.v ∉ recoveryBytes) :
      Decomposes text (.error (.invalidRecoveryByte y.v))
  | outOfRange {y : Vrs} (hspells : Hex.Spells text y.toBytes) (hv : y.v ∈ recoveryBytes)
      (hs : y.s.toNat = 0 ∨ Secp256k1.order / 2 < y.s.toNat) :
      Decomposes text (.error .malleable)
  | canonical {y : Vrs} (hspells : Hex.Spells text y.toBytes) (hv : y.v ∈ recoveryBytes)
      (hpos : 1 ≤ y.s.toNat) (hle : y.s.toNat ≤ Secp256k1.order / 2) :
      Decomposes text (.ok y.normal)

variable {text : String} {y z : Vrs}

/-- A text that spells bytes is read as these, in whichever case its digits are. -/
theorem parse_of_spells {bytes : Bytes} (h : Hex.Spells (unprefixed text.toList) bytes) :
    parse text = ofBytes bytes := by
  rw [parse, decodeSignature_eq, Hex.decode_eq_ok_iff.mpr h]

theorem ofBytes_of_notMem (hv : y.v ∉ recoveryBytes) :
    ofBytes y.toBytes = .error (.invalidRecoveryByte y.v) := by
  rw [ofBytes_toBytes_eq, normalRecovery?_eq, if_neg hv]

theorem ofBytes_of_outOfRange (hv : y.v ∈ recoveryBytes)
    (hs : y.s.toNat = 0 ∨ Secp256k1.order / 2 < y.s.toNat) :
    ofBytes y.toBytes = .error .malleable := by
  rw [ofBytes_toBytes_eq, normalRecovery?_eq, if_pos hv, malleabilityBound_eq]
  exact if_pos hs

theorem ofBytes_of_inRange (hv : y.v ∈ recoveryBytes) (hpos : 1 ≤ y.s.toNat)
    (hle : y.s.toNat ≤ Secp256k1.order / 2) : ofBytes y.toBytes = .ok y.normal := by
  rw [ofBytes_toBytes_eq, normalRecovery?_eq, if_pos hv, malleabilityBound_eq]
  refine if_neg (not_or.mpr ⟨Nat.ne_of_gt hpos, ?_⟩)
  exact Nat.not_le.mpr (Nat.lt_succ_of_le hle)

/-- **Nothing else becomes of a text.** From left to right the tests are made one by one; from right
to left each case says enough to go through them. -/
theorem parse_eq_iff {result : Except SignatureError Vrs} :
    parse text = result ↔ Decomposes (unprefixed text.toList) result := by
  constructor
  · -- The tests in their order, each case with the error of the first that fails.
    rintro rfl
    cases hdecode : Hex.decode (Bytes.ofText (String.ofList (unprefixed text.toList))) with
    | error fault =>
      rw [parse, decodeSignature_eq, hdecode]
      exact .noDigits (Hex.decode_eq_error_iff.mp hdecode)
    | ok bytes =>
      have hspells : Hex.Spells (unprefixed text.toList) bytes := Hex.decode_eq_ok_iff.mp hdecode
      rw [parse_of_spells hspells]
      by_cases hlength : bytes.length = signatureLength
      · obtain ⟨y, rfl⟩ := exists_toBytes hlength
        by_cases hv : y.v ∈ recoveryBytes
        · by_cases hs : y.s.toNat = 0 ∨ Secp256k1.order / 2 < y.s.toNat
          · rw [ofBytes_of_outOfRange hv hs]
            exact .outOfRange hspells hv hs
          · obtain ⟨hpos, hle⟩ := not_or.mp hs
            have hpos := Nat.one_le_iff_ne_zero.mpr hpos
            have hle := Nat.not_lt.mp hle
            rw [ofBytes_of_inRange hv hpos hle]
            exact .canonical hspells hv hpos hle
        · rw [ofBytes_of_notMem hv]
          exact .unknownRecovery hspells hv
      · rw [ofBytes, if_pos hlength]
        exact .wrongLength hspells hlength
  · -- Each case says how its text is read, and this is then computed.
    intro h
    cases h with
    | noDigits hfault =>
      rw [parse, decodeSignature_eq, Hex.decode_eq_error_iff.mpr hfault]
    | wrongLength hspells hlength =>
      rw [parse_of_spells hspells]
      exact if_pos hlength
    | unknownRecovery hspells hv =>
      rw [parse_of_spells hspells, ofBytes_of_notMem hv]
    | outOfRange hspells hv hs =>
      rw [parse_of_spells hspells, ofBytes_of_outOfRange hv hs]
    | canonical hspells hv hpos hle =>
      rw [parse_of_spells hspells, ofBytes_of_inRange hv hpos hle]

/-! ### Twins -/

/-- **Two signatures that differ in the sign**: they have the same `r`, their `s` come to the order
of the group together, and their recovery bytes are of different parity. Whoever sees one of them
can compute the other without a key. -/
structure Twins (y z : Vrs) : Prop where
  v_mem : y.v ∈ recoveryBytes
  v_mem' : z.v ∈ recoveryBytes
  parity : normalRecovery y.v ≠ normalRecovery z.v
  r_eq : y.r = z.r
  s_pos : 0 < y.s.toNat
  s_lt : y.s.toNat < Secp256k1.order
  s_add : y.s.toNat + z.s.toNat = Secp256k1.order

/-- A signature with `s` in the group has a twin. It is the one with the order minus `s`. -/
theorem exists_twins (hv : y.v ∈ recoveryBytes) (hpos : 0 < y.s.toNat)
    (hlt : y.s.toNat < Secp256k1.order) : ∃ z, Twins y z := by
  have hother : ∃ w ∈ recoveryBytes, normalRecovery y.v ≠ normalRecovery w := by
    by_cases heven : normalRecovery y.v = 27
    · exact ⟨28, by decide, by rw [heven]; decide⟩
    · exact ⟨27, by decide, heven⟩
  obtain ⟨w, hw, hparity⟩ := hother
  have horder : Secp256k1.order < 2 ^ 256 := by decide
  refine ⟨⟨w, y.r, .ofNat 256 (Secp256k1.order - y.s.toNat)⟩, hv, hw, hparity, rfl, hpos, hlt, ?_⟩
  show y.s.toNat + (BitVec.ofNat 256 (Secp256k1.order - y.s.toNat)).toNat = Secp256k1.order
  rw [BitVec.toNat_ofNat, Nat.mod_eq_of_lt (by omega)]
  omega

/-- **A text of a signature with a known recovery byte** is accepted for its `s` alone. -/
theorem exists_parse_iff (h : Hex.Spells (unprefixed text.toList) y.toBytes)
    (hv : y.v ∈ recoveryBytes) :
    (∃ x, parse text = .ok x) ↔ 1 ≤ y.s.toNat ∧ y.s.toNat ≤ Secp256k1.order / 2 := by
  rw [parse_of_spells h]
  constructor
  · rintro ⟨x, hx⟩
    by_contra hrange
    have hout : y.s.toNat = 0 ∨ Secp256k1.order / 2 < y.s.toNat := by
      by_contra hin
      obtain ⟨hne, hnlt⟩ := not_or.mp hin
      exact hrange ⟨Nat.one_le_iff_ne_zero.mpr hne, Nat.not_lt.mp hnlt⟩
    rw [ofBytes_of_outOfRange hv hout] at hx
    cases hx
  · rintro ⟨hpos, hle⟩
    exact ⟨y.normal, ofBytes_of_inRange hv hpos hle⟩

/-- Of twins exactly one is accepted, since the order is odd, and so no `s` is half of it. -/
theorem Twins.exists_parse_iff_not (h : Twins y z) {text' : String}
    (hy : Hex.Spells (unprefixed text.toList) y.toBytes)
    (hz : Hex.Spells (unprefixed text'.toList) z.toBytes) :
    (∃ x, parse text = .ok x) ↔ ¬ ∃ x, parse text' = .ok x := by
  have hodd : Secp256k1.order = 2 * (Secp256k1.order / 2) + 1 := by decide
  have hadd := h.s_add
  have hpos := h.s_pos
  have hlt := h.s_lt
  rw [exists_parse_iff hy h.v_mem, exists_parse_iff hz h.v_mem']
  omega

/-- **Signatures are taken apart in one way**, and only canonical ones.

* Every text has the outcome that `Decomposes` tells, with the error of the first test that it
  fails.
* In particular a text is accepted exactly if, without one leading `0x`, it spells 65 bytes with a
  known recovery byte and an `s` from 1 to half the order. What comes out has the same bytes, up to
  the normal form of the recovery byte.
* A text that spells the bytes of what came out gives the same again.
* Every signature with a known recovery byte and an `s` in the group has a twin, and of texts of the
  two exactly one is accepted. -/
theorem parse_takes_apart :
    (∀ (text : String) (result : Except SignatureError Vrs),
      parse text = result ↔ Decomposes (unprefixed text.toList) result) ∧
    (∀ (text : String) (x : Vrs), parse text = .ok x ↔
      ∃ y : Vrs, Hex.Spells (unprefixed text.toList) y.toBytes ∧ y.v ∈ recoveryBytes ∧
        1 ≤ y.s.toNat ∧ y.s.toNat ≤ Secp256k1.order / 2 ∧
        x.toBytes = y.toBytes.set 64 (normalRecovery y.v)) ∧
    (∀ (text text' : String) (x : Vrs), parse text = .ok x →
      Hex.Spells (unprefixed text'.toList) x.toBytes → parse text' = .ok x) ∧
    ∀ y : Vrs, y.v ∈ recoveryBytes → 0 < y.s.toNat → y.s.toNat < Secp256k1.order →
      (∃ z, Twins y z) ∧ ∀ z, Twins y z → ∀ text text' : String,
        Hex.Spells (unprefixed text.toList) y.toBytes →
        Hex.Spells (unprefixed text'.toList) z.toBytes →
        ((∃ x, parse text = .ok x) ↔ ¬ ∃ x, parse text' = .ok x) := by
  refine ⟨fun _ _ => parse_eq_iff, fun text x => ?_, fun text text' x hx hspells => ?_,
    fun y hv hpos hlt => ⟨exists_twins hv hpos hlt, ?_⟩⟩
  · rw [parse_eq_iff]
    -- Of the five cases only the last one is a success.
    constructor
    · rintro (_ | _ | _ | _ | ⟨hspells, hv, hpos, hle⟩)
      exact ⟨_, hspells, hv, hpos, hle, toBytes_normal _⟩
    · rintro ⟨y, hspells, hv, hpos, hle, hbytes⟩
      -- The parts are determined by the bytes, so they are the normal form.
      obtain rfl : x = y.normal := toBytes_injective (hbytes.trans (toBytes_normal y).symm)
      exact .canonical hspells hv hpos hle
  · rw [parse_of_spells hspells]
    exact ofBytes_toBytes (canonical_of_parse hx)
  · intro z htwins text text' hy hz
    exact htwins.exists_parse_iff_not hy hz

/-- The text of a signature spells its bytes, and does so behind `0x` as well. So the two texts are
read alike. -/
theorem spells_render (y : Vrs) :
    Hex.Spells (unprefixed y.render.toList) y.toBytes ∧
      Hex.Spells (unprefixed ("0x" ++ y.render).toList) y.toBytes := by
  constructor
  · apply Hex.decode_eq_ok_iff.mp
    rw [← Hex.stripPrefix_ofText, String.ofList_toList, render, Hex.ofText_encode,
      Hex.stripPrefix_digitBytes, ← Hex.ofText_encode]
    exact Hex.decode_encode y.toBytes
  · rw [render, String.toList_append, Hex.encode, String.toList_ofList, String.toList_ofList,
      unprefixed_append]
    exact Hex.lowerCase_flatMap_digits y.toBytes

/-- **A signature and its twin**: the text of the one is accepted, also behind `0x`, and that of the
other is not. -/
theorem parse_takes_apart_keyless :
    keyless.v ∈ recoveryBytes ∧ 0 < keyless.s.toNat ∧ keyless.s.toNat < Secp256k1.order ∧
      parse keyless.render = .ok keyless ∧ parse ("0x" ++ keyless.render) = .ok keyless ∧
      ∃ z, Twins keyless z ∧ (¬ ∃ x, parse z.render = .ok x) ∧
        parse z.render = .error .malleable := by
  have hv : keyless.v ∈ recoveryBytes := by decide
  have hs : keyless.s.toNat = 1 := by decide
  have hhalf : 1 < Secp256k1.order / 2 := by decide
  have hpos : 0 < keyless.s.toNat := by omega
  have hlt : keyless.s.toNat < Secp256k1.order := by omega
  -- The recovery byte is normal already, so the bytes come out unchanged.
  have hbytes : keyless.toBytes = keyless.toBytes.set 64 (normalRecovery keyless.v) := by
    have hnormal : keyless.normal = keyless := by decide
    rw [← toBytes_normal, hnormal]
  obtain ⟨hspells, hprefixed⟩ := spells_render keyless
  obtain ⟨hall, haccepted, hagain, htwins⟩ := parse_takes_apart
  have hparse : parse keyless.render = .ok keyless :=
    (haccepted _ _).mpr ⟨keyless, hspells, hv, hpos, by omega, hbytes⟩
  obtain ⟨⟨z, hz⟩, hone⟩ := htwins keyless hv hpos hlt
  obtain ⟨hspells', -⟩ := spells_render z
  refine ⟨hv, hpos, hlt, hparse, hagain _ _ _ hparse hprefixed, z, hz,
    (hone z hz _ _ hspells hspells').mp ⟨_, hparse⟩, ?_⟩
  -- It is refused for its `s`, which is the order minus one.
  have hadd := hz.s_add
  exact (hall _ _).mpr (.outOfRange hspells' hz.v_mem' (.inr (by omega)))

end Vrs

end Countersign
