import Countersign.Proofs.Text.Characters
import Countersign.Proofs.Text.Hex

/-!
# Digits in either case

Reading hexadecimal text makes no difference between upper and lower case, and apart from that there
is one way only to write a byte string: what reads as the bytes is their digits, in either case
(`Hex.decode_eq_ok_iff`, `Hex.decodeExactly_eq_ok_iff`). For an address two prefixes are possible in
addition, or none (`Address.parse_eq_ok_iff`). What is not read has an odd number of bytes, or a
first one that is no digit (`Hex.decode_eq_error_iff`).

A text **in lower case** is its characters under `Char.toLower`, which changes the letters from `A`
to `Z` only.
-/

namespace Countersign

/-- A text in lower case. Two texts that differ in the case of their letters only have the same
one. -/
def lowerCase (cs : List Char) : List Char :=
  cs.map Char.toLower

/-- Lower case is no letter from `A` to `Z`: a character stays as it is, or becomes a letter from
`a` on. -/
theorem toLower_cases (c : Char) : c.toLower = c ∨ 97 ≤ c.toLower.toNat := by
  unfold Char.toLower
  split
  · next hupper =>
    right
    have hlow : 65 ≤ c.val.toNat := hupper.1
    have hhigh : c.val.toNat ≤ 90 := hupper.2
    change 97 ≤ (c.val + ('a'.val - 'A'.val)).toNat
    rw [UInt32.toNat_add]
    change 97 ≤ (c.val.toNat + 32) % 2 ^ 32
    omega
  · exact Or.inl rfl

/-- Characters from `a` on are in lower case already. -/
theorem toLower_of_le {c : Char} (h : 97 ≤ c.toNat) : c.toLower = c := by
  unfold Char.toLower
  split
  · next hupper =>
    have hhigh : c.toNat ≤ 90 := hupper.2
    omega
  · rfl

@[simp] theorem toLower_toLower (c : Char) : c.toLower.toLower = c.toLower := by
  rcases toLower_cases c with hsame | hle
  · rw [hsame, hsame]
  · exact toLower_of_le hle

/-- A character that is no letter has one case only. -/
theorem eq_of_toLower {c d : Char} (h : c.toLower = d) (hd : d.toNat < 97) : c = d := by
  rcases toLower_cases c with hsame | hle
  · exact hsame.symm.trans h
  · rw [h] at hle
    omega

/-- Where no letter stands in lower case, it does not stand in the text. -/
theorem notMem_of_notMem_lowerCase {c : Char} {cs : List Char} (hc : c.toLower = c)
    (h : c ∉ lowerCase cs) : c ∉ cs := by
  intro hmem
  have hlower : c.toLower ∈ lowerCase cs := List.mem_map_of_mem hmem
  rw [hc] at hlower
  exact h hlower

namespace Hex

/-! ### One digit -/

/-- What a digit may look like: in lower case it is the one digit that is written for its value. -/
theorem toLower_of_value? {c : Char} (hc : c.toNat ≤ 0x7f) {d : Nat}
    (h : value? (UInt8.ofNat c.toNat) = some d) : d < 16 ∧ c.toLower = digit d := by
  have hall : ∀ n < 128, (value? (UInt8.ofNat n)).all
      (fun d => decide (d < 16 ∧ (Char.ofNat n).toLower = digit d)) = true := by
    decide
  have hc := hall c.toNat (Nat.lt_succ_of_le hc)
  rw [h, Char.ofNat_toNat] at hc
  exact of_decide_eq_true hc

/-- Digits are bytes of a single character. -/
theorem toNat_le_of_value? {b : UInt8} {d : Nat} (h : value? b = some d) : b.toNat ≤ 0x7f := by
  unfold value? at h
  dsimp only at h
  split at h
  · omega
  split at h
  · omega
  split at h
  · omega
  · cases h

/-- So a text that is read as digits has only such bytes. -/
theorem toNat_le_of_decodePairs {text bytes : Bytes} {position : Nat}
    (h : decodePairs position text = .ok bytes) : ∀ b ∈ text, b.toNat ≤ 0x7f := by
  match text with
  | [] => exact fun b hb => absurd hb List.not_mem_nil
  | [b] => cases h
  | b :: c :: text =>
    rw [decodePairs] at h
    split at h
    · cases h
    · cases h
    next hhigh hlow =>
    cases hrest : decodePairs (position + 2) text with
    | error e =>
      rw [hrest] at h
      cases h
    | ok rest =>
      intro d hd
      rcases List.mem_cons.mp hd with rfl | hd
      · exact toNat_le_of_value? hhigh
      rcases List.mem_cons.mp hd with rfl | hd
      · exact toNat_le_of_value? hlow
      · exact toNat_le_of_decodePairs hrest d hd

/-- **What looks like a digit** is read as one. -/
theorem value?_of_toLower {c : Char} {d : Nat} (hd : d < 16) (h : c.toLower = digit d) :
    c.toNat ≤ 0x7f ∧ value? (UInt8.ofNat c.toNat) = some d := by
  have hlow : c.toNat ≤ 0x7f := by
    unfold Char.toLower at h
    split at h
    · next hupper =>
      have hle : c.toNat ≤ 90 := hupper.2
      omega
    · have hdigit : ∀ d < 16, (digit d).toNat ≤ 0x7f := by decide
      rw [h]
      exact hdigit d hd
  have hall : ∀ n < 128, ∀ d < 16, (Char.ofNat n).toLower = digit d →
      value? (UInt8.ofNat n) = some d := by
    decide +kernel
  refine ⟨hlow, hall c.toNat (Nat.lt_succ_of_le hlow) d hd ?_⟩
  rw [Char.ofNat_toNat]
  exact h

/-! ### Many digits -/

/-- **What reads as some bytes** is their digits, in either case. The recursion goes two characters
at a time, as `decodePairs` does. -/
theorem lowerCase_of_decodePairs {cs : List Char} (hlow : ∀ c ∈ cs, c.toNat ≤ 0x7f)
    {position : Nat} {bytes : Bytes} (h : decodePairs position (lowBytes cs) = .ok bytes) :
    lowerCase cs = bytes.flatMap digits := by
  match cs with
  | [] =>
    obtain rfl : [] = bytes := Except.ok.inj h
    rfl
  -- A single character is half a byte, and is not read.
  | [c] => cases h
  | c :: d :: cs =>
    have hc := hlow c List.mem_cons_self
    have hd := hlow d (List.mem_cons_of_mem c List.mem_cons_self)
    have hcs : ∀ e ∈ cs, e.toNat ≤ 0x7f :=
      fun e he => hlow e (List.mem_cons_of_mem c (List.mem_cons_of_mem d he))
    have hpairs : decodePairs position (UInt8.ofNat c.toNat :: UInt8.ofNat d.toNat :: lowBytes cs) =
      .ok bytes := h
    rw [decodePairs] at hpairs
    split at hpairs
    · cases hpairs
    · cases hpairs
    next high low hhigh hlow' =>
    -- Both characters are digits, and each is the one of its value in lower case.
    obtain ⟨hhigh16, hupper⟩ := toLower_of_value? hc hhigh
    obtain ⟨hlow16, hlower⟩ := toLower_of_value? hd hlow'
    cases hrest : decodePairs (position + 2) (lowBytes cs) with
    | error e =>
      rw [hrest] at hpairs
      cases hpairs
    | ok rest =>
      rw [hrest] at hpairs
      obtain rfl := Except.ok.inj hpairs
      -- The byte has the two values as its halves.
      have hbyte : (UInt8.ofNat (16 * high + low)).toNat = 16 * high + low := by
        rw [UInt8.toNat_ofNat']
        omega
      have hhalves : (16 * high + low) / 16 = high ∧ (16 * high + low) % 16 = low := by omega
      rw [List.flatMap_cons, ← lowerCase_of_decodePairs hcs hrest, digits, hbyte, hhalves.1,
        hhalves.2, ← hupper, ← hlower]
      rfl

/-- **The digits of some bytes**, in either case, read as these. -/
theorem decodePairs_of_lowerCase {cs : List Char} {bytes : Bytes}
    (h : lowerCase cs = bytes.flatMap digits) (position : Nat) :
    (∀ c ∈ cs, c.toNat ≤ 0x7f) ∧ decodePairs position (lowBytes cs) = .ok bytes := by
  induction bytes generalizing cs position with
  | nil =>
    obtain rfl : cs = [] := List.map_eq_nil_iff.mp h
    exact ⟨fun c hc => absurd hc List.not_mem_nil, rfl⟩
  | cons b bytes ih =>
    have hb := b.toNat_lt
    rw [List.flatMap_cons] at h
    -- The text begins with the two digits of the first byte.
    obtain ⟨front, cs, rfl, hfront, hcs⟩ := List.map_eq_append_iff.mp h
    obtain ⟨c, front, rfl, hc, hfront⟩ := List.map_eq_cons_iff.mp hfront
    obtain ⟨d, front, rfl, hd, hfront⟩ := List.map_eq_cons_iff.mp hfront
    obtain rfl := List.map_eq_nil_iff.mp hfront
    obtain ⟨hclow, hcvalue⟩ := value?_of_toLower (by omega) hc
    obtain ⟨hdlow, hdvalue⟩ := value?_of_toLower (by omega) hd
    obtain ⟨hlow, hpairs⟩ := ih hcs (position + 2)
    refine ⟨fun e he => ?_, ?_⟩
    · rcases List.mem_append.mp he with he | he
      · rcases List.mem_cons.mp he with rfl | he
        · exact hclow
        · rw [List.mem_singleton.mp he]
          exact hdlow
      · exact hlow e he
    · have hbyte : UInt8.ofNat (16 * (b.toNat / 16) + b.toNat % 16) = b := by
        rw [Nat.div_add_mod]
        simp
      change decodePairs position
        (UInt8.ofNat c.toNat :: UInt8.ofNat d.toNat :: lowBytes cs) = .ok (b :: bytes)
      rw [decodePairs, hcvalue, hdvalue]
      simp only [hpairs, Except.map, hbyte]

/-- There are two digits for each byte. -/
theorem length_flatMap_digits (bytes : Bytes) :
    (bytes.flatMap digits).length = 2 * bytes.length := by
  have h := length_flatMap_digitBytes bytes
  have hsame : bytes.flatMap digitBytes =
      (bytes.flatMap digits).map fun c => UInt8.ofNat c.toNat :=
    List.map_flatMap.symm
  rwa [hsame, List.length_map] at h

/-- Reading digits in pairs succeeds on the digits of some bytes, in either case, and on nothing
else. -/
theorem decodePairs_eq_ok_iff {cs : List Char} {position : Nat} {bytes : Bytes} :
    decodePairs position (Bytes.ofText (String.ofList cs)) = .ok bytes ↔
      lowerCase cs = bytes.flatMap digits := by
  constructor
  · intro h
    -- All bytes are digits, so they are low.
    have hlow := Bytes.toNat_le_of_ofText (toNat_le_of_decodePairs h)
    rw [Bytes.ofText_ofList_eq_lowBytes hlow] at h
    exact lowerCase_of_decodePairs hlow h
  · intro h
    obtain ⟨hlow, hpairs⟩ := decodePairs_of_lowerCase h position
    rw [Bytes.ofText_ofList_eq_lowBytes hlow]
    exact hpairs

/-- The digits of some bytes are twice as many bytes of a text. -/
theorem length_ofText_of_lowerCase {cs : List Char} {bytes : Bytes}
    (h : lowerCase cs = bytes.flatMap digits) :
    (Bytes.ofText (String.ofList cs)).length = 2 * bytes.length := by
  obtain ⟨hlow, -⟩ := decodePairs_of_lowerCase h 0
  have hlength := congrArg List.length h
  rw [lowerCase, List.length_map, length_flatMap_digits] at hlength
  rw [Bytes.ofText_ofList_eq_lowBytes hlow, lowBytes, List.length_map, hlength]

/-- Reading any number of bytes succeeds on their digits, in either case. -/
theorem decode_eq_ok_iff {cs : List Char} {bytes : Bytes} :
    decode (Bytes.ofText (String.ofList cs)) = .ok bytes ↔
      lowerCase cs = bytes.flatMap digits := by
  unfold decode
  split
  · next hodd =>
    refine ⟨nofun, fun h => ?_⟩
    have hlength := length_ofText_of_lowerCase h
    omega
  · exact decodePairs_eq_ok_iff

/-- **Reading exactly some bytes** succeeds on their digits, in either case. -/
theorem decodeExactly_eq_ok_iff {cs : List Char} {count : Nat} {bytes : Bytes} :
    decodeExactly count (Bytes.ofText (String.ofList cs)) = .ok bytes ↔
      bytes.length = count ∧ lowerCase cs = bytes.flatMap digits := by
  constructor
  · intro h
    rw [decodeExactly] at h
    split at h
    · cases h
    split at h
    · cases h
    next hcount =>
    have hlower := decodePairs_eq_ok_iff.mp h
    have hlength := length_ofText_of_lowerCase hlower
    exact ⟨by omega, hlower⟩
  · rintro ⟨rfl, hlower⟩
    have hlength := length_ofText_of_lowerCase hlower
    rw [decodeExactly, if_neg (by omega), if_neg (by omega)]
    exact decodePairs_eq_ok_iff.mpr hlower

/-- The digits of some bytes are in lower case. -/
theorem lowerCase_flatMap_digits (bytes : Bytes) :
    lowerCase (bytes.flatMap digits) = bytes.flatMap digits :=
  decode_eq_ok_iff.mp (decode_encode bytes)

/-! ### Faults -/

/-- The first byte that is no digit, and its position. This is what a fault names. -/
def noDigit? (position : Nat) (bytes : Bytes) : Option (UInt8 × Nat) :=
  (bytes.zipIdx position).find? fun place => (value? place.1).isNone

/-- **What is wrong with bytes** that are not read as digits. The length is looked at before any
digit is. -/
inductive FaultOf (bytes : Bytes) : Fault → Prop
  | oddLength (hodd : bytes.length % 2 = 1) : FaultOf bytes .oddLength
  | invalidByte {b : UInt8} {position : Nat} (heven : bytes.length % 2 = 0)
      (hfirst : noDigit? 0 bytes = some (b, position)) : FaultOf bytes (.invalidByte b position)

/-- **Reading digits in pairs** fails at the first byte that is none, if the number of bytes is
even. -/
theorem decodePairs_eq_error_iff {bytes : Bytes} (heven : bytes.length % 2 = 0) {position : Nat}
    {fault : Fault} :
    decodePairs position bytes = .error fault ↔
      ∃ b place, noDigit? position bytes = some (b, place) ∧ fault = .invalidByte b place := by
  match bytes with
  | [] =>
    constructor
    · intro h
      cases h
    · rintro ⟨_, _, ⟨⟩, -⟩
  | [_] => cases heven
  | high :: low :: rest =>
    have hrest : rest.length % 2 = 0 := by
      rw [List.length_cons, List.length_cons] at heven
      omega
    -- A fault at one place is this fault and no other.
    have hone : ∀ b place, (.error (.invalidByte b place) : Except Fault Bytes) = .error fault ↔
        ∃ b' place', some (b, place) = some (b', place') ∧ fault = .invalidByte b' place' := by
      intro b place
      constructor
      · rintro ⟨⟩
        exact ⟨b, place, rfl, rfl⟩
      · rintro ⟨_, _, ⟨⟩, rfl⟩
        rfl
    rw [decodePairs]
    -- By which of the two bytes of the pair is a digit.
    cases hhigh : value? high with
    | none =>
      have hfirst : noDigit? position (high :: low :: rest) = some (high, position) := by
        simp [noDigit?, hhigh]
      rw [hfirst]
      exact hone high position
    | some h =>
      cases hlow : value? low with
      | none =>
        have hfirst : noDigit? position (high :: low :: rest) = some (low, position + 1) := by
          simp [noDigit?, hhigh, hlow]
        rw [hfirst]
        exact hone low (position + 1)
      | some l =>
        have hfirst : noDigit? position (high :: low :: rest) = noDigit? (position + 2) rest := by
          simp [noDigit?, hhigh, hlow]
        rw [hfirst, ← decodePairs_eq_error_iff hrest]
        cases decodePairs (position + 2) rest with
        | ok bytes =>
          constructor
          · intro h
            cases h
          · intro h
            cases h
        | error e => exact Iff.rfl

/-- **Reading digits fails** for one reason only, and the fault says which. -/
theorem decode_eq_error_iff {bytes : Bytes} {fault : Fault} :
    decode bytes = .error fault ↔ FaultOf bytes fault := by
  unfold decode
  split
  · next hodd =>
    constructor
    · intro h
      obtain rfl := Except.error.inj h
      exact .oddLength hodd
    · rintro (_ | ⟨heven, -⟩)
      · rfl
      · omega
  · next hodd =>
    have heven : bytes.length % 2 = 0 := by omega
    rw [decodePairs_eq_error_iff heven]
    constructor
    · rintro ⟨b, position, hfirst, rfl⟩
      exact .invalidByte heven hfirst
    · rintro (hodd' | ⟨-, hfirst⟩)
      · exact absurd hodd' hodd
      · exact ⟨_, _, hfirst, rfl⟩

/-! ### What stands in front -/

/-- A zero and another low byte in front are those of two characters. -/
theorem exists_of_ofText_eq_zero_cons {cs : List Char} {b : UInt8} {rest : Bytes}
    (h : Bytes.ofText (String.ofList cs) = 0x30 :: b :: rest) (hb : b.toNat ≤ 0x7f) :
    ∃ digits, cs = '0' :: Char.ofNat b.toNat :: digits ∧
      Bytes.ofText (String.ofList digits) = rest := by
  obtain ⟨c, cs₁, rfl, hc, hrest⟩ := Bytes.ofText_ofList_eq_cons h (by decide)
  obtain ⟨d, digits, rfl, hd, hrest⟩ := Bytes.ofText_ofList_eq_cons hrest hb
  have hzero : c = '0' := by rw [← Char.ofNat_toNat c, hc]; rfl
  rw [← hd, Char.ofNat_toNat, hzero]
  exact ⟨digits, rfl, hrest⟩

end Hex

/-! ### Addresses -/

theorem Address.toBytes_ofBytes {bytes : Bytes} (h : bytes.length = 20) :
    (Address.ofBytes bytes).toBytes = bytes := by
  have hlt := Bytes.toNatBE_lt bytes
  rw [h] at hlt
  have hbits : (BitVec.ofNat 160 (Bytes.toNatBE bytes)).toNat = Bytes.toNatBE bytes := by
    rw [BitVec.toNat_ofNat]
    exact Nat.mod_eq_of_lt (Nat.lt_of_lt_of_eq hlt (by decide))
  rw [Address.toBytes, Address.ofBytes, hbits, ← h, Bytes.ofNatBE_toNatBE]

/-- What may stand in front of the digits of an address. -/
def digitPrefixes : List (List Char) :=
  [[], ['0', 'x'], ['0', 'X']]

/-- **What is read as an address**: its digits in either case, behind one of the prefixes. -/
theorem Address.parse_eq_ok_iff {cs : List Char} {a : Address} :
    Address.parse (Bytes.ofText (String.ofList cs)) = .ok a ↔
      ∃ front ∈ digitPrefixes, ∃ digits, cs = front ++ digits ∧
        lowerCase digits = a.toBytes.flatMap Hex.digits := by
  constructor
  · intro h
    rw [Address.parse] at h
    -- The digits are what is left when the prefix is taken away.
    have hdigits : ∀ digits, (Hex.decodeExactly 20 (Bytes.ofText (String.ofList digits))).map
        Address.ofBytes = .ok a → lowerCase digits = a.toBytes.flatMap Hex.digits := by
      intro digits hread
      cases hdecode : Hex.decodeExactly 20 (Bytes.ofText (String.ofList digits)) with
      | error e =>
        rw [hdecode] at hread
        cases hread
      | ok bytes =>
        rw [hdecode] at hread
        obtain ⟨hlength, hlower⟩ := Hex.decodeExactly_eq_ok_iff.mp hdecode
        rw [← Except.ok.inj hread, Address.toBytes_ofBytes hlength]
        exact hlower
    unfold Hex.stripAnyPrefix at h
    split at h
    · next rest hbytes =>
      obtain ⟨digits, rfl, rfl⟩ := Hex.exists_of_ofText_eq_zero_cons hbytes (by decide)
      exact ⟨['0', 'x'], by simp [digitPrefixes], digits, rfl, hdigits digits h⟩
    · next rest hbytes =>
      obtain ⟨digits, rfl, rfl⟩ := Hex.exists_of_ofText_eq_zero_cons hbytes (by decide)
      exact ⟨['0', 'X'], by simp [digitPrefixes], digits, rfl, hdigits digits h⟩
    · exact ⟨[], by simp [digitPrefixes], cs, rfl, hdigits cs h⟩
  · -- Conversely, each of the prefixes is taken away, and the digits are left.
    rintro ⟨front, hfront, digits, rfl, hlower⟩
    have hread : Hex.decodeExactly 20 (Bytes.ofText (String.ofList digits)) = .ok a.toBytes :=
      Hex.decodeExactly_eq_ok_iff.mpr ⟨a.length_toBytes, hlower⟩
    have hstrip : Hex.stripAnyPrefix (Bytes.ofText (String.ofList (front ++ digits))) =
        Bytes.ofText (String.ofList digits) := by
      simp only [digitPrefixes, List.mem_cons, List.not_mem_nil, or_false] at hfront
      rcases hfront with rfl | rfl | rfl
      · obtain ⟨hlow, hpairs⟩ := Hex.decodePairs_of_lowerCase hlower 0
        rw [List.nil_append, Bytes.ofText_ofList_eq_lowBytes hlow]
        exact Hex.stripAnyPrefix_of_decodePairs hpairs
      · rw [Bytes.ofText_ofList, Bytes.ofText_ofList]
        rfl
      · rw [Bytes.ofText_ofList, Bytes.ofText_ofList]
        rfl
    rw [Address.parse, hstrip, hread]
    exact congrArg Except.ok a.ofBytes_toBytes

end Countersign
