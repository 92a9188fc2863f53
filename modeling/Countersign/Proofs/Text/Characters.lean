import Countersign.Bytes

/-!
# Characters by their bytes

Each of the first 128 characters is one byte of a text, and no byte of any other character is among
the first 128. So a text of low bytes has as many characters as bytes
(`Bytes.ofText_ofList_eq_lowBytes`).
-/

namespace Countersign

/-- **Characters behind the first 128** have no byte among these. Each of their bytes has its
highest bit set, be they two, three or four. -/
theorem le_toNat_of_mem_utf8EncodeChar {c : Char} (hc : 0x7f < c.toNat) {b : UInt8}
    (hb : b ∈ String.utf8EncodeChar c) : 0x80 ≤ b.toNat := by
  have bound : c.val.toNat < 0x110000 := by
    have valid := c.valid
    simp only [UInt32.isValidChar, Nat.isValidChar] at valid
    omega
  have hc : ¬ c.val.toNat ≤ 0x7f := Nat.not_le.mpr hc
  have hbyte : ∀ n, 0x80 ≤ n → n < 0x100 → 0x80 ≤ (UInt8.ofNat n).toNat := by
    intro n low high
    rw [UInt8.toNat_ofNat']
    omega
  simp only [String.utf8EncodeChar, hc, if_false] at hb
  -- By the number of bytes: each is a sum of its mark and at most six bits.
  split at hb
  · simp only [List.mem_cons, List.not_mem_nil, or_false] at hb
    rcases hb with rfl | rfl <;> exact hbyte _ (by omega) (by omega)
  split at hb
  · simp only [List.mem_cons, List.not_mem_nil, or_false] at hb
    rcases hb with rfl | rfl | rfl <;> exact hbyte _ (by omega) (by omega)
  · simp only [List.mem_cons, List.not_mem_nil, or_false] at hb
    rcases hb with rfl | rfl | rfl | rfl <;> exact hbyte _ (by omega) (by omega)

/-- One of the first 128 characters is one byte. -/
theorem utf8EncodeChar_of_le {c : Char} (hc : c.toNat ≤ 0x7f) :
    String.utf8EncodeChar c = [UInt8.ofNat c.toNat] := by
  have hc' : c.val.toNat ≤ 0x7f := hc
  simp only [String.utf8EncodeChar, hc', if_true]
  rfl

/-- One byte for each character, as it should be low. For other characters this is not their
text. -/
def lowBytes (cs : List Char) : Bytes :=
  cs.map fun c => UInt8.ofNat c.toNat

namespace Bytes

/-- The bytes of low characters are one for each. -/
theorem ofText_ofList_eq_lowBytes {cs : List Char} (h : ∀ c ∈ cs, c.toNat ≤ 0x7f) :
    ofText (String.ofList cs) = lowBytes cs := by
  rw [ofText_ofList, lowBytes]
  induction cs with
  | nil => rfl
  | cons c cs ih =>
    have hc := utf8EncodeChar_of_le (h c List.mem_cons_self)
    rw [List.flatMap_cons, List.map_cons, hc, ih fun d hd => h d (List.mem_cons_of_mem c hd)]
    rfl

/-- **A low byte in front** is that of a low character, and the rest is that of the other
characters. -/
theorem ofText_ofList_eq_cons {cs : List Char} {b : UInt8} {rest : Bytes}
    (h : ofText (String.ofList cs) = b :: rest) (hb : b.toNat ≤ 0x7f) :
    ∃ c cs', cs = c :: cs' ∧ c.toNat = b.toNat ∧ ofText (String.ofList cs') = rest := by
  rw [ofText_ofList] at h
  cases cs with
  | nil => cases h
  | cons c cs =>
    rw [List.flatMap_cons] at h
    -- A low character is spelt by one byte, which is low as well.
    by_cases hc : c.toNat ≤ 0x7f
    · rw [utf8EncodeChar_of_le hc, List.singleton_append] at h
      obtain ⟨hbyte, hrest⟩ := List.cons.inj h
      refine ⟨c, cs, rfl, ?_, ?_⟩
      · rw [← hbyte, UInt8.toNat_ofNat']
        omega
      · rw [ofText_ofList]
        exact hrest
    · -- The first byte of any other character is not low.
      have hhigh : ∀ d ∈ String.utf8EncodeChar c, 0x80 ≤ d.toNat :=
        fun d hd => le_toNat_of_mem_utf8EncodeChar (Nat.not_le.mp hc) hd
      cases hbytes : String.utf8EncodeChar c with
      | nil =>
        have hlength := String.length_utf8EncodeChar c
        rw [hbytes] at hlength
        exact absurd hlength (Nat.ne_of_lt c.utf8Size_pos)
      | cons d bytes =>
        rw [hbytes] at h hhigh
        obtain ⟨rfl, -⟩ := List.cons.inj h
        have := hhigh d List.mem_cons_self
        omega

/-- **Low bytes are those of low characters.** So it can be seen of the bytes of a text what its
characters are. -/
theorem toNat_le_of_ofText {cs : List Char} (h : ∀ b ∈ ofText (String.ofList cs), b.toNat ≤ 0x7f) :
    ∀ c ∈ cs, c.toNat ≤ 0x7f := by
  intro c hc
  refine Nat.not_lt.mp fun hlow => ?_
  -- Its first byte would not be low.
  have hbytes : 0 < (String.utf8EncodeChar c).length := by
    rw [String.length_utf8EncodeChar]
    exact c.utf8Size_pos
  obtain ⟨b, hb⟩ := List.exists_mem_of_length_pos hbytes
  have hhigh := le_toNat_of_mem_utf8EncodeChar hlow hb
  have hbelow : b.toNat ≤ 0x7f := by
    apply h
    rw [ofText_ofList]
    exact List.mem_flatMap.mpr ⟨c, hc, hb⟩
  omega

end Bytes

end Countersign
