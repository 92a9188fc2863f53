import Countersign.Json.Printer
import Countersign.Json.Reader
import Countersign.Proofs.Text.Characters

/-!
# Strings read back

A text that is written as a string of the format is read back as it was, whatever characters it has
(`Json.readPieces_writeString` and `Json.textOfPieces_piecesOf`). A character takes one of two ways:

* a **plain** one stands for itself, and so does each byte of it: none of these is a control
  character, a quote or a backslash (`Plain`);
* the other ones, of which there are only finitely many, are escaped.

`Json.piecesOf` is what the reader makes of one character, in either case.
-/

namespace Countersign.Json

/-- A byte that stands for itself inside a string: no control character, no quote, no backslash. -/
def Plain (b : UInt8) : Prop :=
  0x20 ≤ b ∧ b ≠ 0x22 ∧ b ≠ 0x5c

/-- What is read for one written character. A control character without a short escape is written as
a code unit, and all others come back as their bytes. -/
def piecesOf (c : Char) : List Piece :=
  if shortEscape? c = none ∧ c.toNat < 0x20 then [.unit c.toNat]
  else (String.utf8EncodeChar c).map .byte

/-! ### Characters by their bytes -/

/-- Characters behind the first 128 have plain bytes only, as each of these bytes has its highest
bit set. -/
theorem plain_of_mem_utf8EncodeChar {c : Char} (hc : 0x7f < c.toNat) {b : UInt8}
    (hb : b ∈ String.utf8EncodeChar c) : Plain b := by
  have hhigh := le_toNat_of_mem_utf8EncodeChar hc hb
  refine ⟨?_, ?_, ?_⟩
  · rw [UInt8.le_iff_toNat_le]
    exact Nat.le_trans (by decide) hhigh
  · rintro rfl
    exact absurd hhigh (by decide)
  · rintro rfl
    exact absurd hhigh (by decide)

/-- The byte of one of the first 128 characters stands for itself, unless this is escaped. -/
theorem plain_of_le {c : Char} (hc : c.toNat ≤ 0x7f) (hlow : ¬ c.toNat < 0x20) (hquote : c ≠ '"')
    (hslash : c ≠ '\\') : Plain (UInt8.ofNat c.toNat) := by
  have hn : (UInt8.ofNat c.toNat).toNat = c.toNat := by
    rw [UInt8.toNat_ofNat']
    omega
  -- Different characters have different bytes.
  have ne : ∀ d : Char, d.toNat ≤ 0x7f → c ≠ d → UInt8.ofNat c.toNat ≠ UInt8.ofNat d.toNat := by
    intro d hd hcd h
    have heq := congrArg UInt8.toNat h
    rw [hn, UInt8.toNat_ofNat', Nat.mod_eq_of_lt (by omega)] at heq
    exact hcd (Char.toNat_inj.mp heq)
  refine ⟨?_, ne '"' (by decide) hquote, ne '\\' (by decide) hslash⟩
  rw [UInt8.le_iff_toNat_le, hn]
  exact Nat.not_lt.mp hlow

/-- **A character is one that is escaped, or all its bytes are plain.** So writer and reader agree
on which characters to escape. -/
theorem plain_or_escaped (c : Char) :
    (shortEscape? c = none ∧ ¬ c.toNat < 0x20 ∧ ∀ b ∈ String.utf8EncodeChar c, Plain b) ∨
      (c.toNat < 0x20 ∨ c = '"' ∨ c = '\\') := by
  by_cases hlow : c.toNat < 0x20
  · exact Or.inr (Or.inl hlow)
  by_cases hquote : c = '"'
  · exact Or.inr (Or.inr (Or.inl hquote))
  by_cases hslash : c = '\\'
  · exact Or.inr (Or.inr (Or.inr hslash))
  refine Or.inl ⟨?_, hlow, ?_⟩
  · -- The other short escapes are for control characters.
    have ne : ∀ d : Char, d.toNat < 0x20 → c ≠ d := by
      rintro d hd rfl
      exact hlow hd
    simp only [shortEscape?, if_neg hquote, if_neg hslash, if_neg (ne '\x08' (by decide)),
      if_neg (ne '\x0c' (by decide)), if_neg (ne '\n' (by decide)), if_neg (ne '\r' (by decide)),
      if_neg (ne '\t' (by decide))]
  · intro b hb
    by_cases hc : c.toNat ≤ 0x7f
    · rw [utf8EncodeChar_of_le hc, List.mem_singleton] at hb
      rw [hb]
      exact plain_of_le hc hlow hquote hslash
    · exact plain_of_mem_utf8EncodeChar (Nat.not_le.mp hc) hb

/-! ### Pieces -/

/-- Pieces in front of others that are read. It lets the lemmas below say what one more character
adds. -/
def inFront (pieces : List Piece) (read : Option (List Piece × Bytes)) :
    Option (List Piece × Bytes) :=
  read.map fun (later, rest) => (pieces ++ later, rest)

/-- A plain byte is read as itself. -/
theorem readPieces_plain {b : UInt8} (hb : Plain b) (rest : Bytes) :
    readPieces (b :: rest) = inFront [.byte b] (readPieces rest) := by
  obtain ⟨hlow, hquote, hslash⟩ := hb
  have hcond : (b < 0x20 || b == 0x5c) = false := by
    simp [hslash, UInt8.not_lt.mpr hlow]
  rw [readPieces]
  · rw [hcond]
    cases readPieces rest <;> rfl
  · exact hquote
  · exact fun _ _ _ _ _ h _ => hslash h
  · exact fun _ _ h _ => hslash h

/-- So are many of them, up to where something else begins. -/
theorem readPieces_plains {bytes : Bytes} (h : ∀ b ∈ bytes, Plain b) (rest : Bytes) :
    readPieces (bytes ++ rest) = inFront (bytes.map .byte) (readPieces rest) := by
  induction bytes with
  | nil => cases hr : readPieces rest <;> simp [inFront, hr]
  | cons b bytes ih =>
    rw [List.cons_append, readPieces_plain (h b List.mem_cons_self),
      ih fun b' hb' => h b' (List.mem_cons_of_mem _ hb')]
    cases readPieces rest <;> rfl

/-- **A control character without a short escape** is read as a code unit. -/
theorem readPieces_unit {n : Nat} (h : n < 0x20) (rest : Bytes) :
    readPieces ((['\\', 'u', '0', '0', hexDigit (n / 16), hexDigit (n % 16)].flatMap
      String.utf8EncodeChar) ++ rest) = inFront [.unit n] (readPieces rest) := by
  -- Each of the 32 control characters is checked.
  have digits : ∀ n < 0x20, ∃ high low, unit? 0x30 0x30 high low = some n ∧
      String.utf8EncodeChar (hexDigit (n / 16)) = [high] ∧
      String.utf8EncodeChar (hexDigit (n % 16)) = [low] := by
    intro n hn
    refine ⟨UInt8.ofNat (hexDigit (n / 16)).toNat, UInt8.ofNat (hexDigit (n % 16)).toNat, ?_⟩
    revert n
    decide
  obtain ⟨high, low, hunit, hhigh, hlow⟩ := digits n h
  have bytes : ['\\', 'u', '0', '0', hexDigit (n / 16), hexDigit (n % 16)].flatMap
      String.utf8EncodeChar = [0x5c, 0x75, 0x30, 0x30, high, low] := by
    simp only [List.flatMap_cons, List.flatMap_nil, hhigh, hlow]
    rfl
  rw [bytes]
  simp only [List.cons_append, List.nil_append, readPieces, hunit]
  cases readPieces rest <;> rfl

/-- A short escape is read as the byte that it stands for. This is the reader's half of the
table. -/
theorem readPieces_escaped {letter b : UInt8} (h : escaped? letter = some b) (rest : Bytes) :
    readPieces (0x5c :: letter :: rest) = inFront [.byte b] (readPieces rest) := by
  have hu : letter ≠ 0x75 := by
    rintro rfl
    have hnone : escaped? 0x75 = none := by decide
    rw [hnone] at h
    exact absurd h (by simp)
  rw [readPieces]
  · rw [h]
    cases readPieces rest <;> rfl
  · exact fun _ _ _ _ _ hl _ => hu hl

/-- The short escapes and the bytes that they stand for. There are seven, and each is looked up in
both tables. -/
theorem escaped?_shortEscape? {c letter : Char} (h : shortEscape? c = some letter) :
    String.utf8EncodeChar c = [UInt8.ofNat c.toNat] ∧
      String.utf8EncodeChar letter = [UInt8.ofNat letter.toNat] ∧
      escaped? (UInt8.ofNat letter.toNat) = some (UInt8.ofNat c.toNat) := by
  simp only [shortEscape?] at h
  -- One case for each character that has a short escape.
  repeat' split at h
  all_goals first
    | cases h; subst_vars; decide
    | cases h

/-- **A written character** is read as its pieces, whatever follows it. All of the above is for
this. -/
theorem readPieces_escape (c : Char) (rest : Bytes) :
    readPieces ((escape c).flatMap String.utf8EncodeChar ++ rest) =
      inFront (piecesOf c) (readPieces rest) := by
  rcases plain_or_escaped c with ⟨hshort, hlow, hplain⟩ | hescaped
  · -- A plain character is written as it is, and its bytes are read one by one.
    have hesc : escape c = [c] := by
      simp only [escape, hshort, if_neg hlow]
    have hpieces : piecesOf c = (String.utf8EncodeChar c).map .byte := by
      simp only [piecesOf, hlow, and_false, if_false]
    rw [hesc, hpieces, List.flatMap_singleton, readPieces_plains hplain]
  · cases hshort : shortEscape? c with
    | none =>
      -- Quote and backslash have a short escape, so this is a control character.
      have hlow : c.toNat < 0x20 := by
        rcases hescaped with h | rfl | rfl
        · exact h
        · exact absurd hshort (by decide)
        · exact absurd hshort (by decide)
      simp only [escape, piecesOf, hshort, hlow, if_true, and_self]
      exact readPieces_unit hlow rest
    -- A short escape is two bytes, and is looked up in the reader's table.
    | some letter =>
      obtain ⟨hc, hletter, hescaped⟩ := escaped?_shortEscape? hshort
      have hslash : String.utf8EncodeChar '\\' = [0x5c] := by decide
      have hesc : (escape c).flatMap String.utf8EncodeChar =
          [0x5c, UInt8.ofNat letter.toNat] := by
        simp [escape, hshort, hslash, hletter]
      have hpieces : piecesOf c = [.byte (UInt8.ofNat c.toNat)] := by
        simp [piecesOf, hshort, hc]
      rw [hesc, hpieces]
      exact readPieces_escaped hescaped rest

/-- A written text is read up to its closing quote. The induction is on its characters. -/
theorem readPieces_writeString (cs : List Char) (rest : Bytes) :
    readPieces ((cs.flatMap escape ++ ['"']).flatMap String.utf8EncodeChar ++ rest) =
      some (cs.flatMap piecesOf, rest) := by
  induction cs with
  | nil =>
    have hquote : String.utf8EncodeChar '"' = [0x22] := by decide
    simp [hquote, readPieces]
  | cons c cs ih =>
    rw [List.flatMap_cons, List.append_assoc, List.flatMap_append, List.append_assoc,
      readPieces_escape, ih]
    rfl

/-! ### Bytes from pieces -/

/-- Bytes are joined as they are. -/
theorem joinPieces_bytes (bytes : Bytes) (pieces : List Piece) :
    joinPieces (bytes.map .byte ++ pieces) = (joinPieces pieces).map (bytes ++ ·) := by
  induction bytes with
  | nil => simp
  | cons b bytes ih =>
    rw [List.map_cons, List.cons_append, joinPieces, ih]
    cases joinPieces pieces <;> rfl

/-- A code unit that is no half of a pair stands for its character. Control characters are far below
the halves. -/
theorem joinPieces_unit {n : Nat} (h : n < 0xd800) (pieces : List Piece) :
    joinPieces (.unit n :: pieces) = (joinPieces pieces).map (codePoint n ++ ·) := by
  have notHigh : ¬ (0xd800 ≤ n ∧ n < 0xdc00) := by omega
  have notLow : ¬ (0xdc00 ≤ n ∧ n < 0xe000) := by omega
  have notHalf : ¬ (0xd800 ≤ n ∧ n < 0xe000) := by omega
  rcases pieces with _ | ⟨b | low, pieces⟩
  · simp only [joinPieces, if_neg notHalf]
  · simp only [joinPieces, if_neg notHalf]
  · rw [joinPieces, if_neg notHigh, if_neg notLow]

/-- The pieces of a character are joined to its bytes, in whatever way it was written. -/
theorem joinPieces_piecesOf (c : Char) (pieces : List Piece) :
    joinPieces (piecesOf c ++ pieces) =
      (joinPieces pieces).map (String.utf8EncodeChar c ++ ·) := by
  unfold piecesOf
  split
  · next h =>
    have hpoint : codePoint c.toNat = String.utf8EncodeChar c := by
      rw [codePoint, Char.ofNat_toNat, String.singleton_eq_ofList, Bytes.ofText_ofList,
        List.flatMap_singleton]
    rw [List.singleton_append, joinPieces_unit (by omega), hpoint]
  · exact joinPieces_bytes _ _

/-- The pieces of a text spell it. So no text is lost by writing, even one that is full of
escapes. -/
theorem textOfPieces_piecesOf (cs : List Char) :
    textOfPieces (cs.flatMap piecesOf) = some (String.ofList cs) := by
  -- The bytes of the pieces are those of the characters, one character after the other.
  have hjoin : joinPieces (cs.flatMap piecesOf) = some (cs.flatMap String.utf8EncodeChar) := by
    induction cs with
    | nil => rfl
    | cons c cs ih =>
      rw [List.flatMap_cons, joinPieces_piecesOf, ih]
      rfl
  rw [textOfPieces, hjoin, ← Bytes.ofText_ofList, Option.bind_some, Bytes.toText?_ofText]

end Countersign.Json
