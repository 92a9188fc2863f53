import Countersign.Proofs.Json.Strings

/-!
# Values read back

What is written of an intact value is read as that value, and nothing else is read with it
(`Json.readValue_write`); so a whole text is read back (`Json.parse?_render`).

**Intact** means: every string is text, every container is closed, and every number is a count
(`Json.Intact`). The services write no others.

The reader takes its fuel from the length of what it reads: each value, and each step from one
element to the next, uses one unit and at least one character. Behind a value there stands nothing
or a character that ends it (`Ends`); otherwise the digits of a number could go on.
-/

namespace Countersign.Json

/-- **A value that is written as it is.** A string without text, a container that is not closed and
a number with a sign or a fraction cannot be read back, and the services write none of them. -/
inductive Intact : Json → Prop where
  | null : Intact .null
  | bool (value : Bool) : Intact (.bool value)
  | number (n : Nat) : Intact (.number (.ofNat n))
  | string (text : String) : Intact (.string (some text))
  | array {elements : List Json} (each : ∀ j ∈ elements, Intact j) : Intact (.array elements true)
  | object {members : List (String × Json)} (each : ∀ m ∈ members, Intact m.2) :
      Intact (.object members true)

/-- What may stand behind a value: nothing, a comma, or the end of a container. A number could not
be read back in front of another digit. -/
def Ends (rest : Bytes) : Prop :=
  rest = [] ∨ ∃ b later, rest = b :: later ∧ (b = 0x2c ∨ b = 0x5d ∨ b = 0x7d)

theorem Ends.cons {b : UInt8} (rest : Bytes) (h : b = 0x2c ∨ b = 0x5d ∨ b = 0x7d) :
    Ends (b :: rest) :=
  Or.inr ⟨b, rest, rfl, h⟩

namespace Ends

variable {rest : Bytes}

/-- No digit stands behind a value. -/
theorem isDigit_eq_false (h : Ends rest) {b : UInt8} {later : Bytes} (hrest : rest = b :: later) :
    isDigit b = false := by
  rcases h with rfl | ⟨b', later', rfl, hb⟩
  · cases hrest
  · obtain ⟨rfl, rfl⟩ := List.cons.inj hrest
    rcases hb with rfl | rfl | rfl <;> decide

/-- No fraction follows upon a number there. -/
theorem readFraction_eq (h : Ends rest) : readFraction rest = some (none, rest) := by
  rcases h with rfl | ⟨b, later, rfl, rfl | rfl | rfl⟩ <;> rfl

/-- No exponent follows upon a number there. -/
theorem readExponent_eq (h : Ends rest) : readExponent rest = some (none, rest) := by
  rcases h with rfl | ⟨b, later, rfl, rfl | rfl | rfl⟩ <;> rfl

end Ends

/-- The bytes of written characters. The writer has characters and the reader has bytes, so every
statement below goes through this. -/
private abbrev spelt (cs : List Char) : Bytes :=
  cs.flatMap String.utf8EncodeChar

/-! ### Numbers -/

/-- A decimal digit as a byte, which is all that the reader sees of it. -/
private theorem decimal (d : Nat) (h : d < 10) :
    String.utf8EncodeChar (Char.ofNat (48 + d)) = [UInt8.ofNat (48 + d)] ∧
      isDigit (UInt8.ofNat (48 + d)) = true ∧ (UInt8.ofNat (48 + d)).toNat - 48 = d ∧
      (Nat.digitChar d).toNat - 48 = d := by
  revert d
  decide

/-- A count below ten is its only digit. -/
theorem ofNat_whole_of_lt {n : Nat} (h : n < 10) : (Number.ofNat n).whole = [n] := by
  rw [Number.ofNat, Nat.toDigits_of_lt_base h, List.map_singleton, (decimal n h).2.2.2]

/-- Any other count ends with its remainder. -/
theorem ofNat_whole_of_le {n : Nat} (h : 10 ≤ n) :
    (Number.ofNat n).whole = (Number.ofNat (n / 10)).whole ++ [n % 10] := by
  rw [Number.ofNat, Number.ofNat, Nat.toDigits_of_base_le (by decide) h, List.map_append,
    List.map_singleton, (decimal _ (Nat.mod_lt _ (by decide))).2.2.2]

/-- **The digits of a count**: there is one at least, none is beyond nine, and only the count zero
has a zero in front. The reader refuses a number with zeros in front, so the last part is needed. -/
theorem ofNat_whole (n : Nat) : (∀ d ∈ (Number.ofNat n).whole, d < 10) ∧
    ∃ d later, (Number.ofNat n).whole = d :: later ∧ (d = 0 → n = 0 ∧ later = []) := by
  induction n using Nat.strongRecOn with
  | ind n ih =>
    by_cases hn : n < 10
    · rw [ofNat_whole_of_lt hn]
      exact ⟨by simpa using hn, n, [], rfl, fun h => ⟨h, rfl⟩⟩
    · have hlast : n % 10 < 10 := Nat.mod_lt _ (by decide)
      obtain ⟨hdigit, d, later, heq, hzero⟩ := ih (n / 10) (by omega)
      rw [ofNat_whole_of_le (Nat.not_lt.mp hn)]
      refine ⟨?_, d, later ++ [n % 10], by rw [heq, List.cons_append], ?_⟩
      · intro d' hd
        rcases List.mem_append.mp hd with hd | hd
        · exact hdigit d' hd
        · rw [List.mem_singleton.mp hd]
          exact hlast
      · -- The first digit is that of the quotient, which is not zero.
        intro hd
        have hquotient := (hzero hd).1
        omega

/-- **Written digits are read**, and no more, if what comes next is no digit. -/
theorem readDigits_writeDigits {digits : List Nat} (hdigits : ∀ d ∈ digits, d < 10) (rest : Bytes)
    (hrest : ∀ b later, rest = b :: later → isDigit b = false) :
    readDigits (spelt (writeDigits digits) ++ rest) = (digits, rest) := by
  induction digits with
  | nil =>
    rcases rest with _ | ⟨b, later⟩
    · rfl
    · simp [readDigits, writeDigits, hrest b later rfl]
  | cons d digits ih =>
    obtain ⟨hspelt, hdigit, hvalue, -⟩ := decimal d (hdigits d List.mem_cons_self)
    have hih := ih fun d' hd' => hdigits d' (List.mem_cons_of_mem _ hd')
    have hcons : spelt (writeDigits (d :: digits)) =
        UInt8.ofNat (48 + d) :: spelt (writeDigits digits) := by
      simp only [spelt, writeDigits, List.map_cons, List.flatMap_cons, hspelt]
      rfl
    rw [readDigits, Prod.mk.injEq] at hih
    rw [hcons, List.cons_append, readDigits, List.takeWhile_cons_of_pos hdigit,
      List.dropWhile_cons_of_pos hdigit, List.map_cons, hvalue, hih.1, hih.2]

theorem writeNumber_ofNat (n : Nat) :
    writeNumber (.ofNat n) = writeDigits (Number.ofNat n).whole := by
  simp [writeNumber, Number.ofNat]

/-- A count has no sign: its first byte is a digit. -/
private theorem readNumber_writeNumber (n : Nat) (rest : Bytes) :
    readNumber (spelt (writeNumber (.ofNat n)) ++ rest) =
      readUnsigned false (spelt (writeDigits (Number.ofNat n).whole) ++ rest) := by
  obtain ⟨hdigits, d, later, hwhole, -⟩ := ofNat_whole n
  obtain ⟨hspelt, hdigit, -, -⟩ := decimal d (hdigits d (by rw [hwhole]; exact List.mem_cons_self))
  rw [writeNumber_ofNat, hwhole]
  simp only [spelt, writeDigits, List.map_cons, List.flatMap_cons, hspelt, List.cons_append]
  unfold readNumber
  split
  · next heq =>
    rw [(List.cons.inj heq).1] at hdigit
    exact absurd hdigit (by decide)
  · rfl

/-- **A count is read from its writing**, and what stands behind it is left. -/
theorem readNumber_ofNat (n : Nat) {rest : Bytes} (hrest : Ends rest) :
    readNumber (spelt (writeNumber (.ofNat n)) ++ rest) = some (.ofNat n, rest) := by
  obtain ⟨hdigits, d, later, hwhole, hzero⟩ := ofNat_whole n
  have hread := readDigits_writeDigits hdigits rest fun _ _ h => hrest.isDigit_eq_false h
  rw [readNumber_writeNumber, readUnsigned, hread, hwhole]
  have hnumber : (⟨false, d :: later, none, none⟩ : Number) = .ofNat n := by
    rw [← hwhole]
    rfl
  -- There are digits, and a zero in front is the only one.
  split
  · next h => exact absurd (congrArg Prod.fst h) (by simp)
  · next h =>
    simp only [Prod.mk.injEq, List.cons.injEq] at h
    rw [(hzero h.1.1).2] at h
    exact absurd h.1.2 (by simp)
  · next h =>
    obtain ⟨rfl, rfl⟩ := Prod.mk.inj h
    simp only [hrest.readFraction_eq, hrest.readExponent_eq, hnumber]

/-! ### Elements and members -/

/-- Where there is no blank, nothing is skipped. -/
theorem skipBlanks_cons {b : UInt8} (h : isBlank b = false) (rest : Bytes) :
    skipBlanks (b :: rest) = b :: rest :=
  List.dropWhile_cons_of_neg (by simp [h])

/-- **The first byte of a written value** is no blank and closes nothing. The reader skips blanks
before it looks, and looks for the closing bracket before the first element. -/
theorem Intact.first {j : Json} (h : Intact j) :
    ∃ b later, spelt (write j) = b :: later ∧ isBlank b = false ∧ b ≠ 0x5d := by
  cases h with
  | null => exact ⟨0x6e, [0x75, 0x6c, 0x6c], by decide, by decide, by decide⟩
  | bool value =>
    cases value with
    | true => exact ⟨0x74, [0x72, 0x75, 0x65], by decide, by decide, by decide⟩
    | false => exact ⟨0x66, [0x61, 0x6c, 0x73, 0x65], by decide, by decide, by decide⟩
  | number n =>
    obtain ⟨hdigits, d, later, hwhole, -⟩ := ofNat_whole n
    have hd := hdigits d (by rw [hwhole]; exact List.mem_cons_self)
    -- A number begins with its first digit.
    have hfirst : ∀ d < 10, isBlank (UInt8.ofNat (48 + d)) = false ∧
        UInt8.ofNat (48 + d) ≠ 0x5d := by decide
    refine ⟨UInt8.ofNat (48 + d), spelt (writeDigits later), ?_, hfirst d hd⟩
    simp only [write, writeNumber_ofNat, hwhole, spelt, writeDigits, List.map_cons,
      List.flatMap_cons, (decimal d hd).1]
    rfl
  -- A string begins with its quote, and a container with its opening bracket or brace.
  | string text =>
    refine ⟨0x22, spelt (text.toList.flatMap escape ++ ['"']), ?_, by decide, by decide⟩
    rw [write, writeString, spelt, List.flatMap_cons]
    rfl
  | @array elements each =>
    refine ⟨0x5b, spelt (writeElements elements ++ [']']), ?_, by decide, by decide⟩
    rw [write, spelt, List.flatMap_cons]
    rfl
  | @object members each =>
    refine ⟨0x7b, spelt (writeMembers members ++ ['\x7d']), ?_, by decide, by decide⟩
    rw [write, spelt, List.flatMap_cons]
    rfl

/-- A value is read from its writing, whatever may stand behind it. This is the statement of the
induction in `Intact.reads`. -/
private def Reads (j : Json) : Prop :=
  ∀ fuel rest, (write j).length ≤ fuel → Ends rest →
    readValue fuel (spelt (write j) ++ rest) = (j, some rest)

/-- **The first byte of written elements** is that of the first one, and does not close the
array. -/
private theorem spelt_writeElements_first {j : Json} {elements : List Json}
    (intact : ∀ i ∈ j :: elements, Intact i) (rest : Bytes) :
    ∃ b later, spelt (writeElements (j :: elements)) ++ rest = b :: later ∧
      isBlank b = false ∧ b ≠ 0x5d := by
  obtain ⟨b, later, hfirst, hb⟩ := (intact j List.mem_cons_self).first
  cases elements with
  | nil =>
    rw [writeElements, hfirst]
    exact ⟨b, later ++ rest, rfl, hb⟩
  | cons j' elements =>
    have hwrite : writeElements (j :: j' :: elements) =
        write j ++ ',' :: writeElements (j' :: elements) := rfl
    rw [hwrite, spelt, List.flatMap_append]
    change ∃ b later', spelt (write j) ++ _ ++ rest = b :: later' ∧ _
    rw [hfirst]
    exact ⟨b, _, rfl, hb⟩

/-- **Elements are read one after the other**, up to the bracket that closes the array. That each
element is read is a hypothesis, which the induction over values gives. -/
private theorem readElements_write {elements : List Json} (hne : elements ≠ [])
    (intact : ∀ j ∈ elements, Intact j) (reads : ∀ j ∈ elements, Reads j) (rest : Bytes)
    (fuel : Nat) (hfuel : (writeElements elements).length < fuel) :
    readElements fuel (spelt (writeElements elements) ++ 0x5d :: rest) =
      (elements, some rest) := by
  -- On the elements. The last one is followed by the bracket, the others by a comma.
  induction elements generalizing fuel with
  | nil => exact absurd rfl hne
  | cons j elements ih =>
    obtain ⟨fuel, rfl⟩ : ∃ f, fuel = f + 1 := ⟨fuel - 1, by omega⟩
    obtain ⟨b, later, hfirst, hblank, -⟩ := (intact j List.mem_cons_self).first
    have hread := reads j List.mem_cons_self
    cases elements with
    | nil =>
      -- The last element: what stands behind it is the bracket.
      rw [writeElements] at hfuel ⊢
      have hvalue := hread fuel (0x5d :: rest) (by omega) (.cons rest (by decide))
      rw [hfirst, List.cons_append] at hvalue ⊢
      rw [readElements, skipBlanks_cons hblank]
      simp [hvalue, skipBlanks_cons (show isBlank 0x5d = false by decide)]
    | cons j' elements =>
      have hwrite : writeElements (j :: j' :: elements) =
          write j ++ ',' :: writeElements (j' :: elements) := rfl
      have hcomma : spelt (writeElements (j :: j' :: elements)) ++ 0x5d :: rest =
          spelt (write j) ++ 0x2c :: (spelt (writeElements (j' :: elements)) ++ 0x5d :: rest) := by
        rw [hwrite, spelt, List.flatMap_append, List.flatMap_cons, List.append_assoc,
          List.append_assoc]
        rfl
      rw [hwrite, List.length_append, List.length_cons] at hfuel
      -- The element is read up to the comma, and the others by the induction hypothesis.
      have hvalue := hread fuel (0x2c :: (spelt (writeElements (j' :: elements)) ++ 0x5d :: rest))
        (by omega) (.cons _ (by decide))
      have hlater := ih (by simp) (fun i hi => intact i (List.mem_cons_of_mem _ hi))
        (fun i hi => reads i (List.mem_cons_of_mem _ hi)) fuel (by omega)
      -- The next element follows the comma at once, and does not close the array.
      obtain ⟨c, next, hnext, hnextBlank, hopen⟩ := spelt_writeElements_first
        (fun i hi => intact i (List.mem_cons_of_mem _ hi)) (0x5d :: rest)
      rw [hcomma]
      rw [hfirst, List.cons_append] at hvalue ⊢
      rw [readElements, skipBlanks_cons hblank]
      simp only [List.isEmpty_cons, Bool.false_eq_true, if_false, hvalue,
        skipBlanks_cons (show isBlank 0x2c = false by decide)]
      rw [hnext] at hlater ⊢
      rw [skipBlanks_cons hnextBlank]
      split
      · next heq => exact absurd (List.cons.inj heq).1 hopen
      · rw [hlater]

/-- A name is read from its writing, up to its closing quote. -/
theorem readName_writeString (name : String) (rest : Bytes) :
    readName (spelt (writeString name) ++ rest) = some (name, rest) := by
  have hcons : spelt (writeString name) ++ rest =
      0x22 :: (spelt (name.toList.flatMap escape ++ ['"']) ++ rest) := by
    rw [writeString, spelt, List.flatMap_cons]
    rfl
  rw [hcons, readName, skipBlanks_cons (by decide)]
  simp only [spelt, readPieces_writeString, textOfPieces_piecesOf, Option.map_some,
    String.ofList_toList]

/-- **Members are read one after the other**, up to the brace that closes the object. -/
private theorem readMembers_write {members : List (String × Json)} (hne : members ≠ [])
    (reads : ∀ m ∈ members, Reads m.2) (rest : Bytes) (fuel : Nat)
    (hfuel : (writeMembers members).length < fuel) :
    readMembers fuel (spelt (writeMembers members) ++ 0x7d :: rest) = (members, some rest) := by
  induction members generalizing fuel with
  | nil => exact absurd rfl hne
  | cons m members ih =>
    obtain ⟨name, j⟩ := m
    obtain ⟨fuel, rfl⟩ : ∃ f, fuel = f + 1 := ⟨fuel - 1, by omega⟩
    have hread : Reads j := reads (name, j) List.mem_cons_self
    -- The name and the colon are the same whether or not another member follows.
    have hmember : ∀ text behind : List Char,
        spelt (writeString name ++ ':' :: text ++ behind) =
          spelt (writeString name) ++ 0x3a :: (spelt text ++ spelt behind) := by
      intro text behind
      rw [spelt, List.flatMap_append, List.flatMap_append, List.flatMap_cons, List.append_assoc]
      rfl
    cases members with
    | nil =>
      -- The last member: what stands behind its value is the brace.
      have hwrite : writeMembers [(name, j)] = writeString name ++ ':' :: write j ++ [] := by
        rw [List.append_nil, writeMembers]
      rw [hwrite] at hfuel ⊢
      simp only [List.append_nil, List.length_append, List.length_cons] at hfuel
      have hvalue := hread fuel (0x7d :: rest) (by omega) (.cons rest (by decide))
      rw [hmember, List.append_assoc, List.cons_append, readMembers, readName_writeString]
      simp [skipBlanks_cons (show isBlank 0x3a = false by decide), hvalue,
        skipBlanks_cons (show isBlank 0x7d = false by decide)]
    | cons m' members =>
      -- What is read behind the comma is read by the same recursion, with less fuel.
      have hwrite : writeMembers ((name, j) :: m' :: members) =
          writeString name ++ ':' :: write j ++ ',' :: writeMembers (m' :: members) := by
        rw [List.append_assoc]
        rfl
      have hcomma : spelt (',' :: writeMembers (m' :: members)) =
          0x2c :: spelt (writeMembers (m' :: members)) := rfl
      rw [hwrite] at hfuel ⊢
      simp only [List.length_append, List.length_cons] at hfuel
      have hvalue := hread fuel (0x2c :: (spelt (writeMembers (m' :: members)) ++ 0x7d :: rest))
        (by omega) (.cons _ (by decide))
      have hlater := ih (by simp) (fun m hm => reads m (List.mem_cons_of_mem _ hm)) fuel
        (by omega)
      rw [hmember, hcomma, List.append_assoc, List.cons_append, List.append_assoc,
        List.cons_append, readMembers, readName_writeString]
      simp only [skipBlanks_cons (show isBlank 0x3a = false by decide), hvalue,
        skipBlanks_cons (show isBlank 0x2c = false by decide), hlater]

/-- **What begins with a digit is read as a number.** The other kinds of values begin with bytes of
their own. -/
private theorem readValue_digit {d : Nat} (hd : d < 10) (fuel : Nat) (later : Bytes) :
    readValue (fuel + 1) (UInt8.ofNat (48 + d) :: later) =
      match readNumber (UInt8.ofNat (48 + d) :: later) with
      | some (n, rest) => (.number n, some rest)
      | none => (.broken, none) := by
  have hblanks : ∀ d < 10, isBlank (UInt8.ofNat (48 + d)) = false := by decide
  obtain ⟨-, hdigit, -, -⟩ := decimal d hd
  -- A digit is none of the bytes with which values of other kinds begin.
  have hother : ∀ {b : UInt8} {behind : Bytes}, isDigit b = false →
      UInt8.ofNat (48 + d) :: later ≠ b :: behind := by
    intro b behind hb heq
    rw [(List.cons.inj heq).1, hb] at hdigit
    cases hdigit
  rw [readValue, skipBlanks_cons (hblanks d hd)]
  split
  · next heq => exact absurd heq (hother (by decide))
  · next heq => exact absurd heq (hother (by decide))
  unfold readScalar
  split
  · next heq => exact absurd heq (hother (by decide))
  · next heq => exact absurd heq (hother (by decide))
  · next heq => exact absurd heq (hother (by decide))
  · next heq => exact absurd heq (hother (by decide))
  · rfl

/-! ### Each kind of value -/

namespace Reads

/-- A count is read back. -/
private theorem number (n : Nat) : Reads (.number (.ofNat n)) := by
  intro fuel rest hfuel hrest
  obtain ⟨hdigits, d, later, hwhole, -⟩ := ofNat_whole n
  have hd : d < 10 := hdigits d (by rw [hwhole]; exact List.mem_cons_self)
  have hread : readNumber (spelt (write (.number (.ofNat n))) ++ rest) = some (.ofNat n, rest) := by
    rw [write]
    exact readNumber_ofNat n hrest
  have hwrite : spelt (write (.number (.ofNat n))) =
      UInt8.ofNat (48 + d) :: spelt (writeDigits later) := by
    simp only [write, writeNumber_ofNat, hwhole, spelt, writeDigits, List.map_cons,
      List.flatMap_cons, (decimal d hd).1]
    rfl
  obtain ⟨fuel, rfl⟩ : ∃ f, fuel = f + 1 :=
    ⟨fuel - 1, by simp [write, writeNumber_ofNat, writeDigits, hwhole] at hfuel; omega⟩
  rw [hwrite] at hread ⊢
  rw [List.cons_append, readValue_digit hd, ← List.cons_append, hread]

/-- A string is read back. -/
private theorem string (text : String) : Reads (.string (some text)) := by
  intro fuel rest hfuel _
  obtain ⟨fuel, rfl⟩ : ∃ f, fuel = f + 1 :=
    ⟨fuel - 1, by simp [write, writeString] at hfuel; omega⟩
  have hwrite : spelt (write (.string (some text))) ++ rest =
      0x22 :: (spelt (text.toList.flatMap escape ++ ['"']) ++ rest) := rfl
  have hscalar : ∀ bytes, readValue (fuel + 1) (0x22 :: bytes) = readScalar (0x22 :: bytes) :=
    fun _ => rfl
  rw [hwrite, hscalar, readScalar]
  simp only [spelt, readPieces_writeString, textOfPieces_piecesOf, String.ofList_toList]

/-- An array is read back if its elements are. -/
private theorem array {elements : List Json} (intact : ∀ j ∈ elements, Intact j)
    (reads : ∀ j ∈ elements, Reads j) : Reads (.array elements true) := by
  intro fuel rest hfuel _
  -- An array is its bracket, the elements, and the closing one.
  have hwrite : spelt (write (.array elements true)) ++ rest =
      0x5b :: (spelt (writeElements elements) ++ 0x5d :: rest) := by
    rw [write, spelt, List.flatMap_cons, List.flatMap_append, List.append_assoc,
      List.append_assoc]
    rfl
  rw [write, List.length_cons, List.length_append, List.length_singleton] at hfuel
  obtain ⟨fuel, rfl⟩ : ∃ f, fuel = f + 1 := ⟨fuel - 1, by omega⟩
  rw [hwrite, readValue, skipBlanks_cons (by decide)]
  cases elements with
  -- An empty array is closed at once.
  | nil => rfl
  | cons j elements =>
    -- The reader looks for the closing bracket first, and finds the first element instead.
    obtain ⟨b, later, hfirst, hblank, hopen⟩ := spelt_writeElements_first intact (0x5d :: rest)
    have hread := readElements_write (by simp) intact reads rest fuel (by omega)
    rw [hfirst] at hread ⊢
    simp only [skipBlanks_cons hblank]
    split
    · next heq => exact absurd (List.cons.inj heq).1 hopen
    · rw [hread]
      rfl

/-- An object is read back if its members are. -/
private theorem object {members : List (String × Json)} (reads : ∀ m ∈ members, Reads m.2) :
    Reads (.object members true) := by
  intro fuel rest hfuel _
  -- An object is its brace, the members, and the closing one.
  have hwrite : spelt (write (.object members true)) ++ rest =
      0x7b :: (spelt (writeMembers members) ++ 0x7d :: rest) := by
    rw [write, spelt, List.flatMap_cons, List.flatMap_append, List.append_assoc,
      List.append_assoc]
    rfl
  rw [write, List.length_cons, List.length_append, List.length_singleton] at hfuel
  obtain ⟨fuel, rfl⟩ : ∃ f, fuel = f + 1 := ⟨fuel - 1, by omega⟩
  rw [hwrite, readValue, skipBlanks_cons (by decide)]
  cases members with
  | nil => rfl
  | cons m members =>
    -- A member begins with the quote of its name.
    obtain ⟨later, hfirst⟩ : ∃ later,
        spelt (writeMembers (m :: members)) ++ 0x7d :: rest = 0x22 :: later := by
      obtain ⟨name, j⟩ := m
      cases members <;> exact ⟨_, rfl⟩
    have hread := readMembers_write (List.cons_ne_nil m members) reads rest fuel (by omega)
    rw [hfirst] at hread ⊢
    simp only [skipBlanks_cons (show isBlank 0x22 = false by decide)]
    change (Json.object (readMembers fuel (0x22 :: later)).1
      (readMembers fuel (0x22 :: later)).2.isSome, (readMembers fuel (0x22 :: later)).2) = _
    rw [hread]
    rfl

end Reads

/-- The induction is on the value; the containers hand their fuel on to their parts. -/
private theorem Intact.reads {j : Json} (h : Intact j) : Reads j := by
  induction h with
  | null =>
    intro fuel rest hfuel _
    obtain ⟨fuel, rfl⟩ : ∃ f, fuel = f + 1 := ⟨fuel - 1, by simp [write] at hfuel; omega⟩
    rfl
  | bool value =>
    intro fuel rest hfuel _
    cases value <;>
    · obtain ⟨fuel, rfl⟩ : ∃ f, fuel = f + 1 := ⟨fuel - 1, by simp [write] at hfuel; omega⟩
      rfl
  | number n => exact Reads.number n
  | string text => exact Reads.string text
  | @array elements each ih => exact Reads.array each ih
  | @object members each ih => exact Reads.object ih

/-- What is written of an intact value is read as that value, and nothing else with it. -/
theorem readValue_write {j : Json} (h : Intact j) (fuel : Nat) (rest : Bytes)
    (hfuel : (write j).length ≤ fuel) (hrest : Ends rest) :
    readValue fuel (spelt (write j) ++ rest) = (j, some rest) :=
  h.reads fuel rest hfuel hrest

/-- A character is one byte at least, so the fuel that the reader takes from the bytes is enough. -/
private theorem length_le_length_spelt (cs : List Char) : cs.length ≤ (spelt cs).length := by
  induction cs with
  | nil => exact Nat.zero_le _
  | cons c cs ih =>
    have hc : 0 < (String.utf8EncodeChar c).length :=
      List.length_pos_iff.mpr String.utf8EncodeChar_ne_nil
    have hcons : spelt (c :: cs) = String.utf8EncodeChar c ++ spelt cs := List.flatMap_cons
    rw [hcons, List.length_append, List.length_cons]
    omega

/-- The text of an intact value is read as that value. This is what the records rest on. -/
theorem parse?_render {j : Json} (h : Intact j) : parse? (Bytes.ofText j.render) = some j := by
  have hread := readValue_write h ((spelt (write j)).length + 1) []
    (Nat.le_succ_of_le (length_le_length_spelt _)) (Or.inl rfl)
  rw [List.append_nil] at hread
  rw [render, Bytes.ofText_ofList, parse?, hread]
  rfl

end Countersign.Json
