import Countersign.Proofs.Store.Spelling
import Mathlib.Data.List.Forall2
import Mathlib.Data.Nat.Digits.Defs

/-!
# The grammar of a key

The key of a confirm is meant to be a slash, the name of the namespace, a slash, the nonce in
hexadecimal digits, a colon, `0x`, and the forty digits of the signer, digits in either case
(`ConfirmKey.InGrammar`). What digits stand for is said by their places (`Denotes`), without the
reader.

Every key of the grammar is read as the confirm that it names. Of all other texts the reader takes
those that differ from such a key by a **surplus** (`ConfirmKey.HasSurplus`): a plus sign in front
of the nonce, or one more prefix in front of the signer's digits. So a text is treated as the
grammar asks exactly if it has no surplus (`ConfirmKey.readsAsDocumented_iff`); a key of the grammar
never has one (`ConfirmKey.WrittenWith.no_surplus`).
-/

namespace Countersign

/-! ### Digits by their places -/

/-- A hexadecimal digit of either case, with its value. It is said by the digit that is written for
the value, not by ranges of characters. -/
def IsHexDigit (c : Char) (d : Nat) : Prop :=
  d < 16 ∧ c.toLower = d.digitChar

/-- A number in hexadecimal digits, the one of the greatest place in front. No digits at all denote
0; where a digit is needed this is asked for besides. -/
def Denotes (text : List Char) (n : Nat) : Prop :=
  ∃ values, List.Forall₂ IsHexDigit text values ∧ Nat.ofDigits 16 values.reverse = n

namespace ConfirmKey

/-- The reader knows exactly these digits. -/
theorem digitValue?_eq_some_iff_isHexDigit {c : Char} {d : Nat} :
    digitValue? c = some d ↔ IsHexDigit c d :=
  digitValue?_eq_some_iff

/-- One more digit in front has the greatest place. The sum is written as the reader carries it
along. -/
theorem ofDigits_reverse_cons (acc d : Nat) (values : List Nat) :
    Nat.ofDigits 16 (d :: values).reverse + 16 ^ (d :: values).length * acc =
      Nat.ofDigits 16 values.reverse + 16 ^ values.length * (16 * acc + d) := by
  rw [List.reverse_cons, Nat.ofDigits_append, Nat.ofDigits_singleton, List.length_reverse,
    List.length_cons, Nat.pow_succ, Nat.mul_add, Nat.mul_assoc]
  omega

/-- **What the reader makes of digits**, onto those read before. The induction is on the text, for
every number that is carried along. -/
theorem readDigits_eq_some_iff {acc n : Nat} {text : List Char} :
    readDigits acc text = some n ↔ ∃ values, List.Forall₂ IsHexDigit text values ∧
      Nat.ofDigits 16 values.reverse + 16 ^ values.length * acc = n := by
  induction text generalizing acc with
  | nil =>
    constructor
    · intro h
      obtain rfl := Option.some.inj h
      exact ⟨[], .nil, by simp⟩
    · rintro ⟨values, ⟨⟩, rfl⟩
      simp [readDigits]
  -- The first digit is carried along, and the rest is read behind it.
  | cons c text ih =>
    constructor
    · intro h
      rw [readDigits] at h
      cases hc : digitValue? c with
      | none =>
        rw [hc] at h
        cases h
      | some d =>
        rw [hc] at h
        obtain ⟨values, hvalues, hn⟩ := ih.mp h
        refine ⟨d :: values, .cons (digitValue?_eq_some_iff_isHexDigit.mp hc) hvalues, ?_⟩
        rw [ofDigits_reverse_cons, hn]
    · rintro ⟨values, hvalues, hn⟩
      cases hvalues with
      | @cons _ d _ values hc hvalues =>
        rw [readDigits, digitValue?_eq_some_iff_isHexDigit.mpr hc]
        refine ih.mpr ⟨values, hvalues, ?_⟩
        rw [← ofDigits_reverse_cons, hn]

theorem readDigits_zero_eq_some_iff {text : List Char} {n : Nat} :
    readDigits 0 text = some n ↔ Denotes text n := by
  rw [readDigits_eq_some_iff, Denotes]
  simp only [Nat.mul_zero, Nat.add_zero]

/-- A character that is no digit stands in no number. -/
theorem notMem_of_denotes {c : Char} (hc : digitValue? c = none) {text : List Char} {n : Nat}
    (h : Denotes text n) : c ∉ text := by
  obtain ⟨values, hvalues, -⟩ := h
  induction hvalues with
  | nil => exact List.not_mem_nil
  | cons hdigit _ ih =>
    intro hmem
    rcases List.mem_cons.mp hmem with rfl | hmem
    · rw [digitValue?_eq_some_iff_isHexDigit.mpr hdigit] at hc
      cases hc
    · exact ih hmem

/-! ### The digits of an address -/

/-- In lower case digits are those that are written for their values. -/
theorem lowerCase_eq_map_digitChar {text : List Char} {values : List Nat}
    (h : List.Forall₂ IsHexDigit text values) :
    (∀ d ∈ values, d < 16) ∧ lowerCase text = values.map Nat.digitChar := by
  induction h with
  | nil => exact ⟨by simp, rfl⟩
  | cons hdigit _ ih =>
    refine ⟨fun d hd => ?_, ?_⟩
    · rcases List.mem_cons.mp hd with rfl | hd
      · exact hdigit.1
      · exact ih.1 d hd
    · rw [List.map_cons, ← ih.2, ← hdigit.2]
      rfl

/-- As many digits of the same number are the same ones, but for their case. Without the same length
one could have zeros in front. -/
theorem lowerCase_eq_of_denotes {text other : List Char} {n : Nat} (h : Denotes text n)
    (hother : Denotes other n) (hlength : text.length = other.length) :
    lowerCase text = lowerCase other := by
  obtain ⟨values, hvalues, hn⟩ := h
  obtain ⟨others, hothers, hn'⟩ := hother
  obtain ⟨hlt, htext⟩ := lowerCase_eq_map_digitChar hvalues
  obtain ⟨hlt', hother⟩ := lowerCase_eq_map_digitChar hothers
  have hsame : values.reverse = others.reverse := by
    refine Nat.ofDigits_inj_of_len_eq (by decide) ?_ ?_ ?_ (hn.trans hn'.symm)
    · rw [List.length_reverse, List.length_reverse, ← hvalues.length_eq, ← hothers.length_eq,
        hlength]
    · exact fun d hd => hlt d (List.mem_reverse.mp hd)
    · exact fun d hd => hlt' d (List.mem_reverse.mp hd)
  rw [htext, hother, List.reverse_inj.mp hsame]

theorem readDigits_flatMap_digits (acc : Nat) (bytes : Bytes) :
    readDigits acc (bytes.flatMap Hex.digits) =
      some (bytes.foldl (fun n b => 256 * n + b.toNat) acc) := by
  have hdigit : ∀ d < 16, digitValue? (Hex.digit d) = some d := by decide
  induction bytes generalizing acc with
  | nil => rfl
  | cons b bytes ih =>
    have hb := b.toNat_lt
    have hhalves : 16 * (16 * acc + b.toNat / 16) + b.toNat % 16 = 256 * acc + b.toNat := by omega
    rw [List.flatMap_cons, Hex.digits, List.cons_append, List.cons_append, List.nil_append,
      readDigits, hdigit _ (by omega)]
    dsimp only
    rw [readDigits, hdigit _ (by omega)]
    dsimp only
    rw [hhalves, ih, List.foldl_cons]

/-- The digits of an address denote its number, so writing an address gives a text of the
grammar. -/
theorem denotes_digits (a : Address) : Denotes (a.toBytes.flatMap Hex.digits) a.bits.toNat := by
  have hnumber : Bytes.toNatBE a.toBytes = a.bits.toNat :=
    Bytes.toNatBE_ofNatBE_of_lt a.bits.isLt
  rw [← readDigits_zero_eq_some_iff, readDigits_flatMap_digits, ← hnumber]
  rfl

/-- Forty digits of the address's number are its digits, in either case. This joins the two ways of
saying how a signer is written: by its bytes, and by places. -/
theorem lowerCase_eq_digits_iff {digits : List Char} {a : Address} :
    lowerCase digits = a.toBytes.flatMap Hex.digits ↔
      digits.length = 40 ∧ Denotes digits a.bits.toNat := by
  have hlength : (a.toBytes.flatMap Hex.digits).length = 40 := by
    rw [Hex.length_flatMap_digits, Address.length_toBytes]
  constructor
  · intro h
    refine ⟨?_, ?_⟩
    · rw [← hlength, ← h, lowerCase, List.length_map]
    · rw [← readDigits_zero_eq_some_iff, ← readDigits_lowerCase, h, readDigits_zero_eq_some_iff]
      exact denotes_digits a
  · rintro ⟨hforty, hdenotes⟩
    rw [← Hex.lowerCase_flatMap_digits]
    exact lowerCase_eq_of_denotes hdenotes (denotes_digits a) (hforty.trans hlength.symm)

/-! ### Keys of the grammar and others -/

/-- A key that is written out with a text in front of the nonce's digits, and one in front of the
signer's. With nothing in front of both it is a key of the grammar. -/
def WrittenWith (sign front : List Char) (key : String) (k : ConfirmKey) : Prop :=
  k.space.isConfirm = true ∧ ∃ nonceDigits signerDigits : List Char,
    key.toList = '/' :: (k.space.name.toList ++ '/' ::
      ((sign ++ nonceDigits) ++ ':' :: '0' :: 'x' :: (front ++ signerDigits))) ∧
    nonceDigits ≠ [] ∧ Denotes nonceDigits k.nonce.toNat ∧
    signerDigits.length = 40 ∧ Denotes signerDigits k.signer.bits.toNat

/-- A key of the grammar, with the confirm that it names. -/
def InGrammar (key : String) (k : ConfirmKey) : Prop :=
  WrittenWith [] [] key k

/-- What may stand in front of the digits of a nonce, as far as the reader is concerned: nothing, or
a plus sign. -/
def nonceSigns : List (List Char) :=
  [[], ['+']]

/-- A key with something that the grammar does not know in front of one of its numbers, and
otherwise as the grammar asks. -/
def HasSurplus (key : String) (k : ConfirmKey) : Prop :=
  ∃ sign ∈ nonceSigns, ∃ front ∈ digitPrefixes, (sign ≠ [] ∨ front ≠ []) ∧
    WrittenWith sign front key k

/-- What the reader takes for a nonce, in the words of the grammar. -/
theorem spellsNonce_iff {text : List Char} {nonce : UInt64} :
    SpellsNonce text nonce ↔ ∃ sign ∈ nonceSigns, ∃ digits, text = sign ++ digits ∧
      digits ≠ [] ∧ Denotes digits nonce.toNat := by
  rw [← parseNonce?_eq_some_iff, parseNonce?_eq_some_iff_readDigits]
  simp only [readDigits_zero_eq_some_iff, nonceSigns]

/-- What the reader takes for a signer, in the words of the grammar. The text behind the first
prefix may have a prefix of its own. -/
theorem spellsSigner_iff {text : List Char} {signer : Address} :
    SpellsSigner text signer ↔ ∃ front ∈ digitPrefixes, ∃ digits,
      text = '0' :: 'x' :: (front ++ digits) ∧ digits.length = 40 ∧
        Denotes digits signer.bits.toNat := by
  simp only [SpellsSigner, lowerCase_eq_digits_iff]

variable {sign front : List Char} {key : String} {k k' : ConfirmKey}

/-- What is read as the key of a confirm, in the words of the grammar. All four ways to put
something in front are read, or nothing. -/
theorem parse_eq_ok_iff_writtenWith :
    ConfirmKey.parse key = .ok k ↔
      ∃ sign ∈ nonceSigns, ∃ front ∈ digitPrefixes, WrittenWith sign front key k := by
  rw [parse_eq_ok_iff, Spells]
  constructor
  · rintro ⟨hconfirm, nonceText, signerText, hkey, hnonce, hsigner⟩
    obtain ⟨sign, hsign, nonceDigits, rfl, hne, hdenotes⟩ := spellsNonce_iff.mp hnonce
    obtain ⟨front, hfront, signerDigits, rfl, hforty⟩ := spellsSigner_iff.mp hsigner
    exact ⟨sign, hsign, front, hfront, hconfirm, nonceDigits, signerDigits, hkey, hne, hdenotes,
      hforty⟩
  · rintro ⟨sign, hsign, front, hfront, hconfirm, nonceDigits, signerDigits, hkey, hne, hnonce,
      hsigner⟩
    exact ⟨hconfirm, _, _, hkey, spellsNonce_iff.mpr ⟨sign, hsign, _, rfl, hne, hnonce⟩,
      spellsSigner_iff.mpr ⟨front, hfront, _, rfl, hsigner⟩⟩

/-- A key of the grammar is read as what it names. -/
theorem InGrammar.parse (h : InGrammar key k) : ConfirmKey.parse key = .ok k :=
  parse_eq_ok_iff_writtenWith.mpr ⟨[], List.mem_cons_self, [], List.mem_cons_self, h⟩

/-- A key with a surplus is read as what it would name without it. -/
theorem HasSurplus.parse (h : HasSurplus key k) : ConfirmKey.parse key = .ok k := by
  obtain ⟨sign, hsign, front, hfront, -, hwritten⟩ := h
  exact parse_eq_ok_iff_writtenWith.mpr ⟨sign, hsign, front, hfront, hwritten⟩

/-- **A key of the grammar has nothing in front of its numbers**, in whatever way it is cut. -/
theorem WrittenWith.no_surplus (h : WrittenWith sign front key k) (hsign : sign ∈ nonceSigns)
    (hfront : front ∈ digitPrefixes) (hgrammar : InGrammar key k') : sign = [] ∧ front = [] := by
  -- Both readings are of the same text, so of the same confirm.
  have hparse := parse_eq_ok_iff_writtenWith.mpr ⟨sign, hsign, front, hfront, h⟩
  obtain rfl : k = k' := Except.ok.inj (hparse.symm.trans hgrammar.parse)
  obtain ⟨-, nonceDigits, signerDigits, hkey, hne, hnonce, hsigner⟩ := h
  obtain ⟨-, nonceDigits', signerDigits', hkey', -, hnonce', hsigner'⟩ := hgrammar
  have hcolon : ':' ∉ sign ++ nonceDigits :=
    separates_colon.notMem_nonce (spellsNonce_iff.mpr ⟨sign, hsign, _, rfl, hne, hnonce⟩)
  have hcolon' : ':' ∉ '0' :: 'x' :: (front ++ signerDigits) :=
    separates_colon.notMem_signer (spellsSigner_iff.mpr ⟨front, hfront, _, rfl, hsigner⟩)
  rw [hkey] at hkey'
  -- The namespaces are the same, and the colon parts what is behind them.
  have hid := List.append_cancel_left (List.cons.inj hkey').2
  obtain ⟨hnonces, -, hsigners⟩ :=
    (List.append_cons_inj_of_notMem hcolon hcolon').mp (List.cons.inj hid).2
  constructor
  · -- A plus sign would be one of the digits of the other reading.
    rcases List.mem_cons.mp hsign with rfl | hsign
    · rfl
    · obtain rfl := List.mem_singleton.mp hsign
      have hplus : '+' ∉ nonceDigits' := notMem_of_denotes rfl hnonce'
      rw [List.nil_append] at hnonces
      exact absurd (hnonces ▸ List.mem_cons_self) hplus
  · -- Both signers have forty digits, so nothing is left for a prefix.
    have hlength := congrArg List.length hsigners
    simp only [List.length_cons, List.length_append, List.nil_append, hsigner.1, hsigner'.1]
      at hlength
    exact List.eq_nil_of_length_eq_zero (by omega)

/-! ### What the grammar promises -/

/-- A text that is treated as the grammar asks: it is read as what it denotes there, and refused if
it denotes nothing. The second part is said separately, since an answer of some kind is owed to
every text. -/
def ReadsAsDocumented (key : String) : Prop :=
  (∀ k, ConfirmKey.parse key = .ok k ↔ InGrammar key k) ∧
    ((∀ k, ¬ InGrammar key k) → ∃ e : KeyError, ConfirmKey.parse key = .error e)

/-- A surplus is read although the text denotes nothing. -/
theorem not_readsAsDocumented_of_hasSurplus (h : HasSurplus key k) : ¬ ReadsAsDocumented key := by
  intro hdocumented
  obtain ⟨sign, hsign, front, hfront, hne, hwritten⟩ := id h
  obtain ⟨rfl, rfl⟩ := hwritten.no_surplus hsign hfront ((hdocumented.1 k).mp h.parse)
  simp at hne

/-- **What is read as a key**: the keys of the grammar, and those with a surplus. A text is treated
as the grammar asks exactly if it has none, so surplus is the only deviation. -/
theorem readsAsDocumented_iff (key : String) :
    (∀ k, ConfirmKey.parse key = .ok k ↔ InGrammar key k ∨ HasSurplus key k) ∧
      (ReadsAsDocumented key ↔ ∀ k, ¬ HasSurplus key k) := by
  have hread : ∀ k, ConfirmKey.parse key = .ok k ↔ InGrammar key k ∨ HasSurplus key k := by
    intro k
    constructor
    · intro h
      obtain ⟨sign, hsign, front, hfront, hwritten⟩ := parse_eq_ok_iff_writtenWith.mp h
      by_cases hnone : sign = [] ∧ front = []
      · obtain ⟨rfl, rfl⟩ := hnone
        exact Or.inl hwritten
      · have hsome := Decidable.not_and_iff_not_or_not.mp hnone
        exact Or.inr ⟨sign, hsign, front, hfront, hsome, hwritten⟩
    · rintro (h | h)
      · exact h.parse
      · exact h.parse
  refine ⟨hread, fun h k hsurplus => not_readsAsDocumented_of_hasSurplus hsurplus h, fun h => ?_⟩
  refine ⟨fun k => (hread k).trans (or_iff_left (h k)), fun hnone => ?_⟩
  cases hparse : ConfirmKey.parse key with
  | error e => exact ⟨e, rfl⟩
  | ok k => exact absurd ((hread k).mp hparse) (not_or.mpr ⟨hnone k, h k⟩)

/-- A key with given texts in front of its numbers. It gives examples of every kind of surplus. -/
def writeWith (sign front : List Char) (k : ConfirmKey) : String :=
  String.ofList ('/' :: (k.space.name.toList ++ '/' ::
    ((sign ++ Nat.toDigits 16 k.nonce.toNat) ++ ':' :: '0' :: 'x' ::
      (front ++ k.signer.toBytes.flatMap Hex.digits))))

theorem writtenWith_writeWith (sign front : List Char) (h : k.space.isConfirm = true) :
    WrittenWith sign front (writeWith sign front k) k := by
  refine ⟨h, _, _, String.toList_ofList, Nat.toDigits_ne_nil, ?_,
    lowerCase_eq_digits_iff.mp (Hex.lowerCase_flatMap_digits _)⟩
  exact readDigits_zero_eq_some_iff.mp (readDigits_toDigits _)

/-- **Texts outside of the grammar that are read**: one with a plus sign in front of the nonce, and
one with two prefixes in front of the signer. -/
theorem not_readsAsDocumented_surplus :
    ¬ ReadsAsDocumented "/vc/+2:0x7e5f4552091a69125d5dfcb7b8c2659029395bdf" ∧
      ¬ ReadsAsDocumented "/vc/2:0x0x7e5f4552091a69125d5dfcb7b8c2659029395bdf" := by
  let k : ConfirmKey := ⟨.valsetConfirm, 2, ⟨0x7e5f4552091a69125d5dfcb7b8c2659029395bdf⟩⟩
  have hplus : writeWith ['+'] [] k = "/vc/+2:0x7e5f4552091a69125d5dfcb7b8c2659029395bdf" := by
    decide
  have hprefix : writeWith [] ['0', 'x'] k =
      "/vc/2:0x0x7e5f4552091a69125d5dfcb7b8c2659029395bdf" := by
    decide
  rw [← hplus, ← hprefix]
  constructor
  · exact not_readsAsDocumented_of_hasSurplus
      ⟨['+'], by simp [nonceSigns], [], by simp [digitPrefixes], by simp,
        writtenWith_writeWith _ _ rfl⟩
  · exact not_readsAsDocumented_of_hasSurplus
      ⟨[], by simp [nonceSigns], ['0', 'x'], by simp [digitPrefixes], by simp,
        writtenWith_writeWith _ _ rfl⟩

end ConfirmKey

end Countersign
