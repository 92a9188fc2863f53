import Countersign.Proofs.Store.Key
import Countersign.Proofs.Text.Digits

/-!
# Spellings of a key

A confirm's key is written in one form, but read in several. This module says which texts are read
as the key of a given confirm (`ConfirmKey.parse_eq_ok_iff`):

* in front of the nonce there may be a plus sign and any number of zeros;
* in front of the signer's digits there may be one more `0x`, or a `0X`;
* all digits may be in either case.

Apart from that there is no choice.
-/

namespace Countersign

/-! ### Pieces put together -/

/-- A text has one piece at least. -/
theorem segments_ne_nil (separator : Char) (text : List Char) : segments separator text ≠ [] := by
  cases text with
  | nil => exact List.cons_ne_nil _ _
  | cons c text =>
    rw [segments]
    split
    · exact List.cons_ne_nil _ _
    · split <;> exact List.cons_ne_nil _ _

/-- **The pieces of a text, with separators between them**, are the text. So nothing is lost in
cutting a key. -/
theorem eq_of_segments_eq_cons (separator : Char) {text piece : List Char}
    {pieces : List (List Char)} (h : segments separator text = piece :: pieces) :
    text = piece ++ pieces.flatMap (separator :: ·) := by
  induction text generalizing piece pieces with
  | nil =>
    rw [segments] at h
    obtain ⟨rfl, rfl⟩ := List.cons.inj h
    rfl
  | cons c text ih =>
    rw [segments] at h
    obtain ⟨first, others, hrest⟩ := List.exists_cons_of_ne_nil (segments_ne_nil separator text)
    have htext := ih hrest
    rw [hrest] at h
    -- The character separates, or it belongs to the first piece.
    split at h
    · next hc =>
      obtain ⟨rfl, rfl⟩ := List.cons.inj h
      rw [List.nil_append, List.flatMap_cons, List.cons_append, ← htext, hc]
    · obtain ⟨rfl, rfl⟩ := List.cons.inj h
      rw [List.cons_append, ← htext]

/-- A namespace is spelt in one way only. -/
theorem Namespace.eq_name_of_parse {text : List Char} {space : Namespace}
    (h : Namespace.parse text = .ok space) : text = space.name.toList := by
  rw [Namespace.parse] at h
  split at h
  · next htext =>
    obtain rfl := Except.ok.inj h
    exact htext
  split at h
  · next htext =>
    obtain rfl := Except.ok.inj h
    exact htext
  split at h
  · next htext =>
    obtain rfl := Except.ok.inj h
    exact htext
  · cases h

namespace ConfirmKey

/-! ### Digits of a nonce -/

/-- Digits of a nonce are those of any hexadecimal text. -/
theorem digitValue?_eq_value? {c : Char} (hc : c.toNat ≤ 0x7f) :
    digitValue? c = Hex.value? (UInt8.ofNat c.toNat) := by
  have hbyte : (UInt8.ofNat c.toNat).toNat = c.toNat := by
    rw [UInt8.toNat_ofNat']
    omega
  unfold digitValue? Hex.value?
  rw [hbyte]

/-- **What is read as a digit**: the digit, in either case. -/
theorem digitValue?_eq_some_iff {c : Char} {d : Nat} :
    digitValue? c = some d ↔ d < 16 ∧ c.toLower = d.digitChar := by
  have hsame : ∀ d < 16, Hex.digit d = d.digitChar := by decide
  constructor
  · intro h
    have hlow : c.toNat ≤ 0x7f := by
      unfold digitValue? at h
      dsimp only at h
      split at h
      · omega
      split at h
      · omega
      split at h
      · omega
      · cases h
    rw [digitValue?_eq_value? hlow] at h
    obtain ⟨hd, hlower⟩ := Hex.toLower_of_value? hlow h
    exact ⟨hd, hlower.trans (hsame d hd)⟩
  · rintro ⟨hd, hlower⟩
    obtain ⟨hlow, hvalue⟩ := Hex.value?_of_toLower hd (hlower.trans (hsame d hd).symm)
    rw [digitValue?_eq_value? hlow, hvalue]

/-- **Digits behind a number that is not zero** are those of the number that is read. -/
theorem toDigits_of_readDigits {acc : Nat} (hacc : 0 < acc) {text : List Char} {n : Nat}
    (h : readDigits acc text = some n) :
    Nat.toDigits 16 n = Nat.toDigits 16 acc ++ lowerCase text := by
  induction text generalizing acc with
  | nil =>
    obtain rfl := Option.some.inj h
    exact (List.append_nil _).symm
  | cons c text ih =>
    rw [readDigits] at h
    cases hc : digitValue? c with
    | none =>
      rw [hc] at h
      cases h
    | some d =>
      rw [hc] at h
      obtain ⟨hd, hlower⟩ := digitValue?_eq_some_iff.mp hc
      have hquotient : (16 * acc + d) / 16 = acc := by omega
      have hremainder : (16 * acc + d) % 16 = d := by omega
      rw [ih (by omega) h, Nat.toDigits_of_base_le (by decide) (by omega), hquotient, hremainder,
        ← hlower, List.append_assoc]
      rfl

/-- **Which digits spell a number**: its own, in either case, behind zeros. The induction is on the
text; a zero in front is one more, and from the first other digit on there is no choice. -/
theorem exists_digits_of_readDigits {text : List Char} (hne : text ≠ []) {n : Nat}
    (h : readDigits 0 text = some n) :
    ∃ zeros digits, text = List.replicate zeros '0' ++ digits ∧
      lowerCase digits = Nat.toDigits 16 n := by
  induction text with
  | nil => exact absurd rfl hne
  | cons c text ih =>
    rw [readDigits] at h
    cases hc : digitValue? c with
    | none =>
      rw [hc] at h
      cases h
    | some d =>
      rw [hc] at h
      obtain ⟨hd, hlower⟩ := digitValue?_eq_some_iff.mp hc
      have hread : readDigits d text = some n := by
        have hfirst : 16 * 0 + d = d := by omega
        rw [← hfirst]
        exact h
      -- The last digit is the whole number.
      by_cases hlast : text = []
      · subst hlast
        obtain rfl := Option.some.inj hread
        refine ⟨0, [c], rfl, ?_⟩
        rw [Nat.toDigits_of_lt_base hd, ← hlower]
        rfl
      by_cases hzero : d = 0
      · -- One more zero in front.
        subst hzero
        obtain ⟨zeros, digits, rfl, hdigits⟩ := ih hlast hread
        obtain rfl : c = '0' := eq_of_toLower hlower (by decide)
        exact ⟨zeros + 1, digits, rfl, hdigits⟩
      · -- From a digit that is not zero on, the digits are those of the number.
        refine ⟨0, c :: text, rfl, ?_⟩
        rw [toDigits_of_readDigits (Nat.pos_of_ne_zero hzero) hread, Nat.toDigits_of_lt_base hd,
          ← hlower]
        rfl

/-- The digits of a number are in lower case. -/
theorem lowerCase_toDigits (n : Nat) : lowerCase (Nat.toDigits 16 n) = Nat.toDigits 16 n := by
  obtain ⟨zeros, digits, heq, hlower⟩ :=
    exists_digits_of_readDigits Nat.toDigits_ne_nil (readDigits_toDigits n)
  -- There is no zero in front, or there would be more digits than there are.
  have hlength := congrArg List.length heq
  rw [← hlower] at hlength
  simp only [lowerCase, List.length_append, List.length_replicate, List.length_map] at hlength
  have hzeros : zeros = 0 := by omega
  subst hzeros
  have hdigits : digits = Nat.toDigits 16 n := heq.symm
  rw [← hdigits, hlower, hdigits]

/-- A digit has the same value in either case. -/
theorem digitValue?_toLower (c : Char) : digitValue? c.toLower = digitValue? c := by
  refine Option.ext fun d => ?_
  rw [digitValue?_eq_some_iff, digitValue?_eq_some_iff, toLower_toLower]

/-- So digits are the same number in either case. -/
theorem readDigits_lowerCase (acc : Nat) (text : List Char) :
    readDigits acc (lowerCase text) = readDigits acc text := by
  induction text generalizing acc with
  | nil => rfl
  | cons c text ih =>
    change readDigits acc (c.toLower :: lowerCase text) = _
    rw [readDigits, readDigits, digitValue?_toLower]
    cases digitValue? c with
    | none => rfl
    | some d => exact ih _

/-- Zeros in front count for nothing. -/
theorem readDigits_replicate_zero (zeros : Nat) :
    readDigits 0 (List.replicate zeros '0') = some 0 := by
  induction zeros with
  | zero => rfl
  | succ zeros ih => exact ih

/-! ### Nonces and signers -/

/-- A spelling of a nonce: its digits in either case, behind any number of zeros and perhaps a plus
sign. -/
def SpellsNonce (text : List Char) (nonce : UInt64) : Prop :=
  ∃ sign ∈ [[], ['+']], ∃ zeros digits, text = sign ++ (List.replicate zeros '0' ++ digits) ∧
    lowerCase digits = Nat.toDigits 16 nonce.toNat

/-- **Behind the sign** there must be digits of a number that is small enough. -/
theorem parseNonce?_plus_eq_some_iff {digits : List Char} {nonce : UInt64} :
    parseNonce? ('+' :: digits) = some nonce ↔
      digits ≠ [] ∧ readDigits 0 digits = some nonce.toNat := by
  simp only [parseNonce?]
  constructor
  · intro h
    split at h
    · cases h
    next hne =>
    refine ⟨by simpa using hne, ?_⟩
    split at h
    · next n hn =>
      split at h
      · next hlt =>
        obtain rfl := Option.some.inj h
        rw [hn, UInt64.toNat_ofNat_of_lt' hlt]
      · cases h
    · cases h
  · rintro ⟨hne, hn⟩
    rw [if_neg (by simpa using hne), hn]
    dsimp only
    rw [if_pos nonce.toNat_lt, UInt64.ofNat_toNat]

/-- The sign may be left out, in front of what does not begin with one. -/
theorem parseNonce?_plus {text : List Char} (h : ∀ rest, text ≠ '+' :: rest) :
    parseNonce? ('+' :: text) = parseNonce? text := by
  unfold parseNonce?
  split
  · next rest heq =>
    obtain rfl := (List.cons.inj heq).2
    split
    · next rest => exact absurd rfl (h rest)
    · rfl
  · next hplus => exact absurd rfl (hplus text)

/-- A nonce is read from digits of a number that is small enough, behind a sign or not. -/
theorem parseNonce?_eq_some_iff_readDigits {text : List Char} {nonce : UInt64} :
    parseNonce? text = some nonce ↔ ∃ sign ∈ [[], ['+']], ∃ digits, text = sign ++ digits ∧
      digits ≠ [] ∧ readDigits 0 digits = some nonce.toNat := by
  constructor
  · intro h
    by_cases hplus : ∃ rest, text = '+' :: rest
    · obtain ⟨rest, rfl⟩ := hplus
      exact ⟨['+'], by simp, rest, rfl, parseNonce?_plus_eq_some_iff.mp h⟩
    · rw [← parseNonce?_plus fun rest heq => hplus ⟨rest, heq⟩] at h
      exact ⟨[], by simp, text, rfl, parseNonce?_plus_eq_some_iff.mp h⟩
  · rintro ⟨sign, hsign, digits, rfl, hdigits⟩
    rcases List.mem_cons.mp hsign with rfl | hsign
    · -- A plus sign in front is no digit.
      have hplus : ∀ rest, digits ≠ '+' :: rest := by
        rintro rest rfl
        cases hdigits.2
      rw [List.nil_append, ← parseNonce?_plus hplus]
      exact parseNonce?_plus_eq_some_iff.mpr hdigits
    · obtain rfl := List.mem_singleton.mp hsign
      exact parseNonce?_plus_eq_some_iff.mpr hdigits

/-- What is read as a nonce is its spellings. -/
theorem parseNonce?_eq_some_iff {text : List Char} {nonce : UInt64} :
    parseNonce? text = some nonce ↔ SpellsNonce text nonce := by
  rw [parseNonce?_eq_some_iff_readDigits]
  constructor
  · rintro ⟨sign, hsign, text, rfl, hne, hread⟩
    obtain ⟨zeros, digits, rfl, hdigits⟩ := exists_digits_of_readDigits hne hread
    exact ⟨sign, hsign, zeros, digits, rfl, hdigits⟩
  · rintro ⟨sign, hsign, zeros, digits, rfl, hdigits⟩
    refine ⟨sign, hsign, _, rfl, ?_, ?_⟩
    · -- Every number has a digit.
      intro hnil
      obtain rfl := (List.append_eq_nil_iff.mp hnil).2
      exact Nat.toDigits_ne_nil hdigits.symm
    · rw [readDigits_append, readDigits_replicate_zero, Option.bind_some, ← readDigits_lowerCase,
        hdigits, readDigits_toDigits]

/-- A spelling of a signer: the digits of the address in either case, behind `0x` and perhaps one
more prefix. -/
def SpellsSigner (text : List Char) (signer : Address) : Prop :=
  ∃ front ∈ digitPrefixes, ∃ digits, text = '0' :: 'x' :: (front ++ digits) ∧
    lowerCase digits = signer.toBytes.flatMap Hex.digits

/-- What is read as a signer is its spellings. The `0x` in front belongs to the key, and the rest is
read as any address. -/
theorem parseSigner?_eq_some_iff {text : List Char} {signer : Address} :
    parseSigner? text = some signer ↔ SpellsSigner text signer := by
  constructor
  · intro h
    unfold parseSigner? at h
    split at h
    · next rest =>
      split at h
      · next address hread =>
        obtain rfl := Option.some.inj h
        obtain ⟨front, hfront, digits, rfl, hdigits⟩ := Address.parse_eq_ok_iff.mp hread
        exact ⟨front, hfront, digits, rfl, hdigits⟩
      · cases h
    · cases h
  · rintro ⟨front, hfront, digits, rfl, hdigits⟩
    have hread := Address.parse_eq_ok_iff.mpr ⟨front, hfront, digits, rfl, hdigits⟩
    simp only [parseSigner?, hread]

/-! ### Keys -/

/-- **A character that does not stand in an id.** The two separators of a key are such, so a
spelling is cut where it was put together. -/
structure Separates (c : Char) : Prop where
  no_digit : digitValue? c = none
  no_sign : c ≠ '+'
  no_prefix : c ≠ 'x' ∧ c ≠ 'X'
  no_letter : c.toLower = c

theorem separates_slash : Separates '/' := ⟨rfl, by decide, by decide, by decide⟩

theorem separates_colon : Separates ':' := ⟨rfl, by decide, by decide, by decide⟩

/-- No separator stands in a nonce. -/
theorem Separates.notMem_nonce {c : Char} (h : Separates c) {text : List Char} {nonce : UInt64}
    (hspells : SpellsNonce text nonce) : c ∉ text := by
  obtain ⟨sign, hsign, zeros, digits, rfl, hdigits⟩ := hspells
  have hzero : c ≠ '0' := by
    rintro rfl
    cases h.no_digit
  intro hmem
  rcases List.mem_append.mp hmem with hmem | hmem
  · rcases List.mem_cons.mp hsign with rfl | hsign
    · cases hmem
    · rw [List.mem_singleton.mp hsign] at hmem
      exact h.no_sign (List.mem_singleton.mp hmem)
  rcases List.mem_append.mp hmem with hmem | hmem
  · exact hzero (List.eq_of_mem_replicate hmem)
  · refine notMem_of_notMem_lowerCase h.no_letter ?_ hmem
    rw [hdigits]
    exact notMem_toDigits h.no_digit _

/-- No separator stands in a signer. -/
theorem Separates.notMem_signer {c : Char} (h : Separates c) {text : List Char} {signer : Address}
    (hspells : SpellsSigner text signer) : c ∉ text := by
  obtain ⟨front, hfront, digits, rfl, hdigits⟩ := hspells
  have hzero : c ≠ '0' := by
    rintro rfl
    cases h.no_digit
  have hrender := notMem_render_address h.no_digit h.no_prefix.1 signer
  rw [toList_render_address] at hrender
  intro hmem
  have hmem : c ∈ front ++ digits := by simpa [hzero, h.no_prefix.1] using hmem
  rcases List.mem_append.mp hmem with hmem | hmem
  · simp only [digitPrefixes, List.mem_cons, List.not_mem_nil, or_false] at hfront
    rcases hfront with rfl | rfl | rfl
    · cases hmem
    · simp [hzero, h.no_prefix.1] at hmem
    · simp [hzero, h.no_prefix.2] at hmem
  · refine notMem_of_notMem_lowerCase h.no_letter ?_ hmem
    rw [hdigits]
    intro hmem
    exact hrender (List.mem_cons_of_mem _ (List.mem_cons_of_mem _ hmem))

/-- A spelling of a confirm's key: the namespace as it is, and nonce and signer in any of their
spellings. -/
def Spells (key : String) (k : ConfirmKey) : Prop :=
  k.space.isConfirm = true ∧ ∃ nonceText signerText,
    key.toList = '/' :: (k.space.name.toList ++ '/' :: (nonceText ++ ':' :: signerText)) ∧
      SpellsNonce nonceText k.nonce ∧ SpellsSigner signerText k.signer

/-- **What is read as the key of a confirm**: its spellings. -/
theorem parse_eq_ok_iff {key : String} {k : ConfirmKey} :
    ConfirmKey.parse key = .ok k ↔ Spells key k := by
  constructor
  · intro h
    rw [ConfirmKey.parse] at h
    split at h
    · -- There are three pieces, of which the first is empty and the last is the id.
      next namespaceText id hpieces =>
      split at h
      · cases h
      split at h
      · next nonceText signerText hid =>
        split at h
        · cases h
        split at h
        · cases h
        next space hspace =>
        split at h
        · cases h
        next hconfirm =>
        split at h
        · cases h
        next nonce hnonce =>
        split at h
        · cases h
        next signer hsigner =>
        -- All tests were passed, and what they found is the key.
        obtain rfl := Except.ok.inj h
        refine ⟨by simpa using hconfirm, nonceText, signerText, ?_,
          parseNonce?_eq_some_iff.mp hnonce, parseSigner?_eq_some_iff.mp hsigner⟩
        -- The pieces, put together again.
        rw [eq_of_segments_eq_cons '/' hpieces, eq_of_segments_eq_cons ':' hid,
          Namespace.eq_name_of_parse hspace]
        simp
      · cases h
    · cases h
  · rintro ⟨hconfirm, nonceText, signerText, hkey, hnonce, hsigner⟩
    -- Neither nonce nor signer has a slash, so the key is cut where it was put together.
    have hid : '/' ∉ nonceText ++ ':' :: signerText := by
      intro hmem
      rcases List.mem_append.mp hmem with hmem | hmem
      · exact separates_slash.notMem_nonce hnonce hmem
      rcases List.mem_cons.mp hmem with hmem | hmem
      · exact absurd hmem (by decide)
      · exact separates_slash.notMem_signer hsigner hmem
    have hpieces : segments '/' key.toList =
        [[], k.space.name.toList, nonceText ++ ':' :: signerText] := by
      rw [hkey, ← List.nil_append ('/' :: _), segments_append _ _ List.not_mem_nil,
        segments_append _ _ (slash_notMem_name _), segments_eq_singleton _ hid]
    have hfields : segments ':' (nonceText ++ ':' :: signerText) = [nonceText, signerText] := by
      rw [segments_append _ _ (separates_colon.notMem_nonce hnonce),
        segments_eq_singleton _ (separates_colon.notMem_signer hsigner)]
    have hname : k.space.name.toList.isEmpty = false := by
      cases k.space <;> decide
    have hnonempty : signerText.isEmpty = false := by
      obtain ⟨front, -, digits, rfl, -⟩ := hsigner
      rfl
    simp [ConfirmKey.parse, hpieces, hfields, hname, hnonempty, Namespace.parse_name, hconfirm,
      parseNonce?_eq_some_iff.mpr hnonce, parseSigner?_eq_some_iff.mpr hsigner]

end ConfirmKey

/-- **A spelling names the namespace** of its confirm. -/
theorem Namespace.ofKey_of_spells {key : String} {k : ConfirmKey} (h : ConfirmKey.Spells key k) :
    Namespace.ofKey key = .ok k.space := by
  obtain ⟨-, nonceText, signerText, hkey, -, -⟩ := h
  have hpieces : segments '/' key.toList =
      [] :: k.space.name.toList :: segments '/' (nonceText ++ ':' :: signerText) := by
    rw [hkey, ← List.nil_append ('/' :: _), segments_append _ _ List.not_mem_nil,
      segments_append _ _ (ConfirmKey.slash_notMem_name _)]
  have hparse := Namespace.parse_name k.space
  have hname : k.space.name.toList ≠ [] := by
    cases k.space <;> decide
  rw [Namespace.ofKey, hpieces]
  cases htext : k.space.name.toList with
  | nil => exact absurd htext hname
  | cons c rest =>
    rw [htext] at hparse
    exact hparse

end Countersign
