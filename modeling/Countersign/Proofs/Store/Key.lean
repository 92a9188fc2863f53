import Countersign.Proofs.Text.Hex
import Countersign.Store.Key

/-!
# Keys read back

The text of a confirm's key names that confirm: `ConfirmKey.parse_render` reads the three parts
back, and `Namespace.ofKey_render` finds the namespace alone. So the keys that the services write
never clash, and a record under such a key can only be a confirm of that nonce and that signer.

The parts are found by cutting at slashes and colons (`segments_append`); neither stands inside a
name, a nonce or an address.
-/

namespace Countersign

/-! ### Cutting -/

/-- A piece without separators is the first one, and the rest is cut by itself. -/
theorem segments_append (separator : Char) {piece : List Char} (rest : List Char)
    (h : separator ∉ piece) :
    segments separator (piece ++ separator :: rest) = piece :: segments separator rest := by
  induction piece with
  | nil => simp [segments]
  | cons c piece ih =>
    have hc : c ≠ separator := fun hc => h (hc ▸ List.mem_cons_self)
    have hrest := ih fun hm => h (List.mem_cons_of_mem _ hm)
    simp [segments, hc, hrest]

/-- A text without separators is one piece, as there is no place to cut. -/
theorem segments_eq_singleton (separator : Char) {piece : List Char} (h : separator ∉ piece) :
    segments separator piece = [piece] := by
  induction piece with
  | nil => rfl
  | cons c piece ih =>
    have hc : c ≠ separator := fun hc => h (hc ▸ List.mem_cons_self)
    have hrest := ih fun hm => h (List.mem_cons_of_mem _ hm)
    simp [segments, hc, hrest]

/-! ### Nonces -/

namespace ConfirmKey

/-- A digit is read as the value that it is written for. -/
theorem digitValue?_digitChar (d : Nat) (h : d < 16) : digitValue? d.digitChar = some d := by
  revert d
  decide

/-- Digits are read one after the other, each behind the number that was read so far. -/
theorem readDigits_append (acc : Nat) (text rest : List Char) :
    readDigits acc (text ++ rest) = (readDigits acc text).bind fun n => readDigits n rest := by
  induction text generalizing acc with
  | nil => rfl
  | cons c text ih =>
    rw [List.cons_append, readDigits, readDigits]
    cases digitValue? c with
    | none => rfl
    | some d => exact ih _

/-- A number is read from its digits, however many they are. -/
theorem readDigits_toDigits (n : Nat) : readDigits 0 (Nat.toDigits 16 n) = some n := by
  induction n using Nat.strongRecOn with
  | ind n ih =>
    by_cases hn : n < 16
    · rw [Nat.toDigits_of_lt_base hn, readDigits, digitValue?_digitChar n hn]
      simp [readDigits]
    · -- The digits of the quotient come first, then that of the remainder.
      have hlast : n % 16 < 16 := Nat.mod_lt _ (by decide)
      rw [Nat.toDigits_of_base_le (by decide) (by omega), readDigits_append, ih (n / 16) (by omega),
        Option.bind_some, readDigits, digitValue?_digitChar _ hlast]
      simp [readDigits, Nat.div_add_mod]

/-- The digits of a number are hexadecimal ones. -/
theorem digitValue?_isSome_of_mem_toDigits {n : Nat} {c : Char} (h : c ∈ Nat.toDigits 16 n) :
    (digitValue? c).isSome = true := by
  induction n using Nat.strongRecOn with
  | ind n ih =>
    by_cases hn : n < 16
    · rw [Nat.toDigits_of_lt_base hn, List.mem_singleton] at h
      rw [h, digitValue?_digitChar n hn]
      rfl
    · rw [Nat.toDigits_of_base_le (by decide) (by omega), List.mem_append,
        List.mem_singleton] at h
      rcases h with h | rfl
      · exact ih (n / 16) (by omega) h
      · rw [digitValue?_digitChar _ (Nat.mod_lt _ (by decide))]
        rfl

/-- What is no digit does not stand in a number, in particular no separator. -/
theorem notMem_toDigits {c : Char} (h : digitValue? c = none) (n : Nat) :
    c ∉ Nat.toDigits 16 n := by
  intro hc
  have hsome := digitValue?_isSome_of_mem_toDigits hc
  rw [h] at hsome
  exact absurd hsome (by decide)

/-- A nonce is read from its digits, which are not too many for it. -/
theorem parseNonce?_toDigits (nonce : UInt64) :
    parseNonce? (Nat.toDigits 16 nonce.toNat) = some nonce := by
  have hplus := notMem_toDigits (c := '+') (by decide) nonce.toNat
  have hne : (Nat.toDigits 16 nonce.toNat).isEmpty = false := by
    simp
  have hlt : nonce.toNat < UInt64.size := nonce.toNat_lt
  unfold parseNonce?
  split
  · -- A sign in front would have to be one of the digits.
    next rest heq =>
    rw [heq] at hplus
    exact absurd List.mem_cons_self hplus
  · simp [hne, readDigits_toDigits, hlt]

/-! ### Signers -/

/-- The characters of an address: the prefix, and two digits for each byte. -/
theorem toList_render_address (a : Address) :
    a.render.toList = '0' :: 'x' :: a.toBytes.flatMap Hex.digits := by
  simp [Address.render, Hex.encodePrefixed, Hex.encode]

/-- A signer is read from the text of its address. -/
theorem parseSigner?_render (a : Address) : parseSigner? a.render.toList = some a := by
  have h := Address.parse_digits a
  rw [Hex.encode] at h
  rw [toList_render_address]
  simp only [parseSigner?, h]

/-- **The characters of an address are digits or the `x`.** So no separator stands in it. -/
theorem notMem_render_address {c : Char} (h : digitValue? c = none) (hx : c ≠ 'x') (a : Address) :
    c ∉ a.render.toList := by
  rw [toList_render_address]
  intro hc
  rcases List.mem_cons.mp hc with rfl | hc
  · exact absurd h (by decide)
  rcases List.mem_cons.mp hc with rfl | hc
  · exact hx rfl
  -- Behind the prefix there are two digits for each byte.
  obtain ⟨b, -, hb⟩ := List.mem_flatMap.mp hc
  have hlt := b.toNat_lt
  have hdigit : ∀ n, n < 16 → digitValue? (Hex.digit n) ≠ none := by decide
  simp only [Hex.digits, List.mem_cons, List.not_mem_nil, or_false] at hb
  rcases hb with rfl | rfl
  · exact hdigit _ (by omega) h
  · exact hdigit _ (by omega) h

/-! ### Keys -/

/-- The nonce and the signer in a key, with the colon between them. -/
def idText (key : ConfirmKey) : List Char :=
  Nat.toDigits 16 key.nonce.toNat ++ ':' :: key.signer.render.toList

theorem toList_render (key : ConfirmKey) :
    key.render.toList = [] ++ '/' :: (key.space.name.toList ++ '/' :: key.idText) := by
  simp [render, idText]

/-- No slash stands in the name of a namespace. -/
theorem slash_notMem_name (space : Namespace) : '/' ∉ space.name.toList := by
  cases space <;> decide

/-- Nor in what stands behind it. -/
theorem slash_notMem_idText (key : ConfirmKey) : '/' ∉ key.idText := by
  intro h
  rcases List.mem_append.mp h with h | h
  · exact notMem_toDigits (by decide) _ h
  rcases List.mem_cons.mp h with h | h
  · exact absurd h (by decide)
  · exact notMem_render_address (by decide) (by decide) _ h

/-- The pieces of a key are an empty one in front of the first slash, the name, and the rest. -/
theorem segments_render (key : ConfirmKey) :
    segments '/' key.render.toList = [[], key.space.name.toList, key.idText] := by
  rw [toList_render, segments_append _ _ List.not_mem_nil,
    segments_append _ _ (slash_notMem_name _), segments_eq_singleton _ (slash_notMem_idText key)]

/-- The pieces of what stands behind the namespace are the nonce and the signer. -/
theorem segments_idText (key : ConfirmKey) :
    segments ':' key.idText = [Nat.toDigits 16 key.nonce.toNat, key.signer.render.toList] := by
  rw [idText, segments_append _ _ (notMem_toDigits (by decide) _),
    segments_eq_singleton _ (notMem_render_address (by decide) (by decide) _)]

end ConfirmKey

/-- A namespace is found by its name. -/
theorem Namespace.parse_name (space : Namespace) :
    Namespace.parse space.name.toList = .ok space := by
  cases space <;> rfl

theorem Namespace.isConfirm_ofKind (kind : AttestationKind) :
    (Namespace.ofKind kind).isConfirm = true := by
  cases kind <;> rfl

/-- A key names its namespace, also the key of a namespace that has no confirms. -/
theorem Namespace.ofKey_render (key : ConfirmKey) : Namespace.ofKey key.render = .ok key.space := by
  have hparse := Namespace.parse_name key.space
  have hname : key.space.name.toList ≠ [] := by
    cases key.space <;> decide
  rw [Namespace.ofKey, ConfirmKey.segments_render]
  cases h : key.space.name.toList with
  | nil => exact absurd h hname
  | cons c rest =>
    rw [h] at hparse
    exact hparse

/-- A key is read from its text. So a confirm that is put under its key is found again by everyone
who looks for it. -/
theorem ConfirmKey.parse_render (key : ConfirmKey) (h : key.space.isConfirm = true) :
    ConfirmKey.parse key.render = .ok key := by
  have hname : key.space.name.toList.isEmpty = false := by
    cases key.space <;> decide
  have hsigner : key.signer.render.toList.isEmpty = false := by
    rw [toList_render_address]
    rfl
  simp [ConfirmKey.parse, segments_render, segments_idText, hname, hsigner, Namespace.parse_name, h,
    parseNonce?_toDigits, parseSigner?_render]

end Countersign
