import Countersign.Proofs.Store.Grammar

/-!
# The written form of a key

Of all texts that are read as a confirm's key one is written. This module says that the choice is a
good one (`ConfirmKey.render_faithful`):

* what is written is read back, and names its namespace (`ConfirmKey.parse_render`,
  `Namespace.ofKey_render`);
* different keys are written differently (`ConfirmKey.render_injective`), and none of them as the
  key of the latest valset (`ConfirmKey.render_ne_latestValsetKey`);
* a text that is read and then **written again** (`ConfirmKey.respell`) still names the same
  confirm, and to write it once more changes nothing.

Injectivity does not follow from reading back alone: the reader refuses the namespace of the latest
valset, and keys with that namespace are told apart as well. So the three parts of the text are
compared instead, each of which is written injectively.
-/

namespace Countersign

variable {key text : String} {k : ConfirmKey}

/-! ### Parts that are written differently -/

/-- Namespaces are told apart by their names. -/
theorem Namespace.name_injective : Function.Injective Namespace.name := by
  intro space space' h
  have hread := Namespace.parse_name space
  rw [h, Namespace.parse_name] at hread
  exact (Except.ok.inj hread).symm

/-- Addresses are told apart by their texts, as they are read back. -/
theorem Address.render_injective : Function.Injective Address.render := by
  intro a a' h
  have hread := ConfirmKey.parseSigner?_render a
  rw [h, ConfirmKey.parseSigner?_render] at hread
  exact (Option.some.inj hread).symm

namespace ConfirmKey

/-- Numbers are told apart by their digits. -/
theorem toDigits_injective : Function.Injective (Nat.toDigits 16) := by
  intro n n' h
  have hread := readDigits_toDigits n
  rw [h, readDigits_toDigits] at hread
  exact (Option.some.inj hread).symm

/-- The nonce and the signer are told from what stands behind the namespace, since the colon between
them is the only one. -/
theorem eq_of_idText_eq {k' : ConfirmKey} (h : k.idText = k'.idText) :
    k.nonce = k'.nonce ∧ k.signer = k'.signer := by
  have hpieces := segments_idText k
  rw [h, segments_idText] at hpieces
  obtain ⟨hnonce, hsigner⟩ := List.cons.inj hpieces
  refine ⟨UInt64.toNat_inj.mp (toDigits_injective hnonce.symm), ?_⟩
  exact Address.render_injective (String.toList_inj.mp (List.cons.inj hsigner).1.symm)

/-- Different keys are written differently, in whatever namespace. -/
theorem render_injective : Function.Injective ConfirmKey.render := by
  intro k k' h
  have hpieces := segments_render k
  rw [h, segments_render] at hpieces
  obtain ⟨hname, hid⟩ := List.cons.inj (List.cons.inj hpieces).2
  obtain ⟨hnonce, hsigner⟩ := eq_of_idText_eq (List.cons.inj hid).1
  have hspace := Namespace.name_injective (String.toList_inj.mp hname)
  cases k
  cases k'
  congr 1
  · exact hspace.symm
  · exact hnonce.symm
  · exact hsigner.symm

/-- No key is written as that of the latest valset, in which there is no colon. So no confirm can
take the place of the latest valset. -/
theorem render_ne_latestValsetKey (k : ConfirmKey) : k.render ≠ latestValsetKey := by
  intro h
  have hcolon : ':' ∈ k.render.toList := by
    simp [toList_render, idText]
  rw [h] at hcolon
  exact absurd hcolon (by decide)

/-! ### Writing again -/

/-- Only keys for confirms are read as keys of confirms. -/
theorem isConfirm_of_parse (h : ConfirmKey.parse key = .ok k) : k.space.isConfirm = true :=
  (parse_eq_ok_iff.mp h).1

/-- A text that is read as a key, written again. This makes one text of all spellings of a key. -/
def respell (key : String) : Except KeyError String :=
  (ConfirmKey.parse key).map ConfirmKey.render

/-- What a text becomes depends on the key that it is read as, and on nothing else. -/
theorem respell_of_parse (h : ConfirmKey.parse key = .ok k) : respell key = .ok k.render := by
  rw [respell, h]
  rfl

/-- The form that is written stays when it is written again. -/
theorem respell_render (h : k.space.isConfirm = true) : respell k.render = .ok k.render :=
  respell_of_parse (parse_render k h)

/-- **What faithful texts of keys are**: those of the writer `write`, as the reader `read` takes
them. It is stated for any two functions, so that it says by itself what is asked of them. -/
structure Faithful (write : ConfirmKey → String) (read : String → Except KeyError ConfirmKey) :
    Prop where
  /-- The text of a confirm's key is read as this key. -/
  read_write : ∀ k : ConfirmKey, k.space.isConfirm = true → read (write k) = .ok k
  /-- It names the namespace of the key. -/
  namespace_write : ∀ k : ConfirmKey, k.space.isConfirm = true →
    Namespace.ofKey (write k) = .ok k.space
  /-- Different keys have different texts. -/
  injective : Function.Injective write
  /-- What is read may be written again, and is read as the same key then. -/
  read_again : ∀ key k, read key = .ok k → read (write k) = read key
  /-- What was written again stays the same. -/
  write_again : ∀ key k, read key = .ok k → (read (write k)).map write = .ok (write k)
  /-- The text of a confirm's key is not the key of the latest valset. -/
  ne_latest : ∀ k : ConfirmKey, k.space.isConfirm = true → write k ≠ latestValsetKey

/-- **Keys are written faithfully.** Each point is a lemma of this module or of the one before. -/
theorem render_faithful : Faithful ConfirmKey.render ConfirmKey.parse where
  read_write := parse_render
  namespace_write k _ := Namespace.ofKey_render k
  injective := render_injective
  read_again key k h := by
    rw [h, parse_render k (isConfirm_of_parse h)]
  write_again key k h := respell_render (isConfirm_of_parse h)
  ne_latest k _ := render_ne_latestValsetKey k

/-- **The key of the greatest nonce**, from a text with a plus sign in front of the nonce and one
more prefix in front of the signer. -/
theorem render_faithful_greatestNonce :
    let k : ConfirmKey :=
      ⟨.commitmentConfirm, 0xffffffffffffffff, ⟨0x7e5f4552091a69125d5dfcb7b8c2659029395bdf⟩⟩
    let key := writeWith ['+'] ['0', 'x'] k
    k.space.isConfirm = true ∧ ConfirmKey.parse key = .ok k ∧
      ConfirmKey.parse k.render = ConfirmKey.parse key ∧ respell k.render = .ok k.render ∧
      k.render ≠ latestValsetKey := by
  intro k key
  have hread : ConfirmKey.parse key = .ok k :=
    parse_eq_ok_iff_writtenWith.mpr ⟨['+'], by simp [nonceSigns], ['0', 'x'],
      by simp [digitPrefixes], writtenWith_writeWith _ _ rfl⟩
  exact ⟨rfl, hread, render_faithful.read_again key k hread,
    render_faithful.write_again key k hread, render_faithful.ne_latest k rfl⟩

end ConfirmKey

end Countersign
