import Countersign.Abi.Bridge
import Countersign.Proofs.Abi.Layout

/-!
# Rows of members and signatures

The contract declares a member as an address and a number, and a signature as a byte and two words.
Each has a word to itself in a row, most of which is zeros. A reader checks that it is
(`Contract.readMember?`, `Contract.readSignature?`), and gets back what was written into the row.
-/

namespace Countersign

/-- A count as a word is the same number. -/
theorem Word.toNat_ofUInt64 (n : UInt64) : (Word.ofUInt64 n).toNat = n.toNat := by
  rw [Word.ofUInt64, BitVec.toNat_ofNat]
  have hbound := n.toNat_lt
  exact Nat.mod_eq_of_lt (by omega)

theorem Word.ofUInt64_inj {a b : UInt64} : Word.ofUInt64 a = Word.ofUInt64 b ↔ a = b := by
  rw [← BitVec.toNat_inj, Word.toNat_ofUInt64, Word.toNat_ofUInt64, UInt64.toNat_inj]

/-- An address as a word is its number, with zeros in front. -/
theorem Address.toNat_toWord (a : Address) : a.toWord.toNat = a.bits.toNat := by
  have hbound := a.bits.isLt
  rw [Address.toWord, BitVec.toNat_setWidth]
  exact Nat.mod_eq_of_lt (by omega)

namespace Contract

/-- An address and a number, from their words. A word that is too great for an address is refused,
as the contract refuses it; the number may be any word. -/
def readMember? : List Word → Option (Address × Nat)
  | [address, power] =>
    if address.toNat < 2 ^ 160 then some (⟨BitVec.ofNat 160 address.toNat⟩, power.toNat) else none
  | _ => none

/-- A signature, from its words. The recovery byte has a word to itself, and must be a byte. -/
def readSignature? : List Word → Option Vrs
  | [v, r, s] => if v.toNat < 2 ^ 8 then some ⟨UInt8.ofNat v.toNat, r, s⟩ else none
  | _ => none

/-- A member in the contract's terms: the address comes first, and the power is a number of up to
256 bits. -/
def memberPair (m : Member) : Address × Nat :=
  (m.address, m.power.toNat)

/-- A member is read from its row. -/
theorem readMember?_toRow (m : Member) : readMember? m.toRow = some (memberPair m) := by
  have hbound := m.address.bits.isLt
  have haddress : (⟨BitVec.ofNat 160 m.address.toWord.toNat⟩ : Address) = m.address := by
    rw [Address.toNat_toWord, BitVec.ofNat_toNat, BitVec.setWidth_eq]
  unfold Member.toRow readMember? memberPair
  dsimp only
  rw [haddress, Word.toNat_ofUInt64, Address.toNat_toWord, if_pos hbound]

/-- A signature is read from its row. -/
theorem readSignature?_toRow (x : Vrs) : readSignature? x.toRow = some x := by
  have hbound := x.v.toNat_lt
  have hv : (BitVec.ofNat 256 x.v.toNat).toNat = x.v.toNat := by
    rw [BitVec.toNat_ofNat]
    exact Nat.mod_eq_of_lt (by omega)
  unfold Vrs.toRow readSignature?
  dsimp only
  rw [hv, if_pos hbound, UInt8.ofNat_toNat]

/-- Rows that are read one by one are read in order, and none fails. -/
theorem mapM_map_of_read {α β : Type} {row : α → List Word} {read? : List Word → Option β}
    (value : α → β) (h : ∀ a, read? (row a) = some (value a)) (l : List α) :
    (l.map row).mapM read? = some (l.map value) := by
  have hread : read? ∘ row = fun a => pure (value a) := funext h
  rw [List.mapM_map, hread, List.mapM_pure]
  rfl

end Contract

/-- Members are told apart by their rows. -/
theorem Member.toRow_injective : Function.Injective Member.toRow := by
  intro m m' h
  have hread := Contract.readMember?_toRow m
  rw [h, Contract.readMember?_toRow m'] at hread
  obtain ⟨haddress, hpower⟩ := Prod.mk.inj (Option.some.inj hread)
  cases m
  cases m'
  simp only at haddress hpower
  rw [haddress, UInt64.toNat_inj.mp hpower]

/-- The row of a member has two words. -/
theorem Valset.rectangular (v : Valset) : ∀ row ∈ v.members.map Member.toRow, row.length = 2 := by
  intro row hrow
  obtain ⟨m, -, rfl⟩ := List.mem_map.mp hrow
  rfl

/-- The row of a signature has three. -/
theorem Vrs.rectangular (signatures : List Vrs) :
    ∀ row ∈ signatures.map Vrs.toRow, row.length = 3 := by
  intro row hrow
  obtain ⟨x, -, rfl⟩ := List.mem_map.mp hrow
  rfl

end Countersign
