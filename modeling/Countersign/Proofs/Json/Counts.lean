import Countersign.Json.Fields
import Countersign.Proofs.Json.RoundTrip
import Mathlib.Algebra.Ring.Nat

/-!
# Counts read back

A count below `2 ^ 64` is taken back from its own writing (`Json.uint64?_ofUInt64`), also after the
writing was kept aside: it has at most twenty digits, so it is far within the floating-point range
(`Number.isFinite_ofNat`).
-/

namespace Countersign

namespace Number

/-- The digits of a count spell it. The reader takes them from the front, and the writer gives the
greatest place first. -/
theorem ofDigits_ofNat (n : Nat) : ofDigits (ofNat n).whole = n := by
  induction n using Nat.strongRecOn with
  | ind n ih =>
    by_cases hn : n < 10
    · rw [Json.ofNat_whole_of_lt hn]
      simp [ofDigits]
    · have hquotient := ih (n / 10) (by omega)
      rw [Json.ofNat_whole_of_le (Nat.not_lt.mp hn), ofDigits, List.foldl_append, ← ofDigits,
        hquotient]
      exact Nat.div_add_mod n 10

/-- A count of 64 bits is read from its digits, as there is room for it. -/
theorem toUInt64?_ofNat (n : UInt64) : (ofNat n.toNat).toUInt64? = some n := by
  have hlt : n.toNat < UInt64.size := n.toNat_lt
  change (if ofDigits (ofNat n.toNat).whole < UInt64.size then
    some (UInt64.ofNat (ofDigits (ofNat n.toNat).whole)) else none) = some n
  rw [ofDigits_ofNat, if_pos hlt, UInt64.ofNat_toNat]

/-- A number with few digits, and none behind the point, is within the floating-point range. -/
theorem isFinite_of_length {negative : Bool} {whole : List Nat} (h : whole.length ≤ 20) :
    (⟨negative, whole, none, none⟩ : Number).isFinite = true := by
  have hsignificant := (List.dropWhile_sublist (l := whole) (· == 0)).length_le
  simp only [isFinite, Option.getD_none, List.append_nil, List.length_nil]
  split
  · rfl
  · rw [if_pos (by omega)]

/-- A count below `10 ^ 20` is within the floating-point range, which the greatest count of 64 bits
is. -/
theorem isFinite_ofNat {n : Nat} (h : n < 10 ^ 20) : (ofNat n).isFinite = true := by
  refine isFinite_of_length ?_
  rw [List.length_map]
  exact (Nat.length_toDigits_le_iff (by decide) (by decide)).mpr h

end Number

namespace Json

/-- A count is read right where it stands. -/
@[simp] theorem uint64?_ofUInt64 (n : UInt64) : (ofUInt64 n).uint64? = some n :=
  Number.toUInt64?_ofNat n

/-- A count can be kept aside at any depth. -/
theorem isKeepable_ofUInt64 (depth : Nat) (n : UInt64) : isKeepable depth (ofUInt64 n) = true :=
  Number.isFinite_ofNat (Nat.lt_trans n.toNat_lt (by decide))

end Json

end Countersign
