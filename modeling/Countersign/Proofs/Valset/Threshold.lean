import Countersign.Proofs.Valset.Power
import Mathlib.Algebra.BigOperators.Group.List.Basic
import Mathlib.Algebra.Order.BigOperators.Group.List
import Mathlib.Logic.Relation

/-!
# Threshold arithmetic

The total power of a valset is the exact sum of its powers up to the ceiling of 64 bits, and the
threshold is the least number that is no less than two thirds of the total
(`Valset.threshold_arithmetic`). So both depend on the powers alone and not on the order of the
members (`Valset.totalPower_eq_of_perm`), and neither of them falls when members are added or powers
are raised, in any number of steps (`Valset.Grows`, `Valset.threshold_le_of_grows`).

The threshold is worked out in words, first wide ones and then narrow ones again. On the way nothing
is lost (`Valset.ThresholdExact`): the double of a count of 64 bits has room in 128, and two thirds
of it have room in 64 again.
-/

namespace Countersign

namespace Valset

variable {v w : Valset}

/-! ### The total -/

/-- The exact sum does not depend on the order of the members. -/
theorem exactPower_eq_of_perm (h : v.members.Perm w.members) : v.exactPower = w.exactPower :=
  (h.map fun m : Member => m.power.toNat).sum_eq

/-- The order of the members does not matter, not even where the ceiling is reached, although the
sum is then reached at different places. -/
theorem totalPower_eq_of_perm (h : v.members.Perm w.members) : v.totalPower = w.totalPower := by
  rw [← UInt64.toNat_inj, toNat_totalPower, toNat_totalPower, exactPower_eq_of_perm h]

/-- A greater sum is a greater total, or the same one at the ceiling. -/
theorem totalPower_le_of_exactPower_le (h : v.exactPower ≤ w.exactPower) :
    v.totalPower ≤ w.totalPower := by
  rw [UInt64.le_iff_toNat_le, toNat_totalPower, toNat_totalPower]
  omega

/-- There is power exactly if some member has some. -/
theorem exactPower_pos_iff : 0 < v.exactPower ↔ ∃ m ∈ v.members, 0 < m.power := by
  rw [exactPower, List.sum_pos_iff_exists_pos_nat]
  constructor
  · rintro ⟨power, hmem, hpos⟩
    obtain ⟨m, hm, rfl⟩ := List.mem_map.mp hmem
    exact ⟨m, hm, UInt64.lt_iff_toNat_lt.mpr hpos⟩
  · rintro ⟨m, hm, hpos⟩
    exact ⟨m.power.toNat, List.mem_map_of_mem hm, UInt64.lt_iff_toNat_lt.mp hpos⟩

/-! ### The threshold -/

/-- **Nothing is lost in working out a threshold**: each step in words has the value that it has in
numbers, and the last one needs no ceiling. -/
structure ThresholdExact (total : UInt64) : Prop where
  widened : (WideCount.ofUInt64 total).toNat = total.toNat
  doubled : (2 * WideCount.ofUInt64 total).toNat = 2 * total.toNat
  divided : (WideCount.divUp (2 * .ofUInt64 total) 3).toNat = (2 * total.toNat + 2) / 3
  hasRoom : (WideCount.divUp (2 * .ofUInt64 total) 3).toNat < UInt64.size
  narrowed : (twoThirds total).toNat = (WideCount.divUp (2 * .ofUInt64 total) 3).toNat

/-- Nothing is lost for any total, also not for the greatest one. -/
theorem thresholdExact (total : UInt64) : ThresholdExact total where
  widened := WideCount.toNat_ofUInt64 total
  doubled := toNat_two_mul_ofUInt64 total
  divided := toNat_divUp_two_mul total
  hasRoom := toNat_divUp_two_mul_lt total
  narrowed := WideCount.toNat_clamp_of_lt (toNat_divUp_two_mul_lt total)

/-- Two thirds, rounded up: no less than two thirds, and less than one more. -/
theorem threshold_bounds (v : Valset) :
    2 * v.totalPower.toNat ≤ 3 * v.threshold.toNat ∧
      3 * v.threshold.toNat < 2 * v.totalPower.toNat + 3 := by
  have hthreshold := v.toNat_threshold
  omega

/-- A quorum needs no more than all the power, so all members together are one. -/
theorem threshold_le_totalPower (v : Valset) : v.threshold ≤ v.totalPower := by
  rw [UInt64.le_iff_toNat_le, toNat_threshold]
  omega

/-- The threshold of a greater total is no less. -/
theorem threshold_le_of_totalPower_le (h : v.totalPower ≤ w.totalPower) :
    v.threshold ≤ w.threshold := by
  rw [UInt64.le_iff_toNat_le] at h ⊢
  rw [toNat_threshold, toNat_threshold]
  omega

/-- A quorum needs power exactly if some member has any. -/
theorem threshold_pos_iff : 0 < v.threshold ↔ ∃ m ∈ v.members, 0 < m.power := by
  have hthreshold := v.toNat_threshold
  have htotal := v.toNat_totalPower
  -- The ceiling is positive, so the total is so exactly if the sum is.
  have hceiling : 0 < UInt64.size - 1 := by decide
  rw [← exactPower_pos_iff, UInt64.lt_iff_toNat_lt, UInt64.toNat_zero]
  omega

/-! ### Members with more power -/

/-- **A step from one valset to another** in which nobody loses power: one member more, at any
place, or more power for one member. -/
inductive Grows (v w : Valset) : Prop
  | added (front rest : List Member) (member : Member) (before : v.members = front ++ rest)
      (after : w.members = front ++ member :: rest)
  | raised (front rest : List Member) (member : Member) (power : UInt64)
      (more : member.power ≤ power) (before : v.members = front ++ member :: rest)
      (after : w.members = front ++ { member with power } :: rest)

/-- One step does not lower the sum, as nobody loses power in it. -/
theorem Grows.exactPower_le (h : Grows v w) : v.exactPower ≤ w.exactPower := by
  unfold exactPower
  cases h with
  | added front rest member before after =>
    rw [before, after]
    simp only [List.map_append, List.map_cons, List.sum_append, List.sum_cons]
    omega
  | raised front rest member power more before after =>
    have hmore := UInt64.le_iff_toNat_le.mp more
    rw [before, after]
    simp only [List.map_append, List.map_cons, List.sum_append, List.sum_cons]
    omega

/-- Any number of steps do not lower it either, by induction on them. -/
theorem exactPower_le_of_grows (h : Relation.ReflTransGen Grows v w) :
    v.exactPower ≤ w.exactPower := by
  induction h with
  | refl => exact Nat.le_refl _
  | tail _ step ih => exact Nat.le_trans ih step.exactPower_le

/-- So they do not lower the threshold. -/
theorem threshold_le_of_grows (h : Relation.ReflTransGen Grows v w) : v.threshold ≤ w.threshold :=
  threshold_le_of_totalPower_le (totalPower_le_of_exactPower_le (exactPower_le_of_grows h))

/-- **The arithmetic of thresholds**, for any members with any powers.

* The total power is the sum of the powers up to the ceiling, in whatever order the members stand.
* The threshold is two thirds of it, rounded up. It is no more than the total, and positive exactly
  if some member has power.
* It does not fall if members are added or powers are raised.
* All steps of its computation are exact. -/
theorem threshold_arithmetic (v : Valset) :
    v.totalPower.toNat = min v.exactPower (UInt64.size - 1) ∧
    (∀ w : Valset, v.members.Perm w.members → v.totalPower = w.totalPower) ∧
    (2 * v.totalPower.toNat ≤ 3 * v.threshold.toNat ∧
      3 * v.threshold.toNat < 2 * v.totalPower.toNat + 3) ∧
    v.threshold ≤ v.totalPower ∧
    (0 < v.threshold ↔ ∃ m ∈ v.members, 0 < m.power) ∧
    (∀ w : Valset, Relation.ReflTransGen Grows v w → v.threshold ≤ w.threshold) ∧
    ThresholdExact v.totalPower :=
  ⟨v.toNat_totalPower, fun _ => totalPower_eq_of_perm, v.threshold_bounds,
    v.threshold_le_totalPower, threshold_pos_iff, fun _ => threshold_le_of_grows,
    thresholdExact v.totalPower⟩

/-- **Above the ceiling** the total stays where it is: with the members in the other order, and with
one member more and another one raised. -/
theorem threshold_arithmetic_above_ceiling :
    ∃ v w u : Valset, v.members.Perm w.members ∧ Relation.ReflTransGen Grows v u ∧
      UInt64.size ≤ v.exactPower ∧ v.totalPower.toNat = UInt64.size - 1 ∧
      w.totalPower = v.totalPower ∧ v.threshold ≤ u.threshold ∧
      u.threshold.toNat = 2 * ((UInt64.size - 1) / 3) := by
  let most : Member := ⟨0xffffffffffffffff, ⟨1⟩⟩
  let v : Valset := ⟨1, [most, ⟨7, ⟨2⟩⟩], 0, .epoch⟩
  let w : Valset := ⟨1, [⟨7, ⟨2⟩⟩, most], 0, .epoch⟩
  let added : Valset := ⟨1, [⟨1, ⟨3⟩⟩, most, ⟨7, ⟨2⟩⟩], 0, .epoch⟩
  let u : Valset := ⟨1, [⟨1, ⟨3⟩⟩, most, ⟨9, ⟨2⟩⟩], 0, .epoch⟩
  have hperm : v.members.Perm w.members := List.Perm.swap _ _ []
  have hadded : Grows v added := .added [] v.members ⟨1, ⟨3⟩⟩ rfl rfl
  have hraised : Grows added u :=
    .raised [⟨1, ⟨3⟩⟩, most] [] ⟨7, ⟨2⟩⟩ 9 (by decide) rfl rfl
  have hgrows : Relation.ReflTransGen Grows v u := .tail (.single hadded) hraised
  have hsum : v.exactPower = UInt64.size + 6 := by decide
  obtain ⟨htotal, horder, -, -, -, hgrown, -⟩ := threshold_arithmetic v
  refine ⟨v, w, u, hperm, hgrows, ?_, ?_, (horder w hperm).symm, hgrown u hgrows, by decide⟩
  · omega
  · omega

end Valset

end Countersign
