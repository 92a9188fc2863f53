import Countersign.Valset
import Mathlib.Algebra.Ring.Nat
import Mathlib.Data.List.Nodup

/-!
# Power

The power of a valset is added up with a ceiling, and its threshold is two thirds of that, rounded
up. This module relates both to the exact sum of the powers (`Valset.exactPower`), and to the power
that some addresses have together (`Valset.powerAmong`).

* Below the ceiling the threshold is two thirds of the exact sum
  (`Valset.two_mul_exactPower_le`).
* Two groups of addresses have no more power together than all members and those that are in both
  (`Valset.powerAmong_add_le`).
* Signers in the order of the members are counted once each (`Valset.sum_powerOf_eq`).
-/

namespace Countersign

/-- Adding up with a ceiling is adding up, and then the ceiling. Once the ceiling is reached,
nothing more can be added to it. -/
theorem toNat_foldl_saturatingAdd {α : Type} (power : α → UInt64) (start : UInt64) (l : List α) :
    (l.foldl (fun sum a => saturatingAdd sum (power a)) start).toNat =
      min (start.toNat + (l.map fun a => (power a).toNat).sum) (UInt64.size - 1) := by
  induction l generalizing start with
  | nil =>
    -- A number of 64 bits is below the ceiling.
    have hbound := start.toNat_lt
    rw [List.foldl_nil, List.map_nil, List.sum_nil]
    simp only [UInt64.size]
    omega
  | cons a l ih =>
    have hsum := toNat_saturatingAdd start (power a)
    rw [List.foldl_cons, ih, hsum, List.map_cons, List.sum_cons]
    omega

/-- **What a part of a list adds up to** is what the whole adds up to without the rest. It needs
that nothing stands in the whole twice. -/
theorem sum_map_of_sublist {α : Type} [DecidableEq α] {part whole : List α}
    (h : part.Sublist whole) (nodup : whole.Nodup) (f : α → Nat) :
    (part.map f).sum = (whole.map fun a => if a ∈ part then f a else 0).sum := by
  induction h with
  | slnil => rfl
  | @cons part whole a h ih =>
    obtain ⟨ha, nodup⟩ := List.nodup_cons.mp nodup
    have hpart : a ∉ part := fun hmem => ha (h.subset hmem)
    rw [ih nodup, List.map_cons, List.sum_cons, if_neg hpart, Nat.zero_add]
  | @cons_cons part whole a h ih =>
    obtain ⟨ha, nodup⟩ := List.nodup_cons.mp nodup
    -- The first element does not come again, so it does not matter for the others.
    have hothers : (whole.map fun b => if b ∈ part then f b else 0) =
        whole.map fun b => if b ∈ a :: part then f b else 0 := by
      refine List.map_congr_left fun b hb => ?_
      have hne : b ≠ a := fun heq => ha (heq ▸ hb)
      simp [hne]
    rw [List.map_cons, List.map_cons, List.sum_cons, List.sum_cons, ih nodup, hothers,
      if_pos List.mem_cons_self]

namespace Valset

variable {v : Valset}

/-! ### All members -/

/-- Some member is found for an address that is one, and has the power of the address. -/
theorem exists_find?_of_contains {address : Address} (h : v.contains address = true) :
    ∃ m, v.members.find? (·.address == address) = some m ∧ v.powerOf address = m.power := by
  rw [contains, List.any_eq_true] at h
  rw [← List.find?_isSome, Option.isSome_iff_exists] at h
  obtain ⟨m, hfound⟩ := h
  refine ⟨m, hfound, ?_⟩
  rw [powerOf, hfound]

/-- The power of a member's address is that of the member, if each address is named once. Otherwise
it could be that of an earlier member. -/
theorem powerOf_address (distinct : v.addresses.Nodup) {m : Member} (hm : m ∈ v.members) :
    v.powerOf m.address = m.power := by
  -- Some member is found for the address, and this is the only one with it.
  obtain ⟨found, hfound, hpower⟩ := exists_find?_of_contains (contains_address hm)
  have haddress : found.address = m.address := by
    have hpred := List.find?_some hfound
    exact eq_of_beq hpred
  have hsame : found = m :=
    List.inj_on_of_nodup_map distinct (List.mem_of_find?_eq_some hfound) hm haddress
  rw [hpower, hsame]

/-- The power of all members together, without a ceiling. It is compared with the total, which has
one. -/
def exactPower (v : Valset) : Nat :=
  (v.members.map fun m => m.power.toNat).sum

/-- The total is the exact sum, up to the ceiling. -/
theorem toNat_totalPower (v : Valset) :
    v.totalPower.toNat = min v.exactPower (UInt64.size - 1) := by
  unfold totalPower
  rw [toNat_foldl_saturatingAdd, UInt64.toNat_zero, Nat.zero_add]
  rfl

/-- The threshold is two thirds of the total, rounded up. -/
theorem toNat_threshold (v : Valset) : v.threshold.toNat = (2 * v.totalPower.toNat + 2) / 3 :=
  toNat_twoThirds v.totalPower

/-- Where there is power there is a threshold, so a quorum needs at least one signature. -/
theorem threshold_ne_zero (power : 0 < v.totalPower) : v.threshold ≠ 0 := by
  intro hzero
  have hthreshold := v.toNat_threshold
  have hpower := UInt64.lt_iff_toNat_lt.mp power
  rw [hzero, UInt64.toNat_zero] at hthreshold
  rw [UInt64.toNat_zero] at hpower
  omega

/-- Below the ceiling a threshold is no less than two thirds of the power. Above it, it is two
thirds of the ceiling only. -/
theorem two_mul_exactPower_le (normalized : v.exactPower < UInt64.size) :
    2 * v.exactPower ≤ 3 * v.threshold.toNat := by
  have htotal : v.totalPower.toNat = v.exactPower := by
    rw [toNat_totalPower]
    omega
  rw [toNat_threshold, htotal]
  omega

/-! ### Some addresses -/

/-- The power that some addresses have together. Addresses that are no members have none, and one
that is named twice counts once. -/
def powerAmong (v : Valset) (addresses : List Address) : Nat :=
  (v.members.map fun m => if m.address ∈ addresses then m.power.toNat else 0).sum

/-- **Two groups of addresses** have together the power of all members at most, and that of those
who are in both groups a second time. It is shown member by member. -/
theorem powerAmong_add_le (v : Valset) (group group' : List Address) :
    v.powerAmong group + v.powerAmong group' ≤
      v.exactPower + v.powerAmong (group.filter (· ∈ group')) := by
  unfold powerAmong exactPower
  -- On the members: each of them is in both groups, in one of them, or in none.
  induction v.members with
  | nil => exact Nat.le_refl _
  | cons m members ih =>
    simp only [List.map_cons, List.sum_cons]
    have hboth : m.address ∈ group.filter (· ∈ group') ↔
        m.address ∈ group ∧ m.address ∈ group' := by
      rw [List.mem_filter, decide_eq_true_iff]
    by_cases h : m.address ∈ group
    · by_cases h' : m.address ∈ group'
      · rw [if_pos h, if_pos h', if_pos (hboth.mpr ⟨h, h'⟩)]
        omega
      · rw [if_pos h, if_neg h', if_neg fun hmem => h' (hboth.mp hmem).2]
        omega
    · rw [if_neg h, if_neg fun hmem => h (hboth.mp hmem).1]
      split <;> omega

/-- Signers in the order of the members have together what each of them has. So the power of
confirms can be counted over members. -/
theorem sum_powerOf_eq (distinct : v.addresses.Nodup) {signers : List Address}
    (ordered : signers.Sublist v.addresses) :
    (signers.map fun a => (v.powerOf a).toNat).sum = v.powerAmong signers := by
  calc (signers.map fun a => (v.powerOf a).toNat).sum
      = (v.addresses.map fun a => if a ∈ signers then (v.powerOf a).toNat else 0).sum :=
        sum_map_of_sublist ordered distinct _
    _ = v.powerAmong signers := by
        unfold addresses powerAmong
        rw [List.map_map]
        congr 1
        apply List.map_congr_left
        intro m hm
        show (if m.address ∈ signers then (v.powerOf m.address).toNat else 0) = _
        rw [powerOf_address distinct hm]

end Valset

end Countersign
