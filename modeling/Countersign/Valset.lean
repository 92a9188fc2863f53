import Countersign.Address
import Countersign.Calendar.Timestamp

/-!
# Validator sets

A `Valset` lists who may sign, with how much power, from a certain attestation on. Its order is
part of it: signatures are handed to the contract by position. `Valset.make` keeps the first member
of each address; a valset that was read from a record is taken as it stands.

A quorum is two thirds of the power, rounded up (`Valset.threshold`); powers add up to at most
`2 ^ 64 - 1` (`saturatingAdd`). The threshold is worked out in words of 128 bits (`WideCount`),
where the double of any count has room.
-/

namespace Countersign

/-- Addition that stops at the greatest count. Powers are added up like this, so a sum never comes
round to a small number. -/
def saturatingAdd (a b : UInt64) : UInt64 :=
  UInt64.ofNat (min (a.toNat + b.toNat) (UInt64.size - 1))

theorem toNat_saturatingAdd (a b : UInt64) :
    (saturatingAdd a b).toNat = min (a.toNat + b.toNat) (UInt64.size - 1) := by
  simp only [saturatingAdd, UInt64.toNat_ofNat', UInt64.size]
  omega

/-- A count in 128 bits, in which the double of any count of 64 bits has room. -/
abbrev WideCount := BitVec 128

namespace WideCount

/-- A count of 64 bits in 128. -/
def ofUInt64 (n : UInt64) : WideCount :=
  n.toBitVec.setWidth 128

/-- A count of 128 bits in 64, the greatest one if it does not fit. -/
def clamp (n : WideCount) : UInt64 :=
  if n.toNat < UInt64.size then UInt64.ofNat n.toNat else UInt64.ofNat (UInt64.size - 1)

/-- Division that rounds up, so that a quorum has at least its share. -/
def divUp (a b : WideCount) : WideCount :=
  if a % b = 0 then a / b else a / b + 1

@[simp] theorem toNat_ofUInt64 (n : UInt64) : (ofUInt64 n).toNat = n.toNat := by
  have hbound := n.toNat_lt
  rw [ofUInt64, BitVec.toNat_setWidth, UInt64.toNat_toBitVec, Nat.mod_eq_of_lt (by omega)]

theorem toNat_clamp_of_lt {n : WideCount} (h : n.toNat < UInt64.size) :
    (clamp n).toNat = n.toNat := by
  rw [clamp, if_pos h, UInt64.toNat_ofNat', Nat.mod_eq_of_lt h]

/-- **A third, rounded up**, has room wherever the whole has. -/
theorem toNat_divUp_three (a : WideCount) : (divUp a 3).toNat = (a.toNat + 2) / 3 := by
  have hbound := a.isLt
  have hzero : a % 3 = 0 ↔ a.toNat % 3 = 0 := by
    rw [← BitVec.toNat_inj, BitVec.toNat_umod]
    rfl
  have hdiv : (a / 3).toNat = a.toNat / 3 := BitVec.toNat_udiv
  unfold divUp
  split
  · next h =>
    rw [hzero] at h
    omega
  · next h =>
    rw [hzero] at h
    rw [BitVec.toNat_add, hdiv]
    show (a.toNat / 3 + 1) % 2 ^ 128 = _
    omega

end WideCount

/-- **A validator as the bridge contract sees it**: an address with power, and nothing else. -/
structure Member where
  power : UInt64
  address : Address
deriving DecidableEq

/-- **A validator set.** Height and time say when it was made; the digest does not cover them. -/
structure Valset where
  nonce : UInt64
  members : List Member
  height : UInt64
  time : Timestamp
deriving DecidableEq

/-- The nonce of the valset that the contract was deployed with, which nobody signs. -/
def bootstrapNonce : UInt64 := 1

namespace Valset

/-- The first member of each address, those of `seen` left out. The addresses that were seen are
remembered on the way. -/
def firstOccurrences (seen : List Address) : List Member → List Member
  | [] => []
  | m :: rest =>
    if m.address ∈ seen then firstOccurrences seen rest
    else m :: firstOccurrences (m.address :: seen) rest

/-- A valset that names each address once. Signatures are counted by address, so a second entry
could count twice. -/
def make (nonce : UInt64) (members : List Member) (height : UInt64) (time : Timestamp) : Valset :=
  ⟨nonce, firstOccurrences [] members, height, time⟩

/-- The valset that stands for "nothing stored", where a valset must be given. -/
def empty : Valset := ⟨0, [], 0, .epoch⟩

/-- Whether a valset stands for "nothing stored", whatever clock shows its time. -/
def isEmpty (v : Valset) : Bool :=
  v.nonce == 0 && v.members.isEmpty && v.height == 0 && v.time.isSameMoment .epoch

/-- The power of all members together, at most `2 ^ 64 - 1`. -/
def totalPower (v : Valset) : UInt64 :=
  v.members.foldl (fun total m => saturatingAdd total m.power) 0

/-- Two thirds of a power, rounded up. The double is worked out in wide counts, where it has
room. -/
def twoThirds (total : UInt64) : UInt64 :=
  (WideCount.divUp (2 * .ofUInt64 total) 3).clamp

theorem toNat_two_mul_ofUInt64 (total : UInt64) :
    (2 * WideCount.ofUInt64 total).toNat = 2 * total.toNat := by
  have hbound := total.toNat_lt
  rw [BitVec.toNat_mul, WideCount.toNat_ofUInt64]
  show 2 * total.toNat % 2 ^ 128 = 2 * total.toNat
  omega

theorem toNat_divUp_two_mul (total : UInt64) :
    (WideCount.divUp (2 * .ofUInt64 total) 3).toNat = (2 * total.toNat + 2) / 3 := by
  rw [WideCount.toNat_divUp_three, toNat_two_mul_ofUInt64]

/-- Two thirds of a number of 64 bits is one again. -/
theorem toNat_divUp_two_mul_lt (total : UInt64) :
    (WideCount.divUp (2 * .ofUInt64 total) 3).toNat < UInt64.size := by
  have hbound := total.toNat_lt
  rw [toNat_divUp_two_mul]
  show _ < 2 ^ 64
  omega

theorem toNat_twoThirds (total : UInt64) :
    (twoThirds total).toNat = (2 * total.toNat + 2) / 3 := by
  rw [twoThirds, WideCount.toNat_clamp_of_lt (toNat_divUp_two_mul_lt total), toNat_divUp_two_mul]

/-- The power of a quorum: signers who have it together speak for the valset. -/
def threshold (v : Valset) : UInt64 :=
  twoThirds v.totalPower

/-- The power of an address, zero for one that is no member; the first entry counts. -/
def powerOf (v : Valset) (address : Address) : UInt64 :=
  match v.members.find? (·.address == address) with
  | some m => m.power
  | none => 0

/-- Whether an address is a member, with or without power. -/
def contains (v : Valset) (address : Address) : Bool :=
  v.members.any (·.address == address)

/-- The members' addresses, in order. A place in this list is a place in a submission. -/
def addresses (v : Valset) : List Address :=
  v.members.map (·.address)

theorem contains_iff_mem_addresses {v : Valset} {address : Address} :
    v.contains address = true ↔ address ∈ v.addresses := by
  rw [contains, addresses, List.any_eq_true, List.mem_map]
  simp only [beq_iff_eq]

theorem contains_address {v : Valset} {m : Member} (h : m ∈ v.members) :
    v.contains m.address = true :=
  contains_iff_mem_addresses.mpr (List.mem_map_of_mem h)

end Valset

end Countersign
