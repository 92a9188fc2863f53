import Countersign.Proofs.Attestation.Making
import Countersign.Proofs.Traversal
import Countersign.Proofs.Valset.Power
import Mathlib.Algebra.BigOperators.Group.Finset.Basic

/-!
# The first member of each address

`Valset.make` goes through a list of validators once, and remembers the addresses that it has seen.
What it keeps is told here by place (`Valset.firstEntries`): the entries before which nobody has
their address. The two agree because the addresses that were seen are those of all earlier entries,
kept or not (`Valset.firstOccurrences_eq_filter`).

The members are asked in three ways: whether an address is one, what power it has, and what power
all of them have together. Each answer is the one that the validators give if every address counts
for its first entry (`Valset.makes_first_members`), so nobody's power counts twice.
-/

namespace Countersign

namespace Valset

variable {validators : List Member} {address : Address}

/-! ### What is kept -/

/-- Whether an entry is the first with its address: nobody at an earlier place has it. The place is
given with the entry, as two entries may be equal. -/
def isFirstEntry (validators : List Member) (entry : Member × Nat) : Bool :=
  (validators.take entry.2).all (·.address != entry.1.address)

/-- The first entry of each address, in order. This is the specification; it looks back over the
list for each entry, and remembers nothing. -/
def firstEntries (validators : List Member) : List Member :=
  (validators.zipIdx.filter (isFirstEntry validators)).map Prod.fst

/-- The entry behind some others is the first with its address if none of these has it. -/
theorem isFirstEntry_append_cons (front : List Member) (m : Member) (rest : List Member) :
    isFirstEntry (front ++ m :: rest) (m, front.length) = true ↔
      m.address ∉ front.map Member.address := by
  rw [isFirstEntry, List.take_left, List.all_eq_true, List.mem_map]
  simp only [bne_iff_ne, not_exists, not_and]

/-- **What is kept of the rest of a list** is what has not been seen in the front of it. The
induction is on the rest, and the addresses that were seen are those of the front. -/
theorem firstOccurrences_eq_filter (front rest : List Member) {seen : List Address}
    (hseen : ∀ a, a ∈ seen ↔ a ∈ front.map Member.address) :
    firstOccurrences seen rest =
      ((rest.zipIdx front.length).filter (isFirstEntry (front ++ rest))).map Prod.fst := by
  -- On the rest: each entry goes over to the front, whether it is kept or not.
  induction rest generalizing front seen with
  | nil => rfl
  | cons m rest ih =>
    have hfirst := isFirstEntry_append_cons front m rest
    have hfront : front ++ m :: rest = (front ++ [m]) ++ rest := by simp
    have hlength : front.length + 1 = (front ++ [m]).length := by simp
    rw [firstOccurrences, List.zipIdx_cons]
    split
    · next hmem =>
      have hknown : ∀ a, a ∈ seen ↔ a ∈ (front ++ [m]).map Member.address := by
        intro a
        rw [List.map_append, List.mem_append, ← hseen, List.map_singleton, List.mem_singleton]
        exact ⟨Or.inl, fun h => h.elim id fun heq => heq ▸ hmem⟩
      have hlater : ¬ isFirstEntry (front ++ m :: rest) (m, front.length) = true :=
        fun h => hfirst.mp h ((hseen _).mp hmem)
      rw [List.filter_cons_of_neg hlater, ih _ hknown, hlength, hfront]
    · next hmem =>
      have hknown : ∀ a, a ∈ m.address :: seen ↔ a ∈ (front ++ [m]).map Member.address := by
        intro a
        rw [List.map_append, List.mem_append, ← hseen, List.map_singleton, List.mem_singleton,
          List.mem_cons, or_comm]
      have hfirst := hfirst.mpr fun h => hmem ((hseen _).mpr h)
      rw [List.filter_cons_of_pos hfirst, List.map_cons, ih _ hknown, hlength, hfront]

/-- The members of a valset are the first entries of the validators. -/
theorem members_make (nonce : UInt64) (validators : List Member) (height : UInt64)
    (time : Timestamp) : (make nonce validators height time).members = firstEntries validators :=
  firstOccurrences_eq_filter [] validators (by simp)

/-! ### What is asked of it -/

/-- **An address that was not seen** is found where it stands first. Leaving out repetitions does
not change what is found. -/
theorem find?_firstOccurrences {seen : List Address} (hseen : address ∉ seen)
    (validators : List Member) :
    (firstOccurrences seen validators).find? (·.address == address) =
      validators.find? (·.address == address) := by
  induction validators generalizing seen with
  | nil => rfl
  | cons m validators ih =>
    rw [firstOccurrences]
    cases haddress : m.address == address with
    | true =>
      -- This is the entry, and it is kept.
      have hkept : m.address ∉ seen := eq_of_beq haddress ▸ hseen
      rw [if_neg hkept, List.find?_cons, List.find?_cons, haddress]
    | false =>
      have hother : address ≠ m.address := (ne_of_beq_false haddress).symm
      rw [List.find?_cons, haddress]
      split
      · exact ih hseen
      · rw [List.find?_cons, haddress]
        exact ih (List.not_mem_cons_of_ne_of_not_mem hother hseen)

section Made

variable {nonce height : UInt64} {time : Timestamp}

theorem find?_members_make :
    (make nonce validators height time).members.find? (·.address == address) =
      validators.find? (·.address == address) :=
  find?_firstOccurrences List.not_mem_nil validators

/-- Every address among the validators is a member, and no other. -/
theorem contains_make_iff :
    (make nonce validators height time).contains address = true ↔
      address ∈ validators.map Member.address := by
  rw [contains, List.any_eq_true, ← List.find?_isSome, find?_members_make, List.find?_isSome,
    List.mem_map]
  simp only [beq_iff_eq]

/-- The power of an address is that of its first entry, whatever later entries say. -/
theorem powerOf_make_of_isFirstWith {m : Member}
    (h : IsFirstWith Member.address address validators m) :
    (make nonce validators height time).powerOf address = m.power := by
  rw [powerOf, find?_members_make, find?_eq_some_iff_isFirstWith.mpr h]

/-- An address that is not among the validators has no power. -/
theorem powerOf_make_of_notMem (h : address ∉ validators.map Member.address) :
    (make nonce validators height time).powerOf address = 0 := by
  have hnone : ∀ m ∈ validators, m.address ≠ address :=
    fun m hm heq => h (heq ▸ List.mem_map_of_mem hm)
  rw [powerOf, find?_members_make, find?_eq_none_iff_forall_ne.mpr hnone]

end Made

/-- The sum of the powers is that over the addresses, if each of them is named once. A sum over a
set of addresses counts none of them twice. -/
theorem exactPower_eq_sum_powerOf {v : Valset} (distinct : v.addresses.Nodup) :
    v.exactPower = ∑ a ∈ v.addresses.toFinset, (v.powerOf a).toNat := by
  rw [List.sum_toFinset _ distinct, addresses, List.map_map, exactPower]
  congr 1
  refine List.map_congr_left fun m hm => ?_
  exact congrArg UInt64.toNat (powerOf_address distinct hm).symm

/-- **The members are the first entries of some validators**, and answer for them, in each of the
ways in which members are asked. -/
structure FirstMembers (validators : List Member) (v : Valset) : Prop where
  members_eq : v.members = firstEntries validators
  distinct : v.addresses.Nodup
  contains_iff : ∀ a, v.contains a = true ↔ a ∈ validators.map Member.address
  powerOf_eq : ∀ a m, IsFirstWith Member.address a validators m → v.powerOf a = m.power
  powerOf_eq_zero : ∀ a, a ∉ validators.map Member.address → v.powerOf a = 0
  /-- Each address counts once, whatever the number of its entries. -/
  totalPower_eq : v.totalPower.toNat =
    min (∑ a ∈ (validators.map Member.address).toFinset, (v.powerOf a).toNat) (UInt64.size - 1)
  /-- There is nothing more to leave out. -/
  make_eq : ∀ nonce height time, make nonce v.members height time = ⟨nonce, v.members, height, time⟩

/-- **A valset that is made of any validators** keeps the first entry of each address, and no other.
All that is asked of its members goes by these entries. -/
theorem makes_first_members (nonce : UInt64) (validators : List Member) (height : UInt64)
    (time : Timestamp) : FirstMembers validators (make nonce validators height time) where
  members_eq := members_make nonce validators height time
  distinct := nodup_firstOccurrences [] validators
  contains_iff _ := contains_make_iff
  powerOf_eq _ _ := powerOf_make_of_isFirstWith
  powerOf_eq_zero _ := powerOf_make_of_notMem
  totalPower_eq := by
    have hdistinct : (make nonce validators height time).addresses.Nodup :=
      nodup_firstOccurrences [] validators
    have haddresses : (make nonce validators height time).addresses.toFinset =
        (validators.map Member.address).toFinset := by
      ext a
      rw [List.mem_toFinset, List.mem_toFinset, ← contains_iff_mem_addresses, contains_make_iff]
    rw [toNat_totalPower, exactPower_eq_sum_powerOf hdistinct, haddresses]
  make_eq nonce' height' time' := by
    have hdistinct : (firstOccurrences [] validators).map (·.address) |>.Nodup :=
      nodup_firstOccurrences [] validators
    exact make_eq_self (v := ⟨nonce', firstOccurrences [] validators, height', time'⟩) hdistinct

end Valset

end Countersign
