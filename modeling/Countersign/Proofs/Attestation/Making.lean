import Countersign.Attestation
import Mathlib.Data.List.Nodup

/-!
# Well-formed attestations

An attestation is **well-formed** if its valset names each address once, or its range of blocks is
not empty (`Attestation.WellFormed`). The two ways of making one see to it: `Valset.make` keeps the
first member of each address, in order (`Valset.firstOccurrences_eq_eraseDupsBy`), and
`DataCommitment.make` refuses an empty range.
-/

namespace Countersign

namespace Valset

/-! ### The first members -/

/-- Whether two members have one address, whatever their powers. A later one of the two is a
repetition. -/
def sameAddress (m m' : Member) : Bool :=
  m.address == m'.address

/-- What is kept is not among the addresses that were seen, so it is no repetition. -/
theorem address_notMem_seen {seen : List Address} {members : List Member} {m : Member}
    (h : m ∈ firstOccurrences seen members) : m.address ∉ seen := by
  induction members generalizing seen with
  | nil => cases h
  | cons m' members ih =>
    rw [firstOccurrences] at h
    split at h
    · exact ih h
    · next hseen =>
      rcases List.mem_cons.mp h with rfl | h
      · exact hseen
      · exact fun hmem => ih h (List.mem_cons_of_mem _ hmem)

/-- Each address is kept once. The induction is on the members, for all addresses that were seen
before. -/
theorem nodup_firstOccurrences (seen : List Address) (members : List Member) :
    ((firstOccurrences seen members).map (·.address)).Nodup := by
  induction members generalizing seen with
  | nil => exact List.nodup_nil
  | cons m members ih =>
    rw [firstOccurrences]
    split
    · exact ih seen
    · refine List.nodup_cons.mpr ⟨fun hmem => ?_, ih (m.address :: seen)⟩
      -- Another member with this address would have been seen.
      obtain ⟨m', hm', haddress⟩ := List.mem_map.mp hmem
      exact address_notMem_seen hm' (haddress ▸ List.mem_cons_self)

/-- Members with addresses of their own are all kept, with none of these seen before. -/
theorem firstOccurrences_eq_self {seen : List Address} {members : List Member}
    (hdistinct : (members.map (·.address)).Nodup) (hseen : ∀ m ∈ members, m.address ∉ seen) :
    firstOccurrences seen members = members := by
  induction members generalizing seen with
  | nil => rfl
  | cons m members ih =>
    obtain ⟨hm, hdistinct⟩ := List.nodup_cons.mp hdistinct
    rw [firstOccurrences, if_neg (hseen m List.mem_cons_self), ih hdistinct]
    intro m' hm' hmem
    rcases List.mem_cons.mp hmem with heq | hmem
    · exact hm (List.mem_map.mpr ⟨m', hm', heq⟩)
    · exact hseen m' (List.mem_cons_of_mem m hm') hmem

/-- **What is kept**, apart from the addresses that were seen, is the first member of each
address. -/
theorem firstOccurrences_eq_eraseDupsBy_filter (seen : List Address) (members : List Member) :
    firstOccurrences seen members =
      (members.filter fun m => decide (m.address ∉ seen)).eraseDupsBy sameAddress := by
  induction members generalizing seen with
  | nil => rfl
  | cons m members ih =>
    rw [firstOccurrences]
    split
    · next hseen => rw [ih, List.filter_cons_of_neg (by simpa using hseen)]
    · next hseen =>
      -- What is left out behind the member is what was seen before, and its own address.
      have hfilter : members.filter (fun m' => decide (m'.address ∉ m.address :: seen)) =
          (members.filter fun m' => decide (m'.address ∉ seen)).filter
            fun m' => decide (sameAddress m' m = false) := by
        rw [List.filter_filter]
        refine List.filter_congr fun m' _ => ?_
        simp [sameAddress, List.mem_cons]
      rw [List.filter_cons_of_pos (by simpa using hseen), List.eraseDupsBy_cons, ← hfilter, ih]

/-- A valset keeps the first member of each address. The removal of repetitions is that of the
library. -/
theorem firstOccurrences_eq_eraseDupsBy (members : List Member) :
    firstOccurrences [] members = members.eraseDupsBy sameAddress := by
  rw [firstOccurrences_eq_eraseDupsBy_filter]
  simp

/-- A valset that names each address once is made as it is. So making it again changes nothing. -/
theorem make_eq_self {v : Valset} (h : v.addresses.Nodup) :
    make v.nonce v.members v.height v.time = v := by
  rw [make, firstOccurrences_eq_self h fun _ _ => List.not_mem_nil]

end Valset

/-! ### Ranges -/

/-- A data commitment is made exactly if its range is not empty. -/
theorem DataCommitment.make_eq_ok_iff {nonce first last : UInt64} {c : DataCommitment} :
    make nonce first last = .ok c ↔ first < last ∧ c = ⟨nonce, first, last⟩ := by
  rw [make]
  split
  · next h => simp [h, eq_comm]
  · next h => simp [h]

/-! ### Attestations -/

/-- An attestation that means something: its valset names each address once, or its range is not
empty. Nothing in the type of attestations asks for this. -/
def Attestation.WellFormed : Attestation → Prop
  | .valset v => v.addresses.Nodup
  | .dataCommitment c => c.beginBlock < c.endBlock

instance : DecidablePred Attestation.WellFormed
  | .valset v => inferInstanceAs (Decidable v.addresses.Nodup)
  | .dataCommitment c => inferInstanceAs (Decidable (c.beginBlock < c.endBlock))

end Countersign
