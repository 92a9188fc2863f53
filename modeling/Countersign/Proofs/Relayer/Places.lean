import Countersign.Proofs.Signature.Canonical
import Countersign.Proofs.Traversal
import Countersign.Relayer.Slots

/-!
# Signatures by place, for any confirms

`orderSignatures` takes confirms as they come: in any order, several of one signer, of signers that
are no members, and with signatures that cannot be taken apart. `orders_by_place` says what it makes
of them.

* A member's place depends on the first confirm of the member alone (`StandsAt`). It is empty only
  if there is none, as no signature that is taken apart is empty.
* The first member whose first confirm cannot be taken apart makes everything fail (`Spoils`).

So it is only the confirms of the members that count, and of these only the order among those of one
member (`orderSignatures_congr`).
-/

namespace Countersign

variable {current : Valset} {confirms confirms' : List Confirm} {member : Member}

/-! ### One place -/

/-- **What stands at a member's place**: the first confirm of the member, taken apart, and nothing
exactly if there is no confirm of the member. -/
structure StandsAt (confirms : List Confirm) (member : Member) (x : Vrs) : Prop where
  zero_iff : x = Vrs.zero ↔ ∀ c ∈ confirms, c.signer ≠ member.address
  parsed : ∀ c, IsFirstWith Confirm.signer member.address confirms c →
    Vrs.parse c.signature = .ok x

/-- A member whose place cannot be filled, since its first confirm cannot be taken apart. Later
confirms of the member are not tried. -/
def Spoils (confirms : List Confirm) (member : Member) (e : SignatureError) : Prop :=
  ∃ c, IsFirstWith Confirm.signer member.address confirms c ∧ Vrs.parse c.signature = .error e

/-- The place of a member who has not signed is empty. -/
theorem slotOf_of_unsigned (h : ∀ c ∈ confirms, c.signer ≠ member.address) :
    slotOf confirms member = .ok Vrs.zero := by
  rw [slotOf, find?_eq_none_iff_forall_ne.mpr h]

/-- The place of any other member is decided by its first confirm. -/
theorem slotOf_of_isFirstWith {c : Confirm}
    (h : IsFirstWith Confirm.signer member.address confirms c) :
    slotOf confirms member = Vrs.parse c.signature := by
  rw [slotOf, find?_eq_some_iff_isFirstWith.mpr h]

/-- A member has not signed, or has a first confirm. -/
theorem unsigned_or_exists_isFirstWith (confirms : List Confirm) (member : Member) :
    (∀ c ∈ confirms, c.signer ≠ member.address) ∨
      ∃ c, IsFirstWith Confirm.signer member.address confirms c := by
  cases hfind : confirms.find? (·.signer == member.address) with
  | none => exact .inl (find?_eq_none_iff_forall_ne.mp hfind)
  | some c => exact .inr ⟨c, find?_eq_some_iff_isFirstWith.mp hfind⟩

/-- A member with a first confirm has signed. -/
theorem not_unsigned_of_isFirstWith {c : Confirm}
    (h : IsFirstWith Confirm.signer member.address confirms c) :
    ¬ ∀ c ∈ confirms, c.signer ≠ member.address :=
  fun hunsigned => hunsigned c h.mem h.key_eq

/-- A place is not empty exactly if its member is among the signers. -/
theorem StandsAt.ne_zero_iff {x : Vrs} (h : StandsAt confirms member x) :
    x ≠ Vrs.zero ↔ member.address ∈ confirms.map Confirm.signer := by
  rw [ne_eq, h.zero_iff, List.mem_map]
  simp only [ne_eq, not_forall, not_not, exists_prop]

/-- A place is filled with what stands there, in the words of the specification. -/
theorem slotOf_eq_ok_iff {x : Vrs} :
    slotOf confirms member = .ok x ↔ StandsAt confirms member x := by
  rcases unsigned_or_exists_isFirstWith confirms member with hunsigned | ⟨c, hfirst⟩
  · rw [slotOf_of_unsigned hunsigned]
    constructor
    · intro h
      obtain rfl := Except.ok.inj h
      exact ⟨iff_of_true rfl hunsigned,
        fun c hfirst => absurd hunsigned (not_unsigned_of_isFirstWith hfirst)⟩
    · intro h
      rw [h.zero_iff.mpr hunsigned]
  · rw [slotOf_of_isFirstWith hfirst]
    constructor
    · intro h
      -- What was taken apart is canonical, so it is not taken for an empty place.
      have hne : x ≠ Vrs.zero := (Vrs.canonical_of_parse h).ne_zero
      refine ⟨iff_of_false hne (not_unsigned_of_isFirstWith hfirst), fun c' hfirst' => ?_⟩
      rw [hfirst'.unique hfirst]
      exact h
    · exact fun h => h.parsed c hfirst

/-- A place fails exactly if its member spoils it. -/
theorem slotOf_eq_error_iff {e : SignatureError} :
    slotOf confirms member = .error e ↔ Spoils confirms member e := by
  rcases unsigned_or_exists_isFirstWith confirms member with hunsigned | ⟨c, hfirst⟩
  · rw [slotOf_of_unsigned hunsigned]
    refine ⟨nofun, ?_⟩
    rintro ⟨c, hfirst, -⟩
    exact absurd hunsigned (not_unsigned_of_isFirstWith hfirst)
  · rw [slotOf_of_isFirstWith hfirst]
    constructor
    · exact fun h => ⟨c, hfirst, h⟩
    · rintro ⟨c', hfirst', h⟩
      rw [hfirst.unique hfirst']
      exact h

/-- A place is filled unless the member spoils it. -/
theorem exists_slotOf_eq_ok_iff :
    (∃ x, slotOf confirms member = .ok x) ↔ ¬ ∃ e, Spoils confirms member e := by
  simp only [← slotOf_eq_error_iff]
  cases slotOf confirms member with
  | error e => simp
  | ok x => simp

/-! ### All places -/

/-- Signatures are lined up as what stands at the places, one for each member. -/
theorem orderSignatures_eq_ok_iff {signatures : List Vrs} :
    orderSignatures current confirms = .ok signatures ↔
      List.Forall₂ (StandsAt confirms) current.members signatures := by
  rw [orderSignatures, mapM_eq_ok_iff]
  simp only [slotOf_eq_ok_iff]

/-- Nothing is lined up because of the first member that spoils its place, and of no later one. -/
theorem orderSignatures_eq_error_iff {e : SignatureError} :
    orderSignatures current confirms = .error e ↔
      ∃ front m rest, current.members = front ++ m :: rest ∧
        (∀ m' ∈ front, ¬ ∃ e', Spoils confirms m' e') ∧ Spoils confirms m e := by
  rw [orderSignatures, mapM_eq_error_iff]
  simp only [exists_slotOf_eq_ok_iff, slotOf_eq_error_iff]

/-- Lining up fails exactly if some member spoils its place. -/
theorem exists_orderSignatures_eq_error_iff :
    (∃ e, orderSignatures current confirms = .error e) ↔
      ∃ m ∈ current.members, ∃ e, Spoils confirms m e := by
  simp only [orderSignatures, exists_mapM_eq_error_iff, slotOf_eq_error_iff]

/-! ### Other confirms -/

/-- Only the confirms of each member count, in their order among themselves. All the invariances
below come from this. -/
theorem orderSignatures_congr (h : ∀ m ∈ current.members,
    confirms.filter (·.signer == m.address) = confirms'.filter (·.signer == m.address)) :
    orderSignatures current confirms = orderSignatures current confirms' := by
  unfold orderSignatures
  refine mapM_congr fun m hm => ?_
  rw [slotOf, slotOf, find?_eq_of_filter_eq (h m hm)]

/-- **Confirms of others are passed over**, also such as cannot be taken apart. -/
theorem orderSignatures_eq_of_members (h : confirms.filter (fun c => current.contains c.signer) =
      confirms'.filter fun c => current.contains c.signer) :
    orderSignatures current confirms = orderSignatures current confirms' := by
  refine orderSignatures_congr fun m hm => ?_
  -- The confirms of one member are among those of all members.
  have hmember : ∀ c : Confirm,
      (c.signer == m.address && current.contains c.signer) = (c.signer == m.address) := by
    intro c
    cases hsigner : c.signer == m.address with
    | false => rfl
    | true =>
      rw [Bool.true_and, eq_of_beq hsigner]
      exact Valset.contains_address hm
  have hfilter := congrArg (List.filter (·.signer == m.address)) h
  simpa only [List.filter_filter, hmember] using hfilter

/-- The order of confirms with different signers does not matter, as each of them is the only one
for its place. -/
theorem orderSignatures_eq_of_perm (h : confirms.Perm confirms')
    (distinct : (confirms.map Confirm.signer).Nodup) :
    orderSignatures current confirms = orderSignatures current confirms' :=
  orderSignatures_congr fun m _ => filter_eq_of_perm h distinct m.address

/-- **Signatures are lined up by place**, for any members and any confirms.

* They are lined up exactly as what stands at the places of the members, one for each of them and in
  their order.
* Otherwise the first member that spoils its place gives the error. So nothing is lined up exactly
  if some member spoils its place.
* Confirms of signers that are no members may be there or not, whatever they hold.
* Of the confirms of the members only the order among those of one member matters. So confirms of
  different signers may stand in any order. -/
theorem orders_by_place (current : Valset) (confirms : List Confirm) :
    (∀ signatures, orderSignatures current confirms = .ok signatures ↔
      List.Forall₂ (StandsAt confirms) current.members signatures) ∧
    (∀ e, orderSignatures current confirms = .error e ↔
      ∃ front m rest, current.members = front ++ m :: rest ∧
        (∀ m' ∈ front, ¬ ∃ e', Spoils confirms m' e') ∧ Spoils confirms m e) ∧
    ((∃ e, orderSignatures current confirms = .error e) ↔
      ∃ m ∈ current.members, ∃ e, Spoils confirms m e) ∧
    (∀ confirms' : List Confirm, (confirms.filter fun c => current.contains c.signer) =
        (confirms'.filter fun c => current.contains c.signer) →
      orderSignatures current confirms = orderSignatures current confirms') ∧
    (∀ confirms' : List Confirm, (∀ m ∈ current.members,
        confirms.filter (·.signer == m.address) = confirms'.filter (·.signer == m.address)) →
      orderSignatures current confirms = orderSignatures current confirms') ∧
    ∀ confirms' : List Confirm, confirms.Perm confirms' → (confirms.map Confirm.signer).Nodup →
      orderSignatures current confirms = orderSignatures current confirms' :=
  ⟨fun _ => orderSignatures_eq_ok_iff, fun _ => orderSignatures_eq_error_iff,
    exists_orderSignatures_eq_error_iff, fun _ => orderSignatures_eq_of_members,
    fun _ => orderSignatures_congr, fun _ => orderSignatures_eq_of_perm⟩

/-- **Two members, of whom the second has signed and then sent a text that is no signature**, and
somebody else who has sent only the latter. The second member's place is filled wherever the other
one's confirm stands, and also without it; but not if the text comes before the signature. -/
theorem orders_by_place_of_outsider :
    ∃ (current : Valset) (own broken foreign : Confirm),
      own.signer = broken.signer ∧ current.contains foreign.signer = false ∧
      orderSignatures current [foreign, own, broken] = .ok [Vrs.zero, Vrs.keyless] ∧
      orderSignatures current [own, broken] = .ok [Vrs.zero, Vrs.keyless] ∧
      orderSignatures current [own, foreign, broken] = .ok [Vrs.zero, Vrs.keyless] ∧
      orderSignatures current [foreign, own] = orderSignatures current [own, foreign] ∧
      orderSignatures current [broken, own] =
        .error (.malformed "expected 65 bytes, got 0") := by
  let silent : Member := ⟨5, ⟨1⟩⟩
  let signed : Member := ⟨5, ⟨2⟩⟩
  let current : Valset := ⟨1, [silent, signed], 0, .epoch⟩
  let own : Confirm := .valset ⟨⟨2⟩, Vrs.keyless.render⟩
  let broken : Confirm := .valset ⟨⟨2⟩, ""⟩
  let foreign : Confirm := .valset ⟨⟨3⟩, ""⟩
  -- The general theorem for each of the lists of confirms.
  obtain ⟨hok, -, -, hmembers, hcongr, -⟩ := orders_by_place current [foreign, own, broken]
  obtain ⟨-, herror, -⟩ := orders_by_place current [broken, own]
  obtain ⟨-, -, -, -, -, hperm⟩ := orders_by_place current [foreign, own]
  -- With all three confirms, the first place is empty and the second one filled.
  have hsilent : StandsAt [foreign, own, broken] silent Vrs.zero :=
    slotOf_eq_ok_iff.mp (slotOf_of_unsigned (by decide))
  have hsigned : StandsAt [foreign, own, broken] signed Vrs.keyless :=
    slotOf_eq_ok_iff.mp ((slotOf_of_isFirstWith ⟨[foreign], [broken], rfl, rfl, by decide⟩).trans
      (Vrs.parse_render Vrs.canonical_keyless))
  have hall := (hok _).mpr (.cons hsilent (.cons hsigned .nil))
  -- With the broken text in front, the second place cannot be filled.
  have hunspoilt : ¬ ∃ e, Spoils [broken, own] silent e :=
    exists_slotOf_eq_ok_iff.mp ⟨_, slotOf_of_unsigned (by decide)⟩
  have hspoilt : Spoils [broken, own] signed (.malformed "expected 65 bytes, got 0") :=
    ⟨broken, ⟨[], [own], rfl, rfl, by simp⟩, rfl⟩
  refine ⟨current, own, broken, foreign, by decide, by decide, hall, ?_, ?_, ?_, ?_⟩
  · exact (hmembers [own, broken] rfl).symm.trans hall
  · have hsame : ∀ m ∈ current.members, [foreign, own, broken].filter (·.signer == m.address) =
        [own, foreign, broken].filter (·.signer == m.address) :=
      List.forall_mem_cons.mpr ⟨rfl, List.forall_mem_cons.mpr ⟨rfl, nofun⟩⟩
    exact (hcongr [own, foreign, broken] hsame).symm.trans hall
  · exact hperm [own, foreign] (List.Perm.swap _ _ []) (by decide)
  · exact (herror _).mpr ⟨[silent], signed, [], rfl, by simpa using hunspoilt, hspoilt⟩

end Countersign
