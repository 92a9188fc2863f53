import Countersign.Proofs.Store.Acceptance
import Countersign.Proofs.Store.Access
import Countersign.Proofs.Store.Collecting
import Countersign.Proofs.Store.Writing

/-!
# Which candidate is chosen

Replicas may hold anything under a key, so a read brings candidates of which some are refused. The
choice among them (`select`) goes by what is accepted alone:

* among confirms it is the first accepted candidate (`outcome_confirm`);
* among latest valsets it is the first of those with the greatest nonce
  (`outcome_latestValset`). They are gone through once, with the best one so far in hand
  (`Best`), so the greatest nonce does not depend on the order of the candidates, nor on
  how often each of them is there (`chosenNonce?_eq_some_iff`).

What is chosen is read once more by those who asked (`Store.chosenConfirm`, `Store.chosenValset`).
It was accepted, so this always succeeds: candidates can hide nothing that is accepted, and none of
them makes a read fail (`Store.ReadsThrough`).
-/

namespace Countersign

open Routine

/-! ### The first candidate of a sort -/

/-- **The place of the first candidate of a sort.** The place is said, and not only the candidate,
since one candidate may stand at several places. -/
structure IsFirst (sort : Bytes → Prop) (values : List Bytes) (place : Nat) : Prop where
  here : ∃ value, values[place]? = some value ∧ sort value
  before : ∀ i < place, ∀ value, values[i]? = some value → ¬ sort value

namespace IsFirst

variable {sort : Bytes → Prop} {values : List Bytes} {place : Nat}

/-- The place is one of the list. -/
theorem lt_length (h : IsFirst sort values place) : place < values.length := by
  obtain ⟨value, hvalue, -⟩ := h.here
  exact (List.getElem?_eq_some_iff.mp hvalue).1

/-- Where there is a first candidate of a sort, there is one of it. -/
theorem exists_mem (h : IsFirst sort values place) : ∃ value ∈ values, sort value := by
  obtain ⟨value, hvalue, hsort⟩ := h.here
  exact ⟨value, List.mem_of_getElem? hvalue, hsort⟩

/-- What comes later does not matter for who is first. -/
theorem append (h : IsFirst sort values place) (later : List Bytes) :
    IsFirst sort (values ++ later) place where
  here := by
    rw [List.getElem?_append_left h.lt_length]
    exact h.here
  before i hi value hvalue := by
    rw [List.getElem?_append_left (Nat.lt_trans hi h.lt_length)] at hvalue
    exact h.before i hi value hvalue

/-- The last candidate is the first of its sort if no other is of it. -/
theorem last {value : Bytes} (hvalue : sort value) (hothers : ∀ v ∈ values, ¬ sort v) :
    IsFirst sort (values ++ [value]) values.length where
  here := ⟨value, List.getElem?_concat_length, hvalue⟩
  before i hi v hv := by
    rw [List.getElem?_append_left hi] at hv
    exact hothers v (List.mem_of_getElem? hv)

end IsFirst

/-! ### How a choice ends -/

/-- **How a choice ends**: with the place of an accepted candidate as `right` says, or without one
because none is accepted. The two record rules differ in `right` only. -/
inductive ChoiceOutcome (key : String) (values : List Bytes) (right : Nat → Prop) :
    Except ValidationError Nat → Prop where
  | chosen {place : Nat} (isRight : right place)
      (accepted : ∃ value, values[place]? = some value ∧ validate key value = .ok ()) :
      ChoiceOutcome key values right (.ok place)
  | noneValid (refused : ∀ value ∈ values, validate key value ≠ .ok ()) :
      ChoiceOutcome key values right (.error (.noValidCandidate key))

variable {key : String} {values : List Bytes}

/-- **Among confirms** the first accepted one is chosen. -/
theorem outcome_confirm (kind : AttestationKind)
    (hkey : Namespace.ofKey key = .ok (.ofKind kind)) (values : List Bytes) :
    ChoiceOutcome key values (IsFirst (validate key · = .ok ()) values)
      ((RecordRule.confirm kind).select key values) := by
  have haccepts : ∀ value, (RecordRule.confirm kind).accepts key value = true ↔
      validate key value = .ok () := by
    intro value
    rw [accepts_eq_isAccepted (ruleOfKey_of_ofKind kind hkey), isAccepted_iff]
  rw [RecordRule.select]
  cases hplace : values.findIdx? ((RecordRule.confirm kind).accepts key) with
  | none =>
    refine .noneValid fun value hmem hvalid => ?_
    have hrefused := List.findIdx?_eq_none_iff.mp hplace value hmem
    rw [(haccepts value).mpr hvalid] at hrefused
    cases hrefused
  | some place =>
    obtain ⟨hlt, haccepted, hbefore⟩ := List.findIdx?_eq_some_iff_getElem.mp hplace
    have hhere := (haccepts _).mp haccepted
    have hvalue := List.getElem?_eq_getElem hlt
    refine .chosen ⟨⟨_, hvalue, hhere⟩, fun i hi value hi' hvalid => ?_⟩ ⟨_, hvalue, hhere⟩
    obtain ⟨hlt', rfl⟩ := List.getElem?_eq_some_iff.mp hi'
    exact hbefore i hi ((haccepts _).mpr hvalid)

/-! ### The greatest nonce -/

/-- A candidate that is accepted as a latest valset of a nonce. What cannot be decoded as a valset
is of no nonce. -/
def IsValsetOf (key : String) (nonce : UInt64) (value : Bytes) : Prop :=
  validate key value = .ok () ∧ ∃ v, Valset.decode? value = some v ∧ v.nonce = nonce

namespace IsValsetOf

variable {value : Bytes} {m n : UInt64}

/-- A candidate is a valset of one nonce only. -/
theorem unique (h : IsValsetOf key m value) (h' : IsValsetOf key n value) : m = n := by
  obtain ⟨-, v, hdecode, rfl⟩ := h
  obtain ⟨-, v', hdecode', rfl⟩ := h'
  rw [Option.some.inj (hdecode.symm.trans hdecode')]

end IsValsetOf

/-- In terms of the check that the choice makes on each candidate. -/
theorem isValsetOf_iff (hkey : Namespace.ofKey key = .ok .latestValset) {nonce : UInt64}
    {value : Bytes} :
    IsValsetOf key nonce value ↔ ∃ v, decodeLatestValset key value = .ok v ∧ v.nonce = nonce := by
  rw [IsValsetOf, validate_eq_ok_iff_of_latestValset hkey]
  constructor
  · rintro ⟨⟨v, hv⟩, v', hdecode, rfl⟩
    obtain ⟨-, hdecode', -⟩ := decodeLatestValset_eq_ok_iff.mp hv
    obtain rfl := Option.some.inj (hdecode.symm.trans hdecode')
    exact ⟨_, hv, rfl⟩
  · rintro ⟨v, hv, rfl⟩
    exact ⟨⟨v, hv⟩, v, (decodeLatestValset_eq_ok_iff.mp hv).2.1, rfl⟩

/-- **The first of the latest valsets of greatest nonce.** Both conditions together determine the
place. -/
structure Leads (key : String) (values : List Bytes) (place : Nat) (nonce : UInt64) : Prop where
  first : IsFirst (IsValsetOf key nonce) values place
  greatest : ∀ value ∈ values, ∀ n, IsValsetOf key n value → n ≤ nonce

namespace Leads

variable {place : Nat} {nonce : UInt64} {value : Bytes}

/-- Who leads stays in front of a candidate that is no greater. An equal nonce does not take the
lead, so the first one of greatest nonce keeps it. -/
theorem keep (h : Leads key values place nonce) (hle : ∀ n, IsValsetOf key n value → n ≤ nonce) :
    Leads key (values ++ [value]) place nonce where
  first := h.first.append [value]
  greatest := List.forall_mem_append.mpr ⟨h.greatest, List.forall_mem_singleton.mpr hle⟩

/-- A candidate takes the lead if it is greater than all before. -/
theorem overtake (hvalue : IsValsetOf key nonce value)
    (hlt : ∀ v ∈ values, ∀ n, IsValsetOf key n v → n < nonce) :
    Leads key (values ++ [value]) values.length nonce where
  first := .last hvalue fun v hv h => UInt64.lt_irrefl _ (hlt v hv nonce h)
  greatest := by
    refine List.forall_mem_append.mpr ⟨fun v hv n hn => UInt64.le_of_lt (hlt v hv n hn), ?_⟩
    exact List.forall_mem_singleton.mpr fun n hn => UInt64.le_of_eq (hn.unique hvalue)

end Leads

/-- The best candidate so far, as `RecordRule.greatestNonce` carries it along: the one that leads,
or none if there is no latest valset. -/
def Best (key : String) (values : List Bytes) : Option (Nat × UInt64) → Prop
  | none => ∀ value ∈ values, ∀ n, ¬ IsValsetOf key n value
  | some (place, nonce) => Leads key values place nonce

/-- A candidate that is no latest valset leaves the best one. -/
theorem Best.skip {best : Option (Nat × UInt64)} {value : Bytes} (h : Best key values best)
    (hvalue : ∀ n, ¬ IsValsetOf key n value) : Best key (values ++ [value]) best := by
  match best, h with
  | none, h => exact List.forall_mem_append.mpr ⟨h, List.forall_mem_singleton.mpr hvalue⟩
  | some (place, nonce), h => exact h.keep fun n hn => absurd hn (hvalue n)

/-- **Going on through the candidates**, the best one of those before in hand, finds the best one of
all. The induction is on the candidates that are left. -/
theorem best_greatestNonce (hkey : Namespace.ofKey key = .ok .latestValset)
    (before rest : List Bytes) {best : Option (Nat × UInt64)}
    (h : Best key before best) :
    Best key (before ++ rest) (RecordRule.greatestNonce key before.length best rest) := by
  -- Each candidate joins those before it, together with which it has a best one.
  induction rest generalizing before best with
  | nil =>
    rw [List.append_nil]
    exact h
  | cons value rest ih =>
    have hlength : before.length + 1 = (before ++ [value]).length := by simp
    rw [RecordRule.greatestNonce, List.append_cons, hlength]
    split
    · -- A candidate that is refused leaves the best one.
      next e hdecode =>
      refine ih _ (h.skip fun n hn => ?_)
      obtain ⟨v, hv, -⟩ := (isValsetOf_iff hkey).mp hn
      rw [hdecode] at hv
      cases hv
    next v hdecode =>
    have hvalue : IsValsetOf key v.nonce value := (isValsetOf_iff hkey).mpr ⟨v, hdecode, rfl⟩
    split
    · -- There was a best one before, and the candidate is compared with it.
      next place nonce =>
      have hleads : Leads key before place nonce := h
      refine ih _ ?_
      split
      · next hle =>
        exact hleads.keep fun n hn => hn.unique hvalue ▸ hle
      · next hnle =>
        have hlt := UInt64.not_le.mp hnle
        exact Leads.overtake hvalue fun w hw n hn =>
          UInt64.lt_of_le_of_lt (hleads.greatest w hw n hn) hlt
    · -- Nothing was accepted before.
      exact ih _ (Leads.overtake hvalue fun w hw n hn => absurd hn (h w hw n))

/-- **Among latest valsets** the one that leads is chosen. -/
theorem outcome_latestValset (hkey : Namespace.ofKey key = .ok .latestValset)
    (values : List Bytes) :
    ChoiceOutcome key values (fun place => ∃ nonce, Leads key values place nonce)
      (RecordRule.latestValset.select key values) := by
  have hbest : Best key values (RecordRule.greatestNonce key 0 none values) :=
    best_greatestNonce hkey [] values fun _ hv => absurd hv List.not_mem_nil
  rw [RecordRule.select]
  split
  · next place nonce hgreatest =>
    rw [hgreatest] at hbest
    have hleads : Leads key values place nonce := hbest
    obtain ⟨value, hvalue, hvalid, -⟩ := hleads.first.here
    exact .chosen ⟨nonce, hleads⟩ ⟨value, hvalue, hvalid⟩
  · next hgreatest =>
    rw [hgreatest] at hbest
    refine .noneValid fun value hmem hvalid => ?_
    obtain ⟨v, hdecode⟩ := (validate_eq_ok_iff_of_latestValset hkey).mp hvalid
    exact hbest value hmem v.nonce ((isValsetOf_iff hkey).mpr ⟨v, hdecode, rfl⟩)

/-! ### The chosen nonce -/

/-- The nonce of the chosen candidate, if one is chosen and it is a valset. -/
def chosenNonce? (key : String) (values : List Bytes) : Option UInt64 :=
  match select key values with
  | .ok place => (Valset.decode? (values.getD place [])).map (·.nonce)
  | .error _ => none

/-- The choice is that of the namespace's rule, since the namespace of the key is known. -/
theorem select_of_ofKey {space : Namespace} (h : Namespace.ofKey key = .ok space)
    (values : List Bytes) :
    select key values = (RecordRule.ofNamespace space).select key values := by
  rw [select, ruleOfKey, h]

/-- **The chosen nonce is the greatest one**, wherever and however often it stands. The right side
says nothing of places, which is why order and repetition do not matter. -/
theorem chosenNonce?_eq_some_iff (hkey : Namespace.ofKey key = .ok .latestValset)
    {nonce : UInt64} :
    chosenNonce? key values = some nonce ↔
      (∃ value ∈ values, IsValsetOf key nonce value) ∧
        ∀ value ∈ values, ∀ n, IsValsetOf key n value → n ≤ nonce := by
  have houtcome := outcome_latestValset hkey values
  rw [chosenNonce?, select_of_ofKey hkey, RecordRule.ofNamespace]
  generalize RecordRule.latestValset.select key values = choice at houtcome
  cases houtcome with
  -- One is chosen, and its nonce is the greatest. Two greatest nonces are the same.
  | @chosen place hleads =>
    obtain ⟨greatest, hfirst, hgreatest⟩ := hleads
    obtain ⟨value, hvalue, hof⟩ := hfirst.here
    obtain ⟨-, v, hdecode, hnonce⟩ := id hof
    have hnonce? : (Valset.decode? (values.getD place [])).map (·.nonce) = some greatest := by
      rw [List.getD_eq_getElem?_getD, hvalue, Option.getD_some, hdecode, Option.map_some, hnonce]
    show (Valset.decode? (values.getD place [])).map (·.nonce) = some nonce ↔ _
    rw [hnonce?, Option.some.injEq]
    constructor
    · rintro rfl
      exact ⟨hfirst.exists_mem, hgreatest⟩
    · rintro ⟨⟨value', hmem', hof'⟩, hgreatest'⟩
      exact UInt64.le_antisymm (hgreatest' value (List.mem_of_getElem? hvalue) _ hof)
        (hgreatest value' hmem' _ hof')
  -- None is chosen, since none is accepted.
  | noneValid hrefused =>
    constructor
    · rintro ⟨⟩
    · rintro ⟨⟨value, hmem, hvalid, -⟩, -⟩
      exact absurd hvalid (hrefused value hmem)

/-- The same candidates in another order, or with some of them repeated, have the same chosen
nonce. -/
theorem chosenNonce?_congr (hkey : Namespace.ofKey key = .ok .latestValset)
    {values' : List Bytes} (h : ∀ value, value ∈ values' ↔ value ∈ values) :
    chosenNonce? key values' = chosenNonce? key values := by
  refine Option.ext fun nonce => ?_
  rw [chosenNonce?_eq_some_iff hkey, chosenNonce?_eq_some_iff hkey]
  simp only [h]

/-! ### All choices -/

/-- **What the choice among candidates comes to** for a key of a namespace. -/
structure Selects (key : String) (space : Namespace) (values : List Bytes) : Prop where
  /-- One is chosen exactly if one is accepted. -/
  chosen_iff : (∃ place, select key values = .ok place) ↔
    ∃ value ∈ values, validate key value = .ok ()
  /-- The place is that of an accepted candidate. -/
  accepted : ∀ place, select key values = .ok place →
    ∃ value, values[place]? = some value ∧ validate key value = .ok ()
  /-- Otherwise it is said that there is none. -/
  noneValid : ∀ e, select key values = .error e → e = .noValidCandidate key
  /-- Among confirms the first accepted one is chosen. -/
  firstConfirm : space.isConfirm = true → ∀ place, select key values = .ok place →
    IsFirst (validate key · = .ok ()) values place
  /-- Among latest valsets the first one of greatest nonce is chosen. -/
  greatestValset : space = .latestValset → ∀ place, select key values = .ok place →
    ∃ nonce, chosenNonce? key values = some nonce ∧ Leads key values place nonce
  /-- This nonce depends only on which candidates there are. -/
  sameNonce : space = .latestValset → ∀ values' : List Bytes,
    (∀ value, value ∈ values' ↔ value ∈ values) →
      chosenNonce? key values' = chosenNonce? key values

namespace ChoiceOutcome

variable {right : Nat → Prop} {choice : Except ValidationError Nat} {place : Nat}

/-- A choice that succeeds is right. -/
theorem isRight_of_ok (h : ChoiceOutcome key values right (.ok place)) : right place := by
  cases h with
  | chosen isRight _ => exact isRight

/-- What a choice names is an accepted candidate. -/
theorem exists_of_ok (h : ChoiceOutcome key values right (.ok place)) :
    ∃ value, values[place]? = some value ∧ validate key value = .ok () := by
  cases h with
  | chosen _ accepted => exact accepted

/-- A choice fails for one reason only, which is that there is nothing to choose. -/
theorem eq_of_error {e : ValidationError} (h : ChoiceOutcome key values right (.error e)) :
    e = .noValidCandidate key := by
  cases h with
  | noneValid _ => rfl

/-- A choice succeeds exactly if something is accepted. -/
theorem exists_ok_iff (h : ChoiceOutcome key values right choice) :
    (∃ place, choice = .ok place) ↔ ∃ value ∈ values, validate key value = .ok () := by
  cases h with
  | chosen _ accepted =>
    obtain ⟨value, hvalue, hvalid⟩ := accepted
    exact iff_of_true ⟨_, rfl⟩ ⟨value, List.mem_of_getElem? hvalue, hvalid⟩
  | noneValid refused =>
    refine iff_of_false ?_ ?_
    · rintro ⟨place, ⟨⟩⟩
    · rintro ⟨value, hmem, hvalid⟩
      exact refused value hmem hvalid

end ChoiceOutcome

/-- The choice among candidates, for each of the three namespaces. -/
theorem selects {space : Namespace} (h : Namespace.ofKey key = .ok space) (values : List Bytes) :
    Selects key space values := by
  -- What is right depends on the namespace; the rest follows from how a choice ends.
  have houtcome : ∃ right, ChoiceOutcome key values right (select key values) ∧
      (space.isConfirm = true → ∀ place, right place →
        IsFirst (validate key · = .ok ()) values place) ∧
      (space = .latestValset → ∀ place, right place → ∃ nonce, Leads key values place nonce) := by
    rw [select_of_ofKey h]
    cases space with
    | valsetConfirm =>
      exact ⟨_, outcome_confirm .valset h values, fun _ _ hright => hright, nofun⟩
    | commitmentConfirm =>
      exact ⟨_, outcome_confirm .dataCommitment h values, fun _ _ hright => hright, nofun⟩
    | latestValset =>
      exact ⟨_, outcome_latestValset h values, nofun, fun _ _ hright => hright⟩
  obtain ⟨right, houtcome, hconfirm, hvalset⟩ := houtcome
  -- Each part is read off the outcome at the place that was chosen.
  exact {
    chosen_iff := houtcome.exists_ok_iff
    accepted := fun place hplace => (hplace ▸ houtcome).exists_of_ok
    noneValid := fun e he => (he ▸ houtcome).eq_of_error
    firstConfirm := fun hspace place hplace =>
      hconfirm hspace place (hplace ▸ houtcome).isRight_of_ok
    greatestValset := by
      rintro rfl place hplace
      obtain ⟨nonce, hleads⟩ := hvalset rfl place (hplace ▸ houtcome).isRight_of_ok
      exact ⟨nonce, (chosenNonce?_eq_some_iff h).mpr ⟨hleads.first.exists_mem, hleads.greatest⟩,
        hleads⟩
    sameNonce := by
      rintro rfl values' hsame
      exact chosenNonce?_congr h hsame }

/-! ### What a read finds -/

/-- **What is found among the candidates for a key**: something exactly if one of them is accepted,
and then what is read from the candidate at the place that is right for it. -/
structure Finds {α : Type} (key : String) (values : List Bytes) (decode? : Bytes → Option α)
    (right : α → Nat → Prop) (found : Option α) : Prop where
  isSome_iff : found.isSome = true ↔ ∃ value ∈ values, validate key value = .ok ()
  read : ∀ a, found = some a →
    ∃ place value, right a place ∧ values[place]? = some value ∧ decode? value = some a

namespace Finds

variable {α : Type} {decode? : Bytes → Option α} {right : α → Nat → Prop}

theorem some {place : Nat} {value : Bytes} {a : α} (hvalue : values[place]? = some value)
    (hvalid : validate key value = .ok ()) (hright : right a place)
    (hread : decode? value = some a) : Finds key values decode? right (some a) where
  isSome_iff := iff_of_true rfl ⟨value, List.mem_of_getElem? hvalue, hvalid⟩
  read := by
    rintro a' ⟨⟩
    exact ⟨place, value, hright, hvalue, hread⟩

theorem none (hrefused : ∀ value ∈ values, validate key value ≠ .ok ()) :
    Finds key values decode? right none where
  isSome_iff := by
    refine iff_of_false Bool.false_ne_true ?_
    rintro ⟨value, hmem, hvalid⟩
    exact hrefused value hmem hvalid
  read := nofun

end Finds

namespace Store

variable {kind : AttestationKind} {nonce : UInt64} {signer : Address} {config : StoreConfig}

/-- What is found for a signer among candidates: the first accepted one, and it names him. So nobody
else's confirm is taken for his. -/
def FindsConfirm (kind : AttestationKind) (nonce : UInt64) (signer : Address)
    (values : List Bytes) : Option Confirm → Prop :=
  Finds (confirmKey kind nonce signer) values (Confirm.decode? kind) fun c place =>
    c.signer = signer ∧
      IsFirst (validate (confirmKey kind nonce signer) · = .ok ()) values place

/-- What is found as the latest valset: the first one of greatest nonce. -/
def FindsValset (values : List Bytes) : Option Valset → Prop :=
  Finds latestValsetKey values Valset.decode? fun v place =>
    Leads latestValsetKey values place v.nonce

/-- **What is chosen for a signer** is read as the confirm that it was accepted as. So the second
reading of the candidate never fails. -/
theorem exists_chosenConfirm (kind : AttestationKind) (nonce : UInt64) (signer : Address)
    (values : List Bytes) :
    ∃ found, chosenConfirm kind (confirmKey kind nonce signer) values = .ok found ∧
      FindsConfirm kind nonce signer values found := by
  have hspace : Namespace.ofKey (confirmKey kind nonce signer) = .ok (.ofKind kind) :=
    Namespace.ofKey_render _
  have houtcome := outcome_confirm kind hspace values
  rw [chosenConfirm]
  generalize (RecordRule.confirm kind).select (confirmKey kind nonce signer) values = choice
    at houtcome
  cases houtcome with
  | @chosen place hfirst haccepted =>
    obtain ⟨value, hvalue, hvalid⟩ := haccepted
    obtain ⟨k, c, hdecode⟩ := (validate_eq_ok_iff_of_ofKind kind hspace).mp hvalid
    obtain ⟨hread, hsigner, -⟩ := decodeConfirm_eq_ok hdecode
    refine ⟨some c, ?_, .some hvalue hvalid ⟨hsigner, hfirst⟩ hread⟩
    simp only [List.getD_eq_getElem?_getD, hvalue, Option.getD_some, hdecode]
  | noneValid hrefused => exact ⟨none, rfl, .none hrefused⟩

/-- What is chosen as the latest valset is read as the one that it was accepted as. -/
theorem exists_chosenValset (values : List Bytes) :
    ∃ found, chosenValset values = .ok found ∧ FindsValset values found := by
  have hspace : Namespace.ofKey latestValsetKey = .ok .latestValset := rfl
  have houtcome := outcome_latestValset hspace values
  rw [chosenValset, select_of_ofKey hspace, RecordRule.ofNamespace]
  generalize RecordRule.latestValset.select latestValsetKey values = choice at houtcome
  cases houtcome with
  | @chosen place hleads haccepted =>
    obtain ⟨nonce, hleads⟩ := hleads
    obtain ⟨value, hvalue, hvalid, v, hdecode, rfl⟩ := hleads.first.here
    refine ⟨some v, ?_, .some hvalue hvalid hleads hdecode⟩
    simp only [List.getD_eq_getElem?_getD, hvalue, Option.getD_some, hdecode]
  | noneValid hrefused => exact ⟨none, rfl, .none hrefused⟩

/-- **Reads come through**, whatever the replicas answer. -/
structure ReadsThrough (config : StoreConfig) (kind : AttestationKind) (nonce : UInt64)
    (signer : Address) : Prop where
  /-- A query for a confirm fails only as the overlay does. -/
  queryFails : ∀ t e, Follows (queryOne config kind nonce signer) t (.error e) →
    ∃ error, e = .overlay error ∧
      t = [⟨.get (confirmKey kind nonce signer) config.requestTimeout, .error error⟩]
  /-- Candidates bring one answer: the signer's confirm exactly if one of them is accepted. -/
  queryFinds : ∀ values, ∃ found, FindsConfirm kind nonce signer values found ∧
    ∀ result, Follows (queryOne config kind nonce signer)
        [⟨.get (confirmKey kind nonce signer) config.requestTimeout, .ok values⟩] result ↔
      result = .ok found
  /-- A read of the latest valset fails only as the overlay does. -/
  latestFails : ∀ t e, Follows (latestValset config) t (.error e) →
    ∃ error, e = .overlay error ∧
      t = [⟨.get latestValsetKey config.requestTimeout, .error error⟩]
  /-- Candidates bring one answer: the newest valset, exactly if one of them is accepted. -/
  latestFinds : ∀ values, ∃ found, FindsValset values found ∧
    ∀ result, Follows (latestValset config)
        [⟨.get latestValsetKey config.requestTimeout, .ok values⟩] result ↔
      result = .ok found

/-- A read fails only as the overlay does, if every choice succeeds. -/
theorem overlay_of_bind_eq_error {α : Type} {answer : Except OverlayError (List Bytes)}
    {choose : List Bytes → Except StoreError α} {e : StoreError}
    (hchooses : ∀ values, ∃ found, choose values = .ok found)
    (h : .error e = (answer.mapError .overlay).bind choose) :
    ∃ error, e = .overlay error ∧ answer = .error error := by
  cases answer with
  | error error =>
    obtain rfl := Except.error.inj h
    exact ⟨error, rfl, rfl⟩
  | ok values =>
    obtain ⟨found, hfound⟩ := hchooses values
    have h : .error e = choose values := h
    rw [hfound] at h
    cases h

/-- Both reads are one exchange with the overlay and a choice that succeeds. -/
theorem readsThrough (config : StoreConfig) (kind : AttestationKind) (nonce : UInt64)
    (signer : Address) : ReadsThrough config kind nonce signer where
  queryFails t e h := by
    obtain ⟨answer, rfl, hresult⟩ := queryOne_follows_iff.mp h
    obtain ⟨error, rfl, rfl⟩ := overlay_of_bind_eq_error
      (fun values => (exists_chosenConfirm kind nonce signer values).imp fun _ h => h.1) hresult
    exact ⟨error, rfl, rfl⟩
  queryFinds values := by
    obtain ⟨found, hchosen, hfound⟩ := exists_chosenConfirm kind nonce signer values
    refine ⟨found, hfound, fun result => ?_⟩
    rw [queryOne_follows_ok_iff, hchosen]
  latestFails t e h := by
    obtain ⟨answer, rfl, hresult⟩ := latestValset_follows_iff.mp h
    obtain ⟨error, rfl, rfl⟩ := overlay_of_bind_eq_error
      (fun values => (exists_chosenValset values).imp fun _ h => h.1) hresult
    exact ⟨error, rfl, rfl⟩
  latestFinds values := by
    obtain ⟨found, hchosen, hfound⟩ := exists_chosenValset values
    refine ⟨found, hfound, fun result => ?_⟩
    rw [latestValset_follows_ok_iff, hchosen]

/-- A confirm that is found was read from an accepted candidate. -/
theorem queryOne_follows_some {t : List Exchange} {confirm : Confirm}
    (h : Follows (queryOne config kind nonce signer) t (.ok (some confirm))) :
    ∃ values value,
      t = [⟨.get (confirmKey kind nonce signer) config.requestTimeout, .ok values⟩] ∧
      value ∈ values ∧ isAccepted (confirmKey kind nonce signer) value = true := by
  obtain ⟨answer, rfl, hresult⟩ := queryOne_follows_iff.mp h
  cases answer with
  | error e => cases hresult
  | ok values =>
    obtain ⟨found, hchosen, hfound⟩ := exists_chosenConfirm kind nonce signer values
    obtain rfl : some confirm = found := Except.ok.inj (hresult.trans hchosen)
    obtain ⟨value, hmem, hvalid⟩ := hfound.isSome_iff.mp rfl
    exact ⟨values, value, rfl, hmem, isAccepted_iff.mpr hvalid⟩

/-- A confirm is found if the only candidate is accepted. -/
theorem exists_queryOne_follows (config : StoreConfig) {value : Bytes}
    (h : isAccepted (confirmKey kind nonce signer) value = true) :
    ∃ confirm, Follows (queryOne config kind nonce signer)
      [⟨.get (confirmKey kind nonce signer) config.requestTimeout, .ok [value]⟩]
      (.ok (some confirm)) := by
  obtain ⟨found, hchosen, hfound⟩ := exists_chosenConfirm kind nonce signer [value]
  have hsome := hfound.isSome_iff.mpr ⟨value, List.mem_singleton_self value, isAccepted_iff.mp h⟩
  obtain ⟨confirm, rfl⟩ := Option.isSome_iff_exists.mp hsome
  exact ⟨confirm, queryOne_follows_ok_iff.mpr hchosen.symm⟩

/-- A latest valset that is found was read from a candidate. -/
theorem latestValset_follows_some {t : List Exchange} {v : Valset}
    (h : Follows (latestValset config) t (.ok (some v))) :
    ∃ values, t = [⟨.get latestValsetKey config.requestTimeout, .ok values⟩] ∧
      ∃ value ∈ values, Valset.decode? value = some v := by
  obtain ⟨answer, rfl, hresult⟩ := latestValset_follows_iff.mp h
  cases answer with
  | error e => cases hresult
  | ok values =>
    obtain ⟨found, hchosen, hfound⟩ := exists_chosenValset values
    obtain rfl : some v = found := Except.ok.inj (hresult.trans hchosen)
    obtain ⟨place, value, -, hvalue, hdecode⟩ := hfound.read v rfl
    exact ⟨values, rfl, value, List.mem_of_getElem? hvalue, hdecode⟩

/-- **A latest valset that is the only candidate** is found, unless it stands for none. -/
theorem latestValset_follows_sole (config : StoreConfig) {value : Bytes} {v : Valset}
    (hdecode : Valset.decode? value = some v) (hempty : v.isEmpty = false) :
    Follows (latestValset config)
      [⟨.get latestValsetKey config.requestTimeout, .ok [value]⟩] (.ok (some v)) := by
  have hvalid : validate latestValsetKey value = .ok () :=
    (validate_eq_ok_iff_of_latestValset rfl).mpr
      ⟨v, decodeLatestValset_eq_ok_iff.mpr ⟨rfl, hdecode, hempty⟩⟩
  obtain ⟨found, hchosen, hfound⟩ := exists_chosenValset [value]
  have hsome := hfound.isSome_iff.mpr ⟨value, List.mem_singleton_self value, hvalid⟩
  obtain ⟨v', rfl⟩ := Option.isSome_iff_exists.mp hsome
  -- What is found is read from the one candidate.
  obtain ⟨place, value', -, hvalue', hdecode'⟩ := hfound.read v' rfl
  obtain rfl := List.mem_singleton.mp (List.mem_of_getElem? hvalue')
  obtain rfl := Option.some.inj (hdecode.symm.trans hdecode')
  exact latestValset_follows_ok_iff.mpr hchosen.symm

end Store

/-- **Choices agree with what is accepted**, and so reads come through. -/
theorem selects_and_readsThrough {space : Namespace} (h : Namespace.ofKey key = .ok space)
    (values : List Bytes) (config : StoreConfig) (kind : AttestationKind) (nonce : UInt64)
    (signer : Address) :
    Selects key space values ∧ Store.ReadsThrough config kind nonce signer :=
  ⟨selects h values, Store.readsThrough config kind nonce signer⟩

/-- The record of a valset with one member, the address of nobody. Latest valsets carry no
signature, so it is accepted. -/
def soleRecord (nonce : UInt64) : Bytes :=
  Bytes.ofText (((⟨nonce, [⟨1, .zero⟩], 0, .epoch⟩ : Valset).encode?).getD "")

/-- **Among records of the nonces 2, 5, 5 and 3**, with something else between them, the first one
of 5 is chosen. The record that is no valset stands in nobody's way. -/
theorem selects_and_readsThrough_of_five :
    let values := [soleRecord 2, Bytes.ofText "lost", soleRecord 5, soleRecord 5, soleRecord 3]
    Namespace.ofKey latestValsetKey = .ok .latestValset ∧
      select latestValsetKey values = .ok 2 ∧ chosenNonce? latestValsetKey values = some 5 ∧
        Leads latestValsetKey values 2 5 ∧
          Selects latestValsetKey .latestValset values ∧
            Store.ReadsThrough .standard .valset 2 .zero := by
  intro values
  have hspace : Namespace.ofKey latestValsetKey = .ok .latestValset := rfl
  obtain ⟨hselects, hreads⟩ :=
    selects_and_readsThrough hspace values .standard .valset 2 .zero
  have hselect : select latestValsetKey values = .ok 2 := by decide +kernel
  have hnonce : chosenNonce? latestValsetKey values = some 5 := by decide +kernel
  obtain ⟨nonce, hchosen, hleads⟩ := hselects.greatestValset rfl 2 hselect
  obtain rfl : nonce = 5 := Option.some.inj (hchosen.symm.trans hnonce)
  exact ⟨hspace, hselect, hnonce, hleads, hselects, hreads⟩

end Countersign
