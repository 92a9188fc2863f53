import Countersign.Proofs.Store.Replicas

/-!
# The rules of writing

What holds of a replica that was empty and was then written to, by anybody, with any keys and any
bytes (`Replica.writeRules_after`):

* it holds accepted records only;
* a confirm that it holds stays as it is;
* its latest valset is the first one of the greatest nonce that was written (`Replica.IsLatest`);
* a write concerns the record under its own key alone;
* a write fails if the record is not accepted, or would take the place of another confirm, and for
  no other reason.

The latest valset is followed through the writes one by one (`Replica.HoldsLatest`); the other rules
are those of a single write, or were shown for any number of them.
-/

namespace Countersign.Replica

variable {replica : Replica} {writes later : List (String × Bytes)} {key : String} {value : Bytes}

/-! ### The latest valset -/

/-- The latest valsets that were written, as far as they are accepted, in order. All other writes
are left out. -/
def valsetsIn (writes : List (String × Bytes)) : List Valset :=
  writes.filterMap fun w =>
    match decodeLatestValset w.1 w.2 with
    | .ok v => some v
    | .error _ => none

theorem valsetsIn_append (writes later : List (String × Bytes)) :
    valsetsIn (writes ++ later) = valsetsIn writes ++ valsetsIn later :=
  List.filterMap_append

theorem valsetsIn_singleton_of_ok {v : Valset} (h : decodeLatestValset key value = .ok v) :
    valsetsIn [(key, value)] = [v] := by
  simp [valsetsIn, h]

theorem valsetsIn_singleton_of_error {e : ValidationError}
    (h : decodeLatestValset key value = .error e) : valsetsIn [(key, value)] = [] := by
  simp [valsetsIn, h]

/-- The first one of the greatest nonce among the latest valsets that were written, with its bytes.
Of two with the same nonce the earlier stays, so the order of the writes is part of this. -/
def IsLatest (writes : List (String × Bytes)) (value : Bytes) (v : Valset) : Prop :=
  decodeLatestValset latestValsetKey value = .ok v ∧
    ∃ earlier later, writes = earlier ++ (latestValsetKey, value) :: later ∧
      (∀ w ∈ valsetsIn earlier, w.nonce < v.nonce) ∧ ∀ w ∈ valsetsIn later, w.nonce ≤ v.nonce

namespace IsLatest

variable {v w : Valset}

/-- It was written, so a replica makes nothing up. -/
theorem mem (h : IsLatest writes value v) : v ∈ valsetsIn writes := by
  obtain ⟨hdecode, earlier, later, rfl, -⟩ := h
  rw [← List.singleton_append, valsetsIn_append, valsetsIn_append,
    valsetsIn_singleton_of_ok hdecode]
  exact List.mem_append_right _ (List.mem_append_left _ List.mem_cons_self)

/-- Nothing newer was written. -/
theorem le (h : IsLatest writes value v) (hw : w ∈ valsetsIn writes) : w.nonce ≤ v.nonce := by
  obtain ⟨hdecode, earlier, later, rfl, hearlier, hlater⟩ := h
  rw [← List.singleton_append, valsetsIn_append, valsetsIn_append,
    valsetsIn_singleton_of_ok hdecode] at hw
  rcases List.mem_append.mp hw with hw | hw
  · exact UInt64.le_of_lt (hearlier w hw)
  rcases List.mem_append.mp hw with hw | hw
  · rw [List.mem_singleton.mp hw]
    exact UInt64.le_refl _
  · exact hlater w hw

/-- It stays so as long as nothing newer is written. What is equally new is not newer. -/
theorem append (h : IsLatest writes value v) (hlater : ∀ w ∈ valsetsIn later, w.nonce ≤ v.nonce) :
    IsLatest (writes ++ later) value v := by
  obtain ⟨hdecode, earlier, between, rfl, hearlier, hbetween⟩ := h
  refine ⟨hdecode, earlier, between ++ later, by simp, hearlier, fun w hw => ?_⟩
  rw [valsetsIn_append] at hw
  exact (List.mem_append.mp hw).elim (hbetween w) (hlater w)

/-- What is newer than all before takes its place, and it is the first of its nonce then. -/
theorem concat (hdecode : decodeLatestValset latestValsetKey value = .ok v)
    (hnewer : ∀ w ∈ valsetsIn writes, w.nonce < v.nonce) :
    IsLatest (writes ++ [(latestValsetKey, value)]) value v := by
  refine ⟨hdecode, writes, [], rfl, hnewer, ?_⟩
  rintro w ⟨⟩

end IsLatest

/-- What a replica holds of the latest valsets that were written: nothing if there are none, and the
latest of them otherwise. This is the invariant of the writes. -/
def HoldsLatest (replica : Replica) (writes : List (String × Bytes)) : Prop :=
  (replica.get? latestValsetKey = none ∧ valsetsIn writes = []) ∨
    ∃ held v, replica.get? latestValsetKey = some held ∧ IsLatest writes held v

/-- **One more write** keeps it. The cases are whether the write is a latest valset, and then
whether there is one already, and which of the two is newer. -/
theorem HoldsLatest.putOne (h : replica.HoldsLatest writes) (key : String) (value : Bytes) :
    (Overlay.putOne key value replica).1.HoldsLatest (writes ++ [(key, value)]) := by
  unfold HoldsLatest
  cases hdecode : decodeLatestValset key value with
  | error e =>
    -- It is no latest valset, and the record under their key stays.
    have hsame : (Overlay.putOne key value replica).1.get? latestValsetKey =
        replica.get? latestValsetKey := by
      by_cases hkey : latestValsetKey = key
      · subst hkey
        have hinvalid : ¬ isAccepted latestValsetKey value = true := by
          intro haccepted
          rcases isConfirmKey_or_decode haccepted with hconfirm | ⟨-, v, hv⟩
          · exact not_isConfirmKey_latestValsetKey hconfirm
          · rw [hdecode] at hv
            cases hv
        rcases putOne_cases latestValsetKey value replica with hsame | ⟨haccepted, -⟩
        · rw [hsame]
        · exact absurd haccepted hinvalid
      · exact get?_putOne_of_ne hkey value replica
    -- So no valset was added to the writes, and what was held is still the newest.
    have hnone := valsetsIn_singleton_of_error hdecode
    rw [hsame, valsetsIn_append, hnone, List.append_nil]
    rcases h with hnothing | ⟨held, v, hheld, hlatest⟩
    · exact Or.inl hnothing
    · refine Or.inr ⟨held, v, hheld, hlatest.append fun w hw => ?_⟩
      rw [hnone] at hw
      cases hw
  | ok w =>
    obtain rfl := eq_latestValsetKey_of_decode hdecode
    have hvalsets := valsetsIn_singleton_of_ok hdecode
    -- It is one, so a valset is held afterwards in any case.
    right
    rcases h with ⟨hfree, hnothing⟩ | ⟨held, v, hheld, hlatest⟩
    · -- It is the first one.
      refine ⟨value, w, ?_, .concat hdecode fun other hother => ?_⟩
      · rw [get?_putOne_of_none hfree, if_pos (isAccepted_of_decode hdecode)]
      · rw [hnothing] at hother
        cases hother
    · -- The newer one of the two is held afterwards.
      rw [get?_putOne_of_valset hheld hlatest.1 hdecode]
      by_cases hle : w.nonce ≤ v.nonce
      · refine ⟨held, v, by rw [if_pos hle], hlatest.append fun other hother => ?_⟩
        rw [hvalsets] at hother
        rw [List.mem_singleton.mp hother]
        exact hle
      · refine ⟨value, w, by rw [if_neg hle], .concat hdecode fun other hother => ?_⟩
        exact UInt64.lt_of_le_of_lt (hlatest.le hother) (UInt64.not_le.mp hle)

/-- Any number of writes more. The induction is on these; those before them grow meanwhile. -/
theorem HoldsLatest.after (h : replica.HoldsLatest writes) (later : List (String × Bytes)) :
    (replica.after later).HoldsLatest (writes ++ later) := by
  induction later generalizing replica writes with
  | nil =>
    rw [List.append_nil]
    exact h
  | cons w later ih =>
    rw [← List.singleton_append, ← List.append_assoc]
    exact ih (h.putOne w.1 w.2)

theorem holdsLatest_after (writes : List (String × Bytes)) :
    (empty.after writes).HoldsLatest writes := by
  have hempty : empty.HoldsLatest [] := Or.inl ⟨rfl, rfl⟩
  exact hempty.after writes

/-- What a replica holds as its latest valset was written as one. -/
theorem mem_valsetsIn_of_held {v : Valset}
    (hheld : (empty.after writes).get? latestValsetKey = some value)
    (hdecode : decodeLatestValset latestValsetKey value = .ok v) : v ∈ valsetsIn writes := by
  rcases holdsLatest_after writes with ⟨hfree, -⟩ | ⟨held, v', hheld', hlatest⟩
  · rw [hheld] at hfree
    cases hfree
  · rw [hheld] at hheld'
    obtain rfl := Option.some.inj hheld'
    have hsame := hlatest.1
    rw [hdecode] at hsame
    obtain rfl := Except.ok.inj hsame
    exact hlatest.mem

/-- Once a latest valset was written there always is one, and none that is older. So the nonce that
can be read does not go back. -/
theorem exists_held_of_written {v : Valset} (h : v ∈ valsetsIn writes)
    (later : List (String × Bytes)) :
    ∃ value' v', (empty.after (writes ++ later)).get? latestValsetKey = some value' ∧
      decodeLatestValset latestValsetKey value' = .ok v' ∧ v.nonce ≤ v'.nonce := by
  have hmem : v ∈ valsetsIn (writes ++ later) := by
    rw [valsetsIn_append]
    exact List.mem_append_left _ h
  rcases holdsLatest_after (writes ++ later) with ⟨-, hnothing⟩ | ⟨held, v', hheld, hlatest⟩
  · rw [hnothing] at hmem
    cases hmem
  · exact ⟨held, v', hheld, hlatest.1, hlatest.le hmem⟩

/-! ### Writes that fail -/

/-- **When a write fails, and how.** Of the six ways in which a write ends two are failures, and
these are told apart by whether the record is accepted. -/
theorem put_eq_error_iff (h : replica.Sound) {e : ValidationError} :
    replica.put key value = .error e ↔ validate key value = .error e ∨
      (validate key value = .ok () ∧ IsConfirmKey key ∧
        (∃ other, replica.get? key = some other ∧ other ≠ value) ∧ e = .conflict key) := by
  have hwritten := put_written (h key) value
  constructor
  · -- A failed write was refused, or it was a conflict.
    intro hput
    rw [hput] at hwritten
    cases hwritten with
    | refused invalid => exact Or.inl invalid
    | conflict accepted confirm held differs =>
      exact Or.inr ⟨isAccepted_iff.mp accepted, confirm, ⟨_, held, differs⟩, rfl⟩
  · rintro (hinvalid | ⟨hvalid, hconfirm, ⟨other, hheld, hdiffers⟩, rfl⟩)
    · rw [put, hinvalid]
    · -- Of all ways in which a write ends only the conflict is left.
      generalize replica.put key value = result at hwritten
      cases hwritten with
      | refused invalid =>
        rw [hvalid] at invalid
        cases invalid
      | first _ free =>
        rw [hheld] at free
        cases free
      | again _ held =>
        rw [hheld] at held
        exact absurd (Option.some.inj held) hdiffers
      | conflict => rfl
      | newer latest => exact absurd (latest ▸ hconfirm) not_isConfirmKey_latestValsetKey
      | stale latest => exact absurd (latest ▸ hconfirm) not_isConfirmKey_latestValsetKey

theorem putOne_of_error {e : ValidationError} (h : replica.put key value = .error e) :
    (Overlay.putOne key value replica).1 = replica := by
  rw [Overlay.putOne, h]

/-! ### All rules -/

/-- **The rules of writing**, as a replica shows them after some writes. They speak of what can be
read of it and of the next write, not of how it keeps its records. -/
structure WriteRules (replica : Replica) (writes : List (String × Bytes)) : Prop where
  /-- What it holds is accepted. -/
  accepted : ∀ key value, replica.get? key = some value → validate key value = .ok ()
  /-- A confirm stays, whatever is written later. -/
  confirm_stays : ∀ key value, IsConfirmKey key → replica.get? key = some value →
    ∀ later, (replica.after later).get? key = some value
  /-- There is a latest valset if one was written. -/
  latest_isSome : (replica.get? latestValsetKey).isSome = true ↔ valsetsIn writes ≠ []
  /-- The latest valset is the first one of the greatest nonce. -/
  latest : ∀ value, replica.get? latestValsetKey = some value → ∃ v, IsLatest writes value v
  /-- Its nonce does not decrease, whatever is written later. -/
  latest_advances : ∀ value v, replica.get? latestValsetKey = some value →
    decodeLatestValset latestValsetKey value = .ok v →
    ∀ later, ∃ value' v', (replica.after later).get? latestValsetKey = some value' ∧
      decodeLatestValset latestValsetKey value' = .ok v' ∧ v.nonce ≤ v'.nonce
  /-- A write leaves the records under other keys. -/
  frame : ∀ key value other, other ≠ key →
    (Overlay.putOne key value replica).1.get? other = replica.get? other
  /-- A write fails if the record is not accepted, or for the sake of another confirm. -/
  put_eq_error : ∀ key value e, replica.put key value = .error e ↔
    validate key value = .error e ∨
      (validate key value = .ok () ∧ IsConfirmKey key ∧
        (∃ other, replica.get? key = some other ∧ other ≠ value) ∧ e = .conflict key)
  /-- A write that fails changes nothing. -/
  unchanged : ∀ key value e, replica.put key value = .error e →
    (Overlay.putOne key value replica).1 = replica

/-- **The rules of writing hold** after any writes, by whomever and in whatever order. The latest
valset is followed from write to write, and the rest follows from the records' being accepted. -/
theorem writeRules_after (writes : List (String × Bytes)) :
    WriteRules (empty.after writes) writes := by
  have hsound : (empty.after writes).Sound := sound_empty.after writes
  have hholds := holdsLatest_after writes
  constructor
  case accepted =>
    intro key value hheld
    exact isAccepted_iff.mp (hsound key value hheld)
  case confirm_stays =>
    intro key value hkey hheld later
    exact get?_after_of_held hkey (hsound key value hheld) hheld later
  case latest_isSome =>
    rcases hholds with ⟨hfree, hnothing⟩ | ⟨held, v, hheld, hlatest⟩
    · simp [hfree, hnothing]
    · simp [hheld, List.ne_nil_of_mem hlatest.mem]
  case latest =>
    intro value hheld
    rcases hholds with ⟨hfree, -⟩ | ⟨held, v, hheld', hlatest⟩
    · rw [hheld] at hfree
      cases hfree
    · rw [hheld] at hheld'
      rw [Option.some.inj hheld']
      exact ⟨v, hlatest⟩
  -- The writes so far and the later ones are one list of writes.
  case latest_advances =>
    intro value v hheld hdecode later
    rw [← after_append]
    exact exists_held_of_written (mem_valsetsIn_of_held hheld hdecode) later
  case frame =>
    intro key value other hne
    exact get?_putOne_of_ne hne value _
  case put_eq_error =>
    intro key value e
    exact put_eq_error_iff hsound
  case unchanged =>
    intro key value e hput
    exact putOne_of_error hput

end Countersign.Replica
