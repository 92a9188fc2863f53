import Countersign.Proofs.Store.Acceptance
import Countersign.Store.Overlay

/-!
# One write to a replica

A write ends in one of six ways (`Replica.Written`): the record is refused, or it is the first one
under its key, or the one that is held already, or there is a choice between the two. A confirm that
is held is always chosen, so another one is a conflict; of two latest valsets the newer one is
chosen.

Every fact about writes is read off `Replica.put_written`, which says this of a replica that holds
an accepted record under the key, or none. What a replica holds elsewhere does not matter.
-/

namespace Countersign

/-! ### Accepted records -/

/-- Whether a record is accepted under its key, as a truth value. Filters over writes and records
use it, where the error does not matter. -/
def isAccepted (key : String) (value : Bytes) : Bool :=
  match validate key value with
  | .ok () => true
  | .error _ => false

theorem isAccepted_iff {key : String} {value : Bytes} :
    isAccepted key value = true ↔ validate key value = .ok () := by
  rw [isAccepted]
  split
  · next h => simp [h]
  · next h => simp [h]

theorem accepts_eq_isAccepted {rule : RecordRule} {key : String} (h : ruleOfKey key = .ok rule)
    (value : Bytes) : rule.accepts key value = isAccepted key value := by
  have hvalidate : validate key value = rule.validate key value := by
    simp only [validate, h]
  cases hcase : rule.validate key value with
  | error e =>
    rw [hcase] at hvalidate
    simp only [RecordRule.accepts, isAccepted, hcase, hvalidate]
  | ok u =>
    rw [hcase] at hvalidate
    simp only [RecordRule.accepts, isAccepted, hcase, hvalidate]

/-! ### The choice between two records -/

/-- A key under which confirms are stored, by the namespace that it names. The rest of the key need
not be well-formed, so this is less than being a confirm's key. -/
def IsConfirmKey (key : String) : Prop :=
  ∃ space, Namespace.ofKey key = .ok space ∧ space.isConfirm = true

/-- Such a key has a rule, that of confirms of some kind. -/
theorem IsConfirmKey.exists_rule {key : String} (h : IsConfirmKey key) :
    ∃ kind, ruleOfKey key = .ok (.confirm kind) := by
  obtain ⟨space, hspace, hconfirm⟩ := h
  rw [ruleOfKey, hspace]
  cases space with
  | valsetConfirm => exact ⟨.valset, rfl⟩
  | commitmentConfirm => exact ⟨.dataCommitment, rfl⟩
  | latestValset => cases hconfirm

/-- The latest valset is no confirm. -/
theorem not_isConfirmKey_latestValsetKey : ¬ IsConfirmKey latestValsetKey := by
  rintro ⟨space, hspace, hconfirm⟩
  have hlatest : Namespace.ofKey latestValsetKey = .ok .latestValset := rfl
  rw [hlatest] at hspace
  obtain rfl := Except.ok.inj hspace
  cases hconfirm

/-- Of two records under a confirm's key the first is chosen, if it is accepted. The other one is
not looked at. -/
theorem select_of_isConfirmKey {key : String} {held : Bytes} (hkey : IsConfirmKey key)
    (haccepted : isAccepted key held = true) (value : Bytes) :
    select key [held, value] = .ok 0 := by
  obtain ⟨kind, hrule⟩ := hkey.exists_rule
  have haccepts : (RecordRule.confirm kind).accepts key held = true := by
    rw [accepts_eq_isAccepted hrule, haccepted]
  simp only [select, hrule, RecordRule.select, List.findIdx?_cons, haccepts, if_true]

/-- A latest valset stands under its one key, since no other is read as one. -/
theorem eq_latestValsetKey_of_decode {key : String} {value : Bytes} {v : Valset}
    (h : decodeLatestValset key value = .ok v) : key = latestValsetKey :=
  (decodeLatestValset_eq_ok_iff.mp h).1

/-- An accepted record is under a confirm's key, or is a latest valset. There are no other
records. -/
theorem isConfirmKey_or_decode {key : String} {value : Bytes} (h : isAccepted key value = true) :
    IsConfirmKey key ∨ key = latestValsetKey ∧ ∃ v, decodeLatestValset key value = .ok v := by
  have hvalidate := isAccepted_iff.mp h
  cases hspace : Namespace.ofKey key with
  | error e =>
    rw [validate_of_ofKey_error hspace] at hvalidate
    cases hvalidate
  | ok space =>
    cases space with
    | valsetConfirm => exact Or.inl ⟨_, hspace, rfl⟩
    | commitmentConfirm => exact Or.inl ⟨_, hspace, rfl⟩
    | latestValset =>
      obtain ⟨v, hdecode⟩ := (validate_eq_ok_iff_of_latestValset hspace).mp hvalidate
      exact Or.inr ⟨eq_latestValsetKey_of_decode hdecode, v, hdecode⟩

/-- A latest valset is accepted. -/
theorem isAccepted_of_decode {key : String} {value : Bytes} {v : Valset}
    (h : decodeLatestValset key value = .ok v) : isAccepted key value = true := by
  have hvalidate := RecordRule.validate_latestValset_eq_ok_iff.mpr ⟨v, h⟩
  exact isAccepted_iff.mpr (validate_of_validate hvalidate)

/-- Of two latest valsets the second is chosen if it is newer. Of two with the same nonce the first
stays. -/
theorem select_latestValsetKey {held value : Bytes} {v w : Valset}
    (hheld : decodeLatestValset latestValsetKey held = .ok v)
    (hvalue : decodeLatestValset latestValsetKey value = .ok w) :
    select latestValsetKey [held, value] = .ok (if w.nonce ≤ v.nonce then 0 else 1) := by
  have hrule : ruleOfKey latestValsetKey = .ok .latestValset := rfl
  simp only [select, hrule, RecordRule.select, RecordRule.greatestNonce, hheld, hvalue]
  by_cases hle : w.nonce ≤ v.nonce
  · rw [if_pos hle, if_pos hle]
  · rw [if_neg hle, if_neg hle]

/-! ### How a write ends -/

namespace Replica

/-- **How a write ends**, with an error or with the replica afterwards. Every case says what was
held under the key, so facts about writes can be read off the cases. -/
inductive Written (replica : Replica) (key : String) (value : Bytes) :
    Except ValidationError Replica → Prop where
  | refused {e : ValidationError} (invalid : validate key value = .error e) :
      Written replica key value (.error e)
  | first (accepted : isAccepted key value = true) (free : replica.get? key = none) :
      Written replica key value (.ok (replica.set key value))
  | again (accepted : isAccepted key value = true) (held : replica.get? key = some value) :
      Written replica key value (.ok replica)
  | conflict {other : Bytes} (accepted : isAccepted key value = true) (confirm : IsConfirmKey key)
      (held : replica.get? key = some other) (differs : other ≠ value) :
      Written replica key value (.error (.conflict key))
  | newer {other : Bytes} {v w : Valset} (latest : key = latestValsetKey)
      (held : replica.get? key = some other) (old : decodeLatestValset key other = .ok v)
      (new : decodeLatestValset key value = .ok w) (gt : v.nonce < w.nonce) :
      Written replica key value (.ok (replica.set key value))
  | stale {other : Bytes} {v w : Valset} (latest : key = latestValsetKey)
      (held : replica.get? key = some other) (old : decodeLatestValset key other = .ok v)
      (new : decodeLatestValset key value = .ok w) (le : w.nonce ≤ v.nonce) :
      Written replica key value (.ok replica)

/-- **Every write ends in one of these ways**, if what is held under the key is accepted. -/
theorem put_written {replica : Replica} {key : String}
    (h : ∀ held, replica.get? key = some held → isAccepted key held = true) (value : Bytes) :
    Written replica key value (replica.put key value) := by
  rw [put]
  cases hvalidate : validate key value with
  | error e => exact .refused hvalidate
  | ok u =>
    have haccepted : isAccepted key value = true := isAccepted_iff.mpr hvalidate
    -- The cases of the rule itself: what the key holds already, and what that is.
    cases hheld : replica.get? key with
    | none => exact .first haccepted hheld
    | some other =>
      dsimp only
      by_cases hsame : other = value
      · rw [if_pos hsame]
        subst hsame
        exact .again haccepted hheld
      rw [if_neg hsame]
      -- Two accepted records, and the rules for the key choose one of them.
      have hother := h other hheld
      rcases isConfirmKey_or_decode hother with hkey | ⟨rfl, v, hv⟩
      · obtain ⟨space, hspace, hconfirm⟩ := id hkey
        rw [select_of_isConfirmKey hkey hother]
        simp only [hspace, hconfirm, if_true]
        exact .conflict haccepted hkey hheld hsame
      · rcases isConfirmKey_or_decode haccepted with hkey | ⟨-, w, hw⟩
        · exact absurd hkey not_isConfirmKey_latestValsetKey
        rw [select_latestValsetKey hv hw]
        by_cases hle : w.nonce ≤ v.nonce
        · rw [if_pos hle]
          exact .stale rfl hheld hv hw hle
        · rw [if_neg hle]
          exact .newer rfl hheld hv hw (UInt64.not_le.mp hle)

/-! ### What a write leaves -/

/-- A replica that holds accepted records only. Replicas begin like this, and no write changes
it. -/
def Sound (replica : Replica) : Prop :=
  ∀ key value, replica.get? key = some value → isAccepted key value = true

/-- A replica without records is sound. -/
theorem sound_empty : empty.Sound := by
  rintro key value ⟨⟩

/-- **What a write may do**: nothing, or set an accepted record. Here nothing is assumed of the
replica. -/
theorem putOne_cases (key : String) (value : Bytes) (replica : Replica) :
    (Overlay.putOne key value replica).1 = replica ∨
      (isAccepted key value = true ∧
        (Overlay.putOne key value replica).1 = replica.set key value) := by
  rw [Overlay.putOne]
  cases hput : replica.put key value with
  | error e => exact Or.inl rfl
  | ok next =>
    -- A record that is refused changes nothing.
    rw [put] at hput
    split at hput
    · cases hput
    next haccepted =>
      have haccepted := isAccepted_iff.mpr haccepted
      -- Nothing is held yet, or the same record, or one of two is to be chosen.
      split at hput
      · exact Or.inr ⟨haccepted, (Except.ok.inj hput).symm⟩
      split at hput
      · exact Or.inl (Except.ok.inj hput).symm
      split at hput
      · cases hput
      · exact Or.inr ⟨haccepted, (Except.ok.inj hput).symm⟩
      split at hput
      · cases hput
      split at hput
      · cases hput
      · exact Or.inl (Except.ok.inj hput).symm

/-- A write leaves a replica sound, also one that is refused. -/
theorem Sound.putOne {replica : Replica} (h : replica.Sound) (key : String) (value : Bytes) :
    (Overlay.putOne key value replica).1.Sound := by
  rcases putOne_cases key value replica with hsame | ⟨haccepted, hset⟩
  · rwa [hsame]
  · rw [hset]
    intro other held hget
    rw [get?_set] at hget
    split at hget
    · next hkey =>
      rw [hkey, ← Option.some.inj hget]
      exact haccepted
    · exact h other held hget

/-- A write under another key changes nothing under this one. -/
theorem get?_putOne_of_ne {key other : String} (h : other ≠ key) (value : Bytes)
    (replica : Replica) :
    (Overlay.putOne key value replica).1.get? other = replica.get? other := by
  rcases putOne_cases key value replica with hsame | ⟨-, hset⟩
  · rw [hsame]
  · rw [hset, get?_set, if_neg h]

/-- A write where nothing is held: the record is taken if it is accepted. -/
theorem get?_putOne_of_none {replica : Replica} {key : String} (hheld : replica.get? key = none)
    (value : Bytes) :
    (Overlay.putOne key value replica).1.get? key =
      if isAccepted key value then some value else none := by
  rw [Overlay.putOne, put]
  by_cases haccepted : isAccepted key value = true
  · rw [isAccepted_iff.mp haccepted, if_pos haccepted]
    simp only [hheld]
    rw [get?_set, if_pos rfl]
  · cases hvalidate : validate key value with
    | ok u => exact absurd (isAccepted_iff.mpr hvalidate) haccepted
    | error e =>
      rw [if_neg haccepted]
      exact hheld

/-- **A write under a confirm's key where an accepted record is held**: it stays, be it the same
record, another one, or one that is refused. -/
theorem get?_putOne_of_held {replica : Replica} {key : String} {held : Bytes}
    (hkey : IsConfirmKey key) (haccepted : isAccepted key held = true)
    (hheld : replica.get? key = some held) (value : Bytes) :
    (Overlay.putOne key value replica).1.get? key = some held := by
  have hwritten : Written replica key value (replica.put key value) := by
    refine put_written (fun other hother => ?_) value
    rw [hheld] at hother
    rwa [← Option.some.inj hother]
  rw [Overlay.putOne]
  cases hput : replica.put key value with
  | error e => exact hheld
  | ok next =>
    -- A write that succeeds sets nothing here.
    rw [hput] at hwritten
    cases hwritten with
    | first _ free =>
      rw [hheld] at free
      cases free
    | again => exact hheld
    | newer latest => exact absurd (latest ▸ hkey) not_isConfirmKey_latestValsetKey
    | stale => exact hheld

/-- A write under a confirm's key: what is held stays, otherwise the record is taken if it is
accepted. This is the step for the first accepted record (`Overlay.firstAccepted`). -/
theorem get?_putOne_of_isConfirmKey {replica : Replica} {key : String} (hkey : IsConfirmKey key)
    (h : replica.Sound) (value : Bytes) :
    (Overlay.putOne key value replica).1.get? key =
      (replica.get? key).or (if isAccepted key value then some value else none) := by
  cases hheld : replica.get? key with
  | none => rw [Option.none_or, get?_putOne_of_none hheld]
  | some held => rw [Option.some_or, get?_putOne_of_held hkey (h key held hheld) hheld]

/-- **A confirm that a replica takes** is accepted, and held afterwards. What else the replica holds
does not matter, and neither does whether that was accepted. -/
theorem held_of_putOne_eq_none {replica : Replica} {key : String} {value : Bytes}
    (hkey : IsConfirmKey key) (h : (Overlay.putOne key value replica).2 = none) :
    isAccepted key value = true ∧ (Overlay.putOne key value replica).1.get? key = some value := by
  rw [Overlay.putOne] at h ⊢
  cases hput : replica.put key value with
  | error e =>
    rw [hput] at h
    cases h
  | ok next =>
    change isAccepted key value = true ∧ next.get? key = some value
    have hset : (replica.set key value).get? key = some value := by
      rw [get?_set, if_pos rfl]
    rw [put] at hput
    split at hput
    · cases hput
    next hvalid =>
    refine ⟨isAccepted_iff.mpr hvalid, ?_⟩
    -- Nothing is held yet, and the record is set.
    split at hput
    · rw [← Except.ok.inj hput]
      exact hset
    next held hheld =>
    split at hput
    · -- The same record is held already.
      next hsame =>
      rw [← Except.ok.inj hput, hheld, hsame]
    split at hput
    · cases hput
    · rw [← Except.ok.inj hput]
      exact hset
    · -- To keep another confirm is a conflict, which is no success.
      obtain ⟨space, hspace, hconfirm⟩ := hkey
      rw [hspace] at hput
      dsimp only at hput
      rw [if_pos hconfirm] at hput
      cases hput

/-- **A latest valset where one is held**: the newer one is held afterwards. -/
theorem get?_putOne_of_valset {replica : Replica} {held value : Bytes} {v w : Valset}
    (hheld : replica.get? latestValsetKey = some held)
    (hv : decodeLatestValset latestValsetKey held = .ok v)
    (hw : decodeLatestValset latestValsetKey value = .ok w) :
    (Overlay.putOne latestValsetKey value replica).1.get? latestValsetKey =
      some (if w.nonce ≤ v.nonce then held else value) := by
  have hvalid : validate latestValsetKey value = .ok () :=
    isAccepted_iff.mp (isAccepted_of_decode hw)
  rw [Overlay.putOne, put, hvalid]
  simp only [hheld]
  by_cases hsame : held = value
  · subst hsame
    rw [if_pos rfl, ite_self]
    exact hheld
  rw [if_neg hsame, select_latestValsetKey hv hw]
  by_cases hle : w.nonce ≤ v.nonce
  · rw [if_pos hle, if_pos hle]
    exact hheld
  · rw [if_neg hle, if_neg hle]
    exact (get?_set ..).trans (if_pos rfl)

end Replica

end Countersign
