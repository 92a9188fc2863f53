import Countersign.Proofs.Record.Confirms
import Countersign.Proofs.Store.Spelling
import Countersign.Store.Validation

/-!
# Which records are acceptable

A record is held against the rules for the namespace that its key names (`validate`). The namespace
is looked at twice on this way: first in the two front pieces of the key, whatever else there is
(`Namespace.ofKey`), then by the rules themselves, which read the key as a whole. The two agree on
every key that is read (`Namespace.ofKey_of_parse`), and this is all that is needed:

* a record is only accepted by the rules for the namespace of its key
  (`RecordRule.ofKey_of_validate`), so by one set of rules at most;
* rules that find another namespace than their own were not chosen by the key
  (`RecordRule.of_wrongNamespace`), so this answer is never given.

What is accepted in each namespace is said once more in `Acceptable`, from the values that key and
record are read as.
-/

namespace Countersign

variable {key : String} {value : Bytes} {kind : AttestationKind} {rule : RecordRule}

/-! ### What the rules accept -/

/-- The namespace of a key that is read is the one that is found in front. So the two places where
the namespace is looked for cannot disagree. -/
theorem Namespace.ofKey_of_parse {k : ConfirmKey} (h : ConfirmKey.parse key = .ok k) :
    Namespace.ofKey key = .ok k.space :=
  Namespace.ofKey_of_spells (ConfirmKey.parse_eq_ok_iff.mp h)

/-- **An accepted confirm**: key and record are read, agree on the namespace and the signer, and the
signature passes its check. -/
theorem decodeConfirm_eq_ok_iff {k : ConfirmKey} {c : Confirm} :
    decodeConfirm kind key value = .ok (k, c) ↔
      ConfirmKey.parse key = .ok k ∧ k.space = .ofKind kind ∧
        Confirm.decode? kind value = some c ∧ c.signer = k.signer ∧
          c.checkSignature k.nonce = .ok () := by
  constructor
  · intro h
    rw [decodeConfirm] at h
    -- The tests one after the other; each of them leaves what it has found.
    split at h
    · cases h
    next k' hparse =>
    split at h
    · cases h
    next hspace =>
    split at h
    · cases h
    next c' hdecode =>
    split at h
    · cases h
    next hsigner =>
    split at h
    · cases h
    next hcheck =>
    obtain ⟨rfl, rfl⟩ := Prod.mk.inj (Except.ok.inj h)
    exact ⟨hparse, Decidable.of_not_not hspace, hdecode, Decidable.of_not_not hsigner, hcheck⟩
  · rintro ⟨hparse, hspace, hdecode, hsigner, hcheck⟩
    simp [decodeConfirm, hparse, hspace, hdecode, hsigner, hcheck]

/-- **An accepted latest valset**: it stands under its one key, and for more than nothing. Who wrote
it is not asked, and it bears no signature. -/
theorem decodeLatestValset_eq_ok_iff {v : Valset} :
    decodeLatestValset key value = .ok v ↔
      key = latestValsetKey ∧ Valset.decode? value = some v ∧ v.isEmpty = false := by
  have hspace : Namespace.ofKey latestValsetKey = .ok .latestValset := rfl
  constructor
  · intro h
    rw [decodeLatestValset] at h
    -- The tests one after the other; each of them leaves what it has found.
    split at h
    · cases h
    split at h
    · cases h
    split at h
    · cases h
    next hkey =>
    split at h
    · cases h
    next v' hdecode =>
    split at h
    · cases h
    next hempty =>
    obtain rfl := Except.ok.inj h
    exact ⟨Decidable.of_not_not hkey, hdecode, by simpa using hempty⟩
  · rintro ⟨rfl, hdecode, hempty⟩
    simp [decodeLatestValset, hspace, hdecode, hempty]

/-- **What makes a record acceptable** in a namespace. For a commitment's confirm the signature must
hold for the root that the record names, for a valset's confirm only its form is known. -/
inductive Acceptable (key : String) (value : Bytes) : Namespace → Prop where
  | valsetConfirm {k : ConfirmKey} {c : ValsetConfirm} {parts : Vrs}
      (read : ConfirmKey.parse key = .ok k)
      (decoded : Confirm.decode? .valset value = some (.valset c)) (named : c.signer = k.signer)
      (canonical : Vrs.parse c.signature = .ok parts) : Acceptable key value .valsetConfirm
  | commitmentConfirm {k : ConfirmKey} {c : CommitmentConfirm}
      (read : ConfirmKey.parse key = .ok k)
      (decoded : Confirm.decode? .dataCommitment value = some (.commitment c))
      (named : c.signer = k.signer)
      (verified :
        verifyText (commitmentDigest k.nonce c.commitment) c.signature k.signer = .ok ()) :
      Acceptable key value .commitmentConfirm
  | latestValset {v : Valset} (read : key = latestValsetKey)
      (decoded : Valset.decode? value = some v) (filled : v.isEmpty = false) :
      Acceptable key value .latestValset

namespace RecordRule

/-- The namespace that rules are for. -/
def space : RecordRule → Namespace
  | .confirm kind => .ofKind kind
  | .latestValset => .latestValset

@[simp] theorem ofNamespace_space (rule : RecordRule) : ofNamespace rule.space = rule := by
  rcases rule with (_ | _) | _ <;> rfl

@[simp] theorem space_ofNamespace (space : Namespace) : (ofNamespace space).space = space := by
  cases space <;> rfl

theorem validate_confirm_eq_ok_iff :
    (RecordRule.confirm kind).validate key value = .ok () ↔
      ∃ k c, decodeConfirm kind key value = .ok (k, c) := by
  rw [validate]
  cases decodeConfirm kind key value with
  | error e => simp
  | ok decoded => exact ⟨fun _ => ⟨decoded.1, decoded.2, rfl⟩, fun _ => rfl⟩

theorem validate_latestValset_eq_ok_iff :
    RecordRule.latestValset.validate key value = .ok () ↔
      ∃ v, decodeLatestValset key value = .ok v := by
  rw [validate]
  cases decodeLatestValset key value with
  | error e => simp
  | ok v => exact ⟨fun _ => ⟨v, rfl⟩, fun _ => rfl⟩

/-- Rules accept records of their namespace only. -/
theorem ofKey_of_validate (h : rule.validate key value = .ok ()) :
    Namespace.ofKey key = .ok rule.space := by
  cases rule with
  | confirm kind =>
    obtain ⟨k, c, hdecode⟩ := validate_confirm_eq_ok_iff.mp h
    obtain ⟨hparse, hspace, -⟩ := decodeConfirm_eq_ok_iff.mp hdecode
    rw [Namespace.ofKey_of_parse hparse, hspace]
    rfl
  | latestValset =>
    obtain ⟨v, hdecode⟩ := validate_latestValset_eq_ok_iff.mp h
    obtain ⟨rfl, -⟩ := decodeLatestValset_eq_ok_iff.mp hdecode
    rfl

/-- **Rules that find another namespace** than their own were given a key of that namespace. -/
theorem of_wrongNamespace {expected found : Namespace}
    (h : rule.validate key value = .error (.wrongNamespace expected found)) :
    Namespace.ofKey key = .ok found ∧ found ≠ rule.space := by
  -- Each rule makes its tests in a fixed order, and only one of them has this fault.
  cases rule with
  | confirm kind =>
    rw [validate] at h
    split at h
    · cases h
    next e hdecode =>
    obtain rfl := Except.error.inj h
    rw [decodeConfirm] at hdecode
    split at hdecode
    · cases hdecode
    next k hparse =>
    split at hdecode
    · next hspace =>
      cases hdecode
      exact ⟨Namespace.ofKey_of_parse hparse, hspace⟩
    -- All later faults have other names.
    split at hdecode
    · cases hdecode
    split at hdecode
    · cases hdecode
    split at hdecode <;> cases hdecode
  | latestValset =>
    rw [validate] at h
    split at h
    · cases h
    next e hdecode =>
    obtain rfl := Except.error.inj h
    rw [decodeLatestValset] at hdecode
    split at hdecode
    · cases hdecode
    next hkey =>
    split at hdecode
    · next hspace =>
      cases hdecode
      exact ⟨hkey, hspace⟩
    split at hdecode
    · cases hdecode
    split at hdecode
    · cases hdecode
    split at hdecode <;> cases hdecode

end RecordRule

/-! ### The rules that a key names -/

variable {space : Namespace}

/-- The rules for a key are those for the namespace in front of it. -/
theorem validate_of_ofKey (h : Namespace.ofKey key = .ok space) (value : Bytes) :
    validate key value = (RecordRule.ofNamespace space).validate key value := by
  rw [validate, ruleOfKey, h]

theorem ruleOfKey_of_ofKind (kind : AttestationKind)
    (h : Namespace.ofKey key = .ok (.ofKind kind)) :
    ruleOfKey key = .ok (.confirm kind) := by
  rw [ruleOfKey, h]
  exact congrArg Except.ok (RecordRule.ofNamespace_space (.confirm kind))

/-- What is accepted under a confirm's key is a confirm of its kind. -/
theorem validate_eq_ok_iff_of_ofKind (kind : AttestationKind)
    (h : Namespace.ofKey key = .ok (.ofKind kind)) :
    validate key value = .ok () ↔ ∃ k c, decodeConfirm kind key value = .ok (k, c) := by
  rw [validate, ruleOfKey_of_ofKind kind h]
  exact RecordRule.validate_confirm_eq_ok_iff

theorem validate_eq_ok_iff_of_latestValset (h : Namespace.ofKey key = .ok .latestValset) :
    validate key value = .ok () ↔ ∃ v, decodeLatestValset key value = .ok v := by
  rw [validate_of_ofKey h]
  exact RecordRule.validate_latestValset_eq_ok_iff

/-- Without a namespace the record is not looked at. -/
theorem validate_of_ofKey_error {e : KeyError} (h : Namespace.ofKey key = .error e)
    (value : Bytes) : validate key value = .error (.key e) := by
  rw [validate, ruleOfKey, h]

/-- Rules that accept a record are those for its key, so the key would have chosen them. -/
theorem validate_of_validate (h : rule.validate key value = .ok ()) :
    validate key value = .ok () := by
  rw [validate_of_ofKey (RecordRule.ofKey_of_validate h), RecordRule.ofNamespace_space, h]

/-- **What the rules for a key accept** is what its namespace asks. One direction reads the record's
parts off its acceptance, the other puts the acceptance together from them. -/
theorem validate_eq_ok_iff_acceptable (h : Namespace.ofKey key = .ok space) :
    validate key value = .ok () ↔ Acceptable key value space := by
  -- Each namespace has its own reader of records.
  cases space with
  | valsetConfirm =>
    rw [validate_eq_ok_iff_of_ofKind .valset h]
    constructor
    · rintro ⟨k, c, hdecode⟩
      obtain ⟨hparse, -, hdecode, hsigner, hcheck⟩ := decodeConfirm_eq_ok_iff.mp hdecode
      -- A record of the other kind is not read as one of this kind.
      cases c with
      | commitment c => cases Confirm.kind_of_decode? hdecode
      | valset c =>
        rw [Confirm.checkSignature] at hcheck
        split at hcheck
        · next parts hparts => exact .valsetConfirm hparse hdecode hsigner hparts
        · cases hcheck
    · rintro (⟨hparse, hdecode, hsigner, hparts⟩ | _ | _)
      have hspace := (Namespace.ofKey_of_parse hparse).symm.trans h
      refine ⟨_, _, decodeConfirm_eq_ok_iff.mpr
        ⟨hparse, Except.ok.inj hspace, hdecode, hsigner, ?_⟩⟩
      rw [Confirm.checkSignature, hparts]
  | commitmentConfirm =>
    rw [validate_eq_ok_iff_of_ofKind .dataCommitment h]
    constructor
    · rintro ⟨k, c, hdecode⟩
      obtain ⟨hparse, -, hdecode, hsigner, hcheck⟩ := decodeConfirm_eq_ok_iff.mp hdecode
      cases c with
      | valset c => cases Confirm.kind_of_decode? hdecode
      | commitment c =>
        rw [Confirm.checkSignature] at hcheck
        refine .commitmentConfirm hparse hdecode hsigner ?_
        rw [← hsigner]
        exact hcheck
    · rintro (_ | ⟨hparse, hdecode, hsigner, hverified⟩ | _)
      have hspace := (Namespace.ofKey_of_parse hparse).symm.trans h
      refine ⟨_, _, decodeConfirm_eq_ok_iff.mpr
        ⟨hparse, Except.ok.inj hspace, hdecode, hsigner, ?_⟩⟩
      rw [Confirm.checkSignature, hsigner]
      exact hverified
  | latestValset =>
    rw [validate_eq_ok_iff_of_latestValset h]
    constructor
    · rintro ⟨v, hdecode⟩
      obtain ⟨hkey, hdecode, hfilled⟩ := decodeLatestValset_eq_ok_iff.mp hdecode
      exact .latestValset hkey hdecode hfilled
    · rintro (_ | _ | ⟨hkey, hdecode, hfilled⟩)
      exact ⟨_, decodeLatestValset_eq_ok_iff.mpr ⟨hkey, hdecode, hfilled⟩⟩

/-- **How a record fares** with the rules for its key, and with all others. Choosing rules by the
namespace is an extra step; this says that the step neither adds to what is accepted nor takes from
it. -/
structure Dispatched (key : String) (value : Bytes) : Prop where
  /-- The rules for a key are never those for another namespace. -/
  never_wrongNamespace : ∀ expected found,
    validate key value ≠ .error (.wrongNamespace expected found)
  /-- A record is accepted if some rules accept it. -/
  accepted_iff : validate key value = .ok () ↔
    ∃ rule : RecordRule, rule.validate key value = .ok ()
  /-- No two sets of rules accept the same record. -/
  unique : ∀ rule rule' : RecordRule, rule.validate key value = .ok () →
    rule'.validate key value = .ok () → rule = rule'
  /-- What is accepted in a namespace is what it asks. -/
  acceptable_iff : ∀ space, Namespace.ofKey key = .ok space →
    (validate key value = .ok () ↔ Acceptable key value space)
  /-- Without a namespace nothing is accepted. -/
  refused : ∀ e, Namespace.ofKey key = .error e → validate key value = .error (.key e)

/-- **Every record fares like this**, whatever its key and its bytes. Each point is one of the
lemmas above, at the namespace that the key names. -/
theorem dispatched (key : String) (value : Bytes) : Dispatched key value := by
  constructor
  case never_wrongNamespace =>
    intro expected found h
    cases hspace : Namespace.ofKey key with
    | error e =>
      rw [validate_of_ofKey_error hspace] at h
      cases h
    | ok space =>
      rw [validate_of_ofKey hspace] at h
      -- Rules that were chosen by the key find its namespace, which is their own.
      obtain ⟨hfound, hne⟩ := RecordRule.of_wrongNamespace h
      rw [RecordRule.space_ofNamespace] at hne
      exact hne (Except.ok.inj (hfound.symm.trans hspace))
  case accepted_iff =>
    constructor
    · intro h
      cases hspace : Namespace.ofKey key with
      | error e =>
        rw [validate_of_ofKey_error hspace] at h
        cases h
      | ok space =>
        rw [validate_of_ofKey hspace] at h
        exact ⟨_, h⟩
    · rintro ⟨rule, h⟩
      exact validate_of_validate h
  case unique =>
    intro rule rule' h h'
    -- Both accept it, so both are the rules for the namespace that the key names.
    have hspace := (RecordRule.ofKey_of_validate h).symm.trans (RecordRule.ofKey_of_validate h')
    rw [← rule.ofNamespace_space, Except.ok.inj hspace, rule'.ofNamespace_space]
  case acceptable_iff => exact fun _ hspace => validate_eq_ok_iff_acceptable hspace
  case refused => exact fun _ hspace => validate_of_ofKey_error hspace value

end Countersign
