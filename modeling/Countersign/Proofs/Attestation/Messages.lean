import Countersign.Proofs.Attestation.Making
import Countersign.Proofs.Calendar.DayNumber
import Countersign.Proofs.Text.Digits
import Countersign.Proofs.Traversal
import Countersign.Source.Message

/-!
# Messages read back

What an attestation's message means (`Message.Attestation.Means`), which messages mean nothing
(`Message.Attestation.Refused`), and that writing and reading undo each other as far as they can
(`Message.attestation_roundTrips`).

1. Addresses are written with a checksum in the case of their letters. Reading makes no difference
   between the cases, so the checksum is lost and nothing else (`Address.parse_checksummed`).
2. Times are written in seconds. A moment that shows whole seconds is found again, on the clock of
   universal time (`Timestamp.exists_ofUnixSeconds?`).
3. Members are read one by one, all of them; only then those whose address came before are left out
   (`Message.Valset.read_eq_ok_iff`). So a message is refused for an address that cannot be read,
   wherever its member stands.
-/

namespace Countersign

/-! ### Addresses -/

/-- A digit in upper case is the same digit. -/
theorem Hex.toLower_toUpper_digit : ∀ d < 16, (digit d).toLower = digit d ∧
    (digit d).toUpper.toLower = digit d := by
  decide

/-- Digits of bytes are digits. -/
theorem Hex.exists_digit_of_mem {bytes : Bytes} {c : Char} (h : c ∈ bytes.flatMap digits) :
    ∃ d < 16, c = digit d := by
  obtain ⟨b, -, hc⟩ := List.mem_flatMap.mp h
  have hb := b.toNat_lt
  rw [digits, List.mem_cons, List.mem_singleton] at hc
  rcases hc with rfl | rfl
  · exact ⟨b.toNat / 16, by omega, rfl⟩
  · exact ⟨b.toNat % 16, by omega, rfl⟩

/-- **Digits with a checksum** are the digits in either case. What the checksum is does not matter,
since it decides about cases only. -/
theorem lowerCase_checksum {cs : List Char} (hcs : ∀ c ∈ cs, ∃ d < 16, c = Hex.digit d)
    {halves : List Nat} (hlength : cs.length ≤ halves.length) :
    lowerCase ((cs.zip halves).map fun (c, h) => if 8 ≤ h then c.toUpper else c) = cs := by
  have hsame : lowerCase ((cs.zip halves).map fun (c, h) => if 8 ≤ h then c.toUpper else c) =
      (cs.zip halves).map Prod.fst := by
    rw [lowerCase, List.map_map]
    -- At each place there is a digit, in upper or in lower case.
    refine List.map_congr_left fun place hplace => ?_
    obtain ⟨d, hd, hdigit⟩ := hcs place.1 (List.of_mem_zip hplace).1
    obtain ⟨hlower, hupper⟩ := Hex.toLower_toUpper_digit d hd
    rw [Function.comp_apply]
    dsimp only
    rw [hdigit]
    split
    · exact hupper
    · exact hlower
  rw [hsame, List.map_fst_zip hlength]

/-- An address is read from its digits in either case, behind `0x`. -/
theorem Address.parse_of_lowerCase {digits : List Char} {a : Address}
    (h : lowerCase digits = a.toBytes.flatMap Hex.digits) :
    Address.parse (Bytes.ofText (String.ofList ('0' :: 'x' :: digits))) = .ok a :=
  Address.parse_eq_ok_iff.mpr ⟨['0', 'x'], by simp [digitPrefixes], digits, rfl, h⟩

/-- **An address is read from its checksummed text.** -/
theorem Address.parse_checksummed (a : Address) :
    Address.parse (Bytes.ofText a.checksummed) = .ok a := by
  have hhash := Keccak.length_hash ((a.toBytes.flatMap Hex.digits).map fun c => UInt8.ofNat c.toNat)
  have hdigits := Hex.length_flatMap_digits a.toBytes
  rw [a.length_toBytes] at hdigits
  rw [checksummed]
  -- Nothing but the length of the hash matters, so it is not computed.
  generalize Keccak.hash _ = hash at hhash ⊢
  have hhalves : (hash.flatMap fun b => [b.toNat / 16, b.toNat % 16]).length = 64 := by
    rw [List.length_flatMap]
    simp [hhash]
  have hcases : ∀ c ∈ a.toBytes.flatMap Hex.digits, ∃ d < 16, c = Hex.digit d :=
    fun c hc => Hex.exists_digit_of_mem hc
  refine Address.parse_of_lowerCase (lowerCase_checksum hcases ?_)
  rw [hdigits, hhalves]
  decide

/-! ### Attestations that can be sent -/

/-- **A valset of which nothing is lost on the way**: it names each address once, and its time shows
whole seconds that are counted. -/
structure Valset.IsSendable (v : Valset) : Prop where
  distinct : v.addresses.Nodup
  inRange : Timestamp.InRange v.time.unixSeconds
  nanosecond : v.time.nanosecond = 0

/-- An attestation of which nothing is lost on the way. A commitment needs a range that is not
empty. -/
def Attestation.IsSendable : Attestation → Prop
  | .valset v => v.IsSendable
  | .dataCommitment c => c.beginBlock < c.endBlock

theorem Attestation.IsSendable.wellFormed {a : Attestation} (h : a.IsSendable) : a.WellFormed := by
  cases a with
  | valset v => exact h.distinct
  | dataCommitment c => exact h

/-- The clock of an attestation, if it has one, shows universal time. Messages say nothing about
clocks. -/
def Attestation.InUniversalTime : Attestation → Prop
  | .valset v => v.time.offset = 0
  | .dataCommitment _ => True

/-- **The same valset**, whatever clocks show its time. -/
structure Valset.SameAs (v v' : Valset) : Prop where
  nonce : v.nonce = v'.nonce
  members : v.members = v'.members
  height : v.height = v'.height
  time : v.time.isSameMoment v'.time = true

/-- The same attestation, whatever clocks show its time. -/
def Attestation.SameAs : Attestation → Attestation → Prop
  | .valset v, .valset v' => v.SameAs v'
  | .dataCommitment c, .dataCommitment c' => c = c'
  | _, _ => False

/-- Moments are compared without their clocks. -/
theorem Timestamp.isSameMoment_iff {s t : Timestamp} : s.isSameMoment t = true ↔
    s.unixSeconds = t.unixSeconds ∧ s.nanosecond = t.nanosecond := by
  rw [isSameMoment, Bool.and_eq_true, beq_iff_eq, beq_iff_eq]

namespace Message

/-! ### What messages mean -/

/-- **A member's message means** the address that it spells, in any case. -/
structure Member.Means (m : Member) (member : Countersign.Member) : Prop where
  power : member.power = m.power
  address : Address.parse (Bytes.ofText m.address) = .ok member.address

/-- **A valset's message means** the first member of each address, at the moment in universal time
that is so many seconds after the start of 1970. -/
structure Valset.Means (m : Valset) (v : Countersign.Valset) : Prop where
  nonce : v.nonce = m.nonce
  height : v.height = m.height
  inRange : Timestamp.InRange m.time
  unixSeconds : v.time.unixSeconds = m.time
  nanosecond : v.time.nanosecond = 0
  offset : v.time.offset = 0
  members : ∃ members, List.Forall₂ Member.Means m.members members ∧
    v.members = members.eraseDupsBy Valset.sameAddress

/-- What an attestation's message means. A message that is refused means nothing. -/
def Attestation.Means : Attestation → Countersign.Attestation → Prop
  | .valset m, .valset v => m.Means v
  | .dataCommitment nonce first last, .dataCommitment c => first < last ∧ c = ⟨nonce, first, last⟩
  | _, _ => False

/-- **A message that means nothing.** There is a constructor for each of the ways in which reading
may fail. -/
inductive Attestation.Refused : Attestation → Prop where
  /-- There is no attestation in it. -/
  | unset : Refused .unset
  /-- Its time is not counted. -/
  | time {m : Valset} (h : ¬ Timestamp.InRange m.time) : Refused (.valset m)
  /-- The address of one of its members, wherever that stands, cannot be read. -/
  | address {m : Valset} {member : Member} {fault : Hex.Fault} (hmem : member ∈ m.members)
      (h : Address.parse (Bytes.ofText member.address) = .error fault) : Refused (.valset m)
  /-- Its range is empty. -/
  | range {nonce first last : UInt64} (h : ¬ first < last) :
      Refused (.dataCommitment nonce first last)

/-! ### Reading -/

/-- A member is read as what its message means. -/
theorem Member.read_eq_ok_iff {m : Member} {member : Countersign.Member} :
    m.read = .ok member ↔ m.Means member := by
  rw [Member.read]
  split
  · next address hparse =>
    constructor
    · intro h
      obtain rfl := Except.ok.inj h
      exact ⟨rfl, hparse⟩
    · rintro ⟨hpower, haddress⟩
      obtain rfl := Except.ok.inj (hparse.symm.trans haddress)
      rw [← hpower]
  · next fault hparse =>
    refine ⟨nofun, fun h => ?_⟩
    rw [h.address] at hparse
    cases hparse

/-- A member is refused for its address only. -/
theorem Member.exists_read_eq_error_iff {m : Member} :
    (∃ e, m.read = .error e) ↔ ∃ fault, Address.parse (Bytes.ofText m.address) = .error fault := by
  rw [Member.read]
  cases Address.parse (Bytes.ofText m.address) with
  | ok address => exact ⟨nofun, nofun⟩
  | error fault => exact ⟨fun _ => ⟨fault, rfl⟩, fun _ => ⟨_, rfl⟩⟩

/-- **All members are read**, before any is left out. -/
theorem Valset.read_eq_ok_iff {m : Valset} {v : Countersign.Valset} :
    m.read = .ok v ↔ ∃ time members, Timestamp.ofUnixSeconds? m.time = some time ∧
      List.Forall₂ Member.Means m.members members ∧ v = .make m.nonce members m.height time := by
  have hall : ∀ members, m.members.mapM Member.read = .ok members ↔
      List.Forall₂ Member.Means m.members members := by
    intro members
    simp only [mapM_eq_ok_iff, Member.read_eq_ok_iff]
  rw [Valset.read]
  cases htime : Timestamp.ofUnixSeconds? m.time with
  | none => exact ⟨nofun, nofun⟩
  | some time =>
    constructor
    · intro h
      cases hmembers : m.members.mapM Member.read with
      | error e =>
        rw [hmembers] at h
        cases h
      | ok members =>
        rw [hmembers] at h
        exact ⟨time, members, rfl, (hall members).mp hmembers, (Except.ok.inj h).symm⟩
    · rintro ⟨_, members, ⟨⟩, hmembers, rfl⟩
      rw [(hall members).mpr hmembers]

/-- A valset is read exactly as its message means it. -/
theorem Valset.read_eq_ok_iff_means {m : Valset} {v : Countersign.Valset} :
    m.read = .ok v ↔ m.Means v := by
  rw [Valset.read_eq_ok_iff]
  constructor
  · rintro ⟨time, members, htime, hmembers, rfl⟩
    obtain ⟨hrange, hseconds, hnanosecond, hoffset⟩ := Timestamp.of_ofUnixSeconds? htime
    exact ⟨rfl, rfl, hrange, hseconds, hnanosecond, hoffset, members, hmembers,
      Valset.firstOccurrences_eq_eraseDupsBy members⟩
  · rintro ⟨hnonce, hheight, hrange, hseconds, hnanosecond, hoffset, members, hmembers, hfirst⟩
    -- No other moment in universal time has as many seconds, so this is the one that is read.
    refine ⟨v.time, members, ?_, hmembers, ?_⟩
    · rw [← hseconds] at hrange ⊢
      exact Timestamp.ofUnixSeconds?_unixSeconds hrange hnanosecond hoffset
    · rw [Valset.make, Valset.firstOccurrences_eq_eraseDupsBy, ← hfirst, ← hnonce, ← hheight]

/-- **An attestation is read exactly as its message means it.** -/
theorem Attestation.read_eq_ok_iff {m : Attestation} {a : Countersign.Attestation} :
    m.read = .ok a ↔ m.Means a := by
  cases m with
  | valset m =>
    have hread : Attestation.read (.valset m) = .ok a ↔ ∃ v, m.read = .ok v ∧ a = .valset v := by
      rw [Attestation.read]
      cases m.read <;> simp [eq_comm]
    rw [hread]
    simp only [Valset.read_eq_ok_iff_means]
    cases a <;> simp [Attestation.Means]
  | dataCommitment nonce first last =>
    have hread : Attestation.read (.dataCommitment nonce first last) = .ok a ↔
        ∃ c, DataCommitment.make nonce first last = .ok c ∧ a = .dataCommitment c := by
      rw [Attestation.read]
      cases DataCommitment.make nonce first last <;> simp [eq_comm]
    rw [hread]
    simp only [DataCommitment.make_eq_ok_iff]
    cases a <;> simp [Attestation.Means]
  | unset => exact ⟨nofun, nofun⟩

/-! ### Refusing -/

/-- A valset is refused for its time, or for the address of one of its members. -/
theorem Valset.exists_read_eq_error_iff {m : Valset} :
    (∃ e, m.read = .error e) ↔ ¬ Timestamp.InRange m.time ∨ ∃ member ∈ m.members, ∃ fault,
      Address.parse (Bytes.ofText member.address) = .error fault := by
  -- The time is looked at first; for whether the message is refused, the order does not matter.
  have hmembers : (∃ e, m.members.mapM Member.read = .error e) ↔ ∃ member ∈ m.members, ∃ fault,
      Address.parse (Bytes.ofText member.address) = .error fault := by
    simp only [exists_mapM_eq_error_iff, Member.exists_read_eq_error_iff]
  rw [← Timestamp.ofUnixSeconds?_eq_none_iff, ← hmembers, Valset.read]
  cases Timestamp.ofUnixSeconds? m.time with
  | none => exact ⟨fun _ => Or.inl rfl, fun _ => ⟨_, rfl⟩⟩
  | some time =>
    cases m.members.mapM Member.read with
    | error e => exact ⟨fun _ => Or.inr ⟨e, rfl⟩, fun _ => ⟨e, rfl⟩⟩
    | ok members => exact ⟨nofun, fun h => h.elim nofun nofun⟩

/-- **A message is refused exactly if it means nothing.** -/
theorem Attestation.exists_read_eq_error_iff {m : Attestation} :
    (∃ e, m.read = .error e) ↔ m.Refused := by
  cases m with
  -- A valset fails as its fields do.
  | valset m =>
    have hread : (∃ e, Attestation.read (.valset m) = .error e) ↔ ∃ e, m.read = .error e := by
      rw [Attestation.read]
      cases m.read <;> simp
    rw [hread, Valset.exists_read_eq_error_iff]
    constructor
    · rintro (htime | ⟨member, hmem, fault, hfault⟩)
      · exact .time htime
      · exact .address hmem hfault
    · intro h
      cases h with
      | time htime => exact Or.inl htime
      | address hmem hfault => exact Or.inr ⟨_, hmem, _, hfault⟩
  -- A commitment fails for its range.
  | dataCommitment nonce first last =>
    rw [Attestation.read, DataCommitment.make]
    by_cases hrange : first < last
    · rw [if_pos hrange]
      refine iff_of_false ?_ fun h => ?_
      · rintro ⟨e, ⟨⟩⟩
      · cases h with
        | range hempty => exact hempty hrange
    · rw [if_neg hrange]
      exact ⟨fun _ => .range hrange, fun _ => ⟨_, rfl⟩⟩
  | unset => exact ⟨fun _ => .unset, fun _ => ⟨_, rfl⟩⟩

/-! ### Reading what was written -/

/-- A member's own message means this member. -/
theorem Member.means_ofMember_iff {member member' : Countersign.Member} :
    (ofMember member).Means member' ↔ member = member' := by
  constructor
  · rintro ⟨hpower, haddress⟩
    have hsame := Except.ok.inj (haddress.symm.trans member.address.parse_checksummed)
    cases member'
    cases hpower
    cases hsame
    rfl
  · rintro rfl
    exact ⟨rfl, member.address.parse_checksummed⟩

/-- A valset's message means the members as they are, except those that repeat an address. -/
theorem Valset.exists_forall₂_ofValset_iff {v : Countersign.Valset}
    {kept : List Countersign.Member} :
    (∃ members, List.Forall₂ Member.Means (ofValset v).members members ∧
      kept = members.eraseDupsBy Valset.sameAddress) ↔
    kept = v.members.eraseDupsBy Valset.sameAddress := by
  have hsame : ∀ members, List.Forall₂ Member.Means (ofValset v).members members ↔
      v.members = members := by
    intro members
    rw [ofValset, List.forall₂_map_left_iff]
    simp only [Member.means_ofMember_iff, List.forall₂_eq_eq_eq]
  simp only [hsame, exists_eq_left']

/-- What a valset's message means can be sent, and is on the clock of universal time. -/
theorem Valset.isSendable_of_means {m : Valset} {v : Countersign.Valset} (h : m.Means v) :
    v.IsSendable ∧ v.time.offset = 0 := by
  obtain ⟨members, -, hkept⟩ := h.members
  rw [← Valset.firstOccurrences_eq_eraseDupsBy] at hkept
  have hdistinct : v.addresses.Nodup := by
    rw [Valset.addresses, hkept]
    exact Valset.nodup_firstOccurrences [] members
  exact ⟨⟨hdistinct, h.unixSeconds.symm ▸ h.inRange, h.nanosecond⟩, h.offset⟩

/-- A valset is given back by its message as it is, exactly if it can be sent and its clock shows
universal time. -/
theorem Valset.means_ofValset_iff {v : Countersign.Valset} :
    (ofValset v).Means v ↔ v.IsSendable ∧ v.time.offset = 0 := by
  constructor
  · exact isSendable_of_means
  · rintro ⟨h, hoffset⟩
    have hkept : Valset.firstOccurrences [] v.members = v.members :=
      congrArg (·.members) (Valset.make_eq_self h.distinct)
    rw [Valset.firstOccurrences_eq_eraseDupsBy] at hkept
    exact ⟨rfl, rfl, h.inRange, rfl, h.nanosecond, hoffset,
      exists_forall₂_ofValset_iff.mpr hkept.symm⟩

/-- The same valset is sent as the same message. -/
theorem Valset.ofValset_eq_of_sameAs {v v' : Countersign.Valset} (h : v.SameAs v') :
    ofValset v = ofValset v' := by
  rw [ofValset, ofValset, h.nonce, h.members, h.height, (Timestamp.isSameMoment_iff.mp h.time).1]

/-- **On whatever clock**, a valset is given back by its message exactly if it can be sent. -/
theorem Valset.exists_means_ofValset_iff {v : Countersign.Valset} :
    (∃ v', (ofValset v).Means v' ∧ v.SameAs v') ↔ v.IsSendable := by
  constructor
  · rintro ⟨v', hmeans, hsame⟩
    -- What comes back is sent as the same message, so it can be sent, and the valset like it.
    rw [ofValset_eq_of_sameAs hsame] at hmeans
    obtain ⟨⟨hdistinct, hrange, hnanosecond⟩, -⟩ := means_ofValset_iff.mp hmeans
    obtain ⟨hseconds, hfraction⟩ := Timestamp.isSameMoment_iff.mp hsame.time
    exact ⟨by rwa [Valset.addresses, hsame.members], hseconds ▸ hrange,
      hfraction.trans hnanosecond⟩
  · intro h
    -- The valset comes back with its time on the clock of universal time.
    obtain ⟨time, -, hseconds, hnanosecond, hoffset⟩ := Timestamp.exists_ofUnixSeconds? h.inRange
    have hsame : v.SameAs { v with time } :=
      ⟨rfl, rfl, rfl, Timestamp.isSameMoment_iff.mpr
        ⟨hseconds.symm, h.nanosecond.trans hnanosecond.symm⟩⟩
    refine ⟨_, ?_, hsame⟩
    rw [ofValset_eq_of_sameAs hsame]
    exact means_ofValset_iff.mpr ⟨⟨h.distinct, hseconds.symm ▸ h.inRange, hnanosecond⟩, hoffset⟩

/-- An attestation is given back by its message as it is, exactly if nothing of it is lost and its
clock is the universal one. -/
theorem Attestation.means_ofAttestation_iff {a : Countersign.Attestation} :
    (ofAttestation a).Means a ↔ a.IsSendable ∧ a.InUniversalTime := by
  cases a with
  | valset v => exact Valset.means_ofValset_iff
  | dataCommitment c => exact ⟨fun h => ⟨h.1, trivial⟩, fun h => ⟨h.1, rfl⟩⟩

/-- On whatever clock, an attestation is given back by its message exactly if it can be sent. -/
theorem Attestation.exists_means_ofAttestation_iff {a : Countersign.Attestation} :
    (∃ a', (ofAttestation a).Means a' ∧ a.SameAs a') ↔ a.IsSendable := by
  cases a with
  | valset v =>
    refine Iff.trans ⟨?_, ?_⟩ Valset.exists_means_ofValset_iff
    · rintro ⟨_ | _, hmeans, hsame⟩
      · exact ⟨_, hmeans, hsame⟩
      · exact hmeans.elim
    · rintro ⟨v', hmeans, hsame⟩
      exact ⟨.valset v', hmeans, hsame⟩
  | dataCommitment c =>
    constructor
    · rintro ⟨_ | _, hmeans, -⟩
      · exact hmeans.elim
      · exact hmeans.1
    · exact fun h => ⟨.dataCommitment c, ⟨h, rfl⟩, rfl⟩

/-- What a message means can be sent, and is on the clock of universal time. -/
theorem Attestation.isSendable_of_means {m : Attestation} {a : Countersign.Attestation}
    (h : m.Means a) : a.IsSendable ∧ a.InUniversalTime := by
  cases m with
  | valset m =>
    cases a with
    | valset v => exact Valset.isSendable_of_means h
    | dataCommitment c => exact h.elim
  | dataCommitment nonce first last =>
    cases a with
    | valset v => exact h.elim
    | dataCommitment c =>
      obtain ⟨hrange, rfl⟩ := h
      exact ⟨hrange, trivial⟩
  | unset => cases a <;> exact h.elim

/-- **How far writing and reading a message undo each other.** -/
structure AttestationRoundTrips : Prop where
  /-- A message is read as what it means, -/
  read_iff : ∀ {m a}, Attestation.read m = .ok a ↔ m.Means a
  /-- unless it means nothing. -/
  refused_iff : ∀ {m}, (∃ e, Attestation.read m = .error e) ↔ m.Refused
  /-- Exactly what can be sent is read from its message, on whatever clock it was. -/
  sent_iff : ∀ {a}, (∃ a', (Attestation.ofAttestation a).read = .ok a' ∧ a.SameAs a') ↔ a.IsSendable
  /-- With universal time the clock is the same, too. -/
  sent_as_is_iff : ∀ {a},
    (Attestation.ofAttestation a).read = .ok a ↔ a.IsSendable ∧ a.InUniversalTime
  /-- So what was read from any message is given back as it is by its own. -/
  normal : ∀ {m a}, Attestation.read m = .ok a → (Attestation.ofAttestation a).read = .ok a

/-- **Attestations are read from their messages.** -/
theorem attestation_roundTrips : AttestationRoundTrips where
  read_iff := Attestation.read_eq_ok_iff
  refused_iff := Attestation.exists_read_eq_error_iff
  sent_iff := by
    simp only [Attestation.read_eq_ok_iff]
    exact Attestation.exists_means_ofAttestation_iff
  sent_as_is_iff := Attestation.read_eq_ok_iff.trans Attestation.means_ofAttestation_iff
  normal h := by
    have hsendable := Attestation.isSendable_of_means (Attestation.read_eq_ok_iff.mp h)
    exact Attestation.read_eq_ok_iff.mpr (Attestation.means_ofAttestation_iff.mpr hsendable)

end Message

end Countersign
