import Countersign.Proofs.Attestation.Messages
import Countersign.Proofs.Record.Attestations
import Countersign.Proofs.Store.Selection

/-!
# What is read may mean nothing

An attestation that comes as a message is well-formed (`Message.Attestation.wellFormed_of_read`),
because only what could be sent is read. One that comes as a record need not be: a record is taken
as it stands.

* A valset is read with one member for each element of its list (`Valset.forall₂_of_ofJson?`), so it
  names each address once exactly if the record lists none twice (`Json.ListsOnce`).
* A range of blocks is read as its two bounds, so it is empty exactly if these are in the wrong
  order (`Json.ListsRange`).

This holds wherever a valset is read from a record, thus also for the latest valset that a store
finds, which anybody may have put there. `decodes_wellFormed` says it for all ways in, and
`decoded_not_wellFormed` shows records whose valset names an address twice, and whose range is
empty.
-/

namespace Countersign

open Routine

/-! ### Messages -/

/-- A valset that is read from a message goes through the check of its members. -/
theorem Message.Valset.nodup_of_read {m : Message.Valset} {v : Countersign.Valset}
    (h : m.read = .ok v) : v.addresses.Nodup :=
  (Message.Valset.isSendable_of_means (Message.Valset.read_eq_ok_iff_means.mp h)).1.distinct

/-- An attestation that comes as a message is well-formed, of either kind. -/
theorem Message.Attestation.wellFormed_of_read {m : Message.Attestation}
    {a : Countersign.Attestation} (h : m.read = .ok a) : a.WellFormed := by
  obtain ⟨hsendable, -⟩ :=
    Message.Attestation.isSendable_of_means (Message.Attestation.read_eq_ok_iff.mp h)
  exact hsendable.wellFormed

/-! ### What a record lists -/

namespace Json

/-- What a record lists as members, before any of them is read. -/
def listedMembers? (j : Json) : Option (List Json) :=
  match j.fields? ["nonce", "members", "height", "time"] with
  | some [_, members, _, _] => members.elements?
  | _ => none

/-- The address that an element of such a list names. Two elements may name one address in different
spellings, so they are compared by what is read of them. -/
def listedAddress? (reading : Reading) (j : Json) : Option Address :=
  match j.fields? ["power", "evm_address"] with
  | some [_, address] => Address.ofJson? reading address
  | _ => none

/-- A record that lists no address twice, in whatever spelling. This can be seen of the record,
without the valset that is made of it. -/
def ListsOnce (reading : Reading) (j : Json) : Prop :=
  ∃ elements, j.listedMembers? = some elements ∧
    elements.Pairwise fun a b => a.listedAddress? reading ≠ b.listedAddress? reading

/-- A record whose range begins before it ends. -/
def ListsRange (j : Json) : Prop :=
  ∃ nonce first last m n, j.fields? ["nonce", "begin_block", "end_block"] =
    some [nonce, first, last] ∧ first.uint64? = some m ∧ last.uint64? = some n ∧ m < n

end Json

/-! ### What is read from it -/

/-- A member has the address that its element names. -/
theorem Member.listedAddress?_of_ofJson? {reading : Reading} {j : Json} {m : Member}
    (h : Member.ofJson? reading j = some m) : j.listedAddress? reading = some m.address := by
  have hread : ∃ power address, j.fields? ["power", "evm_address"] = some [power, address] ∧
      Address.ofJson? reading address = some m.address := by
    rw [Member.ofJson?] at h
    split at h
    · next power address hfields =>
      obtain ⟨n, -, h⟩ := Option.bind_eq_some_iff.mp h
      obtain ⟨a, haddress, h⟩ := Option.bind_eq_some_iff.mp h
      obtain rfl := Option.some.inj h
      exact ⟨power, address, hfields, haddress⟩
    · cases h
  obtain ⟨power, address, hfields, haddress⟩ := hread
  rw [Json.listedAddress?, hfields]
  exact haddress

/-- **A valset is read with one member for each element** that is listed: none is left out as a
repetition. -/
theorem Valset.forall₂_of_ofJson? {reading : Reading} {j : Json} {v : Valset}
    (h : Valset.ofJson? reading j = some v) : ∃ elements, j.listedMembers? = some elements ∧
      List.Forall₂ (fun e m => Member.ofJson? reading e = some m) elements v.members := by
  have hread : ∃ nonce members height time elements,
      j.fields? ["nonce", "members", "height", "time"] = some [nonce, members, height, time] ∧
        members.elements? = some elements ∧
          elements.mapM (Member.ofJson? reading) = some v.members := by
    rw [Valset.ofJson?] at h
    split at h
    · next nonce members height time hfields =>
      obtain ⟨n, -, h⟩ := Option.bind_eq_some_iff.mp h
      obtain ⟨elements, helements, h⟩ := Option.bind_eq_some_iff.mp h
      obtain ⟨ms, hms, h⟩ := Option.bind_eq_some_iff.mp h
      obtain ⟨n', -, h⟩ := Option.bind_eq_some_iff.mp h
      obtain ⟨t, -, h⟩ := Option.bind_eq_some_iff.mp h
      obtain rfl := Option.some.inj h
      exact ⟨nonce, members, height, time, elements, hfields, helements, hms⟩
    · cases h
  obtain ⟨nonce, members, height, time, elements, hfields, helements, hms⟩ := hread
  refine ⟨elements, ?_, mapM_eq_some_iff.mp hms⟩
  rw [Json.listedMembers?, hfields]
  exact helements

/-- **A valset names each address once** exactly if its record lists none twice. So whoever writes a
record decides this. -/
theorem Valset.nodup_iff_of_ofJson? {reading : Reading} {j : Json} {v : Valset}
    (h : Valset.ofJson? reading j = some v) : v.addresses.Nodup ↔ j.ListsOnce reading := by
  obtain ⟨elements, hlisted, hmembers⟩ := Valset.forall₂_of_ofJson? h
  have hpairs : (elements.Pairwise fun a b => a.listedAddress? reading ≠ b.listedAddress? reading) ↔
      v.members.Pairwise fun m m' => m.address ≠ m'.address := by
    refine pairwise_iff_of_forall₂ (fun ha hb => ?_) hmembers
    rw [Member.listedAddress?_of_ofJson? ha, Member.listedAddress?_of_ofJson? hb]
    exact not_congr Option.some_inj
  rw [addresses, List.Nodup, List.pairwise_map, ← hpairs]
  constructor
  · exact fun h => ⟨elements, hlisted, h⟩
  · rintro ⟨elements', hlisted', h⟩
    rw [hlisted] at hlisted'
    obtain rfl := Option.some.inj hlisted'
    exact h

/-- **A range is not empty** exactly if it is listed so, since the two bounds are taken as they
stand. -/
theorem DataCommitment.lt_iff_of_ofJson? {j : Json} {c : DataCommitment}
    (h : DataCommitment.ofJson? j = some c) : c.beginBlock < c.endBlock ↔ j.ListsRange := by
  rw [DataCommitment.ofJson?] at h
  split at h
  · next nonce first last hfields =>
    obtain ⟨n, -, h⟩ := Option.bind_eq_some_iff.mp h
    obtain ⟨m, hfirst, h⟩ := Option.bind_eq_some_iff.mp h
    obtain ⟨m', hlast, h⟩ := Option.bind_eq_some_iff.mp h
    obtain rfl := Option.some.inj h
    constructor
    · exact fun hlt => ⟨_, _, _, m, m', hfields, hfirst, hlast, hlt⟩
    · rintro ⟨_, _, _, k, k', hfields', hfirst', hlast', hlt⟩
      rw [hfields] at hfields'
      cases hfields'
      rw [hfirst] at hfirst'
      rw [hlast] at hlast'
      cases hfirst'
      cases hlast'
      exact hlt
  · cases h

/-- What an attestation's fields list, for its kind. -/
def Attestation.ListedWell (a : Attestation) (fields : Json) : Prop :=
  match a.kind with
  | .valset => fields.ListsOnce .kept
  | .dataCommitment => fields.ListsRange

/-- **An attestation is well-formed** exactly if its fields list it so. -/
theorem Attestation.wellFormed_iff_of_ofJson? {j : Json} {a : Attestation}
    (h : Attestation.ofJson? j = some a) : a.WellFormed ↔
      ∃ name fields, Attestation.split? j = some (name, fields) ∧ a.ListedWell fields := by
  -- The tag chooses the fields, and each kind has its own condition.
  have hfields : ∃ name fields, Attestation.split? j = some (name, fields) ∧
      (a.WellFormed ↔ a.ListedWell fields) := by
    rw [Attestation.ofJson?] at h
    split at h
    · cases h
    next name fields hsplit =>
    refine ⟨name, fields, hsplit, ?_⟩
    split at h
    · obtain ⟨v, hv, rfl⟩ := Option.map_eq_some_iff.mp h
      exact Valset.nodup_iff_of_ofJson? hv
    · obtain ⟨c, hc, rfl⟩ := Option.map_eq_some_iff.mp h
      exact DataCommitment.lt_iff_of_ofJson? hc
    · cases h
  obtain ⟨name, fields, hsplit, hiff⟩ := hfields
  rw [hiff]
  constructor
  · exact fun h => ⟨name, fields, hsplit, h⟩
  · -- There is only one way to take the record apart.
    rintro ⟨name', fields', hsplit', h⟩
    rw [hsplit] at hsplit'
    cases hsplit'
    exact h

/-! ### All ways in -/

/-- **When what is read is well-formed**, for each form in which an attestation or a part of one
comes in: as a message `m`, its valset `w` alone, the text `value` of a record, or what the replicas
of a store answer. -/
structure DecodesWellFormed (m : Message.Attestation) (w : Message.Valset) (value : Bytes)
    (config : StoreConfig) : Prop where
  /-- What is read from a message is. -/
  message : ∀ {a}, m.read = .ok a → a.WellFormed
  /-- So is the valset alone. -/
  messageValset : ∀ {v}, w.read = .ok v → v.addresses.Nodup
  /-- A valset's record may list no address twice. -/
  valset : ∀ {v}, Valset.decode? value = some v →
    (v.addresses.Nodup ↔ ∃ j, Json.parse? value = some j ∧ j.ListsOnce .inPlace)
  /-- A data commitment's record must list a range. -/
  dataCommitment : ∀ {c}, DataCommitment.decode? value = some c →
    (c.beginBlock < c.endBlock ↔ ∃ j, Json.parse? value = some j ∧ j.ListsRange)
  /-- For an attestation's record it is the same with the fields next to its kind. -/
  attestation : ∀ {a}, Attestation.decode? value = some a →
    (a.WellFormed ↔ ∃ j name fields, Json.parse? value = some j ∧
      Attestation.split? j = some (name, fields) ∧ a.ListedWell fields)
  /-- The latest valset that is found comes from a record of some replica, as it stands there. -/
  latestValset : ∀ {t v}, Follows (Store.latestValset config) t (.ok (some v)) →
    ∃ values, t = [⟨.get latestValsetKey config.requestTimeout, .ok values⟩] ∧
      ∃ value ∈ values, Valset.decode? value = some v ∧
        (v.addresses.Nodup ↔ ∃ j, Json.parse? value = some j ∧ j.ListsOnce .inPlace)

theorem Valset.nodup_iff_of_decode? {value : Bytes} {v : Valset}
    (h : Valset.decode? value = some v) :
    v.addresses.Nodup ↔ ∃ j, Json.parse? value = some j ∧ j.ListsOnce .inPlace := by
  obtain ⟨j, hparse, hread⟩ := Option.bind_eq_some_iff.mp h
  rw [Valset.nodup_iff_of_ofJson? hread, hparse]
  simp

/-- **Messages are read as well-formed attestations**, and records as they stand. -/
theorem decodes_wellFormed (m : Message.Attestation) (w : Message.Valset) (value : Bytes)
    (config : StoreConfig) : DecodesWellFormed m w value config where
  message := Message.Attestation.wellFormed_of_read
  messageValset := Message.Valset.nodup_of_read
  valset := Valset.nodup_iff_of_decode?
  dataCommitment h := by
    obtain ⟨j, hparse, hread⟩ := Option.bind_eq_some_iff.mp h
    rw [DataCommitment.lt_iff_of_ofJson? hread, hparse]
    simp
  attestation h := by
    obtain ⟨j, hparse, hread⟩ := Option.bind_eq_some_iff.mp h
    rw [Attestation.wellFormed_iff_of_ofJson? hread, hparse]
    simp
  latestValset h := by
    obtain ⟨values, rfl, value, hmem, hdecode⟩ := Store.latestValset_follows_some h
    exact ⟨values, rfl, value, hmem, hdecode, Valset.nodup_iff_of_decode? hdecode⟩

/-- A record with an empty range. -/
def emptyRangeRecord : String :=
  "\x7b\"nonce\":2,\"begin_block\":5,\"end_block\":5\x7d"

/-- A record in which the address of nobody is a member twice. -/
def namedTwiceRecord : String :=
  "\x7b\"nonce\":2,\"members\":[" ++
    "\x7b\"power\":1,\"evm_address\":\"0x0000000000000000000000000000000000000000\"\x7d," ++
    "\x7b\"power\":1,\"evm_address\":\"0x0000000000000000000000000000000000000000\"\x7d]," ++
    "\"height\":0,\"time\":\"1970-01-01T00:00:00Z\"\x7d"

/-- **Records are read though they mean nothing**: a range that is empty, and a valset that names an
address twice, which is also found as the latest one. -/
theorem decoded_not_wellFormed :
    (∃ c, DataCommitment.decode? (Bytes.ofText emptyRangeRecord) = some c ∧
      ¬ c.beginBlock < c.endBlock) ∧
    ∃ v, Valset.decode? (Bytes.ofText namedTwiceRecord) = some v ∧ ¬ v.addresses.Nodup ∧
      ∀ config, Follows (Store.latestValset config)
        [⟨.get latestValsetKey config.requestTimeout, .ok [Bytes.ofText namedTwiceRecord]⟩]
        (.ok (some v)) := by
  -- Both texts are the records of these values, from which they are read.
  have hrange : (⟨2, 5, 5⟩ : DataCommitment).toJson.render = emptyRangeRecord := by decide
  let twice : Valset := ⟨2, [⟨1, .zero⟩, ⟨1, .zero⟩], 0, .epoch⟩
  have htwice : twice.encode? = some namedTwiceRecord := by decide +kernel
  have hread := Valset.decode?_encode? htwice
  refine ⟨⟨⟨2, 5, 5⟩, ?_, by decide⟩, twice, hread, by decide, fun config => ?_⟩
  · rw [← hrange]
    exact DataCommitment.decode?_render _
  · exact Store.latestValset_follows_sole config hread (by decide)

end Countersign
