import Countersign.Proofs.Calendar.Texts
import Countersign.Proofs.Json.Counts
import Countersign.Proofs.Record.Confirms

/-!
# Records read back

Every record is read back as what it was written for, and a text that is read, in whatever layout,
has one text in which it is written again (`records_readBack`). The layouts are taken apart from the
inside out:

* a member, a list of members, the fields of a valset and those of a data commitment are each read
  from their own writing, right where they stand and kept aside (`Valset.ofJson?_fields`,
  `DataCommitment.ofJson?_toJson`);
* an attestation is its kind and these fields. They are kept aside while the kind is looked for,
  which loses nothing: their strings are text, their counts are far within the floating-point range,
  and they are not nested deeply (`Attestation.split?_ofMembers`);
* a whole text is read as the tree it was written from, as such a tree is intact
  (`Json.parse?_render`).

Only a valset may have no record, if the year of its time has not four digits.
-/

namespace Countersign

namespace Json

@[simp] theorem elements?_ofList (elements : List Json) :
    (ofList elements).elements? = some elements := rfl

/-- An object of intact values is intact. -/
theorem intact_ofMembers {members : List (String × Json)} (h : ∀ m ∈ members, m.2.Intact) :
    (ofMembers members).Intact :=
  .object h

theorem intact_ofUInt64 (n : UInt64) : Intact (ofUInt64 n) := .number n.toNat

/-- A string can be kept aside at any depth, as it is text already. -/
theorem isKeepable_ofString (depth : Nat) (text : String) :
    isKeepable depth (ofString text) = true := by
  cases depth <;> rfl

/-- A list can be kept aside if each of its elements can. -/
theorem allKeepable_iff {depth : Nat} {elements : List Json} :
    allKeepable depth elements = true ↔ ∀ j ∈ elements, isKeepable depth j = true := by
  induction elements with
  | nil => simp [allKeepable]
  | cons j elements ih => simp [allKeepable, ih]

end Json

/-! ### Members -/

/-- A member is read from its own record, in either reading. -/
@[simp] theorem Member.ofJson?_toJson (reading : Reading) (m : Member) :
    Member.ofJson? reading m.toJson = some m := by
  have hfields : m.toJson.fields? ["power", "evm_address"] =
      some [.ofUInt64 m.power, .ofString m.address.render] := by
    simp [Member.toJson, Json.ofMembers, Json.fields?, Json.only?]
  simp [Member.ofJson?, hfields]

/-- Members are read from their records, in order, and none is left out. -/
theorem Member.mapM_ofJson?_toJson (reading : Reading) (members : List Member) :
    (members.map Member.toJson).mapM (Member.ofJson? reading) = some members := by
  induction members with
  | nil => rfl
  | cons m members ih => simp [ih]

theorem Member.intact_toJson (m : Member) : m.toJson.Intact := by
  refine Json.intact_ofMembers fun field hfield => ?_
  simp only [List.mem_cons, List.not_mem_nil, or_false] at hfield
  rcases hfield with rfl | rfl
  · exact Json.intact_ofUInt64 _
  · exact .string _

/-- A member can be kept aside. One level of nesting is its own. -/
theorem Member.isKeepable_toJson (depth : Nat) (m : Member) :
    m.toJson.isKeepable (depth + 1) = true := by
  simp [Member.toJson, Json.ofMembers, Json.isKeepable, Json.membersKeepable,
    Json.isKeepable_ofUInt64, Json.isKeepable_ofString]

/-! ### Valsets and data commitments -/

/-- A time is read from its text as a string of the format. -/
theorem Timestamp.ofJson?_write? {t : Timestamp} {text : List Char} (h : t.write? = some text) :
    Timestamp.ofJson? (.ofString (String.ofList text)) = some t := by
  rw [Timestamp.ofJson?, Json.text?_ofString, Option.bind_some, Timestamp.parse?_write? h]

/-- The fields of a valset, if its time has a text. It is only here that a valset may have no
record. -/
theorem Valset.fields?_eq_some_iff {v : Valset} {fields : List (String × Json)} :
    v.fields? = some fields ↔ ∃ time, v.time.write? = some time ∧
      [("nonce", .ofUInt64 v.nonce), ("members", .ofList (v.members.map Member.toJson)),
        ("height", .ofUInt64 v.height), ("time", .ofString (String.ofList time))] = fields :=
  Option.map_eq_some_iff

/-- A valset is read from its fields, in either reading: right where they stand, and kept aside. -/
theorem Valset.ofJson?_fields (reading : Reading) {v : Valset} {fields : List (String × Json)}
    (h : v.fields? = some fields) : Valset.ofJson? reading (.ofMembers fields) = some v := by
  obtain ⟨time, htime, rfl⟩ := Valset.fields?_eq_some_iff.mp h
  have hmembers := Member.mapM_ofJson?_toJson reading v.members
  rw [Valset.ofJson?]
  simp [Json.ofMembers, Json.fields?, Json.only?, Timestamp.ofJson?_write? htime, hmembers,
    -List.mapM_map]

theorem Valset.intact_fields {v : Valset} {fields : List (String × Json)}
    (h : v.fields? = some fields) : ∀ field ∈ fields, field.2.Intact := by
  obtain ⟨time, htime, rfl⟩ := Valset.fields?_eq_some_iff.mp h
  intro field hfield
  simp only [List.mem_cons, List.not_mem_nil, or_false] at hfield
  rcases hfield with rfl | rfl | rfl | rfl
  · exact Json.intact_ofUInt64 _
  · refine .array fun j hj => ?_
    obtain ⟨m, -, rfl⟩ := List.mem_map.mp hj
    exact m.intact_toJson
  · exact Json.intact_ofUInt64 _
  · exact .string _

/-- The fields of a valset can be kept aside. Two levels of nesting are the list of the members and
the members. -/
theorem Valset.keepable_fields {v : Valset} {fields : List (String × Json)}
    (h : v.fields? = some fields) (depth : Nat) :
    Json.membersKeepable (depth + 2) fields = true := by
  obtain ⟨time, htime, rfl⟩ := Valset.fields?_eq_some_iff.mp h
  have hmembers : Json.allKeepable (depth + 1) (v.members.map Member.toJson) = true := by
    refine Json.allKeepable_iff.mpr fun j hj => ?_
    obtain ⟨m, -, rfl⟩ := List.mem_map.mp hj
    exact m.isKeepable_toJson depth
  simp [Json.membersKeepable, Json.ofList, Json.isKeepable, hmembers, Json.isKeepable_ofUInt64,
    Json.isKeepable_ofString]

@[simp] theorem DataCommitment.ofJson?_toJson (c : DataCommitment) :
    DataCommitment.ofJson? c.toJson = some c := by
  rw [DataCommitment.ofJson?]
  simp [DataCommitment.toJson, DataCommitment.fields, Json.ofMembers, Json.fields?, Json.only?]

theorem DataCommitment.intact_fields (c : DataCommitment) :
    ∀ field ∈ c.fields, field.2.Intact := by
  intro field hfield
  simp only [DataCommitment.fields, List.mem_cons, List.not_mem_nil, or_false] at hfield
  rcases hfield with rfl | rfl | rfl <;> exact Json.intact_ofUInt64 _

theorem DataCommitment.keepable_fields (c : DataCommitment) (depth : Nat) :
    Json.membersKeepable depth c.fields = true := by
  simp [DataCommitment.fields, Json.membersKeepable, Json.isKeepable_ofUInt64]

/-! ### Attestations -/

/-- The kind in front of the fields is told apart from them. No field has the name of the kind, and
all of them survive being kept aside. -/
theorem Attestation.split?_ofMembers {name : String} {fields : List (String × Json)}
    (hname : ∀ field ∈ fields, field.1 ≠ "type")
    (hkeepable : Json.membersKeepable 126 fields = true) :
    Attestation.split? (.ofMembers (("type", .ofString name) :: fields)) =
      some (name, .ofMembers fields) := by
  have hothers : fields.filter (·.1 != "type") = fields :=
    List.filter_eq_self.mpr fun field hfield => bne_iff_ne.mpr (hname field hfield)
  have honly : fields.filter (·.1 == "type") = [] :=
    List.filter_eq_nil_iff.mpr fun field hfield => by simpa using hname field hfield
  simp [Attestation.split?, Json.ofMembers, Json.only?, honly, hothers, hkeepable]

/-- **An attestation is read from its record**: its kind is split off, and the fields are read for
this kind. -/
theorem Attestation.ofJson?_toJson? {a : Attestation} {j : Json} (h : a.toJson? = some j) :
    Attestation.ofJson? j = some a := by
  cases a with
  | valset v =>
    obtain ⟨fields, hfields, rfl⟩ := Option.map_eq_some_iff.mp h
    have hname : ∀ field ∈ fields, field.1 ≠ "type" := by
      obtain ⟨time, -, rfl⟩ := Valset.fields?_eq_some_iff.mp hfields
      simp
    rw [Attestation.ofJson?,
      Attestation.split?_ofMembers hname (Valset.keepable_fields hfields 124)]
    simp [Attestation.kind, Valset.ofJson?_fields .kept hfields]
  | dataCommitment c =>
    obtain rfl := Option.some.inj h
    have hname : ∀ field ∈ c.fields, field.1 ≠ "type" := by simp [DataCommitment.fields]
    rw [Attestation.ofJson?, Attestation.split?_ofMembers hname (c.keepable_fields 126)]
    have hread : DataCommitment.ofJson? (.ofMembers c.fields) = some c := c.ofJson?_toJson
    simp [Attestation.kind, hread]

theorem Attestation.intact_toJson {a : Attestation} {j : Json} (h : a.toJson? = some j) :
    j.Intact := by
  cases a with
  | valset v =>
    obtain ⟨fields, hfields, rfl⟩ := Option.map_eq_some_iff.mp h
    exact Json.intact_ofMembers (List.forall_mem_cons.mpr ⟨.string _, Valset.intact_fields hfields⟩)
  | dataCommitment c =>
    obtain rfl := Option.some.inj h
    exact Json.intact_ofMembers (List.forall_mem_cons.mpr ⟨.string _, c.intact_fields⟩)

/-! ### Whole texts -/

/-- A valset is read from its text. This and the next two are the layouts above, and then the
format. -/
theorem Valset.decode?_encode? {v : Valset} {text : String} (h : v.encode? = some text) :
    Valset.decode? (Bytes.ofText text) = some v := by
  obtain ⟨j, hj, rfl⟩ := Option.map_eq_some_iff.mp h
  obtain ⟨fields, hfields, rfl⟩ := Option.map_eq_some_iff.mp hj
  rw [Valset.decode?, Json.parse?_render (Json.intact_ofMembers (Valset.intact_fields hfields)),
    Option.bind_some]
  exact Valset.ofJson?_fields .inPlace hfields

theorem DataCommitment.decode?_render (c : DataCommitment) :
    DataCommitment.decode? (Bytes.ofText c.toJson.render) = some c := by
  have hintact : c.toJson.Intact := Json.intact_ofMembers c.intact_fields
  rw [DataCommitment.decode?, Json.parse?_render hintact, Option.bind_some, c.ofJson?_toJson]

theorem Attestation.decode?_encode? {a : Attestation} {text : String} (h : a.encode? = some text) :
    Attestation.decode? (Bytes.ofText text) = some a := by
  obtain ⟨j, hj, rfl⟩ := Option.map_eq_some_iff.mp h
  rw [Attestation.decode?, Json.parse?_render (Attestation.intact_toJson hj), Option.bind_some,
    Attestation.ofJson?_toJson? hj]

/-- A valset has a record exactly if its time has a text. -/
theorem Valset.isSome_encode?_iff (v : Valset) :
    v.encode?.isSome = true ↔ v.time.HasFourDigitYear := by
  rw [← Timestamp.isSome_write?_iff]
  simp [Valset.encode?, Valset.toJson?, Valset.fields?]

/-- Whether an attestation has a record: a valset needs a time of a year with four digits. -/
def Attestation.IsWritable : Attestation → Prop
  | .valset v => v.time.HasFourDigitYear
  | .dataCommitment _ => True

/-- An attestation has a record exactly if it is writable. -/
theorem Attestation.isSome_encode?_iff (a : Attestation) :
    a.encode?.isSome = true ↔ a.IsWritable := by
  cases a with
  | valset v =>
    rw [Attestation.IsWritable, ← Timestamp.isSome_write?_iff]
    simp [Attestation.encode?, Attestation.toJson?, Valset.fields?]
  | dataCommitment c => exact ⟨fun _ => trivial, fun _ => rfl⟩

/-- The record of a confirm of a kind. A confirm of the other kind has none among these, as the kind
is not part of the record but of its key. -/
def Confirm.encodeAs? (kind : AttestationKind) (c : Confirm) : Option String :=
  if c.kind = kind then some c.encode else none

/-- **A format of records that loses nothing.** `write?` gives the text for a value and `read?` the
value of a text, which may be laid out in other ways than the one that is written. -/
structure ReadsBack {α : Type} (write? : α → Option String) (read? : Bytes → Option α)
    (writable : α → Prop) : Prop where
  /-- Exactly the writable values have a text. -/
  written_iff : ∀ a, (write? a).isSome = true ↔ writable a
  /-- A value is read from its text. -/
  read_written : ∀ {a text}, write? a = some text → read? (Bytes.ofText text) = some a
  /-- What is read from any text and is writable is read again from its own text. Two texts of
  different values are never written again as the same one. -/
  normal : ∀ {bytes a}, read? bytes = some a → writable a →
    ∃ text, write? a = some text ∧ read? (Bytes.ofText text) = some a ∧
      ∀ {bytes' a'}, read? bytes' = some a' → (write? a' = some text ↔ a' = a)

/-- It is enough that values are read from their texts. The normal form follows, since what is read
has a text of its own and is read from that. -/
theorem ReadsBack.of_read_written {α : Type} {write? : α → Option String}
    {read? : Bytes → Option α} {writable : α → Prop}
    (hwritten : ∀ a, (write? a).isSome = true ↔ writable a)
    (hread : ∀ {a text}, write? a = some text → read? (Bytes.ofText text) = some a) :
    ReadsBack write? read? writable where
  written_iff := hwritten
  read_written := hread
  normal {bytes a} _ hwritable := by
    obtain ⟨text, htext⟩ := Option.isSome_iff_exists.mp ((hwritten a).mpr hwritable)
    refine ⟨text, htext, hread htext, fun {bytes' a'} _ => ⟨fun hsame => ?_, fun heq => ?_⟩⟩
    · exact Option.some.inj ((hread hsame).symm.trans (hread htext))
    · rw [heq, htext]

/-- **Every format of records reads back.** The latest valset is stored in the format of valsets.
The formats of confirms are two, one for each kind. -/
theorem records_readBack :
    ReadsBack Valset.encode? Valset.decode? (·.time.HasFourDigitYear) ∧
    ReadsBack (some ·.toJson.render) DataCommitment.decode? (fun _ => True) ∧
    ReadsBack Attestation.encode? Attestation.decode? Attestation.IsWritable ∧
    ∀ kind, ReadsBack (Confirm.encodeAs? kind) (Confirm.decode? kind) (·.kind = kind) := by
  refine ⟨.of_read_written Valset.isSome_encode?_iff Valset.decode?_encode?,
    .of_read_written (fun c => ⟨fun _ => trivial, fun _ => rfl⟩) ?_,
    .of_read_written Attestation.isSome_encode?_iff Attestation.decode?_encode?,
    fun kind => .of_read_written (fun c => ?_) ?_⟩
  · rintro c text h
    obtain rfl := Option.some.inj h
    exact c.decode?_render
  · simp [Confirm.encodeAs?]
  · rintro c text h
    obtain ⟨rfl, htext⟩ := Option.ite_none_right_eq_some.mp h
    obtain rfl := Option.some.inj htext
    exact c.decode?_encode

end Countersign
