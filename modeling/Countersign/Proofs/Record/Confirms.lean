import Countersign.Proofs.Json.RoundTrip
import Countersign.Proofs.Text.Hex
import Countersign.Record.Decoding
import Countersign.Record.Encoding

/-!
# Records of confirms read back

A confirm is read from its own record as it was written (`Confirm.decode?_encode`), whatever its
signature text holds. So confirms that were put away as records, as the quorums that are remembered,
come back as the same confirms in the same order (`Confirm.mapM_decode?_encode`).
-/

namespace Countersign

namespace Json

@[simp] theorem text?_ofString (text : String) : (ofString text).text? = some text := rfl

/-- Members that are strings make an intact object, whatever characters they have. -/
theorem intact_ofMembers_ofString {members : List (String × Json)}
    (h : ∀ m ∈ members, ∃ text, m.2 = ofString text) : Intact (ofMembers members) := by
  refine .object fun m hm => ?_
  obtain ⟨text, htext⟩ := h m hm
  rw [htext]
  exact .string text

end Json

/-! ### Bytes of a fixed width -/

/-- Bytes are read from their text, in either reading, if as many are asked for. -/
theorem Reading.fixed?_encodePrefixed (reading : Reading) (bytes : Bytes) :
    reading.fixed? bytes.length (.ofString (Hex.encodePrefixed bytes)) = some bytes := by
  rw [Json.ofString, Reading.fixed?, Hex.stripAnyPrefix_encodePrefixed,
    Hex.decodeExactly_digitBytes]

/-- An address is read from its text as a string of the format. -/
@[simp] theorem Address.ofJson?_render (reading : Reading) (a : Address) :
    Address.ofJson? reading (.ofString a.render) = some a := by
  have h := reading.fixed?_encodePrefixed a.toBytes
  rw [Address.length_toBytes] at h
  rw [Address.ofJson?, Address.render, h, Option.map_some, Address.ofBytes_toBytes]

/-- So is a word. -/
@[simp] theorem Word.ofJson?_render (reading : Reading) (w : Word) :
    Word.ofJson? reading (.ofString w.render) = some w := by
  have h := reading.fixed?_encodePrefixed w.toBytes
  rw [Word.length_toBytes] at h
  rw [Word.ofJson?, Word.render, h, Option.map_some, Word.ofBytes_toBytes]

/-! ### Confirms -/

/-- A valset's confirm is read from its record. -/
theorem ValsetConfirm.ofJson?_toJson (c : ValsetConfirm) :
    ValsetConfirm.ofJson? c.toJson = some c := by
  have hfields : c.toJson.fields? ["EthAddress", "Signature"] =
      some [.ofString c.signer.render, .ofString c.signature] := by
    simp [ValsetConfirm.toJson, Json.ofMembers, Json.fields?, Json.only?]
  simp [ValsetConfirm.ofJson?, hfields]

/-- A commitment's confirm is read from its record, with its root. -/
theorem CommitmentConfirm.ofJson?_toJson (c : CommitmentConfirm) :
    CommitmentConfirm.ofJson? c.toJson = some c := by
  have hfields : c.toJson.fields? ["Signature", "EthAddress", "Commitment"] =
      some [.ofString c.signature, .ofString c.signer.render, .ofString c.commitment.render] := by
    simp [CommitmentConfirm.toJson, Json.ofMembers, Json.fields?, Json.only?]
  simp [CommitmentConfirm.ofJson?, hfields]

/-- The record of a confirm is intact, so it is read as the tree it was written from. -/
theorem Confirm.intact_toJson (c : Confirm) : c.toJson.Intact := by
  cases c with
  | valset c =>
    refine Json.intact_ofMembers_ofString fun m hm => ?_
    simp only [List.mem_cons, List.not_mem_nil, or_false] at hm
    rcases hm with rfl | rfl <;> exact ⟨_, rfl⟩
  | commitment c =>
    refine Json.intact_ofMembers_ofString fun m hm => ?_
    simp only [List.mem_cons, List.not_mem_nil, or_false] at hm
    rcases hm with rfl | rfl | rfl <;> exact ⟨_, rfl⟩

/-- A confirm is read from its own record, if one of its kind is asked for. -/
theorem Confirm.decode?_encode (c : Confirm) :
    Confirm.decode? c.kind (Bytes.ofText c.encode) = some c := by
  rw [Confirm.decode?, Confirm.encode, Json.parse?_render c.intact_toJson, Option.bind_some]
  cases c with
  | valset c => simp [Confirm.toJson, Confirm.kind, Confirm.ofJson?, c.ofJson?_toJson]
  | commitment c => simp [Confirm.toJson, Confirm.kind, Confirm.ofJson?, c.ofJson?_toJson]

/-- What is read as a confirm of a kind has that kind. The record itself does not name it. -/
theorem Confirm.kind_of_decode? {kind : AttestationKind} {value : Bytes} {c : Confirm}
    (h : Confirm.decode? kind value = some c) : c.kind = kind := by
  obtain ⟨j, -, hj⟩ := Option.bind_eq_some_iff.mp h
  cases kind with
  | valset =>
    obtain ⟨c', -, rfl⟩ := Option.map_eq_some_iff.mp hj
    rfl
  | dataCommitment =>
    obtain ⟨c', -, rfl⟩ := Option.map_eq_some_iff.mp hj
    rfl

/-- Confirms of one kind are read from their records, in order. A quorum comes back from the cache
like this. -/
theorem Confirm.mapM_decode?_encode {kind : AttestationKind} {confirms : List Confirm}
    (h : ∀ c ∈ confirms, c.kind = kind) :
    (confirms.map fun c => Bytes.ofText c.encode).mapM (Confirm.decode? kind) = some confirms := by
  induction confirms with
  | nil => rfl
  | cons c confirms ih =>
    -- Each record is read on its own, under the kind that all of them have.
    have hc : Confirm.decode? kind (Bytes.ofText c.encode) = some c := by
      rw [← h c List.mem_cons_self]
      exact c.decode?_encode
    have hlater := ih fun c' hc' => h c' (List.mem_cons_of_mem _ hc')
    simp [hc, hlater]

end Countersign
