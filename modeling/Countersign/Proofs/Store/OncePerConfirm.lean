import Countersign.Proofs.Store.Replicas
import Countersign.Proofs.Store.Spelling

/-!
# One record for each confirm

A replica keeps one record under each key, and a confirm that it keeps stays. So it holds **at most
one record for each confirm** (`Replica.OncePerConfirm`) as long as everybody spells the keys in the
same way. A record is accepted under every spelling of its key (`isAccepted_congr`), however, and
each spelling is a key of its own. A replica therefore holds one record for each spelling under
which one was accepted (`Replica.oncePerConfirm_iff`), and may hold several for one confirm
(`Replica.not_oncePerConfirm`).
-/

namespace Countersign

variable {key key' : String} {k : ConfirmKey} {value : Bytes}

/-! ### Keys of one confirm -/

/-- A spelling of a confirm's key is a key for confirms. -/
theorem ConfirmKey.Spells.isConfirmKey (h : ConfirmKey.Spells key k) : IsConfirmKey key :=
  ⟨k.space, Namespace.ofKey_of_spells h, h.1⟩

/-- **Whether a record is accepted** depends on the confirm that its key names, not on the spelling.
All tests go by what the key is read as. -/
theorem isAccepted_congr (h : ConfirmKey.Spells key k) (h' : ConfirmKey.Spells key' k)
    (value : Bytes) : isAccepted key value = isAccepted key' value := by
  have hvalidate : validate key value = validate key' value := by
    rw [validate, validate, ruleOfKey, ruleOfKey, Namespace.ofKey_of_spells h,
      Namespace.ofKey_of_spells h']
    have hdecode : ∀ kind, decodeConfirm kind key value = decodeConfirm kind key' value := by
      intro kind
      rw [decodeConfirm, decodeConfirm, ConfirmKey.parse_eq_ok_iff.mpr h,
        ConfirmKey.parse_eq_ok_iff.mpr h']
    obtain ⟨hconfirm, -⟩ := h
    cases hspace : k.space with
    | valsetConfirm => simp only [RecordRule.ofNamespace, RecordRule.validate, hdecode]
    | commitmentConfirm => simp only [RecordRule.ofNamespace, RecordRule.validate, hdecode]
    | latestValset =>
      rw [hspace] at hconfirm
      cases hconfirm
  unfold isAccepted
  rw [hvalidate]

/-- The form that is written is one of the spellings. -/
theorem ConfirmKey.spells_render (h : k.space.isConfirm = true) :
    ConfirmKey.Spells k.render k :=
  ConfirmKey.parse_eq_ok_iff.mp (ConfirmKey.parse_render k h)

/-! ### What a replica holds -/

namespace Replica

/-- At most one record for each confirm: no two keys that hold a record are read as the same one. -/
def OncePerConfirm (replica : Replica) : Prop :=
  ∀ key key' k, (replica.get? key).isSome = true → (replica.get? key').isSome = true →
    ConfirmKey.parse key = .ok k → ConfirmKey.parse key' = .ok k → key = key'

/-- Under a confirm's key there is a record exactly if an accepted one was written there, in exactly
this spelling. -/
theorem isSome_get?_after_iff (hkey : IsConfirmKey key) (writes : List (String × Bytes)) :
    ((empty.after writes).get? key).isSome = true ↔
      ∃ w ∈ writes, w.1 = key ∧ isAccepted key w.2 = true := by
  rw [get?_after hkey sound_empty, get?_empty, Option.none_or, List.find?_isSome]
  constructor
  · rintro ⟨value, hmem, haccepted⟩
    obtain ⟨w, hw, rfl⟩ := List.mem_map.mp hmem
    obtain ⟨hmem, hsame⟩ := List.mem_filter.mp hw
    exact ⟨w, hmem, of_decide_eq_true hsame, haccepted⟩
  · rintro ⟨w, hmem, hsame, haccepted⟩
    exact ⟨w.2, List.mem_map_of_mem (List.mem_filter.mpr ⟨hmem, decide_eq_true hsame⟩), haccepted⟩

/-- **When there is one record for each confirm**: if all records of a confirm that were accepted
came under the same spelling of its key. It does not matter which spelling this is. -/
theorem oncePerConfirm_iff (writes : List (String × Bytes)) :
    (empty.after writes).OncePerConfirm ↔
      ∀ w ∈ writes, ∀ w' ∈ writes, validate w.1 w.2 = .ok () → validate w'.1 w'.2 = .ok () →
        ∀ k, ConfirmKey.Spells w.1 k → ConfirmKey.Spells w'.1 k → w.1 = w'.1 := by
  constructor
  · intro honce w hw w' hw' hvalid hvalid' k hspells hspells'
    refine honce w.1 w'.1 k ?_ ?_ (ConfirmKey.parse_eq_ok_iff.mpr hspells)
      (ConfirmKey.parse_eq_ok_iff.mpr hspells')
    · exact (isSome_get?_after_iff hspells.isConfirmKey writes).mpr
        ⟨w, hw, rfl, isAccepted_iff.mpr hvalid⟩
    · exact (isSome_get?_after_iff hspells'.isConfirmKey writes).mpr
        ⟨w', hw', rfl, isAccepted_iff.mpr hvalid'⟩
  · intro hspelt key key' k hheld hheld' hparse hparse'
    have hspells := ConfirmKey.parse_eq_ok_iff.mp hparse
    have hspells' := ConfirmKey.parse_eq_ok_iff.mp hparse'
    -- What is held was written, under the key where it is held.
    obtain ⟨w, hw, rfl, haccepted⟩ :=
      (isSome_get?_after_iff hspells.isConfirmKey writes).mp hheld
    obtain ⟨w', hw', rfl, haccepted'⟩ :=
      (isSome_get?_after_iff hspells'.isConfirmKey writes).mp hheld'
    exact hspelt w hw w' hw' (isAccepted_iff.mp haccepted) (isAccepted_iff.mp haccepted') k hspells
      hspells'

/-! ### Two records for one confirm -/

/-- A key with a zero in front of the nonce. It is read as the key without the zero. -/
def paddedKey (k : ConfirmKey) : String :=
  String.ofList ('/' :: (k.space.name.toList ++ '/' ::
    (('0' :: Nat.toDigits 16 k.nonce.toNat) ++ ':' :: k.signer.render.toList)))

/-- An accepted record under two spellings of its key is held twice. -/
theorem not_oncePerConfirm_after (hspells : ConfirmKey.Spells key k)
    (hspells' : ConfirmKey.Spells key' k) (hne : key ≠ key')
    (haccepted : isAccepted key value = true) :
    ¬ (empty.after [(key, value), (key', value)]).OncePerConfirm := by
  intro honce
  have haccepted' : isAccepted key' value = true := by
    rw [← isAccepted_congr hspells hspells', haccepted]
  refine hne (honce key key' k ?_ ?_ (ConfirmKey.parse_eq_ok_iff.mpr hspells)
    (ConfirmKey.parse_eq_ok_iff.mpr hspells'))
  · exact (isSome_get?_after_iff hspells.isConfirmKey _).mpr
      ⟨(key, value), by simp, rfl, haccepted⟩
  · exact (isSome_get?_after_iff hspells'.isConfirmKey _).mpr
      ⟨(key', value), by simp, rfl, haccepted'⟩

/-- The key with a zero is a spelling of the same key. -/
theorem spells_paddedKey (h : k.space.isConfirm = true) : ConfirmKey.Spells (paddedKey k) k := by
  refine ⟨h, '0' :: Nat.toDigits 16 k.nonce.toNat, k.signer.render.toList, ?_, ?_, ?_⟩
  · rw [paddedKey, String.toList_ofList]
  · exact ⟨[], List.mem_cons_self, 1, _, rfl, ConfirmKey.lowerCase_toDigits _⟩
  · exact ConfirmKey.parseSigner?_eq_some_iff.mp (ConfirmKey.parseSigner?_render _)

/-- It is not the spelling in which keys are written, as it is longer. -/
theorem render_ne_paddedKey (k : ConfirmKey) : k.render ≠ paddedKey k := by
  intro heq
  have hlength := congrArg (fun key => key.toList.length) heq
  rw [ConfirmKey.toList_render, paddedKey, String.toList_ofList] at hlength
  simp [ConfirmKey.idText] at hlength

/-- A text of the right form is accepted as the signature for a valset, and then held twice. No key
is needed for it. -/
theorem exists_not_oncePerConfirm_after (nonce : UInt64) (signer : Address) :
    ∃ value, ¬ (empty.after [(Store.confirmKey .valset nonce signer, value),
      (paddedKey ⟨.valsetConfirm, nonce, signer⟩, value)]).OncePerConfirm := by
  have hcheck : (Confirm.valset ⟨signer, Vrs.keyless.render⟩).checkSignature nonce = .ok () := by
    rw [Confirm.checkSignature, Vrs.parse_render Vrs.canonical_keyless]
  have haccepted := Store.isAccepted_encode hcheck
  rw [Confirm.kind, Confirm.signer] at haccepted
  have hspells : ConfirmKey.Spells (Store.confirmKey .valset nonce signer)
      ⟨.valsetConfirm, nonce, signer⟩ :=
    ConfirmKey.spells_render rfl
  exact ⟨_, not_oncePerConfirm_after hspells (spells_paddedKey rfl) (render_ne_paddedKey _)
    haccepted⟩

/-- **A replica may hold two records for one confirm**: the second one came under a key with a zero
in front of the nonce. -/
theorem not_oncePerConfirm :
    ¬ ∀ writes : List (String × Bytes), (empty.after writes).OncePerConfirm := by
  intro claim
  obtain ⟨value, htwice⟩ :=
    exists_not_oncePerConfirm_after 2 ⟨0x7e5f4552091a69125d5dfcb7b8c2659029395bdf⟩
  exact htwice (claim _)

end Replica

end Countersign
