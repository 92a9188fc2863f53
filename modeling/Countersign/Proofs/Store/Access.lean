import Countersign.Proofs.Routine.Conforming
import Countersign.Store.Access

/-!
# What reading and writing records asks

Each access to the store asks the replicas once: a write of a record puts it, if it is accepted at
all (`Store.conforms_putRecord`), and a query for a confirm reads its key
(`Store.conforms_queryOne`). What a read finds is chosen among the candidates of this one answer
(`Store.queryOne_follows_iff`, `Store.latestValset_follows_iff`).
-/

namespace Countersign.Store

open Routine

variable {asked : Request → Prop} {config : StoreConfig}

/-- Writing a record asks for one write, or for nothing if the record is refused beforehand. -/
theorem conforms_putRecord {key : String} {value : Bytes}
    (h : asked (.put key value config.requestTimeout)) :
    Conforms asked (fun _ => True) (putRecord config key value) := by
  unfold putRecord
  split
  · trivial
  · refine conforms_perform_bind.mpr ⟨h, fun answer => ?_⟩
    split <;> trivial

/-- So does writing the latest valset, under its one key. -/
theorem conforms_putLatestValset (valset : Valset)
    (h : ∀ value, asked (.put latestValsetKey value config.requestTimeout)) :
    Conforms asked (fun _ => True) (putLatestValset config valset) := by
  unfold putLatestValset
  split
  · trivial
  · exact conforms_putRecord (h _)

/-- Looking for a confirm reads its key, once. -/
theorem conforms_queryOne {kind : AttestationKind} {nonce : UInt64} {signer : Address}
    (h : asked (.get (confirmKey kind nonce signer) config.requestTimeout)) :
    Conforms asked (fun _ => True) (queryOne config kind nonce signer) := by
  rw [queryOne, candidates, bind_bind]
  refine conforms_perform_bind.mpr ⟨h, fun answer => ?_⟩
  cases answer <;> trivial

/-! ### What a read comes to -/

variable {α : Type} {t : List Exchange} {result : Except StoreError α}

/-- **A read of the candidates for a key** fails as the overlay does, and otherwise comes to what is
chosen among them. Both reads of the store have this form. -/
theorem candidates_bind_follows_iff {key : String}
    {next : Except StoreError (List Bytes) → Routine (Except StoreError α)}
    {choose : List Bytes → Except StoreError α}
    (hfails : ∀ e, next (.error e) = .done (.error e))
    (hchooses : ∀ values, next (.ok values) = .done (choose values)) :
    Follows (candidates config key >>= next) t result ↔
      ∃ answer, t = [⟨.get key config.requestTimeout, answer⟩] ∧
        result = (answer.mapError .overlay).bind choose := by
  -- Behind the read nothing is asked any more, so its answer decides.
  have hnext : ∀ (answer : Except OverlayError (List Bytes)) rest,
      Follows (next (answer.mapError .overlay)) rest result ↔
        rest = [] ∧ result = (answer.mapError .overlay).bind choose := by
    rintro (e | values) rest
    · show Follows (next (.error (.overlay e))) rest result ↔ _
      rw [hfails, follows_done_iff]
      rfl
    · show Follows (next (.ok values)) rest result ↔ _
      rw [hchooses, follows_done_iff]
      rfl
  -- The read is one request, whose error is put into the store's words.
  have hread : candidates config key >>= next =
      (Request.get key config.requestTimeout).perform >>= fun answer =>
        next (answer.mapError .overlay) := by
    rw [candidates, bind_bind]
    congr 1
    funext answer
    cases answer <;> rfl
  rw [hread, follows_perform_bind_iff]
  constructor
  · rintro ⟨answer, rest, rfl, h⟩
    obtain ⟨rfl, hresult⟩ := (hnext answer rest).mp h
    exact ⟨answer, rfl, hresult⟩
  · rintro ⟨answer, rfl, hresult⟩
    exact ⟨answer, [], rfl, (hnext answer []).mpr ⟨rfl, hresult⟩⟩

/-- Candidates that are brought come to what is chosen among them. -/
theorem candidates_bind_follows_ok_iff {key : String} {values : List Bytes}
    {next : Except StoreError (List Bytes) → Routine (Except StoreError α)}
    {choose : List Bytes → Except StoreError α}
    (hfails : ∀ e, next (.error e) = .done (.error e))
    (hchooses : ∀ values, next (.ok values) = .done (choose values)) :
    Follows (candidates config key >>= next) [⟨.get key config.requestTimeout, .ok values⟩]
      result ↔ result = choose values := by
  rw [candidates_bind_follows_iff hfails hchooses]
  constructor
  · rintro ⟨answer, ht, hresult⟩
    cases ht
    exact hresult
  · intro hresult
    exact ⟨.ok values, rfl, hresult⟩

/-- What looking for a confirm comes to, for every answer. -/
theorem queryOne_follows_iff {kind : AttestationKind} {nonce : UInt64} {signer : Address}
    {result : Except StoreError (Option Confirm)} :
    Follows (queryOne config kind nonce signer) t result ↔
      ∃ answer, t = [⟨.get (confirmKey kind nonce signer) config.requestTimeout, answer⟩] ∧
        result = (answer.mapError .overlay).bind
          (chosenConfirm kind (confirmKey kind nonce signer)) :=
  candidates_bind_follows_iff (fun _ => rfl) fun _ => rfl

/-- What it comes to if the candidates are known. -/
theorem queryOne_follows_ok_iff {kind : AttestationKind} {nonce : UInt64} {signer : Address}
    {values : List Bytes} {result : Except StoreError (Option Confirm)} :
    Follows (queryOne config kind nonce signer)
        [⟨.get (confirmKey kind nonce signer) config.requestTimeout, .ok values⟩] result ↔
      result = chosenConfirm kind (confirmKey kind nonce signer) values :=
  candidates_bind_follows_ok_iff (fun _ => rfl) fun _ => rfl

/-- What a read of the latest valset comes to, for every answer. -/
theorem latestValset_follows_iff {result : Except StoreError (Option Valset)} :
    Follows (latestValset config) t result ↔
      ∃ answer, t = [⟨.get latestValsetKey config.requestTimeout, answer⟩] ∧
        result = (answer.mapError .overlay).bind chosenValset :=
  candidates_bind_follows_iff (fun _ => rfl) fun _ => rfl

/-- What it comes to if the candidates are known. -/
theorem latestValset_follows_ok_iff {values : List Bytes}
    {result : Except StoreError (Option Valset)} :
    Follows (latestValset config) [⟨.get latestValsetKey config.requestTimeout, .ok values⟩]
      result ↔ result = chosenValset values :=
  candidates_bind_follows_ok_iff (fun _ => rfl) fun _ => rfl

end Countersign.Store
