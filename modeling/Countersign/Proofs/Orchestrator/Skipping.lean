import Countersign.Proofs.Orchestrator.Processing
import Countersign.Proofs.Routine.Interleaving
import Countersign.Proofs.Store.Events
import Countersign.Proofs.Store.Selection

/-!
# When a nonce counts as signed

`Orchestrator.process` skips a nonce as already signed if a record under its own key is accepted.
This module says what the replicas then hold, while anybody writes anything to any of them before,
during and after the run (`StoreEvent`).

* Some replica holds an accepted confirm that names the own address, and goes on holding it.
* For a **data commitment** the confirm verifies, because that is part of being accepted.
* For a **valset** it need not: what is accepted has the form of a signature only. Some replica
  holds a confirm that verifies exactly if such a confirm was the *first* accepted record that was
  written to the replica under the key (`Orchestrator.alreadySigned_iff`). Anybody can be first,
  so a validator can be made to skip a valset that it never signed
  (`Orchestrator.alreadySigned_not_verified`).
-/

namespace Countersign

open Routine

/-! ### What a confirm confirms -/

/-- The digest that a confirm of an attestation signs: that of the valset itself, or that of the
root that the confirm carries. A confirm of the other kind signs nothing here. -/
def Attestation.confirmedDigest? (nonce : UInt64) : Attestation → Confirm → Option Word
  | .valset v, .valset _ => some v.digest
  | .dataCommitment _, .commitment c => some (commitmentDigest nonce c.commitment)
  | _, _ => none

/-- A record that verifies for a signer, as a confirm of an attestation. This is what a relayer
tests before it counts the record, and more than a replica tests of a valset's confirm. -/
def RecordVerifies (attestation : Attestation) (nonce : UInt64) (signer : Address)
    (value : Bytes) : Prop :=
  ∃ c digest, Confirm.decode? attestation.kind value = some c ∧
    attestation.confirmedDigest? nonce c = some digest ∧
    verifyText digest c.signature signer = .ok ()

/-- Some replica holds a record that verifies under a signer's key. It need not be a record that was
read. -/
def HoldsVerified (overlay : Overlay) (attestation : Attestation) (nonce : UInt64)
    (signer : Address) : Prop :=
  ∃ value ∈ overlay.get (Store.confirmKey attestation.kind nonce signer),
    RecordVerifies attestation nonce signer value

namespace Store

/-- **An accepted record of a commitment's confirm verifies**, since the digest can be computed from
the record alone, and is. -/
theorem recordVerifies_of_dataCommitment {attestation : Attestation}
    (hkind : attestation.kind = .dataCommitment) {nonce : UInt64} {signer : Address}
    {value : Bytes} (h : isAccepted (confirmKey attestation.kind nonce signer) value = true) :
    RecordVerifies attestation nonce signer value := by
  obtain ⟨k, c, hdecode⟩ := isAccepted_confirmKey.mp h
  obtain ⟨hrecord, hsigner, hcheck⟩ := decodeConfirm_eq_ok hdecode
  have hc := Confirm.kind_of_decode? hrecord
  cases attestation with
  | valset v => cases hkind
  | dataCommitment d =>
    cases c with
    | valset c => cases hc
    | commitment c =>
      -- Here the check of the signature is the whole one: the record names what was signed.
      rw [Confirm.checkSignature] at hcheck
      refine ⟨.commitment c, commitmentDigest nonce c.commitment, hrecord, rfl, ?_⟩
      rw [← hsigner]
      exact hcheck

end Store

/-- The record of a valset's confirm verifies only if its text does. What is decoded from a record
that was encoded is the confirm itself. -/
theorem not_recordVerifies_valset {valset : Valset} (nonce : UInt64) {signer : Address}
    {text : String} (h : verifyText valset.digest text signer ≠ .ok ()) :
    ¬ RecordVerifies (.valset valset) nonce signer
      (Bytes.ofText (Confirm.valset ⟨signer, text⟩).encode) := by
  rintro ⟨c, digest, hdecode, hdigest, hverify⟩
  -- The record is read as the confirm that was written, so its text would verify.
  have hencoded := (Confirm.valset ⟨signer, text⟩).decode?_encode
  rw [Attestation.kind] at hdecode
  rw [Confirm.kind, hdecode] at hencoded
  rw [Option.some.inj hencoded] at hdigest hverify
  rw [Attestation.confirmedDigest?, Option.some.injEq] at hdigest
  rw [← hdigest] at hverify
  exact h hverify

namespace Overlay

variable {kind : AttestationKind} {nonce : UInt64} {signer : Address}

/-- What was first stays first: later writes matter only where nothing was accepted before. -/
theorem firstAccepted_append (i : Nat) (before after : List ReplicaWrite) :
    firstAccepted kind nonce signer i (before ++ after) =
      (firstAccepted kind nonce signer i before).or (firstAccepted kind nonce signer i after) := by
  rw [firstAccepted, writesTo_append, List.filter_append, List.map_append, List.find?_append]
  rfl

/-- The first accepted record is one of the records that were written. -/
theorem mem_of_firstAccepted {i : Nat} {writes : List ReplicaWrite} {value : Bytes}
    (h : firstAccepted kind nonce signer i writes = some value) :
    ∃ w ∈ writes, w.value = value := by
  obtain ⟨record, hrecord, rfl⟩ := List.mem_map.mp (List.mem_of_find?_eq_some h)
  obtain ⟨w, hw, rfl⟩ := List.mem_map.mp (List.mem_of_mem_filter hrecord)
  exact ⟨w, List.mem_of_mem_filter hw, rfl⟩

/-- **What replicas hold** under a confirm's key is what was first written to them. So what can be
read later is decided by the writes alone. -/
theorem mem_get_after {count : Nat} {writes : List ReplicaWrite} {value : Bytes} :
    value ∈ ((fresh count).after writes).get (Store.confirmKey kind nonce signer) ↔
      ∃ i < count, firstAccepted kind nonce signer i writes = some value := by
  have hlength : ((fresh count).after writes).length = count := by
    rw [length_after, fresh, List.length_replicate]
  rw [get, List.mem_filterMap]
  constructor
  · -- A replica that holds it stands at some place, to which it was written first.
    rintro ⟨replica, hmem, hget⟩
    obtain ⟨i, hi⟩ := List.mem_iff_getElem?.mp hmem
    have hlt : i < ((fresh count).after writes).length := List.getElem?_eq_some_iff.mp hi |>.1
    rw [get?_after count writes hi] at hget
    exact ⟨i, hlength ▸ hlt, hget⟩
  · rintro ⟨i, hi, hfirst⟩
    have hlt : i < ((fresh count).after writes).length := hlength.symm ▸ hi
    have hreplica := List.getElem?_eq_getElem hlt
    refine ⟨_, List.mem_of_getElem? hreplica, ?_⟩
    rw [get?_after count writes hreplica]
    exact hfirst

end Overlay

namespace Orchestrator

variable {setup : OrchestratorSetup} {nonce : UInt64}

/-- A nonce that is skipped as signed: the candidates that were read under its own key have an
accepted one. -/
theorem process_alreadySigned {t : List Exchange}
    (h : Follows (process setup nonce) t (.ok (.skipped .alreadySigned))) :
    ∃ attestation values value,
      t.head? = some ⟨.source (.attestation nonce), .ok (some attestation)⟩ ∧
      ⟨.get (Store.confirmKey attestation.kind nonce setup.address) setup.store.requestTimeout,
        .ok values⟩ ∈ t ∧ value ∈ values ∧
      isAccepted (Store.confirmKey attestation.kind nonce setup.address) value = true := by
  cases process_follows_ok h with
  | @settled attestation valset _ told _ settled =>
    obtain ⟨rest, rfl⟩ := told
    cases settled with
    | stored found within =>
      obtain ⟨values, value, rfl, hvalue, haccepted⟩ := Store.queryOne_follows_some found
      exact ⟨attestation, values, value, rfl, within List.mem_cons_self, hvalue, haccepted⟩

/-! ### A run that skips -/

/-- Publishing the latest valset may fail, whatever the valset. This keeps the courses below free of
conditions on it. -/
theorem exists_follows_putLatestValset (config : StoreConfig) (valset : Valset) :
    ∃ t result, Follows (Store.putLatestValset config valset) t result ∧
      ∀ e ∈ t, ∃ key value limit error, e = ⟨.put key value limit, .error error⟩ := by
  unfold Store.putLatestValset
  split
  · exact ⟨[], _, .done _, by simp⟩
  next text _ =>
    unfold Store.putRecord
    split
    · exact ⟨[], _, .done _, by simp⟩
    · refine ⟨[⟨.put latestValsetKey (Bytes.ofText text) config.requestTimeout,
        .error (.unavailable "")⟩], _, .perform_bind (.done _), fun e he => ?_⟩
      obtain rfl := List.mem_singleton.mp he
      exact ⟨_, _, _, _, rfl⟩

/-- **If the candidates have an accepted one**, the nonce of a member is skipped. The course reads
records in one place only, and what it reads there is that one. -/
theorem exists_follows_alreadySigned (setup : OrchestratorSetup) (attestation : Attestation)
    {prior : Valset} {value : Bytes} (hnonce : bootstrapNonce < nonce)
    (hmember : prior.contains setup.address = true)
    (haccepted : isAccepted (Store.confirmKey attestation.kind nonce setup.address) value = true) :
    ∃ t, Follows (process setup nonce) t (.ok (.skipped .alreadySigned)) ∧
      t.head? = some ⟨.source (.attestation nonce), .ok (some attestation)⟩ ∧
      ∀ key timeout values, ⟨.get key timeout, .ok values⟩ ∈ t →
        key = Store.confirmKey attestation.kind nonce setup.address ∧ values = [value] := by
  obtain ⟨t, _, hput, hfailing⟩ := exists_follows_putLatestValset setup.store prior
  obtain ⟨confirm, hquery⟩ := Store.exists_queryOne_follows setup.store haccepted
  have hfound : Follows (signUnlessStored setup nonce attestation)
      ([⟨.get (Store.confirmKey attestation.kind nonce setup.address) setup.store.requestTimeout,
        .ok [value]⟩] ++ [⟨.note (.skipped .alreadySigned), ()⟩])
      (.ok (.skipped .alreadySigned)) := by
    unfold signUnlessStored
    exact hquery.bind (.perform_bind (.done _))
  -- All of the course: the fetch, the valset before, the failed write, and the read.
  refine ⟨⟨.source (.attestation nonce), .ok (some attestation)⟩ ::
    ⟨.source (.valsetBefore nonce), .ok prior⟩ :: (t ++
      ([⟨.get (Store.confirmKey attestation.kind nonce setup.address) setup.store.requestTimeout,
        .ok [value]⟩] ++ [⟨.note (.skipped .alreadySigned), ()⟩])), ?_, rfl, ?_⟩
  · -- The attestation is fetched, the valset before it has the address, and the write fails.
    rw [process]
    refine .perform_bind (r := .source (.attestation nonce)) ?_
    dsimp only
    rw [if_neg (UInt64.ne_of_lt hnonce).symm]
    refine .perform_bind (r := .source (.valsetBefore nonce)) ?_
    dsimp only
    rw [hmember]
    exact hput.bind hfound
  · -- Records are read once in this course, under the own key.
    intro key timeout values hmem
    simp only [List.mem_cons, List.mem_append, List.not_mem_nil, or_false] at hmem
    rcases hmem with heq | heq | hmem | heq | heq
    · cases heq
    · cases heq
    · obtain ⟨_, _, _, _, heq⟩ := hfailing _ hmem
      cases heq
    · cases heq
      exact ⟨rfl, rfl⟩
    · cases heq

/-! ### What a skipped nonce says of the replicas -/

/-- **What replicas hold once a nonce was skipped as signed.** Some replica holds an accepted
record under the own key. Some replica holds one that verifies, for the attestation that was
fetched, always if this is a data commitment, and for a valset exactly if some replica was first
given such a record. -/
theorem alreadySigned_iff {count : Nat} {events : List StoreEvent}
    (held : StoreEvent.ReadsHeld count events)
    (h : Follows (process setup nonce) (StoreEvent.exchanges events)
      (.ok (.skipped .alreadySigned))) :
    ∃ attestation,
      (StoreEvent.exchanges events).head? =
        some ⟨.source (.attestation nonce), .ok (some attestation)⟩ ∧
      (∃ value ∈ ((Overlay.fresh count).after (StoreEvent.writes events)).get
          (Store.confirmKey attestation.kind nonce setup.address),
        isAccepted (Store.confirmKey attestation.kind nonce setup.address) value = true) ∧
      (HoldsVerified ((Overlay.fresh count).after (StoreEvent.writes events)) attestation nonce
          setup.address ↔
        attestation.kind = .dataCommitment ∨
          ∃ i < count, ∃ value, Overlay.firstAccepted attestation.kind nonce setup.address i
              (StoreEvent.writes events) = some value ∧
            RecordVerifies attestation nonce setup.address value) := by
  obtain ⟨attestation, values, value, hfetched, hread, hvalue, haccepted⟩ :=
    process_alreadySigned h
  -- The candidate was the first one of its replica when it was read, and stays the first one.
  have hheld : value ∈ ((Overlay.fresh count).after (StoreEvent.writes events)).get
      (Store.confirmKey attestation.kind nonce setup.address) := by
    obtain ⟨before, after, hsplit⟩ := List.append_of_mem (StoreEvent.mem_exchanges hread)
    have hthen := held before _ _ values after hsplit value hvalue
    obtain ⟨i, hi, hfirst⟩ := Overlay.mem_get_after.mp hthen
    refine Overlay.mem_get_after.mpr ⟨i, hi, ?_⟩
    rw [hsplit, StoreEvent.writes_append, Overlay.firstAccepted_append, hfirst, Option.some_or]
  refine ⟨attestation, hfetched, ⟨value, hheld, haccepted⟩, ?_⟩
  -- From left to right the kind does not matter: what is held was the first accepted record.
  constructor
  · rintro ⟨verified, hmem, hverifies⟩
    obtain ⟨i, hi, hfirst⟩ := Overlay.mem_get_after.mp hmem
    exact Or.inr ⟨i, hi, verified, hfirst, hverifies⟩
  · rintro (hkind | ⟨i, hi, verified, hfirst, hverifies⟩)
    · -- For a commitment the accepted record itself is one that verifies.
      exact ⟨value, hheld, Store.recordVerifies_of_dataCommitment hkind haccepted⟩
    · exact ⟨verified, Overlay.mem_get_after.mpr ⟨i, hi, hfirst⟩, hverifies⟩

/-- **A record that was written first** to the only replica makes a routine skip its nonce. Who
wrote it is not asked. -/
theorem exists_events_alreadySigned (setup : OrchestratorSetup) (attestation : Attestation)
    {value : Bytes} (hnonce : bootstrapNonce < nonce)
    (haccepted : isAccepted (Store.confirmKey attestation.kind nonce setup.address) value = true) :
    ∃ events, StoreEvent.writes events =
        [⟨0, Store.confirmKey attestation.kind nonce setup.address, value⟩] ∧
      StoreEvent.ReadsHeld 1 events ∧
      Follows (process setup nonce) (StoreEvent.exchanges events)
        (.ok (.skipped .alreadySigned)) ∧
      (StoreEvent.exchanges events).head? =
        some ⟨.source (.attestation nonce), .ok (some attestation)⟩ := by
  obtain ⟨t, hfollows, hhead, hreads⟩ := exists_follows_alreadySigned setup attestation hnonce
    (Store.contains_soleValset setup.address) haccepted
  let w : ReplicaWrite := ⟨0, Store.confirmKey attestation.kind nonce setup.address, value⟩
  -- The only write is the first accepted one under its key.
  have hfirst : Overlay.firstAccepted attestation.kind nonce setup.address 0 [w] = some value := by
    simp [Overlay.firstAccepted, Overlay.writesTo, w, haccepted]
  refine ⟨StoreEvent.thenExchanges [w] t, StoreEvent.writes_thenExchanges _ _, ?_, ?_, ?_⟩
  · -- All that is read is that record, and the replica holds it.
    refine StoreEvent.readsHeld_thenExchanges fun key timeout values hmem value' hvalue' => ?_
    obtain ⟨rfl, rfl⟩ := hreads key timeout values hmem
    obtain rfl := List.mem_singleton.mp hvalue'
    exact Overlay.mem_get_after.mpr ⟨0, Nat.one_pos, hfirst⟩
  · rw [StoreEvent.exchanges_thenExchanges]
    exact hfollows
  · rw [StoreEvent.exchanges_thenExchanges]
    exact hhead

/-- **A data commitment that is skipped** because its confirm is stored, which verifies. The confirm
is one that was made with a key. -/
theorem alreadySigned_iff_of_dataCommitment :
    ∃ (setup : OrchestratorSetup) (nonce : UInt64) (attestation : Attestation)
      (events : List StoreEvent),
      Follows (process setup nonce) (StoreEvent.exchanges events)
        (.ok (.skipped .alreadySigned)) ∧
      HoldsVerified ((Overlay.fresh 1).after (StoreEvent.writes events)) attestation nonce
        setup.address := by
  obtain ⟨target, root, confirm, hcommitment, hnonce, -, hkind, hcheck, -⟩ := Store.exists_confirm
  let setup : OrchestratorSetup := ⟨confirm.signer, .standard, .standard, .standard⟩
  -- The confirm's own record is what is found.
  have haccepted := Store.isAccepted_encode hcheck
  rw [hkind, hcommitment] at haccepted
  obtain ⟨events, -, held, hfollows, hhead⟩ :=
    exists_events_alreadySigned setup (.dataCommitment ⟨target.nonce, 1, 2⟩) hnonce haccepted
  obtain ⟨attestation, hfetched, -, hiff⟩ := alreadySigned_iff held hfollows
  refine ⟨setup, target.nonce, attestation, events, hfollows, hiff.mpr (Or.inl ?_)⟩
  rw [hhead] at hfetched
  cases hfetched
  rfl

/-- **A valset is skipped** because of any text that has the form of a signature. The text is the
only thing chosen here; it may come from anyone who can write to a replica. -/
theorem exists_events_not_verified (setup : OrchestratorSetup) (nonce : UInt64)
    {valset : Valset} {text : String} {x : Vrs} (hnonce : bootstrapNonce < nonce)
    (hx : Vrs.parse text = .ok x) (hverify : verifyText valset.digest text setup.address ≠ .ok ()) :
    ∃ events,
      StoreEvent.ReadsHeld 1 events ∧
      Follows (process setup nonce) (StoreEvent.exchanges events)
        (.ok (.skipped .alreadySigned)) ∧
      (StoreEvent.exchanges events).head? =
        some ⟨.source (.attestation nonce), .ok (some (.valset valset))⟩ ∧
      ∀ w ∈ StoreEvent.writes events,
        ¬ RecordVerifies (.valset valset) nonce setup.address w.value := by
  have hcheck : (Confirm.valset ⟨setup.address, text⟩).checkSignature nonce = .ok () := by
    rw [Confirm.checkSignature, hx]
  have haccepted := Store.isAccepted_encode hcheck
  rw [Confirm.kind, Confirm.signer] at haccepted
  have hforged := not_recordVerifies_valset nonce hverify
  -- From here on only these two facts about the record matter.
  generalize Bytes.ofText (Confirm.valset ⟨setup.address, text⟩).encode = value
    at haccepted hforged
  obtain ⟨events, hwrites, held, hfollows, hhead⟩ :=
    exists_events_alreadySigned setup (.valset valset) hnonce haccepted
  refine ⟨events, held, hfollows, hhead, fun w hw => ?_⟩
  rw [hwrites] at hw
  obtain rfl := List.mem_singleton.mp hw
  exact hforged

/-- **A valset may be skipped as signed although it is not.** Nobody signed in the name of the
identity: what was written has the form of a signature and does not verify. -/
theorem alreadySigned_not_verified :
    ∃ (setup : OrchestratorSetup) (nonce : UInt64) (attestation : Attestation)
      (events : List StoreEvent),
      StoreEvent.ReadsHeld 1 events ∧
      Follows (process setup nonce) (StoreEvent.exchanges events)
        (.ok (.skipped .alreadySigned)) ∧
      (StoreEvent.exchanges events).head? =
        some ⟨.source (.attestation nonce), .ok (some attestation)⟩ ∧
      (∀ w ∈ StoreEvent.writes events,
        ¬ RecordVerifies attestation nonce setup.address w.value) ∧
      ¬ HoldsVerified ((Overlay.fresh 1).after (StoreEvent.writes events)) attestation nonce
        setup.address := by
  obtain ⟨signer, hforged⟩ :=
    exists_not_verifyText (Valset.digest ⟨2, [], 0, .epoch⟩) Vrs.keyless.render
  let setup : OrchestratorSetup := ⟨signer, .standard, .standard, .standard⟩
  obtain ⟨events, held, hfollows, hhead, hwrites⟩ :=
    exists_events_not_verified setup 2 (by decide)
      (Vrs.parse_render Vrs.canonical_keyless) hforged
  refine ⟨setup, 2, _, events, held, hfollows, hhead, hwrites, ?_⟩
  rintro ⟨value, hmem, hverifies⟩
  -- What a replica holds was written by somebody.
  obtain ⟨i, -, hfirst⟩ := Overlay.mem_get_after.mp hmem
  obtain ⟨w, hw, rfl⟩ := Overlay.mem_of_firstAccepted hfirst
  exact hwrites w hw hverifies

end Orchestrator

end Countersign
