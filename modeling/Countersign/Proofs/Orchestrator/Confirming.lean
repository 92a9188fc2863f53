import Countersign.Proofs.Orchestrator.Frame
import Countersign.Proofs.Orchestrator.Motions
import Countersign.Proofs.Store.WrittenForm

/-!
# A nonce that is processed leaves a confirm

If source, identity and store do their part, then every nonce that the processor was through with
has a confirm of the identity in the store, however often others wrote to the replicas meanwhile
(`Orchestrator.holdsVerified_of_taken`). Nothing is assumed of how a run ends: a run may also fail,
because a replica refuses its confirm.

1. Each run either reads a confirm of its own that is accepted, or puts one, as its confirm is in
   order (`Orchestrator.accounted_of_follows`). The first run for a nonce is made as soon as the
   nonce is taken (`Orchestrator.exists_process_of_taken`).
2. In both cases some replica holds an accepted record under the own key from then on: a replica
   that refuses a confirm holds another one (`Orchestrator.Accounted.exists_keeps`).
3. Whatever stands under an own key was written by the processor, which puts nothing but what it
   signed (`Orchestrator.recordVerifies_of_mem`). So the record is a confirm of the identity.
-/

namespace Countersign

open Routine

/-- A confirm of what was told verifies, read back from its record. Nothing of it is lost in writing
it down. -/
theorem DigestTold.recordVerifies {nonce : UInt64} {course : List Exchange}
    {attestation : Attestation} {digest : Word} {root : Option Word} {address : Address} {x : Vrs}
    (h : DigestTold nonce course attestation digest root)
    (hverify : verifyText digest x.render address = .ok ()) :
    RecordVerifies attestation nonce address
      (Bytes.ofText (Orchestrator.confirmOf address x root).encode) := by
  have hread := (Orchestrator.confirmOf address x root).decode?_encode
  rw [h.kind_confirmOf] at hread
  refine ⟨_, digest, hread, ?_, ?_⟩
  · cases h <;> rfl
  · rw [Orchestrator.signature_confirmOf]
    exact hverify

/-- The two kinds of confirms have namespaces of their own. -/
theorem Namespace.ofKind_injective : Function.Injective Namespace.ofKind := by
  rintro (_ | _) (_ | _) h
  all_goals first | rfl | cases h

/-- The key of a confirm tells what it is the confirm for, and whose it is. -/
theorem Store.confirmKey_inj {kind kind' : AttestationKind} {nonce nonce' : UInt64}
    {signer signer' : Address} :
    confirmKey kind nonce signer = confirmKey kind' nonce' signer' ↔
      kind = kind' ∧ nonce = nonce' ∧ signer = signer' := by
  constructor
  · intro h
    have heq := ConfirmKey.render_injective h
    rw [ConfirmKey.mk.injEq] at heq
    exact ⟨Namespace.ofKind_injective heq.1, heq.2⟩
  · rintro ⟨rfl, rfl, rfl⟩
    rfl

namespace Overlay

variable {overlay : Overlay} {key : String} {value : Bytes}

/-- A record that is kept is held. -/
theorem Keeps.mem_get (h : overlay.Keeps key value) : value ∈ overlay.get key :=
  h.mem_of_mayRead (overlay.mayRead_get [] key)

/-- An accepted confirm that is held is kept: no later write can replace it. -/
theorem keeps_of_mem_get (hkey : IsConfirmKey key) (haccepted : isAccepted key value = true)
    (h : value ∈ overlay.get key) : overlay.Keeps key value := by
  obtain ⟨replica, hreplica, hheld⟩ := List.mem_filterMap.mp h
  obtain ⟨i, hi⟩ := List.mem_iff_getElem?.mp hreplica
  exact keeps_of_held hkey haccepted hi hheld

/-- **What is held under a confirm's key** was held at the start, or was written there. The
induction is on the writes. -/
theorem mem_get_or_written (hkey : IsConfirmKey key) (hsound : ∀ replica ∈ overlay, replica.Sound)
    {writes : List ReplicaWrite} (h : value ∈ (overlay.after writes).get key) :
    value ∈ overlay.get key ∨ ∃ w ∈ writes, w.key = key ∧ w.value = value := by
  obtain ⟨replica, hreplica, hheld⟩ := List.mem_filterMap.mp h
  obtain ⟨i, hi⟩ := List.mem_iff_getElem?.mp hreplica
  rw [getElem?_after] at hi
  obtain ⟨start, hstart, rfl⟩ := Option.map_eq_some_iff.mp hi
  have hmem := List.mem_of_getElem? hstart
  rw [Replica.get?_after hkey (hsound start hmem), Option.or_eq_some_iff] at hheld
  rcases hheld with hheld | ⟨-, hfound⟩
  · exact Or.inl (List.mem_filterMap.mpr ⟨start, hmem, hheld⟩)
  · obtain ⟨record, hrecord, rfl⟩ := List.mem_map.mp (List.mem_of_find?_eq_some hfound)
    obtain ⟨hwritten, hsame⟩ := List.mem_filter.mp hrecord
    obtain ⟨w, hw, rfl⟩ := List.mem_map.mp hwritten
    exact Or.inr ⟨w, List.mem_of_mem_filter hw, of_decide_eq_true hsame, rfl⟩

/-- **An accepted confirm that was written to a replica** leaves an accepted one there: the replica
takes it, or holds one already. In the second case it need not be the one that was written. -/
theorem exists_keeps_of_written (hkey : IsConfirmKey key) (haccepted : isAccepted key value = true)
    (hsound : ∀ replica ∈ overlay, replica.Sound) {writes : List ReplicaWrite} {i : Nat}
    (hi : i < overlay.length) (h : ⟨i, key, value⟩ ∈ writes) :
    ∃ held, isAccepted key held = true ∧ (overlay.after writes).Keeps key held := by
  have hstart := List.getElem?_eq_getElem hi
  have hafter := (getElem?_after overlay writes i).trans (congrArg _ hstart)
  have hgood := hsound _ (List.mem_of_getElem? hstart)
  -- The record is among those that were written to this replica under the key.
  have hwritten : value ∈ ((writesTo i writes).filter (·.1 = key)).map Prod.snd := by
    refine List.mem_map.mpr ⟨(key, value), List.mem_filter.mpr ⟨?_, decide_eq_true rfl⟩, rfl⟩
    exact List.mem_map.mpr ⟨_, List.mem_filter.mpr ⟨h, decide_eq_true rfl⟩, rfl⟩
  have hfind := List.find?_isSome.mpr ⟨value, hwritten, haccepted⟩
  have hsome : ((overlay[i].after (writesTo i writes)).get? key).isSome = true := by
    rw [Replica.get?_after hkey hgood, Option.isSome_or, hfind, Bool.or_true]
  obtain ⟨held, hheld⟩ := Option.isSome_iff_exists.mp hsome
  have hheldAccepted := hgood.after (writesTo i writes) key held hheld
  exact ⟨held, hheldAccepted, keeps_of_held hkey hheldAccepted hafter hheld⟩

end Overlay

namespace Orchestrator

variable {setup : OrchestratorSetup} {nonces requeue : QueueId} {identity : Identity}
  {attestations : UInt64 → Attestation} {wanted : UInt64 → Prop} {course t : List Exchange}
  {nonce : UInt64}

/-! ### Surroundings that do their part -/

/-- An exchange in which source, identity and store do their part. The source has every attestation
that is wanted, and names a valset before it with the own address in it; the identity signs, so that
its signature verifies. Nobody fails to answer, but the put of a record may be answered in any
way. -/
def IsServed (setup : OrchestratorSetup) (identity : Identity)
    (attestations : UInt64 → Attestation) (wanted : UInt64 → Prop) : Exchange → Prop
  | ⟨.source (.attestation n), answer⟩ => wanted n → answer = .ok (some (attestations n))
  | ⟨.source (.valsetBefore n), answer⟩ =>
    wanted n → ∃ prior : Valset, answer = .ok prior ∧ prior.contains setup.address = true
  | ⟨.source (.dataRoot _ _), answer⟩ => ∃ root, answer = .ok root
  | ⟨.sign digest, answer⟩ =>
    identity.Recovers digest ∧ ∃ x, identity.sign digest = .ok x ∧ answer = .ok x
  | ⟨.get _ _, answer⟩ => ∃ values, answer = .ok values
  | _ => True

/-- A signature that was given verifies for the own address, as the identity signs and is found
again. -/
theorem verifyText_of_isServed (haddress : identity.address = setup.address) {digest : Word}
    {x : Vrs} (h : IsServed setup identity attestations wanted ⟨.sign digest, .ok x⟩) :
    x.Canonical ∧ verifyText digest x.render setup.address = .ok () := by
  obtain ⟨hrecovers, y, hsign, ⟨⟩⟩ := h
  rw [← haddress]
  exact ⟨Identity.canonical_of_sign hsign hrecovers, Identity.verifyText_of_sign hsign hrecovers⟩

/-! ### One run -/

/-- **What a run leaves behind**: an accepted record under its own key, which it read or put. Which
of the two it is depends on what was stored before. -/
inductive Accounted (setup : OrchestratorSetup) (nonce : UInt64) (attestation : Attestation)
    (t : List Exchange) : Prop where
  | found {values : List Bytes} {value : Bytes} {limit : Nat}
      (read : ⟨.get (Store.confirmKey attestation.kind nonce setup.address) limit, .ok values⟩ ∈ t)
      (mem : value ∈ values)
      (accepted : isAccepted (Store.confirmKey attestation.kind nonce setup.address) value = true)
  | sent {value : Bytes} {limit : Nat} {answer : Except OverlayError Unit}
      (put : ⟨.put (Store.confirmKey attestation.kind nonce setup.address) value limit, answer⟩ ∈ t)
      (accepted : isAccepted (Store.confirmKey attestation.kind nonce setup.address) value = true)

variable {attestation : Attestation} {outcome : Except OrchestratorError ProcessOutcome}

/-- What a part of a course leaves behind, the course does. -/
theorem Accounted.mono (h : Accounted setup nonce attestation t) (hsub : t ⊆ course) :
    Accounted setup nonce attestation course := by
  cases h with
  | found read mem accepted => exact .found (hsub read) mem accepted
  | sent put accepted => exact .sent (hsub put) accepted

/-- An accepted record is put, whatever is answered. -/
theorem put_mem_of_putRecord {config : StoreConfig} {key : String} {value : Bytes}
    {result : Except StoreError Unit} (haccepted : isAccepted key value = true)
    (h : Follows (Store.putRecord config key value) t result) :
    ∃ answer : Except OverlayError Unit, ⟨.put key value config.requestTimeout, answer⟩ ∈ t := by
  rw [Store.putRecord, isAccepted_iff.mp haccepted] at h
  obtain ⟨answer, rest, rfl, -⟩ := follows_perform_bind_iff.mp h
  exact ⟨answer, List.mem_cons_self⟩

/-- **Publishing puts the confirm**, since the signature verifies and the record is therefore
accepted. -/
theorem accounted_of_publish (haddress : identity.address = setup.address) {digest : Word}
    {root : Option Word} (hserved : ∀ e ∈ t, IsServed setup identity attestations wanted e)
    (htold : DigestTold nonce course attestation digest root)
    (h : Follows (publish setup nonce digest root) t outcome) :
    Accounted setup nonce attestation t := by
  rw [publish] at h
  obtain ⟨signature, rest, rfl, h₁⟩ := follows_perform_bind_iff.mp h
  obtain ⟨-, x, -, rfl⟩ := hserved _ List.mem_cons_self
  obtain ⟨put, t₁, t₂, rfl, hput, -⟩ := follows_bind_iff.mp h₁
  -- The confirm is in order, so it passes the check before it is sent.
  obtain ⟨hcanonical, hverify⟩ := verifyText_of_isServed haddress (hserved _ List.mem_cons_self)
  have haccepted := Store.isAccepted_encode (htold.checkSignature hcanonical hverify)
  rw [Store.putConfirm] at hput
  obtain ⟨answer, hmem⟩ := put_mem_of_putRecord haccepted hput
  rw [htold.kind_confirmOf, signer_confirmOf] at haccepted hmem
  exact .sent (List.mem_cons_of_mem _ (List.mem_append_left _ hmem)) haccepted

/-- Signing leaves a record behind: the one that its query has found, or the one that it puts. -/
theorem accounted_of_signUnlessStored (haddress : identity.address = setup.address)
    (hserved : ∀ e ∈ t, IsServed setup identity attestations wanted e)
    (h : Follows (signUnlessStored setup nonce attestation) t outcome) :
    Accounted setup nonce attestation t := by
  unfold signUnlessStored at h
  obtain ⟨stored, asked, rest, rfl, hquery, h₁⟩ := follows_bind_iff.mp h
  rcases stored with e | _ | confirm
  · -- A read that is answered does not fail.
    obtain ⟨error, -, rfl⟩ := (Store.readsThrough ..).queryFails asked e hquery
    obtain ⟨values, ⟨⟩⟩ := hserved _ (List.mem_append_left _ List.mem_cons_self)
  · cases attestation with
    | valset v =>
      have htold : DigestTold nonce [] (.valset v) v.digest none := .valset v
      have hpublish := accounted_of_publish haddress
        (fun e he => hserved e (List.mem_append_right _ he)) htold h₁
      exact hpublish.mono (List.subset_append_right _ _)
    -- For a commitment the root is read first.
    | dataCommitment c =>
      obtain ⟨answer, rest, rfl, h₂⟩ := (follows_perform_bind_iff (r := .source _)).mp h₁
      obtain ⟨root, rfl⟩ := hserved _ (List.mem_append_right _ List.mem_cons_self)
      have hsub : rest ⊆ asked ++
          ⟨.source (.dataRoot c.beginBlock c.endBlock), .ok root⟩ :: rest :=
        fun e he => List.mem_append_right _ (List.mem_cons_of_mem _ he)
      have htold : DigestTold nonce [⟨.source (.dataRoot c.beginBlock c.endBlock), .ok root⟩]
          (.dataCommitment c) (commitmentDigest nonce root) (some root) :=
        .dataCommitment c List.mem_cons_self
      exact (accounted_of_publish haddress (fun e he => hserved e (hsub he)) htold h₂).mono hsub
  · -- A confirm was found, and it was read from an accepted record.
    obtain ⟨values, value, rfl, hvalue, haccepted⟩ := Store.queryOne_follows_some hquery
    exact .found (List.mem_append_left _ List.mem_cons_self) hvalue haccepted

/-- **Every run for a nonce that is wanted** accounts for it, however it ends. Only the first nonce
needs no confirm. -/
theorem accounted_of_follows (haddress : identity.address = setup.address)
    (hserved : ∀ e ∈ t, IsServed setup identity attestations wanted e)
    (hwanted : wanted nonce) (hfirst : nonce ≠ bootstrapNonce)
    (h : Follows (process setup nonce) t outcome) :
    Accounted setup nonce (attestations nonce) t := by
  rw [process] at h
  obtain ⟨answer, rest, rfl, h₁⟩ := (follows_perform_bind_iff (r := .source _)).mp h
  obtain rfl : answer = .ok (some (attestations nonce)) :=
    hserved _ List.mem_cons_self hwanted
  dsimp only at h₁
  rw [if_neg hfirst] at h₁
  obtain ⟨answer, rest, rfl, h₂⟩ := (follows_perform_bind_iff (r := .source _)).mp h₁
  obtain ⟨prior, rfl, hmember⟩ :=
    hserved _ (List.mem_cons_of_mem _ List.mem_cons_self) hwanted
  dsimp only at h₂
  rw [hmember] at h₂
  obtain ⟨_, published, signing, rfl, -, h₃⟩ := follows_bind_iff.mp h₂
  have hsub : signing ⊆ ⟨.source (.attestation nonce), .ok (some (attestations nonce))⟩ ::
      ⟨.source (.valsetBefore nonce), .ok prior⟩ :: (published ++ signing) :=
    fun e he => List.mem_cons_of_mem _ (List.mem_cons_of_mem _ (List.mem_append_right _ he))
  exact (accounted_of_signUnlessStored haddress (fun e he => hserved e (hsub he)) h₃).mono hsub

/-! ### The processor -/

/-- **A whole turn of the processor** makes a run for the nonce that it takes. -/
theorem exists_process_of_turn (h : Follows (processNext setup nonces requeue) t (.again ())) :
    ∃ nonce run outcome, takenFrom nonces (motions t) = [nonce] ∧ run ⊆ t ∧
      Follows (process setup nonce) run outcome := by
  obtain ⟨nonce', ms, hparting, hmotions⟩ := processNext_follows h
  -- A turn that stops is not followed by another one.
  have hstop : ∀ {t' : List Exchange} {result : WorkerResult},
      ¬ Follows (stopProcessing nonces result) t' (.again ()) := by
    intro t' result h'
    obtain ⟨_, _, -, h₁⟩ := follows_perform_bind_iff.mp h'
    obtain ⟨-, ⟨⟩⟩ := follows_done_iff.mp h₁
  rw [processNext] at h
  obtain ⟨received, t₁, rfl, h₁⟩ := follows_perform_bind_iff.mp h
  cases received with
  | cancelled => exact absurd h₁ hstop
  | nonce nonce =>
    -- What is received is what is taken, and nothing else is.
    have htaken : takenFrom nonces (motions (⟨.receive nonces, .nonce nonce⟩ :: t₁)) = [nonce] := by
      obtain ⟨⟨⟩, -⟩ := List.cons.inj hmotions
      rw [hmotions, takenFrom_cons]
      have hnone : takenFrom nonces ms = [] := by
        cases hparting <;> rfl
      rw [hnone, Motion.takenFrom?, if_pos rfl]
      rfl
    obtain ⟨result, tries, rest, rfl, htries, h₂⟩ := follows_bind_iff.mp h₁
    have hsub : tries ⊆ ⟨.receive nonces, .nonce nonce⟩ :: (tries ++ rest) :=
      fun e he => List.mem_cons_of_mem _ (List.mem_append_left _ he)
    -- The first run is made unless the task was cancelled before, and then the turn is the last.
    cases attempted_of_follows htries with
    | cancelled => exact absurd h₂ hstop
    | succeeded success =>
      exact ⟨nonce, _, _, htaken, fun e he => hsub (List.mem_cons_of_mem _ he), success⟩
    | failed failure next =>
      refine ⟨nonce, _, _, htaken, fun e he => hsub ?_, failure⟩
      exact List.mem_cons_of_mem _ (List.mem_append_left _ he)

/-- **Every nonce that was taken** in whole turns had its run. The induction is on the turns. -/
theorem exists_process_of_taken
    (h : Loops (fun _ : Unit => processNext setup nonces requeue) () t ())
    (htaken : nonce ∈ takenFrom nonces (motions t)) :
    ∃ run outcome, run ⊆ t ∧ Follows (process setup nonce) run outcome := by
  generalize hstate : () = s at h
  induction h with
  | start => cases htaken
  | @turn whole last s s' _ hturn ih =>
    rw [motions_append, takenFrom_append, List.mem_append] at htaken
    rcases htaken with htaken | htaken
    · obtain ⟨run, outcome, hsub, hrun⟩ := ih htaken rfl
      exact ⟨run, outcome, fun e he => List.mem_append_left _ (hsub he), hrun⟩
    · obtain ⟨nonce', run, outcome, hsole, hsub, hrun⟩ := exists_process_of_turn hturn
      rw [hsole] at htaken
      obtain rfl := List.mem_singleton.mp htaken
      exact ⟨run, outcome, fun e he => List.mem_append_right _ (hsub he), hrun⟩

/-- What a turn asks to put, a run asks to put, since nothing else in a turn does. -/
theorem exists_process_of_asks_put {key : String} {value : Bytes} {limit : Nat}
    (h : Asks (processNext setup nonces requeue) t (.put key value limit)) :
    ∃ n run, run ⊆ t ∧ Asks (process setup n) run (.put key value limit) := by
  rcases processNext_asks h with ⟨-, ⟨⟩⟩ | ⟨n, tries, rfl, hasks⟩ |
    ⟨n, tries, rest, attempts, error, -, -, hasks⟩ | ⟨event, ⟨⟩⟩ | ⟨⟨⟩⟩
  · rcases asks_retryFrom hasks with ⟨⟨⟩⟩ | ⟨⟨⟩⟩ | ⟨_, before, run, rfl, hrun⟩
    exact ⟨n, run, fun e he => List.mem_cons_of_mem _ (List.mem_append_right _ he), hrun⟩
  · rcases requeueOrDrop_asks hasks with ⟨-, ⟨⟩⟩ | ⟨latest, -, ⟨⟩, -⟩ | ⟨event, ⟨⟩⟩

/-! ### The store -/

/-- **A store that can be reached**: what is read is held by some replica, and a confirm for whose
put there is an answer was written to some replica, whatever this replica made of it. -/
structure Reached (overlay : Overlay) (events : List StoreEvent) : Prop where
  sound : ∀ replica ∈ overlay, replica.Sound
  reads : ∀ before key limit values after,
    events = before ++ .exchange ⟨.get key limit, .ok values⟩ :: after →
      ∀ value ∈ values, value ∈ (overlay.after (StoreEvent.writes before)).get key
  puts : ∀ before key value limit answer after, IsConfirmKey key →
    events = before ++ .exchange ⟨.put key value limit, answer⟩ :: after →
      ∃ i < overlay.length, .write ⟨i, key, value⟩ ∈ before

/-- **Nobody else writes** under the keys of the own address: what is written there, the processor
asked to put. What is held there from before is a confirm of the address, too. -/
structure Undisturbed (setup : OrchestratorSetup) (nonces requeue : QueueId)
    (attestations : UInt64 → Attestation) (wanted : UInt64 → Prop) (overlay : Overlay)
    (events : List StoreEvent) : Prop where
  before : ∀ n, wanted n →
    ∀ value ∈ overlay.get (Store.confirmKey (attestations n).kind n setup.address),
      RecordVerifies (attestations n) n setup.address value
  since : ∀ w ∈ StoreEvent.writes events,
    (∃ kind n, w.key = Store.confirmKey kind n setup.address) →
      ∃ course limit, course <+: StoreEvent.exchanges events ∧
        Waits (fun _ : Unit => processNext setup nonces requeue) () course ()
          (.put w.key w.value limit)

variable {overlay : Overlay} {events : List StoreEvent}

/-- **A nonce that is accounted for** has a record that is kept: the one that was read, or the one
that a put has left at a replica. -/
theorem Accounted.exists_keeps
    (h : Accounted setup nonce attestation (StoreEvent.exchanges events))
    (hreached : Reached overlay events) :
    ∃ value, isAccepted (Store.confirmKey attestation.kind nonce setup.address) value = true ∧
      (overlay.after (StoreEvent.writes events)).Keeps
        (Store.confirmKey attestation.kind nonce setup.address) value := by
  have hkey := Store.isConfirmKey_confirmKey attestation.kind nonce setup.address
  cases h with
  | @found values value limit read mem accepted =>
    obtain ⟨before, after, hsplit⟩ := List.append_of_mem (StoreEvent.mem_exchanges read)
    have hheld := hreached.reads before _ _ values after hsplit value mem
    refine ⟨value, accepted, ?_⟩
    rw [hsplit, StoreEvent.writes_append, Overlay.after_append]
    exact (Overlay.keeps_of_mem_get hkey accepted hheld).after _
  | @sent value limit answer put accepted =>
    obtain ⟨before, after, hsplit⟩ := List.append_of_mem (StoreEvent.mem_exchanges put)
    obtain ⟨i, hi, hwritten⟩ := hreached.puts before _ _ _ _ after hkey hsplit
    have hmem : (⟨i, Store.confirmKey attestation.kind nonce setup.address, value⟩ : ReplicaWrite) ∈
        StoreEvent.writes events := by
      rw [hsplit, StoreEvent.writes_append]
      exact List.mem_append_left _ (List.mem_filterMap.mpr ⟨_, hwritten, rfl⟩)
    exact Overlay.exists_keeps_of_written hkey accepted hreached.sound hi hmem

/-- **What the processor asks to put** under an own key, for a nonce that is wanted, verifies. -/
theorem recordVerifies_of_asks (haddress : identity.address = setup.address)
    {key : String} {value : Bytes} {limit : Nat}
    (hserved : ∀ e ∈ course, IsServed setup identity attestations wanted e) (hwanted : wanted nonce)
    (hkey : key = Store.confirmKey (attestations nonce).kind nonce setup.address)
    (h : Waits (fun _ : Unit => processNext setup nonces requeue) () course ()
      (.put key value limit)) :
    RecordVerifies (attestations nonce) nonce setup.address value := by
  obtain ⟨whole, begun, rfl, -, hasks⟩ := h
  -- The put belongs to a run of one of the attempts.
  obtain ⟨n, run, hsub, hrun⟩ := exists_process_of_asks_put hasks
  have hrunServed : ∀ e ∈ run, IsServed setup identity attestations wanted e :=
    fun e he => hserved e (List.mem_append_right whole (hsub he))
  obtain ⟨-, attestation, prior, ⟨rest, rfl⟩, -, hputs⟩ := process_asks_put hrun
  cases hputs with
  | latest => exact absurd hkey.symm (ConfirmKey.render_ne_latestValsetKey _)
  | confirm ready =>
    obtain ⟨hkind, rfl, -⟩ := Store.confirmKey_inj.mp hkey
    cases hrunServed _ List.mem_cons_self hwanted
    exact ready.told.recordVerifies (verifyText_of_isServed haddress (hrunServed _ ready.signed)).2

/-- Whatever is held under an own key is a confirm of the own address, because it was held from
before or put by the processor. -/
theorem recordVerifies_of_mem (haddress : identity.address = setup.address)
    (hserved : ∀ e ∈ StoreEvent.exchanges events, IsServed setup identity attestations wanted e)
    (hreached : Reached overlay events)
    (hundisturbed : Undisturbed setup nonces requeue attestations wanted overlay events)
    (hwanted : wanted nonce) {value : Bytes}
    (h : value ∈ (overlay.after (StoreEvent.writes events)).get
      (Store.confirmKey (attestations nonce).kind nonce setup.address)) :
    RecordVerifies (attestations nonce) nonce setup.address value := by
  rcases Overlay.mem_get_or_written (Store.isConfirmKey_confirmKey _ _ _) hreached.sound h with
    hbefore | ⟨w, hw, hkey, rfl⟩
  · exact hundisturbed.before nonce hwanted value hbefore
  · obtain ⟨course, limit, hfront, hwaits⟩ := hundisturbed.since w hw ⟨_, _, hkey⟩
    exact recordVerifies_of_asks haddress (fun e he => hserved e (hfront.subset he)) hwanted hkey
      hwaits

/-- **A nonce that the processor was through with** has a confirm of the identity in the store. -/
theorem holdsVerified_of_taken (haddress : identity.address = setup.address)
    (hserved : ∀ e ∈ StoreEvent.exchanges events, IsServed setup identity attestations wanted e)
    (hreached : Reached overlay events)
    (hundisturbed : Undisturbed setup nonces requeue attestations wanted overlay events)
    {whole : List Exchange} (hwhole : whole ⊆ StoreEvent.exchanges events)
    (hloops : Loops (fun _ : Unit => processNext setup nonces requeue) () whole ())
    (htaken : nonce ∈ takenFrom nonces (motions whole)) (hwanted : wanted nonce)
    (hfirst : nonce ≠ bootstrapNonce) :
    HoldsVerified (overlay.after (StoreEvent.writes events)) (attestations nonce) nonce
      setup.address := by
  obtain ⟨run, outcome, hsub, hrun⟩ := exists_process_of_taken hloops htaken
  have hcourse : run ⊆ StoreEvent.exchanges events := fun e he => hwhole (hsub he)
  have haccounted := accounted_of_follows haddress (fun e he => hserved e (hcourse he)) hwanted
    hfirst hrun
  obtain ⟨value, -, hkeeps⟩ := (haccounted.mono hcourse).exists_keeps hreached
  exact ⟨value, hkeeps.mem_get,
    recordVerifies_of_mem haddress hserved hreached hundisturbed hwanted hkeeps.mem_get⟩

end Orchestrator

end Countersign
