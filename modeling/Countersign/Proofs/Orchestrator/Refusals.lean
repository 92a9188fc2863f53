import Countersign.Proofs.Orchestrator.Publishing
import Countersign.Proofs.Orchestrator.Requeueing
import Countersign.Proofs.Routine.Stopping
import Countersign.Proofs.Store.Verdicts

/-!
# A nonce whose confirm was not delivered

What peers answer to the write of a confirm decides, two layers up, what becomes of a nonce. This
module follows the answer there. The write of a confirm is the last thing that a run of
`Orchestrator.process` asks the store, and its failure is the failure of the run
(`Orchestrator.stopsOn_process`). The retries and the processor then read off its class alone
whether the nonce is tried again and put back (`Orchestrator.KeepsTrying`), or given up
(`Orchestrator.afterPut_of_follows`).

So a nonce is kept for which some peer could not be asked, as long as the write was not contested.
If it was, the refusal by the other peers is taken for the answer of all, and the nonce is given up
(`Orchestrator.put_answers_truly_iff`).
-/

namespace Countersign

open Routine

/-! ### Writes of confirms that fail -/

/-- The failure of a write, other than that of the latest valset. The latter is thrown away by a
run, and so it is no failure of it. -/
def failedPut? : Exchange → Option OverlayError
  | ⟨.put key _ _, .error e⟩ => if key = latestValsetKey then none else some e
  | _ => none

/-- A failed write is the failure of what asked for it, put in its own words. `StopsOn` with this
says that the routine ends with it at once. -/
def failsWith {α ε : Type} (words : OverlayError → ε) (e : Exchange) : Option (Except ε α) :=
  (failedPut? e).map fun error => .error (words error)

/-- A failed write under a confirm's key counts. -/
theorem failsWith_put {α ε : Type} {words : OverlayError → ε} {key : String}
    (hkey : IsConfirmKey key) (value : Bytes) (limit : Nat) (error : OverlayError) :
    failsWith (α := α) words ⟨.put key value limit, .error error⟩ =
      some (.error (words error)) := by
  have hne : key ≠ latestValsetKey := by
    rintro rfl
    exact not_isConfirmKey_latestValsetKey hkey
  show ((if key = latestValsetKey then none else some error).map _) = _
  rw [if_neg hne]
  rfl

/-- Putting a record ends with the failure of its write. -/
theorem Store.stopsOn_putRecord {config : StoreConfig} (key : String) (value : Bytes) :
    StopsOn (failsWith .overlay) (putRecord config key value) := by
  unfold putRecord
  split
  · -- A record that is not accepted is not written.
    trivial
  · rw [stopsOn_perform_bind]
    intro answer
    cases answer with
    | ok _ => exact ⟨by rintro a ⟨⟩, trivial⟩
    | error e =>
      refine ⟨?_, trivial⟩
      intro a ha
      show Routine.done (.error (.overlay e)) = .done a
      obtain ⟨failure, hfailed, rfl⟩ := Option.map_eq_some_iff.mp ha
      change (if key = latestValsetKey then none else some e) = some failure at hfailed
      split at hfailed
      · cases hfailed
      · rw [Option.some.inj hfailed]

namespace Orchestrator

variable {setup : OrchestratorSetup} {nonces requeue : QueueId} {nonce : UInt64}

/-- Publishing a confirm ends with it. -/
theorem stopsOn_publish (digest : Word) (root : Option Word) :
    StopsOn (failsWith fun e => .store (.overlay e)) (publish setup nonce digest root) := by
  rw [publish]
  refine stopsOn_quiet_bind (fun _ => rfl) fun signed => ?_
  cases signed with
  | error e => trivial
  | ok signature =>
    -- The failure of the write is passed on, in the words of the orchestrator.
    refine (Store.stopsOn_putRecord _ _).bind (fun e a ha => ?_) fun put => ?_
    · obtain ⟨failure, hfailed, rfl⟩ := Option.map_eq_some_iff.mp ha
      refine ⟨.error (.overlay failure), ?_, rfl⟩
      rw [failsWith, hfailed]
      rfl
    · cases put with
      | error e => trivial
      | ok _ => exact stopsOn_quiet_bind (fun _ => rfl) fun _ => trivial

/-- Signing ends with it, as publishing is the last thing that it does. -/
theorem stopsOn_signUnlessStored (attestation : Attestation) :
    StopsOn (failsWith fun e => .store (.overlay e))
      (signUnlessStored setup nonce attestation) := by
  unfold signUnlessStored
  refine Conforms.stopsOn_bind (Store.conforms_queryOne fun _ => rfl) fun stored => ?_
  rcases stored with e | _ | confirm
  · trivial
  · cases attestation with
    | valset v => exact stopsOn_publish _ _
    | dataCommitment c =>
      refine stopsOn_quiet_bind (fun _ => rfl) fun root => ?_
      cases root with
      | error e => trivial
      | ok root => exact stopsOn_publish _ _
  · exact stopsOn_quiet_bind (fun _ => rfl) fun _ => trivial

/-- **A run stops at a confirm that it cannot write**, and fails with that. -/
theorem stopsOn_process (nonce : UInt64) :
    StopsOn (failsWith fun e => .store (.overlay e)) (process setup nonce) := by
  have hskip : ∀ reason, StopsOn (failsWith fun e => .store (.overlay e)) (skip reason) :=
    fun reason => stopsOn_quiet_bind (fun _ => rfl) fun _ => trivial
  rw [process]
  refine stopsOn_quiet_bind (fun _ => rfl) fun found => ?_
  -- A run that ends before it signs has no such write in it.
  rcases found with e | _ | attestation
  · trivial
  · trivial
  dsimp only
  split
  · exact hskip _
  refine stopsOn_quiet_bind (fun _ => rfl) fun prior => ?_
  cases prior with
  | error e => trivial
  | ok prior =>
    dsimp only
    split
    · exact hskip _
    -- Whether the latest valset is written makes no difference.
    refine Conforms.stopsOn_bind (Store.conforms_putLatestValset _ fun value answer => ?_)
      fun _ => stopsOn_signUnlessStored attestation
    cases answer with
    | ok _ => rfl
    | error e =>
      show ((if latestValsetKey = latestValsetKey then none else some e).map _) = none
      rw [if_pos rfl]
      rfl

/-! ### What becomes of the nonce -/

/-- **A nonce is kept** after an attempt that failed: there is another attempt, unless the processor
is told to stop; or it goes back into the queue, unless it is too old or the queue is full. -/
inductive KeepsTrying (setup : OrchestratorSetup) (nonces requeue : QueueId) (nonce : UInt64) :
    List Exchange → Turn Unit WorkerResult → Prop where
  | again {left attempt : Nat} {tries rest : List Exchange}
      {result : Except (RetryError OrchestratorError) ProcessOutcome}
      {turn : Turn Unit WorkerResult}
      (next : Follows (retryFrom (fun _ => process setup nonce) OrchestratorError.isRetryable
        (.make setup.retry.delay left) attempt) tries result) :
      KeepsTrying setup nonces requeue nonce
        (⟨.pause setup.retry.delay, .elapsed⟩ :: (tries ++ rest)) turn
  | stopped : KeepsTrying setup nonces requeue nonce
      [⟨.pause setup.retry.delay, .cancelled⟩, ⟨.closeQueue nonces, ()⟩] (.finish (.ok ()))
  | putBack {latest : Except SourceError UInt64}
      (recent : isRecent nonce (knownLatest nonce latest) setup.config.requeueWindow = true) :
      KeepsTrying setup nonces requeue nonce
        [⟨.source .latestNonce, latest⟩, ⟨.trySend requeue nonce, true⟩, ⟨.note .requeued, ()⟩]
        (.again ())
  | full {latest : Except SourceError UInt64}
      (recent : isRecent nonce (knownLatest nonce latest) setup.config.requeueWindow = true) :
      KeepsTrying setup nonces requeue nonce
        [⟨.source .latestNonce, latest⟩, ⟨.trySend requeue nonce, false⟩, ⟨.note .dropped, ()⟩]
        (.again ())
  | old {latest : Except SourceError UInt64}
      (old : isRecent nonce (knownLatest nonce latest) setup.config.requeueWindow = false) :
      KeepsTrying setup nonces requeue nonce
        [⟨.source .latestNonce, latest⟩, ⟨.note .dropped, ()⟩] (.again ())

/-- A nonce is given up at once: it is noted as dropped, and nothing else is done about it. -/
def givenUp : List Exchange :=
  [⟨.note .dropped, ()⟩]

/-- To give a nonce up is not to keep it. -/
theorem not_keepsTrying_givenUp {turn : Turn Unit WorkerResult} :
    ¬ KeepsTrying setup nonces requeue nonce givenUp turn := by
  intro h
  unfold givenUp at h
  -- Whoever keeps a nonce has another exchange before the note.
  generalize hcourse : [(⟨.note .dropped, ()⟩ : Exchange)] = course at h
  cases h <;> simp at hcourse

/-- To put a nonce back, or to find it too old or the queue full, is to keep it. -/
theorem keepsTrying_of_requeueOrDrop {t : List Exchange} {decision : RequeueDecision}
    (h : Follows (requeueOrDrop setup.config nonce requeue) t decision) :
    KeepsTrying setup nonces requeue nonce t (.again ()) := by
  rw [requeueOrDrop_eq] at h
  obtain ⟨latest, rest, rfl, h₁⟩ := (follows_perform_bind_iff (r := .source .latestNonce)).mp h
  unfold putBack at h₁
  -- Too old a nonce is dropped. A recent one is sent back, and dropped only if there is no room.
  cases hrecent : isRecent nonce (knownLatest nonce latest) setup.config.requeueWindow with
  | false =>
    rw [hrecent] at h₁
    obtain ⟨_, t₁, rfl, h₂⟩ := follows_perform_bind_iff.mp h₁
    obtain ⟨rfl, -⟩ := follows_done_iff.mp h₂
    exact .old hrecent
  | true =>
    rw [hrecent] at h₁
    obtain ⟨sent, t₁, rfl, h₂⟩ := follows_perform_bind_iff.mp h₁
    cases sent with
    | false =>
      obtain ⟨_, t₂, rfl, h₃⟩ := follows_perform_bind_iff.mp h₂
      obtain ⟨rfl, -⟩ := follows_done_iff.mp h₃
      exact .full hrecent
    | true =>
      obtain ⟨_, t₂, rfl, h₃⟩ := follows_perform_bind_iff.mp h₂
      obtain ⟨rfl, -⟩ := follows_done_iff.mp h₃
      exact .putBack hrecent

/-- No failure of the overlay stops the processor. -/
theorem failureClass_overlay_ne_fatal (error : OverlayError) :
    (OrchestratorError.store (.overlay error)).failureClass ≠ .fatal := by
  cases error <;> rintro ⟨⟩

/-- A write of the processor is asked for by an attempt to sign, since nothing else in a turn
writes. -/
theorem asks_retry_of_put {t : List Exchange} {key : String} {value : Bytes} {limit : Nat}
    (h : Asks (processNext setup nonces requeue) (⟨.receive nonces, .nonce nonce⟩ :: t)
      (.put key value limit)) :
    Asks (Routine.retry setup.retry OrchestratorError.isRetryable fun _ => process setup nonce) t
      (.put key value limit) := by
  rcases processNext_asks h with ⟨⟨⟩, -⟩ | ⟨n, tries, heq, hasks⟩ |
    ⟨n, tries, rest, attempts, error, -, -, hasks⟩ | ⟨event, ⟨⟩⟩ | ⟨⟨⟩⟩
  · cases heq
    exact hasks
  · rcases requeueOrDrop_asks hasks with ⟨-, ⟨⟩⟩ | ⟨latest, -, ⟨⟩, -⟩ | ⟨event, ⟨⟩⟩

/-- **A turn from a failed write on.** The nonce is kept if the failure is worth another attempt,
and given up if it is not. Nothing but the class of the failure matters. -/
theorem afterPut_of_follows {key : String} {value : Bytes} {limit : Nat} {error : OverlayError}
    {before after : List Exchange} {turn : Turn Unit WorkerResult} (hkey : IsConfirmKey key)
    (h : Follows (processNext setup nonces requeue) (⟨.receive nonces, .nonce nonce⟩ ::
      (before ++ ⟨.put key value limit, .error error⟩ :: after)) turn) :
    (error.failureClass.isRetryable = true ∧ KeepsTrying setup nonces requeue nonce after turn) ∨
      (error.failureClass.isRetryable = false ∧ after = givenUp ∧ turn = .again ()) := by
  have hstop : failsWith (fun e => OrchestratorError.store (.overlay e))
      ⟨.put key value limit, .error error⟩ =
        some (.error (α := ProcessOutcome) (.store (.overlay error))) := failsWith_put hkey _ _ _
  -- The write is asked for in the turn, behind the receipt of the nonce.
  have hbegins : Begins (processNext setup nonces requeue) ((⟨.receive nonces, .nonce nonce⟩ ::
      before) ++ ⟨.put key value limit, .error error⟩ :: after) := h.begins
  have hasks := asks_retry_of_put hbegins.asks
  rw [processNext] at h
  obtain ⟨received, rest, hcourse, h₁⟩ := follows_perform_bind_iff.mp h
  obtain ⟨⟨⟩, rfl⟩ := List.cons.inj hcourse
  obtain ⟨result, tries, rest, hsplit, htries, h₂⟩ := follows_bind_iff.mp h₁
  -- The write belongs to the attempts.
  rcases append_cons_eq_append hsplit with ⟨part, rfl, rfl⟩ | ⟨part, rfl, -⟩
  swap
  · exact absurd hasks (htries.not_asks part _)
  obtain ⟨left, number, hafter⟩ := afterFailure_of_stopsOn (fun _ => stopsOn_process nonce)
    (fun _ => rfl) (fun _ => rfl) hstop htries
  -- What the retries do about the failure is what becomes of the nonce.
  cases hafter with
  -- Given up: the failure is not worth another attempt.
  | aborted final =>
    dsimp only at h₂
    rw [if_neg (failureClass_overlay_ne_fatal error)] at h₂
    obtain ⟨_, t₁, rfl, h₃⟩ := follows_perform_bind_iff.mp h₂
    obtain ⟨rfl, rfl⟩ := follows_done_iff.mp h₃
    exact Or.inr ⟨final, rfl, rfl⟩
  -- Kept: this was the last attempt, so the nonce is put back.
  | exhausted worth =>
    obtain ⟨decision, t₁, t₂, rfl, hdecision, h₃⟩ := follows_bind_iff.mp h₂
    obtain ⟨rfl, rfl⟩ := follows_done_iff.mp h₃
    rw [List.nil_append, List.append_nil]
    exact Or.inl ⟨worth, keepsTrying_of_requeueOrDrop hdecision⟩
  -- Kept as far as it goes: the pause is cut short, and the processor stops.
  | cancelled worth =>
    obtain ⟨_, t₁, rfl, h₃⟩ := follows_perform_bind_iff.mp h₂
    obtain ⟨rfl, rfl⟩ := follows_done_iff.mp h₃
    exact Or.inl ⟨worth, .stopped⟩
  | again worth next => exact Or.inl ⟨worth, .again next⟩

/-! ### From the peers to the nonce -/

open Peers (Stalled Contested)

/-- Peers are asked to take a record, and give their answer. -/
def putTo (peers : Peers) (key : String) (value : Bytes) (limit : Nat) : Exchange :=
  ⟨.put key value limit, (peers.put key value limit).2⟩

/-- **The answer to a write of peers is true** as long as the write is not contested.

* It is a success exactly if some peer accepts.
* It says that the record was refused, which is final, only if every peer refused.
* It says that the record was not delivered, which is worth another attempt, if no peer accepts and
  some peer is not reached. If the record is a confirm, its nonce is kept then.

The first point holds of every write. Each of the others holds exactly of those that are not
contested; the nonce of a contested one is given up. -/
theorem put_answers_truly_iff (peers : Peers) (key : String) (value : Bytes) (limit : Nat) :
    ((peers.put key value limit).2 = .ok () ↔ .accepted ∈ peers.outcomes key value limit) ∧
    ((∀ reason, (peers.put key value limit).2 = .error (.rejected reason) →
        (OverlayError.rejected reason).failureClass.isRetryable = false ∧
          ∀ w ∈ peers.outcomes key value limit, ∃ r, w = .refused r) ↔
      ¬ Contested (peers.outcomes key value limit)) ∧
    ((Stalled (peers.outcomes key value limit) →
        ∃ reason, (peers.put key value limit).2 = .error (.unavailable reason) ∧
          (OverlayError.unavailable reason).failureClass.isRetryable = true) ↔
      ¬ Contested (peers.outcomes key value limit)) ∧
    ∀ setup nonces requeue nonce before after turn, IsConfirmKey key →
      Stalled (peers.outcomes key value limit) →
      Follows (processNext setup nonces requeue) (⟨.receive nonces, .nonce nonce⟩ ::
        (before ++ putTo peers key value limit :: after)) turn →
      (KeepsTrying setup nonces requeue nonce after turn ↔
        ¬ Contested (peers.outcomes key value limit)) ∧
      (Contested (peers.outcomes key value limit) → after = givenUp ∧ turn = .again ()) := by
  have hsettles := Peers.settles_put peers key value limit
  unfold putTo
  generalize peers.outcomes key value limit = writes at hsettles ⊢
  generalize (peers.put key value limit).2 = answer at hsettles ⊢
  refine ⟨hsettles.eq_ok_iff, ?_, ⟨?_, ?_⟩, ?_⟩
  · -- The refusals are those of all peers exactly if the write is not contested.
    rw [← hsettles.forall_refused_iff]
    exact ⟨fun h reason hrejected => (h reason hrejected).2, fun h reason hrejected =>
      ⟨rfl, h reason hrejected⟩⟩
  · -- A contested write is a stalled one, but it is answered by a refusal.
    intro hdelivery hcontested
    obtain ⟨reason, rfl, -⟩ := hdelivery hcontested.toStalled
    obtain ⟨_, ⟨⟩⟩ := hsettles.of_contested hcontested
  · intro huncontested hstalled
    obtain ⟨reason, rfl⟩ := hsettles.of_stalled hstalled huncontested
    exact ⟨reason, rfl, rfl⟩
  · intro setup nonces requeue nonce before after turn hkey hstalled hfollows
    by_cases hcontested : Contested writes
    · -- The answer is a refusal, which is final.
      obtain ⟨reason, rfl⟩ := hsettles.of_contested hcontested
      rcases afterPut_of_follows hkey hfollows with ⟨⟨⟩, -⟩ | ⟨-, rfl, rfl⟩
      refine ⟨⟨fun hkeeps => absurd hkeeps not_keepsTrying_givenUp, ?_⟩, fun _ => ⟨rfl, rfl⟩⟩
      exact fun hnot => absurd hcontested hnot
    · -- The answer is that the record was not delivered, which is worth another attempt.
      obtain ⟨reason, rfl⟩ := hsettles.of_stalled hstalled hcontested
      rcases afterPut_of_follows hkey hfollows with ⟨-, hkeeps⟩ | ⟨⟨⟩, -⟩
      exact ⟨⟨fun _ => hcontested, fun _ => hkeeps⟩, fun h => absurd h hcontested⟩

/-! ### Two turns -/

/-- **A put that fails** ends the publishing. -/
theorem publish_follows_failed (digest : Word) (root : Option Word) (x : Vrs) (error : OverlayError)
    (haccepted : isAccepted
      (Store.confirmKey (confirmOf setup.address x root).kind nonce setup.address)
      (Bytes.ofText (confirmOf setup.address x root).encode) = true) :
    Follows (publish setup nonce digest root)
      [⟨.sign digest, .ok x⟩,
        ⟨.put (Store.confirmKey (confirmOf setup.address x root).kind nonce setup.address)
          (Bytes.ofText (confirmOf setup.address x root).encode) setup.store.requestTimeout,
          .error error⟩]
      (.error (.store (.overlay error))) := by
  rw [publish]
  refine .perform_bind ?_
  dsimp only
  -- The confirm is acceptable, so it is the peers that fail the write.
  rw [Store.putConfirm, signer_confirmOf, Store.putRecord, isAccepted_iff.mp haccepted]
  exact .perform_bind (.done _)

/-- **A run whose confirm is not taken** by peers that answer with an error, for some address, with
settings for a single attempt. -/
theorem exists_process_follows_failed {peers : Peers} {error : OverlayError}
    (hput : ∀ key value limit, (peers.put key value limit).2 = .error error) :
    ∃ setup before key value limit, setup.retry = hastySetup.retry ∧
      setup.config = hastySetup.config ∧ IsConfirmKey key ∧
      Follows (process setup 2) (before ++ [putTo peers key value limit])
        (.error (.store (.overlay error))) := by
  -- The signature is one that verifies for some address, and this is taken for the orchestrator's.
  obtain ⟨signer, hverify⟩ := Vrs.exists_verifyText_keyless
  let setup : OrchestratorSetup := { hastySetup with address := signer }
  obtain ⟨latest, _, hlatest, -⟩ :=
    exists_follows_putLatestValset setup.store (Store.soleValset setup.address)
  have hcheck : (confirmOf setup.address Vrs.keyless (some 0)).checkSignature 2 = .ok () := hverify
  have haccepted := Store.isAccepted_encode hcheck
  rw [signer_confirmOf] at haccepted
  have hpublish := publish_follows_failed (commitmentDigest 2 0) (some 0) Vrs.keyless error
    haccepted
  refine ⟨setup, courseToSignature setup 2 ⟨2, 1, 2⟩ latest 0 Vrs.keyless,
    Store.confirmKey .dataCommitment 2 setup.address,
    Bytes.ofText (confirmOf setup.address Vrs.keyless (some 0)).encode,
    setup.store.requestTimeout, rfl, rfl, Store.isConfirmKey_confirmKey _ _ _, ?_⟩
  unfold putTo
  rw [hput]
  exact process_follows_of_publish (by decide) hlatest hpublish

/-- **A turn with a nonce whose first attempt fails for good** gives it up. -/
theorem processNext_follows_final {tried : List Exchange} {error : OverlayError}
    (hattempt : Follows (process setup nonce) tried (.error (.store (.overlay error))))
    (hfinal : error.failureClass.isRetryable = false) :
    Follows (processNext setup nonces requeue)
      (⟨.receive nonces, .nonce nonce⟩ :: ⟨.isCancelled, false⟩ :: (tried ++ givenUp))
      (.again ()) := by
  have htries : Follows (Routine.retry setup.retry OrchestratorError.isRetryable
      fun _ => process setup nonce) (⟨.isCancelled, false⟩ :: tried)
      (.error (.aborted (.store (.overlay error)))) :=
    follows_retryFrom_of_final (fun _ => process setup nonce) hattempt hfinal
  rw [processNext, ← List.cons_append]
  refine .perform_bind (r := .receive nonces) ?_
  refine htries.bind ?_
  dsimp only
  rw [if_neg (failureClass_overlay_ne_fatal error)]
  exact .perform_bind (r := .note .dropped) (.done _)

/-- A single peer, which cannot be reached. -/
def deafPeers : Peers :=
  [Status.unreachable].map .failing

/-- Two peers, of which one refuses and one cannot be reached. -/
def dividedPeers : Peers :=
  [⟨.invalidArgument, "rej"⟩, Status.unreachable].map .failing

/-- The single peer is not reached. -/
theorem outcomes_deafPeers (key : String) (value : Bytes) (limit : Nat) :
    deafPeers.outcomes key value limit = [.unreached Status.unreachable.describe] :=
  Peers.outcomes_failing _ _ _ _

/-- One peer refuses, and the other is not reached. -/
theorem outcomes_dividedPeers (key : String) (value : Bytes) (limit : Nat) :
    dividedPeers.outcomes key value limit =
      [.refused "rej", .unreached Status.unreachable.describe] :=
  Peers.outcomes_failing _ _ _ _

/-- **A nonce is put back** if the only peer cannot be reached. -/
theorem put_answers_truly_iff_of_deafPeers :
    ∃ setup before key value limit after, IsConfirmKey key ∧
      Stalled (deafPeers.outcomes key value limit) ∧
      Follows (processNext setup 0 1)
        (⟨.receive 0, .nonce 2⟩ :: (before ++ putTo deafPeers key value limit :: after))
        (.again ()) ∧
      KeepsTrying setup 0 1 2 after (.again ()) := by
  have hput : ∀ key value limit, (deafPeers.put key value limit).2 =
      .error (.unavailable Status.unreachable.describe) := fun _ _ _ => rfl
  obtain ⟨setup, before, key, value, limit, hretry, hconfig, hkey, hattempt⟩ :=
    exists_process_follows_failed hput
  have hstalled : Stalled (deafPeers.outcomes key value limit) := by
    refine ⟨?_, Status.unreachable.describe, ?_⟩ <;> rw [outcomes_deafPeers] <;> decide
  have huncontested : ¬ Contested (deafPeers.outcomes key value limit) := by
    rintro ⟨-, reason, hrefused⟩
    rw [outcomes_deafPeers] at hrefused
    cases List.mem_singleton.mp hrefused
  -- The only attempt fails, and the nonce is recent enough.
  have hexhausts : Exhausts setup.retry.delay (fun _ => process setup 2)
      OrchestratorError.isRetryable setup.retry.maxRetries 0
      (⟨.isCancelled, false⟩ :: (before ++ [putTo deafPeers key value limit]))
      (.store (.overlay (.unavailable Status.unreachable.describe))) := by
    rw [hretry]
    exact .last hattempt rfl
  have hrecent : isRecent 2 3 setup.config.requeueWindow = true := by
    rw [hconfig]
    rfl
  have hturn : Follows (processNext setup 0 1) _ (.again ()) :=
    processNext_follows_exhausted hexhausts (requeueOrDrop_follows_putBack setup.config hrecent 1)
  rw [List.cons_append, List.append_assoc] at hturn
  -- So the nonce is kept, and not by the course alone: the general theorem says it.
  have hkept := ((put_answers_truly_iff deafPeers key value limit).2.2.2 setup 0 1 2
    (⟨.isCancelled, false⟩ :: before) _ _ hkey hstalled hturn).1.mpr huncontested
  exact ⟨setup, ⟨.isCancelled, false⟩ :: before, key, value, limit, _, hkey, hstalled, hturn, hkept⟩

/-- **The refusal of one peer is taken for that of all**, though the other one was not reached, and
the nonce is given up. -/
theorem refused_though_unreached :
    ∃ setup before key value limit, IsConfirmKey key ∧
      (dividedPeers.put key value limit).2 = .error (.rejected "rej") ∧
      .unreached Status.unreachable.describe ∈ dividedPeers.outcomes key value limit ∧
      .accepted ∉ dividedPeers.outcomes key value limit ∧
      Follows (processNext setup 0 1)
        (⟨.receive 0, .nonce 2⟩ :: (before ++ putTo dividedPeers key value limit :: givenUp))
        (.again ()) := by
  have hput : ∀ key value limit, (dividedPeers.put key value limit).2 =
      .error (.rejected "rej") := fun _ _ _ => rfl
  obtain ⟨setup, before, key, value, limit, -, -, hkey, hattempt⟩ :=
    exists_process_follows_failed hput
  have hturn : Follows (processNext setup 0 1) _ (.again ()) :=
    processNext_follows_final hattempt rfl
  rw [List.append_assoc] at hturn
  refine ⟨setup, ⟨.isCancelled, false⟩ :: before, key, value, limit, hkey, hput _ _ _, ?_, ?_,
    hturn⟩
  · rw [outcomes_dividedPeers]
    decide
  · rw [outcomes_dividedPeers]
    decide

end Orchestrator

end Countersign
