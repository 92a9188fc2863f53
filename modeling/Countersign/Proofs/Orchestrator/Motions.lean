import Countersign.Orchestrator.Workers
import Countersign.Proofs.Routine.Loop
import Countersign.Proofs.Routine.Retrying
import Countersign.Proofs.Store.Access

/-!
# What processor and drain do to nonces

Of the exchanges of a worker, few have to do with where a nonce is: it is taken from a queue, put
into one, finished, or counted. These are the *motions* of the exchanges (`Motion`), and this module
says which of them a turn has.

* The processor takes a nonce, and then parts with it in one of three ways (`Orchestrator.Parting`,
  `Orchestrator.processNext_follows`). In between it tries to sign, which has no motion
  (`Orchestrator.conforms_tries`).
* The drain moves one nonce or none (`Orchestrator.drainNext_follows`).

For a turn that is not over there is one lemma each, `Orchestrator.processNext_asks` and
`Orchestrator.drainNext_asks`: what the worker asks, and what it has exchanged by then.
-/

namespace Countersign

open Routine

/-! ### What is seen of an exchange -/

/-- **What an exchange does**, as far as nonces, queues and counters go. An exchange has one motion
or none. -/
inductive Motion where
  | taken (queue : QueueId) (nonce : UInt64)
  | put (queue : QueueId) (nonce : UInt64)
  | finished (nonce : UInt64)
  /-- One more requeued nonce was counted. -/
  | requeueNoted
  /-- One more dropped nonce was counted. -/
  | dropNoted
  | closed (queue : QueueId)
deriving DecidableEq

/-- The motion of an exchange, if it has one. A queue that refuses a nonce, and one that has none,
are no motions. -/
def motion? : Exchange → Option Motion
  | ⟨.receive queue, .nonce nonce⟩ => some (.taken queue nonce)
  | ⟨.tryReceive queue, some nonce⟩ => some (.taken queue nonce)
  | ⟨.trySend queue nonce, true⟩ => some (.put queue nonce)
  | ⟨.note (.processed nonce), _⟩ => some (.finished nonce)
  | ⟨.note .requeued, _⟩ => some .requeueNoted
  | ⟨.note .dropped, _⟩ => some .dropNoted
  | ⟨.closeQueue queue, _⟩ => some (.closed queue)
  | _ => none

/-- The motions of exchanges, in order. All that follows about custody is said of these lists. -/
def motions (t : List Exchange) : List Motion :=
  t.filterMap motion?

/-- The nonce that a motion takes from a queue. -/
def Motion.takenFrom? (queue : QueueId) : Motion → Option UInt64
  | .taken q nonce => if q = queue then some nonce else none
  | _ => none

/-- The nonce that a motion puts into a queue. -/
def Motion.putInto? (queue : QueueId) : Motion → Option UInt64
  | .put q nonce => if q = queue then some nonce else none
  | _ => none

/-- The nonces taken from a queue, in order. -/
def takenFrom (queue : QueueId) (ms : List Motion) : List UInt64 :=
  ms.filterMap (Motion.takenFrom? queue)

/-- The nonces put into a queue, in order. -/
def putInto (queue : QueueId) (ms : List Motion) : List UInt64 :=
  ms.filterMap (Motion.putInto? queue)

@[simp] theorem motions_append (t t' : List Exchange) :
    motions (t ++ t') = motions t ++ motions t' :=
  List.filterMap_append

theorem motions_cons (e : Exchange) (t : List Exchange) :
    motions (e :: t) = (motion? e).toList ++ motions t := by
  rw [motions, List.filterMap_cons]
  cases motion? e <;> rfl

@[simp] theorem takenFrom_append (queue : QueueId) (ms ms' : List Motion) :
    takenFrom queue (ms ++ ms') = takenFrom queue ms ++ takenFrom queue ms' :=
  List.filterMap_append

@[simp] theorem putInto_append (queue : QueueId) (ms ms' : List Motion) :
    putInto queue (ms ++ ms') = putInto queue ms ++ putInto queue ms' :=
  List.filterMap_append

theorem takenFrom_cons (queue : QueueId) (m : Motion) (ms : List Motion) :
    takenFrom queue (m :: ms) = (m.takenFrom? queue).toList ++ takenFrom queue ms := by
  rw [takenFrom, List.filterMap_cons]
  cases m.takenFrom? queue <;> rfl

theorem putInto_cons (queue : QueueId) (m : Motion) (ms : List Motion) :
    putInto queue (m :: ms) = (m.putInto? queue).toList ++ putInto queue ms := by
  rw [putInto, List.filterMap_cons]
  cases m.putInto? queue <;> rfl

/-- The nonce that an exchange takes from a queue, as its motion says. -/
def takenBy? (queue : QueueId) (e : Exchange) : Option UInt64 :=
  (motion? e).bind (Motion.takenFrom? queue)

/-- The nonce that an exchange puts into a queue, as its motion says. -/
def putBy? (queue : QueueId) (e : Exchange) : Option UInt64 :=
  (motion? e).bind (Motion.putInto? queue)

/-- What is taken can be read off the exchanges themselves. -/
theorem takenFrom_motions (queue : QueueId) (t : List Exchange) :
    takenFrom queue (motions t) = t.filterMap (takenBy? queue) :=
  List.filterMap_filterMap

/-- What is put can be read off the exchanges themselves. -/
theorem putInto_motions (queue : QueueId) (t : List Exchange) :
    putInto queue (motions t) = t.filterMap (putBy? queue) :=
  List.filterMap_filterMap

theorem Motion.takenFrom?_eq_some {queue : QueueId} {m : Motion} {nonce : UInt64}
    (h : m.takenFrom? queue = some nonce) : m = .taken queue nonce := by
  unfold Motion.takenFrom? at h
  split at h
  · split at h
    · next hq => rw [hq, Option.some.inj h]
    · cases h
  · cases h

theorem Motion.putInto?_eq_some {queue : QueueId} {m : Motion} {nonce : UInt64}
    (h : m.putInto? queue = some nonce) : m = .put queue nonce := by
  unfold Motion.putInto? at h
  split at h
  · split at h
    · next hq => rw [hq, Option.some.inj h]
    · cases h
  · cases h

/-- Only the two ways of receiving take a nonce from a queue. -/
theorem takenBy?_eq_some {queue : QueueId} {e : Exchange} {nonce : UInt64}
    (h : takenBy? queue e = some nonce) :
    e = ⟨.receive queue, .nonce nonce⟩ ∨ e = ⟨.tryReceive queue, some nonce⟩ := by
  obtain ⟨motion, hmotion, htaken⟩ := Option.bind_eq_some_iff.mp h
  obtain rfl := Motion.takenFrom?_eq_some htaken
  unfold motion? at hmotion
  split at hmotion <;> cases hmotion
  · exact Or.inl rfl
  · exact Or.inr rfl

/-- Only a send that does not wait, and is not refused, puts one into a queue. -/
theorem putBy?_eq_some {queue : QueueId} {e : Exchange} {nonce : UInt64}
    (h : putBy? queue e = some nonce) : e = ⟨.trySend queue nonce, true⟩ := by
  obtain ⟨motion, hmotion, hput⟩ := Option.bind_eq_some_iff.mp h
  obtain rfl := Motion.putInto?_eq_some hput
  unfold motion? at hmotion
  split at hmotion <;> cases hmotion
  rfl

/-! ### Waiting -/

/-- Requests that may take time, so that others go on meanwhile. The requests that are named here
are answered at once. -/
def mayWait : Request → Bool
  | .now | .isCancelled | .cancel | .sign _ | .lockKey | .openQueue _ | .trySend _ _ | .tryReceive _
  | .hasRoom _ | .closeQueue _ | .spawn _ | .note _ => false
  | _ => true

namespace Orchestrator

variable {setup : OrchestratorSetup} {nonces requeue : QueueId} {t : List Exchange} {r : Request}

/-! ### Work on a nonce -/

/-- Requests that have no motion, whatever is answered. With `Conforms` this becomes a property of
routines. -/
def isStill : Request → Bool
  | .receive _ | .tryReceive _ | .trySend _ _ | .closeQueue _ => false
  | .note (.processed _) | .note .requeued | .note .dropped => false
  | _ => true

/-- An exchange of a still request has no motion. -/
theorem motion?_of_isStill {e : Exchange} (h : isStill e.1 = true) : motion? e = none := by
  unfold motion?
  split
  case h_8 => rfl
  all_goals cases h

/-- What makes still requests only has no motion. -/
theorem motions_of_conforms {α : Type} {p : Routine α} {given : α → Prop}
    (hp : Conforms (fun r => isStill r = true) given p) (h : Begins p t) : motions t = [] :=
  List.filterMap_eq_nil_iff.mpr fun _ he => motion?_of_isStill (hp.begins h he)

/-- Publishing a confirm has no motion. -/
theorem conforms_publish (nonce : UInt64) (digest : Word) (root : Option Word) :
    Conforms (fun r => isStill r = true) (fun _ => True) (publish setup nonce digest root) := by
  rw [publish]
  refine conforms_perform_bind.mpr ⟨rfl, fun signed => ?_⟩
  split
  · trivial
  refine Conforms.bind (Store.conforms_putRecord rfl) fun put _ => ?_
  split
  · trivial
  · exact conforms_perform_bind.mpr ⟨rfl, fun _ => trivial⟩

/-- Signing, unless a confirm is stored, has no motion. -/
theorem conforms_signUnlessStored (nonce : UInt64) (attestation : Attestation) :
    Conforms (fun r => isStill r = true) (fun _ => True)
      (signUnlessStored setup nonce attestation) := by
  unfold signUnlessStored
  refine Conforms.bind (Store.conforms_queryOne rfl) fun stored _ => ?_
  split
  · trivial
  · exact conforms_perform_bind.mpr ⟨rfl, fun _ => trivial⟩
  split
  · exact conforms_publish _ _ _
  · refine conforms_perform_bind.mpr ⟨rfl, fun root => ?_⟩
    split
    · trivial
    · exact conforms_publish _ _ _

/-- **Signing an attestation** has no motion: the run neither takes nonces nor puts them
anywhere. -/
theorem conforms_process (nonce : UInt64) :
    Conforms (fun r => isStill r = true) (fun _ => True) (process setup nonce) := by
  have hskip : ∀ reason, Conforms (fun r => isStill r = true) (fun _ => True) (skip reason) :=
    fun reason => conforms_perform_bind.mpr ⟨rfl, fun _ => trivial⟩
  rw [process]
  refine conforms_perform_bind.mpr ⟨rfl, fun found => ?_⟩
  split
  · trivial
  · trivial
  split
  · exact hskip _
  refine conforms_perform_bind.mpr ⟨rfl, fun prior => ?_⟩
  split
  · trivial
  split
  · exact hskip _
  · refine Conforms.bind (Store.conforms_putLatestValset _ fun _ => rfl) fun _ _ => ?_
    exact conforms_signUnlessStored _ _

/-- All attempts to sign have no motion. -/
theorem conforms_tries (nonce : UInt64) :
    Conforms (fun r => isStill r = true) (fun _ => True)
      (Routine.retry setup.retry OrchestratorError.isRetryable (fun _ => process setup nonce)) := by
  refine conforms_retryFrom ?_ ?_ (fun _ => conforms_process nonce) _ _
  · rfl
  · rfl

/-! ### The processor -/

/-- **How the processor parts with a nonce**: it is finished, put back and counted, or only counted
as dropped. There is no fourth way, so no nonce vanishes in its hand. -/
inductive Parting (requeue : QueueId) (nonce : UInt64) : List Motion → Prop where
  | finished : Parting requeue nonce [.finished nonce]
  | requeued : Parting requeue nonce [.put requeue nonce, .requeueNoted]
  | dropped : Parting requeue nonce [.dropNoted]

/-- The latest nonce as far as it is known: the nonce itself if it could not be read, so that it
counts as recent. -/
def knownLatest (nonce : UInt64) : Except SourceError UInt64 → UInt64
  | .ok latest => latest
  | .error _ => nonce

/-- Putting a nonce back once the latest one is known. A full queue refuses it, and then it is
dropped. -/
def putBack (config : OrchestratorConfig) (nonce known : UInt64) (queue : QueueId) :
    Routine RequeueDecision :=
  if !isRecent nonce known config.requeueWindow then drop
  else do
    if ← (Request.trySend queue nonce).perform then
      (Request.note .requeued).perform
      return .requeued
    else drop

/-- Putting a nonce back is one question to the source, and what is made of its answer. -/
theorem requeueOrDrop_eq (config : OrchestratorConfig) (nonce : UInt64) (queue : QueueId) :
    requeueOrDrop config nonce queue = SourceQuery.latestNonce.perform >>= fun latest =>
      putBack config nonce (knownLatest nonce latest) queue :=
  rfl

/-- Putting a nonce back parts with it. -/
theorem requeueOrDrop_follows {nonce : UInt64} {decision : RequeueDecision}
    (h : Follows (requeueOrDrop setup.config nonce requeue) t decision) :
    Parting requeue nonce (motions t) := by
  -- To drop a nonce is one note.
  have hdrop : ∀ {t' : List Exchange}, Follows drop t' decision → motions t' = [.dropNoted] := by
    intro t' h'
    obtain ⟨_, t₁, rfl, h₁⟩ := follows_perform_bind_iff.mp h'
    obtain ⟨rfl, -⟩ := follows_done_iff.mp h₁
    rfl
  rw [requeueOrDrop_eq] at h
  obtain ⟨latest, rest, rfl, h₁⟩ := (follows_perform_bind_iff (r := .source .latestNonce)).mp h
  show Parting requeue nonce (motions rest)
  -- Too old, refused by a full queue, or put back.
  unfold putBack at h₁
  split at h₁
  · rw [hdrop h₁]
    exact .dropped
  · obtain ⟨sent, t₁, rfl, h₂⟩ := follows_perform_bind_iff.mp h₁
    cases sent with
    | false =>
      show Parting requeue nonce (motions t₁)
      rw [hdrop h₂]
      exact .dropped
    | true =>
      obtain ⟨_, t₂, rfl, h₃⟩ := follows_perform_bind_iff.mp h₂
      obtain ⟨rfl, -⟩ := follows_done_iff.mp h₃
      exact .requeued

/-- **What is asked in putting a nonce back**: the latest nonce, and then, if the nonce is recent
enough or the latest one could not be read, whether the queue takes it. -/
theorem requeueOrDrop_asks {nonce : UInt64}
    (h : Asks (requeueOrDrop setup.config nonce requeue) t r) :
    (t = [] ∧ r = .source .latestNonce) ∨
    (∃ latest, t = [⟨.source .latestNonce, latest⟩] ∧ r = .trySend requeue nonce ∧
      ∀ l, latest = .ok l → l.toNat - nonce.toNat ≤ setup.config.requeueWindow) ∨
    ∃ event, r = .note event := by
  -- A nonce that is given up is noted, and nothing else is asked about it.
  have hdrop : ∀ {t' : List Exchange}, Asks drop t' r → ∃ event, r = .note event := by
    intro t' h'
    rcases asks_perform_bind_iff.mp h' with ⟨-, rfl⟩ | ⟨_, _, -, h₁⟩
    · exact ⟨_, rfl⟩
    · exact absurd h₁ not_asks_done
  rw [requeueOrDrop_eq] at h
  rcases (asks_perform_bind_iff (r := .source .latestNonce)).mp h with
    ⟨rfl, rfl⟩ | ⟨latest, t₁, rfl, h₁⟩
  · exact Or.inl ⟨rfl, rfl⟩
  unfold putBack at h₁
  -- It is too old, or it is sent without waiting, which may fail.
  split at h₁
  · exact Or.inr (Or.inr (hdrop h₁))
  · next hrecent =>
    rcases asks_perform_bind_iff.mp h₁ with ⟨rfl, rfl⟩ | ⟨sent, t₂, rfl, h₂⟩
    · refine Or.inr (Or.inl ⟨latest, rfl, rfl, ?_⟩)
      rintro l rfl
      simpa [isRecent, knownLatest] using hrecent
    · refine Or.inr (Or.inr ?_)
      cases sent with
      | false => exact hdrop h₂
      | true =>
        rcases asks_perform_bind_iff.mp h₂ with ⟨-, rfl⟩ | ⟨_, _, -, h₃⟩
        · exact ⟨_, rfl⟩
        · exact absurd h₃ not_asks_done

/-- **A whole turn of the processor** takes a nonce and parts with it. -/
theorem processNext_follows (h : Follows (processNext setup nonces requeue) t (.again ())) :
    ∃ nonce ms, Parting requeue nonce ms ∧ motions t = .taken nonces nonce :: ms := by
  -- A turn that stops the processing is not followed by another one.
  have hstop : ∀ {t' : List Exchange} {result : WorkerResult},
      ¬ Follows (stopProcessing nonces result) t' (.again ()) := by
    intro t' result h'
    obtain ⟨_, _, -, h₁⟩ := follows_perform_bind_iff.mp h'
    obtain ⟨-, ⟨⟩⟩ := follows_done_iff.mp h₁
  rw [processNext] at h
  obtain ⟨received, t₁, rfl, h₁⟩ := follows_perform_bind_iff.mp h
  cases received with
  | cancelled => exact absurd h₁ hstop
  | nonce nonce =>
    obtain ⟨result, tries, rest, rfl, htries, h₂⟩ := follows_bind_iff.mp h₁
    -- The attempts have no motion, so all is in what follows them.
    have hmotions : motions (⟨.receive nonces, .nonce nonce⟩ :: (tries ++ rest)) =
        .taken nonces nonce :: motions rest := by
      rw [motions_cons, motions_append, motions_of_conforms (conforms_tries nonce) htries.begins]
      rfl
    refine ⟨nonce, motions rest, ?_, hmotions⟩
    -- Cancelled, exhausted, failed for good, or done.
    rcases result with (_ | ⟨attempts, error⟩ | error) | outcome
    · exact absurd h₂ hstop
    · obtain ⟨decision, t₂, t₃, rfl, hdecision, h₃⟩ := follows_bind_iff.mp h₂
      obtain ⟨rfl, -⟩ := follows_done_iff.mp h₃
      rw [List.append_nil]
      exact requeueOrDrop_follows hdecision
    · dsimp only at h₂
      split at h₂
      · exact absurd h₂ hstop
      · obtain ⟨_, t₂, rfl, h₃⟩ := follows_perform_bind_iff.mp h₂
        obtain ⟨rfl, -⟩ := follows_done_iff.mp h₃
        exact .dropped
    · obtain ⟨_, t₂, rfl, h₃⟩ := follows_perform_bind_iff.mp h₂
      obtain ⟨rfl, -⟩ := follows_done_iff.mp h₃
      exact .finished

/-- **What the processor asks** within a turn: for a nonce; what the attempts to sign ask; what
putting the nonce back asks, once the attempts are exhausted; and notes and its stop apart from
these. -/
theorem processNext_asks (h : Asks (processNext setup nonces requeue) t r) :
    (t = [] ∧ r = .receive nonces) ∨
    (∃ nonce tries, t = ⟨.receive nonces, .nonce nonce⟩ :: tries ∧
      Asks (Routine.retry setup.retry OrchestratorError.isRetryable
        (fun _ => process setup nonce)) tries r) ∨
    (∃ nonce tries rest attempts error,
      t = ⟨.receive nonces, .nonce nonce⟩ :: (tries ++ rest) ∧
      Follows (Routine.retry setup.retry OrchestratorError.isRetryable
        (fun _ => process setup nonce)) tries (.error (.exhausted attempts error)) ∧
      Asks (requeueOrDrop setup.config nonce requeue) rest r) ∨
    (∃ event, r = .note event) ∨ r = .closeQueue nonces := by
  -- Stopping closes the queue, and asks nothing else.
  have hstop : ∀ {t' : List Exchange} {result : WorkerResult},
      Asks (stopProcessing nonces result) t' r → r = .closeQueue nonces := by
    intro t' result h'
    rcases asks_perform_bind_iff.mp h' with ⟨-, rfl⟩ | ⟨_, _, -, h₁⟩
    · rfl
    · exact absurd h₁ not_asks_done
  rw [processNext] at h
  rcases asks_perform_bind_iff.mp h with hfirst | ⟨received, t₁, rfl, h₁⟩
  · exact Or.inl hfirst
  refine Or.inr ?_
  cases received with
  | cancelled => exact Or.inr (Or.inr (Or.inr (hstop h₁)))
  | nonce nonce =>
    rcases asks_bind_iff.mp h₁ with hasks | ⟨result, tries, rest, rfl, htries, h₂⟩
    · exact Or.inl ⟨nonce, t₁, rfl, hasks⟩
    refine Or.inr ?_
    -- Cancelled, exhausted, failed for good, or done; only in the second case more is asked.
    rcases result with (_ | ⟨attempts, error⟩ | error) | outcome
    · exact Or.inr (Or.inr (hstop h₂))
    · rcases asks_bind_iff.mp h₂ with hasks | ⟨_, _, _, -, -, h₃⟩
      · exact Or.inl ⟨nonce, tries, rest, attempts, error, rfl, htries, hasks⟩
      · exact absurd h₃ not_asks_done
    · dsimp only at h₂
      split at h₂
      · exact Or.inr (Or.inr (hstop h₂))
      · rcases asks_perform_bind_iff.mp h₂ with ⟨-, rfl⟩ | ⟨_, _, -, h₃⟩
        · exact Or.inr (Or.inl ⟨_, rfl⟩)
        · exact absurd h₃ not_asks_done
    · rcases asks_perform_bind_iff.mp h₂ with ⟨-, rfl⟩ | ⟨_, _, -, h₃⟩
      · exact Or.inr (Or.inl ⟨_, rfl⟩)
      · exact absurd h₃ not_asks_done

/-- **A processor that waits** has taken a nonce in this turn and nothing else, or not even that. So
between its motions the others cannot get in. -/
theorem processNext_waits (h : Asks (processNext setup nonces requeue) t r)
    (hwaits : mayWait r = true) :
    motions t = [] ∨ ∃ nonce, motions t = [.taken nonces nonce] := by
  rcases processNext_asks h with ⟨rfl, -⟩ | ⟨nonce, tries, rfl, hasks⟩ |
    ⟨nonce, tries, rest, attempts, error, rfl, htries, hasks⟩ | ⟨event, rfl⟩ | rfl
  · exact Or.inl rfl
  · refine Or.inr ⟨nonce, ?_⟩
    rw [motions_cons, motions_of_conforms (conforms_tries nonce) hasks.begins]
    rfl
  · -- Of what putting back asks, only the question for the latest nonce waits.
    rcases requeueOrDrop_asks hasks with ⟨rfl, -⟩ | ⟨_, -, rfl, -⟩ | ⟨event, rfl⟩
    · refine Or.inr ⟨nonce, ?_⟩
      rw [List.append_nil, motions_cons,
        motions_of_conforms (conforms_tries nonce) htries.begins]
      rfl
    · cases hwaits
    · cases hwaits
  · cases hwaits
  · cases hwaits

/-- **What the drain asks** within a turn: it waits for its tick, and from there on for nothing. It
sends only what it has just taken, having just heard that there is room. -/
theorem drainNext_asks {due : Nat} (h : Asks (drainNext setup requeue nonces due) t r) :
    (t = [] ∧ r = .pauseUntil due) ∨
    mayWait r = false ∧ ∀ queue nonce, r = .trySend queue nonce → queue = nonces ∧
      ∃ now, t = [⟨.pauseUntil due, .elapsed⟩, ⟨.now, now⟩, ⟨.hasRoom nonces, true⟩,
        ⟨.tryReceive requeue, some nonce⟩] := by
  rw [drainNext] at h
  rcases asks_perform_bind_iff.mp h with hfirst | ⟨wait, t₁, rfl, h₁⟩
  · exact Or.inl hfirst
  refine Or.inr ?_
  cases wait with
  | cancelled =>
    rcases asks_perform_bind_iff.mp h₁ with ⟨-, rfl⟩ | ⟨_, _, -, h₂⟩
    · exact ⟨rfl, by rintro queue nonce ⟨⟩⟩
    · exact absurd h₂ not_asks_done
  -- At its tick: the time, whether there is room, whether there is a nonce, and then the send.
  | elapsed =>
    rcases asks_perform_bind_iff.mp h₁ with ⟨-, rfl⟩ | ⟨now, t₂, rfl, h₂⟩
    · exact ⟨rfl, by rintro queue nonce ⟨⟩⟩
    rcases asks_perform_bind_iff.mp h₂ with ⟨-, rfl⟩ | ⟨room, t₃, rfl, h₃⟩
    · exact ⟨rfl, by rintro queue nonce ⟨⟩⟩
    cases room with
    | false => exact absurd h₃ not_asks_done
    | true =>
      rcases asks_perform_bind_iff.mp h₃ with ⟨-, rfl⟩ | ⟨taken, t₄, rfl, h₄⟩
      · exact ⟨rfl, by rintro queue nonce ⟨⟩⟩
      cases taken with
      | none => exact absurd h₄ not_asks_done
      | some nonce =>
        rcases asks_perform_bind_iff.mp h₄ with ⟨rfl, rfl⟩ | ⟨_, _, -, h₅⟩
        · refine ⟨rfl, ?_⟩
          rintro queue nonce' ⟨⟩
          exact ⟨rfl, now, rfl⟩
        · exact absurd h₅ not_asks_done

/-- **A whole turn of the drain** moves nothing, or one nonce if it can be sent. That it can be sent
is known from the queues (`Traffic.sent_of_hasRoom`). -/
theorem drainNext_follows {due next : Nat}
    (h : Follows (drainNext setup requeue nonces due) t (.again next)) :
    motions t = [] ∨ ∃ nonce sent, ⟨.trySend nonces nonce, sent⟩ ∈ t ∧
      motions t = .taken requeue nonce :: if sent then [.put nonces nonce] else [] := by
  rw [drainNext] at h
  obtain ⟨wait, t₁, rfl, h₁⟩ := follows_perform_bind_iff.mp h
  cases wait with
  -- Cancelled, it does not go on.
  | cancelled =>
    obtain ⟨_, _, -, h₂⟩ := follows_perform_bind_iff.mp h₁
    obtain ⟨-, ⟨⟩⟩ := follows_done_iff.mp h₂
  | elapsed =>
    obtain ⟨now, t₂, rfl, h₂⟩ := follows_perform_bind_iff.mp h₁
    obtain ⟨room, t₃, rfl, h₃⟩ := follows_perform_bind_iff.mp h₂
    cases room with
    | false =>
      obtain ⟨rfl, -⟩ := follows_done_iff.mp h₃
      exact Or.inl rfl
    | true =>
      obtain ⟨taken, t₄, rfl, h₄⟩ := follows_perform_bind_iff.mp h₃
      cases taken with
      | none =>
        obtain ⟨rfl, -⟩ := follows_done_iff.mp h₄
        exact Or.inl rfl
      | some nonce =>
        obtain ⟨sent, t₅, rfl, h₅⟩ := follows_perform_bind_iff.mp h₄
        obtain ⟨rfl, -⟩ := follows_done_iff.mp h₅
        -- There was room and a nonce, so it was taken and sent.
        refine Or.inr ⟨nonce, sent, by simp, ?_⟩
        cases sent <;> rfl

end Orchestrator

end Countersign
