import Countersign.Orchestrator.Service
import Countersign.Proofs.Orchestrator.Frame

/-!
# The end of a service

`Orchestrator.serve` starts four workers, waits for all of them and locks the key. What it does in
between is settled by the order in which its workers are joined, and what each of them ended with
(`Orchestrator.follows_serve_iff`): after each failure the others are cancelled, and the first
failure is the result (`Orchestrator.verdict`).

The service is one party among others (`ServiceEvent`): its workers work until they end, and further
calls of `Orchestrator.process` with the same identity may be on their way. What each of them finds
is settled by what has happened before (`Orchestrator.Possible`), and a history grows event by event
(`Orchestrator.Happens`). A `Serving` is a history in which the service came to its end. Then
(`Orchestrator.serving_stops`):

* all four workers ended before the service did, and do nothing afterwards;
* nothing is signed afterwards, whoever asks;
* a call that puts its confirm afterwards had its signature before.

The last cannot be left out. A call that has its signature already is not held up by the lock
(`Orchestrator.published_behind_the_end`).
-/

namespace Countersign.Orchestrator

open Routine

/-! ### Waiting for the workers -/

/-- What follows upon the end of a worker: a failure cancels the others, a success does nothing to
them. -/
def cancelling : WorkerResult → List Exchange
  | .ok () => []
  | .error _ => [⟨.cancel, ()⟩]

/-- The exchanges of waiting for tasks, in the order in which they are joined. A task that is joined
is no longer waited for. -/
def joinCourse : (tasks : List TaskId) → (joined : List (TaskId × WorkerResult)) → List Exchange
  | _, [] => []
  | tasks, (task, ended) :: rest =>
    ⟨.joinAny tasks, (task, ended)⟩ :: (cancelling ended ++ joinCourse (tasks.erase task) rest)

/-- What comes of several workers together, in the order in which they are joined: the first
failure, if there is one. -/
def verdict (joined : List (TaskId × WorkerResult)) : WorkerResult :=
  (joined.map Prod.snd).foldl firstFailure (.ok ())

/-- **Waiting for workers** is told by the order in which they are joined and by what each of them
ended with. Nothing else is chosen by the surroundings, so this is an equivalence. -/
theorem follows_joinWorkers_iff {count : Nat} {tasks : List TaskId} {before result : WorkerResult}
    {t : List Exchange} :
    Follows (joinWorkers count tasks before) t result ↔
      ∃ joined, joined.length = count ∧ t = joinCourse tasks joined ∧
        result = (joined.map Prod.snd).foldl firstFailure before := by
  -- On the workers that are left, one of which is joined at a time.
  induction count generalizing tasks before t with
  | zero =>
    rw [joinWorkers]
    constructor
    · intro h
      obtain ⟨rfl, rfl⟩ := follows_done_iff.mp h
      exact ⟨[], rfl, rfl, rfl⟩
    · rintro ⟨joined, hlength, rfl, rfl⟩
      obtain rfl := List.length_eq_zero_iff.mp hlength
      exact .done _
  | succ count ih =>
    rw [joinWorkers]
    constructor
    · intro h
      -- One worker is joined. If it failed the others are cancelled before the next one is waited
      -- for.
      obtain ⟨⟨task, ended⟩, rest, rfl, h₁⟩ := follows_perform_bind_iff.mp h
      cases ended with
      | ok u =>
        obtain ⟨joined, rfl, rfl, rfl⟩ := ih.mp h₁
        exact ⟨(task, .ok ()) :: joined, rfl, rfl, rfl⟩
      | error e =>
        obtain ⟨_, rest, rfl, h₂⟩ := follows_perform_bind_iff.mp h₁
        obtain ⟨joined, rfl, rfl, rfl⟩ := ih.mp h₂
        exact ⟨(task, .error e) :: joined, rfl, rfl, rfl⟩
    · rintro ⟨joined, hlength, rfl, rfl⟩
      -- The course begins with the first of those that are joined, and the rest is a course again.
      cases joined with
      | nil => cases hlength
      | cons first joined =>
        obtain ⟨task, ended⟩ := first
        have hrest : Follows (joinWorkers count (tasks.erase task) (firstFailure before ended))
            (joinCourse (tasks.erase task) joined)
            ((joined.map Prod.snd).foldl firstFailure (firstFailure before ended)) :=
          ih.mpr ⟨joined, Nat.succ.inj hlength, rfl, rfl⟩
        refine .perform_bind (r := .joinAny tasks) ?_
        cases ended with
        | ok u => exact hrest
        | error e => exact .perform_bind (r := .cancel) hrest

/-- The exchanges of starting the workers: the two queues are opened first, since the workers are
given their numbers. -/
def startCourse (setup : OrchestratorSetup) (nonces requeue : QueueId)
    (listener backfill processor drain : TaskId) : List Exchange :=
  [⟨.openQueue setup.config.queueSize, nonces⟩,
    ⟨.openQueue setup.config.requeueQueueSize, requeue⟩, ⟨.spawn (.listener nonces), listener⟩,
    ⟨.spawn (.backfill nonces), backfill⟩, ⟨.spawn (.processor nonces requeue), processor⟩,
    ⟨.spawn (.drain requeue nonces), drain⟩]

/-- **Every course of the service**, for every order in which the four workers may end and
everything that they may end with. -/
theorem follows_serve_iff {setup : OrchestratorSetup} {t : List Exchange} {result : WorkerResult} :
    Follows (serve setup) t result ↔
      ∃ nonces requeue listener backfill processor drain joined, joined.length = 4 ∧
        t = startCourse setup nonces requeue listener backfill processor drain ++
          joinCourse [listener, backfill, processor, drain] joined ++ [⟨.lockKey, ()⟩] ∧
        result = verdict joined := by
  rw [serve]
  constructor
  · intro h
    -- The queues are opened and the workers started, one request after the other.
    obtain ⟨nonces, _, rfl, h₁⟩ := follows_perform_bind_iff.mp h
    obtain ⟨requeue, _, rfl, h₂⟩ := follows_perform_bind_iff.mp h₁
    obtain ⟨listener, _, rfl, h₃⟩ := follows_perform_bind_iff.mp h₂
    obtain ⟨backfill, _, rfl, h₄⟩ := follows_perform_bind_iff.mp h₃
    obtain ⟨processor, _, rfl, h₅⟩ := follows_perform_bind_iff.mp h₄
    obtain ⟨drain, _, rfl, h₆⟩ := follows_perform_bind_iff.mp h₅
    -- Then all four are waited for, and the key is locked.
    obtain ⟨ended, _, _, rfl, hjoin, h₇⟩ := follows_bind_iff.mp h₆
    obtain ⟨_, _, rfl, h₈⟩ := follows_perform_bind_iff.mp h₇
    obtain ⟨rfl, rfl⟩ := follows_done_iff.mp h₈
    obtain ⟨joined, hlength, rfl, rfl⟩ := follows_joinWorkers_iff.mp hjoin
    exact ⟨nonces, requeue, listener, backfill, processor, drain, joined, hlength, rfl, rfl⟩
  · rintro ⟨nonces, requeue, listener, backfill, processor, drain, joined, hlength, rfl, rfl⟩
    have hjoin : Follows (joinWorkers 4 [listener, backfill, processor, drain] (.ok ()))
        (joinCourse [listener, backfill, processor, drain] joined) (verdict joined) :=
      follows_joinWorkers_iff.mpr ⟨joined, hlength, rfl, rfl⟩
    rw [List.append_assoc]
    refine .perform_bind (.perform_bind (.perform_bind (.perform_bind (.perform_bind
      (.perform_bind (hjoin.bind ?_))))))
    exact .perform_bind (r := .lockKey) (.done _)

/-! ### What comes of the workers together -/

theorem foldl_firstFailure_error (e : OrchestratorError) (results : List WorkerResult) :
    results.foldl firstFailure (.error e) = .error e := by
  induction results with
  | nil => rfl
  | cons _ _ ih => exact ih

theorem verdict_cons_ok (task : TaskId) (joined : List (TaskId × WorkerResult)) :
    verdict ((task, .ok ()) :: joined) = verdict joined := rfl

theorem verdict_cons_error (task : TaskId) (e : OrchestratorError)
    (joined : List (TaskId × WorkerResult)) : verdict ((task, .error e) :: joined) = .error e :=
  foldl_firstFailure_error e _

/-- Success is that of all. One failed worker is enough to make the service fail. -/
theorem verdict_eq_ok_iff {joined : List (TaskId × WorkerResult)} :
    verdict joined = .ok () ↔ ∀ j ∈ joined, j.2 = .ok () := by
  induction joined with
  | nil => exact iff_of_true rfl (by simp)
  | cons first joined ih =>
    obtain ⟨task, _ | u⟩ := first
    · rw [verdict_cons_error]
      simp
    · rw [verdict_cons_ok, ih]
      simp

/-- **A failure is the first one** in the order in which the workers are joined. -/
theorem verdict_eq_error_iff {joined : List (TaskId × WorkerResult)} {e : OrchestratorError} :
    verdict joined = .error e ↔ ∃ before task after,
      joined = before ++ (task, .error e) :: after ∧ ∀ j ∈ before, j.2 = .ok () := by
  constructor
  · intro h
    -- The first worker decides if it failed, and otherwise the rest does.
    induction joined with
    | nil => cases h
    | cons first joined ih =>
      obtain ⟨task, e' | u⟩ := first
      · rw [verdict_cons_error] at h
        obtain rfl := Except.error.inj h
        exact ⟨[], task, joined, rfl, by simp⟩
      · obtain ⟨before, task', after, rfl, hbefore⟩ := ih h
        exact ⟨(task, .ok ()) :: before, task', after, rfl, by simpa using hbefore⟩
  · rintro ⟨before, task, after, rfl, hbefore⟩
    induction before with
    | nil => exact verdict_cons_error task e after
    | cons first before ih =>
      obtain ⟨hfirst, hrest⟩ := List.forall_mem_cons.mp hbefore
      obtain ⟨task', ended⟩ := first
      obtain rfl : ended = .ok () := hfirst
      exact ih hrest

/-- Each worker that is joined is one of those that were waited for at that moment. -/
theorem exists_mem_joinCourse {tasks : List TaskId} {joined : List (TaskId × WorkerResult)}
    {j : TaskId × WorkerResult} (h : j ∈ joined) :
    ∃ waiting, ⟨.joinAny waiting, j⟩ ∈ joinCourse tasks joined := by
  induction joined generalizing tasks with
  | nil => cases h
  | cons first joined ih =>
    rw [joinCourse]
    rcases List.mem_cons.mp h with rfl | h
    · exact ⟨tasks, List.mem_cons_self⟩
    · obtain ⟨waiting, hmem⟩ := ih h
      exact ⟨waiting, List.mem_cons_of_mem _ (List.mem_append_right _ hmem)⟩

/-- The others are cancelled if one of them fails, whichever it is and however many failed
before. -/
theorem cancel_mem_joinCourse {tasks : List TaskId} {joined : List (TaskId × WorkerResult)}
    {task : TaskId} {e : OrchestratorError} (h : (task, .error e) ∈ joined) :
    ⟨.cancel, ()⟩ ∈ joinCourse tasks joined := by
  induction joined generalizing tasks with
  | nil => cases h
  | cons first joined ih =>
    rw [joinCourse]
    refine List.mem_cons_of_mem _ (List.mem_append.mpr ?_)
    rcases List.mem_cons.mp h with rfl | h
    · exact Or.inl List.mem_cons_self
    · exact Or.inr (ih h)

/-- **Joining as many workers as there are joins each of them**, if each that is joined is still
waited for. So the order of joining is a permutation, and no worker is left running. -/
theorem joined_perm {tasks : List TaskId} {joined : List (TaskId × WorkerResult)}
    (hlength : joined.length = tasks.length)
    (hwaiting : ∀ waiting task ended, ⟨.joinAny waiting, (task, ended)⟩ ∈ joinCourse tasks joined →
      task ∈ waiting) : (joined.map Prod.fst).Perm tasks := by
  -- On the workers that were joined: the first one is waited for, and the others without it.
  induction joined generalizing tasks with
  | nil =>
    obtain rfl := List.length_eq_zero_iff.mp hlength.symm
    exact .nil
  | cons first joined ih =>
    obtain ⟨task, ended⟩ := first
    rw [joinCourse] at hwaiting
    have hmem : task ∈ tasks := hwaiting tasks task ended List.mem_cons_self
    have hrest : (joined.map Prod.fst).Perm (tasks.erase task) := by
      refine ih ?_ fun waiting task' ended' h => ?_
      · rw [List.length_erase_of_mem hmem, ← hlength]
        rfl
      · exact hwaiting waiting task' ended' (List.mem_cons_of_mem _ (List.mem_append_right _ h))
    exact (hrest.cons task).trans (List.perm_cons_erase hmem).symm

/-! ### All that happens -/

/-- **What happens** while a service runs and behind its end: exchanges of the service, of its
workers, and of calls of `Orchestrator.process` from elsewhere; and the ends of workers. -/
inductive ServiceEvent where
  | service (e : Exchange)
  | worker (task : TaskId) (e : Exchange)
  | ended (task : TaskId) (result : WorkerResult)
  | call (n : Nat) (e : Exchange)

namespace ServiceEvent

/-- The exchange of an event, if it is one, whoever has it. It is what the signing identity gets to
see. -/
def exchange? : ServiceEvent → Option Exchange
  | .service e => some e
  | .worker _ e => some e
  | .ended _ _ => none
  | .call _ e => some e

/-- The exchange of the service, if an event is one of the service's own. -/
def ofService? : ServiceEvent → Option Exchange
  | .service e => some e
  | _ => none

/-- The exchange of a call, if an event is one of the call with that number. -/
def ofCall? (n : Nat) : ServiceEvent → Option Exchange
  | .call m e => if m = n then some e else none
  | _ => none

/-- The key after an event, which is gone if this locks it. No event brings it back. -/
def keyAfter (identity : Identity) (event : ServiceEvent) : Identity :=
  match event.exchange? with
  | some ⟨.lockKey, _⟩ => identity.lock
  | _ => identity

theorem ofService?_eq_some {event : ServiceEvent} {e : Exchange}
    (h : event.ofService? = some e) : event = .service e := by
  cases event with
  | service e' =>
    obtain rfl := Option.some.inj h
    rfl
  | worker | ended | call => cases h

theorem ofCall?_eq_some {event : ServiceEvent} {n : Nat} {e : Exchange}
    (h : event.ofCall? n = some e) : event = .call n e := by
  cases event with
  | call m e' =>
    change (if m = n then some e' else none) = some e at h
    split at h
    · next hm =>
      obtain rfl := Option.some.inj h
      rw [hm]
    · cases h
  | service | worker | ended => cases h

end ServiceEvent

/-- The exchanges of the service, in order. A history is one of a service if these are a course of
`Orchestrator.serve`. -/
def serviceCourse (history : List ServiceEvent) : List Exchange :=
  history.filterMap ServiceEvent.ofService?

/-- The exchanges of one call, in order. The other parties' exchanges in between are left out. -/
def callCourse (n : Nat) (history : List ServiceEvent) : List Exchange :=
  history.filterMap (ServiceEvent.ofCall? n)

/-- The key after a history, event by event. It is the identity itself until somebody locks it. -/
def keyAfter (identity : Identity) (history : List ServiceEvent) : Identity :=
  history.foldl ServiceEvent.keyAfter identity

@[simp] theorem serviceCourse_append (before after : List ServiceEvent) :
    serviceCourse (before ++ after) = serviceCourse before ++ serviceCourse after :=
  List.filterMap_append

@[simp] theorem callCourse_append (n : Nat) (before after : List ServiceEvent) :
    callCourse n (before ++ after) = callCourse n before ++ callCourse n after :=
  List.filterMap_append

theorem mem_serviceCourse {history : List ServiceEvent} {e : Exchange} :
    e ∈ serviceCourse history ↔ .service e ∈ history := by
  rw [serviceCourse, List.mem_filterMap]
  constructor
  · rintro ⟨event, hmem, h⟩
    rwa [← ServiceEvent.ofService?_eq_some h]
  · exact fun h => ⟨_, h, rfl⟩

theorem mem_callCourse {n : Nat} {history : List ServiceEvent} {e : Exchange} :
    e ∈ callCourse n history ↔ .call n e ∈ history := by
  rw [callCourse, List.mem_filterMap]
  constructor
  · rintro ⟨event, hmem, h⟩
    rwa [← ServiceEvent.ofCall?_eq_some h]
  · exact fun h => ⟨_, h, if_pos rfl⟩

/-- The last exchange of the service cuts a history in two, with nothing of the service behind
it. -/
theorem exists_split_of_serviceCourse {history : List ServiceEvent} {course : List Exchange}
    {e : Exchange} (h : serviceCourse history = course ++ [e]) :
    ∃ before after, history = before ++ .service e :: after ∧ serviceCourse before = course ∧
      serviceCourse after = [] := by
  obtain ⟨front, back, rfl, hfront, hback⟩ := List.filterMap_eq_append_iff.mp h
  obtain ⟨between, event, after, rfl, hbetween, hevent, hafter⟩ :=
    List.filterMap_eq_cons_iff.mp hback
  obtain rfl := ServiceEvent.ofService?_eq_some hevent
  refine ⟨front ++ between, after, (List.append_assoc ..).symm, ?_, hafter⟩
  rw [serviceCourse_append, serviceCourse, hfront, serviceCourse,
    List.filterMap_eq_nil_iff.mpr hbetween, List.append_nil]

theorem keyAfter_append (identity : Identity) (before after : List ServiceEvent) :
    keyAfter identity (before ++ after) = keyAfter (keyAfter identity before) after :=
  List.foldl_append

/-- A key that is gone does not come back, whatever happens afterwards. -/
theorem isUnlocked_keyAfter {identity : Identity} (h : identity.isUnlocked = false)
    (history : List ServiceEvent) : (keyAfter identity history).isUnlocked = false := by
  induction history generalizing identity with
  | nil => exact h
  | cons event history ih =>
    refine ih ?_
    unfold ServiceEvent.keyAfter
    split
    · exact identity.isUnlocked_lock
    · exact h

/-- A key that was locked is gone from then on. This is where the end of the service meets everybody
else's signatures. -/
theorem isUnlocked_keyAfter_lockKey (identity : Identity) (before after : List ServiceEvent)
    (u : Unit) :
    (keyAfter identity (before ++ .service ⟨.lockKey, u⟩ :: after)).isUnlocked = false := by
  rw [keyAfter_append]
  exact isUnlocked_keyAfter (Identity.isUnlocked_lock _) after

/-- A key that nobody locks stays, and signs as it did at the start. -/
theorem keyAfter_eq_self (identity : Identity) {history : List ServiceEvent}
    (h : ∀ event ∈ history, ∀ e, event.exchange? = some e → e.1 ≠ .lockKey) :
    keyAfter identity history = identity := by
  induction history with
  | nil => rfl
  | cons event history ih =>
    have hfirst : event.keyAfter identity = identity := by
      unfold ServiceEvent.keyAfter
      split
      · next heq => exact absurd rfl (h event List.mem_cons_self _ heq)
      · rfl
    rw [keyAfter, List.foldl_cons, hfirst]
    exact ih fun event' hmem => h event' (List.mem_cons_of_mem _ hmem)

/-! ### What may happen -/

/-- **What may happen next.** A worker that has ended does nothing more; a worker is joined when it
has ended, with what it ended with; and a signature is made with what is left of the key. -/
structure Possible (identity : Identity) (before : List ServiceEvent) (event : ServiceEvent) :
    Prop where
  working : ∀ task e, event = .worker task e → ∀ result, .ended task result ∉ before
  joining : ∀ waiting j, event = .service ⟨.joinAny waiting, j⟩ →
    j.1 ∈ waiting ∧ .ended j.1 j.2 ∈ before
  signing : ∀ digest answer, event.exchange? = some ⟨.sign digest, answer⟩ →
    answer = (keyAfter identity before).sign digest

/-- **A history**, one event after the other, each of them possible after those before it. -/
inductive Happens (identity : Identity) : List ServiceEvent → Prop where
  | start : Happens identity []
  | next {before : List ServiceEvent} {event : ServiceEvent} :
      Happens identity before → Possible identity before event →
      Happens identity (before ++ [event])

section Happens

variable {identity : Identity} {history before after events : List ServiceEvent}
  {event : ServiceEvent}

/-- Every event of a history could happen when it did: the part of the history before it is a
history again. -/
theorem Happens.possible (h : Happens identity history)
    (hsplit : history = before ++ event :: after) : Possible identity before event := by
  induction h generalizing after with
  | start => simp at hsplit
  | next _ hevent ih =>
    -- It is the last event, or one of those before.
    rcases List.eq_nil_or_concat after with rfl | ⟨after', last, rfl⟩
    · obtain ⟨rfl, hlast⟩ := List.append_inj' hsplit rfl
      rwa [← List.singleton_inj.mp hlast]
    · rw [List.concat_eq_append, ← List.cons_append, ← List.append_assoc] at hsplit
      obtain ⟨rfl, -⟩ := List.append_inj' hsplit rfl
      exact ih rfl

/-- Several events more, if each of them is possible after the history and those of them before
it. -/
theorem Happens.append (h : Happens identity before)
    (hevents : ∀ part event rest, events = part ++ event :: rest →
      Possible identity (before ++ part) event) : Happens identity (before ++ events) := by
  induction events generalizing before with
  | nil =>
    rw [List.append_nil]
    exact h
  | cons event events ih =>
    rw [List.append_cons]
    refine ih (h.next ?_) fun part event' rest hsplit => ?_
    · have hfirst := hevents [] event events rfl
      rwa [List.append_nil] at hfirst
    · rw [← List.append_cons]
      exact hevents (event :: part) event' rest (congrArg _ hsplit)

/-- Nothing is signed behind the lock, whoever asks: the answer is that there is no key. -/
theorem Happens.refused (h : Happens identity history) {u : Unit}
    (hsplit : history = before ++ .service ⟨.lockKey, u⟩ :: after) (hevent : event ∈ after)
    {digest : Word} {answer : Except SignatureError Vrs}
    (hsign : event.exchange? = some ⟨.sign digest, answer⟩) : answer = .error .keyUnavailable := by
  obtain ⟨between, rest, rfl⟩ := List.append_of_mem hevent
  rw [← List.cons_append, ← List.append_assoc] at hsplit
  rw [(h.possible hsplit).signing digest answer hsign]
  exact Identity.sign_of_isUnlocked_eq_false (isUnlocked_keyAfter_lockKey identity before between u)

/-- A worker that is joined had ended before, with the result that the service was told. -/
theorem Happens.ended_of_joinAny (h : Happens identity history)
    (hsplit : history = before ++ after) {waiting : List TaskId} {j : TaskId × WorkerResult}
    (hjoin : .service ⟨.joinAny waiting, j⟩ ∈ before) :
    j.1 ∈ waiting ∧ .ended j.1 j.2 ∈ before := by
  obtain ⟨earlier, between, rfl⟩ := List.append_of_mem hjoin
  rw [List.append_assoc, List.cons_append] at hsplit
  obtain ⟨hwaiting, hended⟩ := (h.possible hsplit).joining waiting j rfl
  exact ⟨hwaiting, List.mem_append_left _ hended⟩

/-- A worker that has ended does nothing more, so nothing of it comes behind the lock either. -/
theorem Happens.idle (h : Happens identity history) (hsplit : history = before ++ after)
    {task : TaskId} {result : WorkerResult} (hended : .ended task result ∈ before) (e : Exchange) :
    .worker task e ∉ after := by
  intro hmem
  obtain ⟨between, rest, rfl⟩ := List.append_of_mem hmem
  rw [← List.append_assoc] at hsplit
  exact (h.possible hsplit).working task e rfl result (List.mem_append_left _ hended)

end Happens

/-- **A history in which a service came to its end**, with calls for given nonces from elsewhere.
Its workers end when they end, with success or any failure. -/
structure Serving (setup : OrchestratorSetup) (identity : Identity) (nonces : Nat → UInt64)
    (result : WorkerResult) where
  history : List ServiceEvent
  happens : Happens identity history
  served : Follows (serve setup) (serviceCourse history) result
  calls : ∀ n, Begins (process setup (nonces n)) (callCourse n history)

namespace Serving

variable {setup : OrchestratorSetup} {identity : Identity} {nonces : Nat → UInt64}
  {result : WorkerResult} (s : Serving setup identity nonces result)
  {before after : List ServiceEvent}

/-- A call that puts its confirm has its signature. -/
theorem signed {n : Nat} {key : String} {value : Bytes} {limit : Nat}
    {answer : Except OverlayError Unit}
    (hsplit : s.history = before ++ .call n ⟨.put key value limit, answer⟩ :: after)
    (hkey : IsConfirmKey key) : ∃ digest x, .call n ⟨.sign digest, .ok x⟩ ∈ before := by
  have hbegins := s.calls n
  have hown : callCourse n (.call n ⟨.put key value limit, answer⟩ :: after) =
      ⟨.put key value limit, answer⟩ :: callCourse n after := by
    rw [callCourse, List.filterMap_cons, ServiceEvent.ofCall?, if_pos rfl]
    rfl
  rw [hsplit, callCourse_append, hown] at hbegins
  obtain ⟨-, attestation, prior, -, -, hputs⟩ := process_asks_put hbegins.asks
  cases hputs with
  | latest written first => exact absurd hkey not_isConfirmKey_latestValsetKey
  | confirm ready => exact ⟨_, _, mem_callCourse.mp ready.signed⟩

end Serving

/-- **A service at its end**: what was before it, and what is behind it. -/
structure Stopped (setup : OrchestratorSetup) (identity : Identity) (result : WorkerResult)
    (history before after : List ServiceEvent) (listener backfill processor drain : TaskId)
    (joined : List (TaskId × WorkerResult)) : Prop where
  split : history = before ++ .service ⟨.lockKey, ()⟩ :: after
  course : ∃ nonces requeue, serviceCourse before =
    startCourse setup nonces requeue listener backfill processor drain ++
      joinCourse [listener, backfill, processor, drain] joined
  /-- The lock of the key is the last that the service does. -/
  last : ∀ e, .service e ∉ after
  /-- Each worker is joined, and has ended before. -/
  all : (joined.map Prod.fst).Perm [listener, backfill, processor, drain]
  ended : ∀ j ∈ joined, .ended j.1 j.2 ∈ before
  ok_iff : result = .ok () ↔ ∀ j ∈ joined, j.2 = .ok ()
  error_iff : ∀ e, result = .error e ↔ ∃ front task back,
    joined = front ++ (task, .error e) :: back ∧ ∀ j ∈ front, j.2 = .ok ()
  cancelled : ∀ e, result = .error e → .service ⟨.cancel, ()⟩ ∈ before
  idle : ∀ task ∈ [listener, backfill, processor, drain], ∀ e, .worker task e ∉ after
  gone : ∀ part, (keyAfter identity (before ++ .service ⟨.lockKey, ()⟩ :: part)).isUnlocked = false
  /-- Nobody signs any more. -/
  refused : ∀ event ∈ after, ∀ digest answer,
    event.exchange? = some ⟨.sign digest, answer⟩ → answer = .error .keyUnavailable
  /-- Who still puts a confirm had signed it before. -/
  signed : ∀ n key value limit answer, IsConfirmKey key →
    .call n ⟨.put key value limit, answer⟩ ∈ after →
      ∃ digest x, .call n ⟨.sign digest, .ok x⟩ ∈ before

variable {setup : OrchestratorSetup} {identity : Identity} {calls : Nat → UInt64}
  {result : WorkerResult} {nonces requeue : QueueId} {listener backfill processor drain : TaskId}
  {joined : List (TaskId × WorkerResult)} {before events : List ServiceEvent}

/-- **A service that has come to its end has stopped.** The history is cut at the lock, which is the
last thing the service does. What is in front of the lock shows that all workers had ended, and what
is behind it shows that nothing is signed any more. -/
theorem Serving.stopped (s : Serving setup identity calls result) (hlength : joined.length = 4)
    (hcourse : serviceCourse s.history =
      startCourse setup nonces requeue listener backfill processor drain ++
        joinCourse [listener, backfill, processor, drain] joined ++ [⟨.lockKey, ()⟩])
    (hresult : result = verdict joined) :
    ∃ before after, Stopped setup identity result s.history before after listener backfill processor
      drain joined := by
  obtain ⟨before, after, hsplit, hbefore, hafter⟩ := exists_split_of_serviceCourse hcourse
  -- Whatever was joined was joined before the lock.
  have hjoin {waiting : List TaskId} {j : TaskId × WorkerResult}
      (h : ⟨.joinAny waiting, j⟩ ∈ joinCourse [listener, backfill, processor, drain] joined) :
      j.1 ∈ waiting ∧ .ended j.1 j.2 ∈ before :=
    s.happens.ended_of_joinAny hsplit
      (mem_serviceCourse.mp (hbefore ▸ List.mem_append_right _ h))
  -- All four workers were joined, in some order, and each of them had ended.
  have hall : (joined.map Prod.fst).Perm [listener, backfill, processor, drain] :=
    joined_perm hlength fun waiting task ended h => (hjoin h).1
  have hended : ∀ j ∈ joined, .ended j.1 j.2 ∈ before := fun j hmem =>
    let ⟨_, h⟩ := exists_mem_joinCourse hmem
    (hjoin h).2
  -- Behind the lock there is no key to sign with.
  have hrefused : ∀ event ∈ after, ∀ digest answer,
      event.exchange? = some ⟨.sign digest, answer⟩ → answer = .error .keyUnavailable :=
    fun event hmem digest answer => s.happens.refused hsplit hmem
  subst hresult
  refine ⟨before, after, {
    split := hsplit
    course := ⟨nonces, requeue, hbefore⟩
    last := fun e hmem => ?_
    all := hall
    ended := hended
    ok_iff := verdict_eq_ok_iff
    error_iff := fun e => verdict_eq_error_iff
    cancelled := fun e h => ?_
    idle := fun task hmem e hworker => ?_
    gone := fun part => isUnlocked_keyAfter_lockKey identity before part ()
    refused := hrefused
    signed := fun n key value limit answer hkey hput => ?_ }⟩
  · -- The lock is the last thing that the service does.
    have hnone := mem_serviceCourse.mpr hmem
    rw [hafter] at hnone
    cases hnone
  · -- A failure among the joined workers made the service cancel the others.
    obtain ⟨front, task, back, rfl, -⟩ := verdict_eq_error_iff.mp h
    have hfailed : (task, .error e) ∈ front ++ (task, .error e) :: back := by simp
    exact mem_serviceCourse.mp (hbefore ▸ List.mem_append_right _ (cancel_mem_joinCourse hfailed))
  · -- Each of the four was joined, so it ended before the lock.
    obtain ⟨j, hj, rfl⟩ := List.mem_map.mp (hall.mem_iff.mpr hmem)
    exact s.happens.idle hsplit (hended j hj) e (List.mem_cons_of_mem _ hworker)
  · -- The signature came before the put, and there is none behind the lock.
    obtain ⟨between, rest, hrest⟩ := List.append_of_mem hput
    rw [hrest, ← List.cons_append, ← List.append_assoc] at hsplit
    obtain ⟨digest, x, hsign⟩ := s.signed hsplit hkey
    refine ⟨digest, x, ?_⟩
    rcases List.mem_append.mp hsign with hsign | hsign
    · exact hsign
    rcases List.mem_cons.mp hsign with heq | hsign
    · cases heq
    · cases hrefused _ (hrest ▸ List.mem_append_left _ hsign) digest (.ok x) rfl

/-! ### Every end that four workers may have -/

/-- **What the service does while it waits**, if each of the workers is joined: it joins one that it
waits for, or cancels the others. -/
theorem mem_joinCourse {tasks : List TaskId} {e : Exchange}
    (hall : (joined.map Prod.fst).Perm tasks) (h : e ∈ joinCourse tasks joined) :
    (∃ waiting, ∃ j ∈ joined, j.1 ∈ waiting ∧ e = ⟨.joinAny waiting, j⟩) ∨ e = ⟨.cancel, ()⟩ := by
  induction joined generalizing tasks with
  | nil => cases h
  | cons first joined ih =>
    obtain ⟨task, ended⟩ := first
    obtain ⟨hmem, hrest⟩ := List.cons_perm_iff_perm_erase.mp hall
    rw [joinCourse] at h
    rcases List.mem_cons.mp h with rfl | h
    · exact Or.inl ⟨tasks, _, List.mem_cons_self, hmem, rfl⟩
    rcases List.mem_append.mp h with h | h
    · cases ended with
      | ok u => cases h
      | error e => exact Or.inr (List.mem_singleton.mp h)
    · rcases ih hrest h with ⟨waiting, j, hj, hwaiting, rfl⟩ | hcancel
      · exact Or.inl ⟨waiting, j, List.mem_cons_of_mem _ hj, hwaiting, rfl⟩
      · exact Or.inr hcancel

/-- The service may do at any time what is neither a signature nor waits for a worker. -/
theorem Possible.service {e : Exchange} (hsign : ∀ digest, e.1 ≠ .sign digest)
    (hjoin : ∀ waiting, e.1 ≠ .joinAny waiting) : Possible identity before (.service e) where
  working _ _ h := nomatch h
  joining waiting j h := by
    cases h
    exact absurd rfl (hjoin waiting)
  signing digest answer h := by
    cases h
    exact absurd rfl (hsign digest)

/-- The service may join a worker that has ended, if it is still waited for. -/
theorem Possible.join {waiting : List TaskId} {j : TaskId × WorkerResult} (hwaiting : j.1 ∈ waiting)
    (hended : .ended j.1 j.2 ∈ before) :
    Possible identity before (.service ⟨.joinAny waiting, j⟩) where
  working _ _ h := nomatch h
  joining waiting' j' h := by
    cases h
    exact ⟨hwaiting, hended⟩
  signing _ _ h := nomatch h

/-- A worker may end at any time, with anything. What the workers do in between is not needed for
the existence of a history. -/
theorem Possible.ended (task : TaskId) (result : WorkerResult) :
    Possible identity before (.ended task result) where
  working _ _ h := nomatch h
  joining _ _ h := nomatch h
  signing _ _ h := nomatch h

/-- A call may do anything at any time, if it gets its signature from what is left of the key. -/
theorem Possible.call {n : Nat} {e : Exchange} (hsign : ∀ digest answer,
      e = ⟨.sign digest, answer⟩ → answer = (keyAfter identity before).sign digest) :
    Possible identity before (.call n e) where
  working _ _ h := nomatch h
  joining _ _ h := nomatch h
  signing digest answer h := hsign digest answer (Option.some.inj h)

/-- A service up to the lock, as short as possible: the workers end in some order, and are joined in
it. It shows that each order and each result may come. -/
def untilLock (setup : OrchestratorSetup) (nonces requeue : QueueId)
    (listener backfill processor drain : TaskId) (joined : List (TaskId × WorkerResult)) :
    List ServiceEvent :=
  (startCourse setup nonces requeue listener backfill processor drain).map .service ++
    (joined.map (fun j => .ended j.1 j.2) ++
      (joinCourse [listener, backfill, processor, drain] joined).map .service)

/-- Events that may happen at any time from now on, so their order among each other does not
matter. -/
theorem Happens.append_of_forall (h : Happens identity before) (events : List ServiceEvent)
    (hevents : ∀ event ∈ events, ∀ part, Possible identity (before ++ part) event) :
    Happens identity (before ++ events) :=
  h.append fun part event rest hsplit => hevents event (by simp [hsplit]) part

/-- **The short service is possible** behind any history: all workers have ended when the first of
them is joined. -/
theorem Happens.untilLock (h : Happens identity before)
    (hall : (joined.map Prod.fst).Perm [listener, backfill, processor, drain]) :
    Happens identity (before ++
      untilLock setup nonces requeue listener backfill processor drain joined) := by
  rw [Orchestrator.untilLock, ← List.append_assoc, ← List.append_assoc]
  refine ((h.append_of_forall _ ?_).append_of_forall _ ?_).append_of_forall _ ?_
  · intro event hevent part
    obtain ⟨e, he, rfl⟩ := List.mem_map.mp hevent
    simp only [startCourse, List.mem_cons, List.not_mem_nil, or_false] at he
    rcases he with rfl | rfl | rfl | rfl | rfl | rfl <;> exact .service nofun nofun
  · intro event hevent part
    obtain ⟨j, -, rfl⟩ := List.mem_map.mp hevent
    exact .ended _ _
  · intro event hevent part
    obtain ⟨e, he, rfl⟩ := List.mem_map.mp hevent
    rcases mem_joinCourse hall he with ⟨waiting, j, hj, hwaiting, rfl⟩ | rfl
    · -- All have ended by then.
      refine .join hwaiting (List.mem_append_left _ (List.mem_append_right _ ?_))
      exact List.mem_map.mpr ⟨j, hj, rfl⟩
    · exact .service nofun nofun

/-- Nothing is picked from a list if nothing of what it was made from is ever picked. -/
theorem filterMap_map_eq_nil {α β γ : Type} {pick : β → Option γ} {f : α → β}
    (h : ∀ a, pick (f a) = none) (l : List α) : (l.map f).filterMap pick = [] := by
  refine List.filterMap_eq_nil_iff.mpr fun b hb => ?_
  obtain ⟨a, -, rfl⟩ := List.mem_map.mp hb
  exact h a

theorem serviceCourse_map_call (n : Nat) (t : List Exchange) :
    serviceCourse (t.map (.call n)) = [] :=
  filterMap_map_eq_nil (fun _ => rfl) t

theorem serviceCourse_untilLock :
    serviceCourse (untilLock setup nonces requeue listener backfill processor drain joined) =
      startCourse setup nonces requeue listener backfill processor drain ++
        joinCourse [listener, backfill, processor, drain] joined := by
  have hservice (t : List Exchange) : serviceCourse (t.map .service) = t := by
    rw [serviceCourse, List.filterMap_map]
    exact List.filterMap_some
  have hended : serviceCourse (joined.map fun j => .ended j.1 j.2) = [] :=
    filterMap_map_eq_nil (fun _ => rfl) joined
  rw [untilLock, serviceCourse_append, serviceCourse_append, hservice, hended, hservice,
    List.nil_append]

theorem callCourse_untilLock (n : Nat) :
    callCourse n (untilLock setup nonces requeue listener backfill processor drain joined) =
      [] := by
  have hservice (t : List Exchange) : callCourse n (t.map .service) = [] :=
    filterMap_map_eq_nil (fun _ => rfl) t
  have hended : callCourse n (joined.map fun j => .ended j.1 j.2) = [] :=
    filterMap_map_eq_nil (fun _ => rfl) joined
  rw [untilLock, callCourse_append, callCourse_append, hservice, hended, hservice]
  rfl

theorem callCourse_map_call (n m : Nat) (t : List Exchange) :
    callCourse n (t.map (.call m)) = if m = n then t else [] := by
  split
  · next h =>
    have hpick : ServiceEvent.ofCall? n ∘ ServiceEvent.call m = some := funext fun _ => if_pos h
    rw [callCourse, List.filterMap_map, hpick, List.filterMap_some]
  · next h =>
    have hnone (e : Exchange) : ServiceEvent.ofCall? n (.call m e) = none := if_neg h
    exact filterMap_map_eq_nil hnone t

/-- A call that locks nothing may come first, with signatures of the identity, which still has its
key. -/
theorem happens_call (n : Nat) {early : List Exchange} (hlock : ∀ e ∈ early, e.1 ≠ .lockKey)
    (hearly : ∀ digest answer, ⟨.sign digest, answer⟩ ∈ early → answer = identity.sign digest) :
    Happens identity (early.map (.call n)) := by
  refine Happens.start.append fun part event rest hsplit => ?_
  have hmem : event ∈ early.map (.call n) := by simp [hsplit]
  obtain ⟨e, he, rfl⟩ := List.mem_map.mp hmem
  refine .call fun digest answer heq => ?_
  -- The key is still there, since what came before has not locked it.
  rw [List.nil_append, keyAfter_eq_self]
  · exact hearly digest answer (heq ▸ he)
  · intro event hpart e' he'
    have hmem' : event ∈ early.map (.call n) := by simp [hsplit, hpart]
    obtain ⟨locked, hlocked, rfl⟩ := List.mem_map.mp hmem'
    obtain rfl := Option.some.inj he'
    exact hlock locked hlocked

/-- **A service from its start to its end around a call**, which has exchanged something before, and
does the rest afterwards without a signature. -/
theorem exists_serving (identity : Identity) (calls : Nat → UInt64) (nonces requeue : QueueId)
    {early late : List Exchange}
    (hall : (joined.map Prod.fst).Perm [listener, backfill, processor, drain])
    (hbegins : Begins (process setup (calls 0)) (early ++ late))
    (hlock : ∀ e ∈ early, e.1 ≠ .lockKey)
    (hearly : ∀ digest answer, ⟨.sign digest, answer⟩ ∈ early → answer = identity.sign digest)
    (hlate : ∀ e ∈ late, ∀ digest, e.1 ≠ .sign digest) :
    ∃ s : Serving setup identity calls (verdict joined), s.history = early.map (.call 0) ++
      untilLock setup nonces requeue listener backfill processor drain joined ++
        .service ⟨.lockKey, ()⟩ :: late.map (.call 0) := by
  -- Up to the lock: what the call did before, the short service, and the lock.
  have hlocked : Happens identity (early.map (.call 0) ++
      untilLock setup nonces requeue listener backfill processor drain joined ++
        [.service ⟨.lockKey, ()⟩]) :=
    ((happens_call 0 hlock hearly).untilLock hall).next (.service nofun nofun)
  -- The rest of the call signs nothing, so it is possible behind the lock as well.
  have hhappens := hlocked.append_of_forall (late.map (.call 0)) fun event hevent part => by
    obtain ⟨e, he, rfl⟩ := List.mem_map.mp hevent
    exact .call fun digest answer heq => absurd (congrArg Sigma.fst heq) (hlate e he digest)
  rw [← List.append_cons] at hhappens
  refine ⟨{ history := _, happens := hhappens, served := ?_, calls := fun n => ?_ }, rfl⟩
  · -- The service's own exchanges are those of a whole course.
    have hlast : serviceCourse (.service ⟨.lockKey, ()⟩ :: late.map (.call 0)) =
        [⟨.lockKey, ()⟩] := congrArg (_ :: ·) (serviceCourse_map_call 0 late)
    have hlength : joined.length = 4 := by
      rw [← List.length_map Prod.fst, hall.length_eq]
      rfl
    rw [serviceCourse_append, serviceCourse_append, serviceCourse_map_call, List.nil_append,
      serviceCourse_untilLock, hlast]
    exact follows_serve_iff.mpr ⟨_, _, _, _, _, _, joined, hlength, rfl, rfl⟩
  · -- The call's exchanges are the two parts, put together again.
    have hlast : callCourse n (.service ⟨.lockKey, ()⟩ :: late.map (.call 0)) =
        if 0 = n then late else [] := callCourse_map_call n 0 late
    rw [callCourse_append, callCourse_append, callCourse_untilLock, callCourse_map_call, hlast,
      List.append_nil]
    split
    · next hn =>
      rw [← hn]
      exact hbegins
    · exact .nil _

/-! ### The end of a service -/

/-- **A service has stopped at its end**, in whatever order its workers end and whatever they end
with; and each such end may come. -/
theorem serving_stops (setup : OrchestratorSetup) (identity : Identity) (calls : Nat → UInt64) :
    (∀ result (s : Serving setup identity calls result),
      ∃ before after listener backfill processor drain joined,
        Stopped setup identity result s.history before after listener backfill processor drain
          joined) ∧
    ∀ listener backfill processor drain joined,
      (joined.map Prod.fst).Perm [listener, backfill, processor, drain] →
        ∃ (s : Serving setup identity calls (verdict joined)) (before after : List ServiceEvent),
          Stopped setup identity (verdict joined) s.history before after listener backfill processor
            drain joined := by
  constructor
  · -- A service that is given: its course says which workers there were and how they ended.
    intro result s
    obtain ⟨nonces, requeue, listener, backfill, processor, drain, joined, hlength, hcourse,
      hresult⟩ := follows_serve_iff.mp s.served
    obtain ⟨before, after, hstopped⟩ := s.stopped hlength hcourse hresult
    exact ⟨before, after, listener, backfill, processor, drain, joined, hstopped⟩
  · intro listener backfill processor drain joined hall
    -- No other call has begun.
    have hbegins : Begins (process setup (calls 0)) ([] ++ []) := .nil _
    obtain ⟨s, hhistory⟩ :=
      exists_serving identity calls 0 1 hall hbegins (by simp) (by simp) (by simp)
    have hlength : joined.length = 4 := by
      rw [← List.length_map Prod.fst, hall.length_eq]
      rfl
    have hcourse : serviceCourse s.history =
        startCourse setup 0 1 listener backfill processor drain ++
          joinCourse [listener, backfill, processor, drain] joined ++ [⟨.lockKey, ()⟩] := by
      rw [hhistory, List.map_nil, List.nil_append, serviceCourse_append, serviceCourse_untilLock]
      rfl
    exact ⟨s, s.stopped hlength hcourse rfl⟩

/-- The processor panics first, and the backfill fails later: the panic is the result, and the
others are cancelled. -/
theorem serving_stops_of_panic :
    ∃ (s : Serving ⟨.zero, .standard, .standard, .standard⟩ (.ofKey Ecdsa.smallestKey) (fun _ => 1)
        (.error (.worker "panic"))) (before after : List ServiceEvent),
      Stopped ⟨.zero, .standard, .standard, .standard⟩ (.ofKey Ecdsa.smallestKey)
        (.error (.worker "panic")) s.history before after 0 1 2 3
        [(2, .error (.worker "panic")), (0, .ok ()), (1, .error (.attestationNotFound 5)),
          (3, .ok ())] :=
  (serving_stops _ _ _).2 0 1 2 3 [(2, .error (.worker "panic")), (0, .ok ()),
    (1, .error (.attestationNotFound 5)), (3, .ok ())] (by decide)

/-- Up to its signature a call locks nothing. Only the service locks the key. -/
theorem ne_lockKey_of_mem_courseToSignature {nonce : UInt64} {c : DataCommitment}
    {latest : List Exchange} {root : Word} {x : Vrs}
    (hlatest : ∀ e ∈ latest, ∃ key value limit error, e = ⟨.put key value limit, .error error⟩)
    {e : Exchange} (h : e ∈ courseToSignature setup nonce c latest root x) : e.1 ≠ .lockKey := by
  rw [courseToSignature] at h
  simp only [List.mem_cons, List.mem_append, List.not_mem_nil, or_false] at h
  rcases h with rfl | rfl | h | rfl | rfl | rfl
  · rintro ⟨⟩
  · rintro ⟨⟩
  · obtain ⟨key, value, limit, error, rfl⟩ := hlatest e h
    rintro ⟨⟩
  · rintro ⟨⟩
  · rintro ⟨⟩
  · rintro ⟨⟩

/-- **A confirm may be put behind the end of the service**: the call has its signature before the
key is locked, and puts the confirm afterwards. -/
theorem published_behind_the_end :
    ¬ ∀ setup identity calls result (s : Serving setup identity calls result) before after,
      s.history = before ++ .service ⟨.lockKey, ()⟩ :: after →
        ∀ n key value limit, IsConfirmKey key → .call n ⟨.put key value limit, .ok ()⟩ ∉ after := by
  obtain ⟨x, hsign⟩ := Identity.exists_sign_smallestKey
  have hrecovers := Identity.recovers_smallestKey
  -- Nothing else about the key and its signature is used, so nothing of it is computed.
  generalize Identity.ofKey Ecdsa.smallestKey = identity at hsign hrecovers
  let setup : OrchestratorSetup := ⟨identity.address, .standard, .standard, .standard⟩
  -- The call can go all the way to a published confirm: its record is accepted.
  obtain ⟨latest, _, hlatest, hfailing⟩ :=
    exists_follows_putLatestValset setup.store (Store.soleValset setup.address)
  have hverify : verifyText (commitmentDigest 2 0) x.render setup.address = .ok () :=
    Identity.verifyText_of_sign hsign hrecovers
  have hcheck : (confirmOf setup.address x (some 0)).checkSignature 2 = .ok () := hverify
  have haccepted := Store.isAccepted_encode hcheck
  rw [signer_confirmOf] at haccepted
  have hfollows := process_follows_published (c := ⟨2, 1, 2⟩) (by decide) hlatest haccepted
  -- The service ends while the signature is made and the confirm not yet put.
  have hall : ([(0, .ok ()), (1, .ok ()), (2, .ok ()), (3, .ok ())].map
    (Prod.fst : TaskId × WorkerResult → TaskId)).Perm [0, 1, 2, 3] := .refl _
  have hsigned : ∀ digest answer, ⟨.sign digest, answer⟩ ∈
      courseToSignature setup 2 ⟨2, 1, 2⟩ latest 0 x → answer = identity.sign digest := by
    intro digest answer hmem
    obtain ⟨rfl, rfl⟩ := answered_of_mem_courseToSignature hfailing hmem
    exact hsign.symm
  -- What is left of the call behind the lock is the put and a note.
  obtain ⟨s, hhistory⟩ := exists_serving identity (fun _ => 2) 0 1 hall hfollows.begins
    (fun e => ne_lockKey_of_mem_courseToSignature hfailing) hsigned (by simp)
  intro h
  exact h setup identity _ _ s _ _ hhistory 0 _ _ _
    (Store.isConfirmKey_confirmKey .dataCommitment 2 setup.address) List.mem_cons_self

end Countersign.Orchestrator
