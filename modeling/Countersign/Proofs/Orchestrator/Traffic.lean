import Countersign.Proofs.Orchestrator.Motions
import Countersign.Simulation.World
import Mathlib.Data.List.Basic
import Mathlib.Data.List.Induction

/-!
# Nonces on their way through the queues

Processor and drain share two queues, and others send to the first of them. This module says what
may happen to the queues then.

* What happens is a list of events (`TrafficEvent`): exchanges of the two workers, and what the
  other senders do. A sender that finds no room waits behind those that came before, and may give
  up.
* The queues are a state with a step (`Traffic.step`). Nonces leave a queue in the order in which
  they came; a queue takes a nonce without a wait exactly if it has room behind the waiting senders.
* The two workers take turns where they wait (`Unbroken`): what does not wait follows at once upon
  what the same worker did before.

Whatever happens, what came into a queue is what left it and what it still holds, in this order
(`Traffic.items_append_arrivals`). Who put it in and took it out is seen in the motions of the
workers, if only one of them does (`Traffic.arrivals_eq`, `Traffic.departures_eq`), and for the
queue of the other senders up to the order (`Traffic.arrivals_perm`).
-/

namespace Countersign

open Routine
open Simulation (Queue)

/-! ### Events -/

/-- **The two workers that carry nonces** from queue to queue. The listener and the backfill only
send, and are among the other senders. -/
inductive Carrier where
  | processor
  | drain
deriving DecidableEq

/-- **What happens**: one of the other senders begins to wait for room, puts a nonce into the queue
or gives up, or one of the two workers has an exchange. -/
inductive TrafficEvent where
  | waits (sender : Nat)
  | puts (sender : Nat) (nonce : UInt64)
  | leaves (sender : Nat)
  | exchange (carrier : Carrier) (e : Exchange)

/-- The exchange of a worker, if an event is one of his. -/
def TrafficEvent.of? (carrier : Carrier) : TrafficEvent → Option Exchange
  | .exchange c e => if c = carrier then some e else none
  | _ => none

/-- The nonce that another sender put, if an event is that. -/
def TrafficEvent.put? : TrafficEvent → Option UInt64
  | .puts _ nonce => some nonce
  | _ => none

/-- What is seen of an exchange, if an event is one, whoever has it. `see` picks out what is looked
at, such as a nonce that is taken from a queue. -/
def TrafficEvent.seen? (see : Exchange → Option UInt64) : TrafficEvent → Option UInt64
  | .exchange _ e => see e
  | _ => none

/-- The exchanges of a worker, in order. They are its course, which its own routine has to
follow. -/
def dealings (carrier : Carrier) (history : List TrafficEvent) : List Exchange :=
  history.filterMap (TrafficEvent.of? carrier)

/-- The nonces that the other senders put, in order. -/
def puts (history : List TrafficEvent) : List UInt64 :=
  history.filterMap TrafficEvent.put?

@[simp] theorem dealings_append (carrier : Carrier) (before after : List TrafficEvent) :
    dealings carrier (before ++ after) = dealings carrier before ++ dealings carrier after :=
  List.filterMap_append

@[simp] theorem dealings_exchange_self (carrier : Carrier) (e : Exchange)
    (history : List TrafficEvent) :
    dealings carrier (.exchange carrier e :: history) = e :: dealings carrier history := by
  simp [dealings, TrafficEvent.of?]

theorem dealings_concat (carrier : Carrier) (e : Exchange) (history : List TrafficEvent) :
    dealings carrier (history ++ [.exchange carrier e]) = dealings carrier history ++ [e] := by
  rw [dealings_append, dealings_exchange_self]
  rfl

/-- The exchanges of a worker are those of the history that are his. -/
theorem mem_dealings {carrier : Carrier} {e : Exchange} {history : List TrafficEvent} :
    e ∈ dealings carrier history ↔ .exchange carrier e ∈ history := by
  rw [dealings, List.mem_filterMap]
  constructor
  · rintro ⟨event, hevent, hof⟩
    cases event with
    | waits | puts | leaves => cases hof
    | exchange c e' =>
      change (if c = carrier then some e' else none) = some e at hof
      split at hof
      · next hc =>
        obtain rfl := Option.some.inj hof
        rwa [← hc]
      · cases hof
  · intro h
    exact ⟨_, h, if_pos rfl⟩

/-! ### Taking turns -/

/-- Workers that take turns only where they wait: an exchange that does not wait comes straight
behind another one of the same worker. This is what a single thread for all workers comes to. -/
def Unbroken (history : List TrafficEvent) : Prop :=
  ∀ before carrier e after, history = before ++ .exchange carrier e :: after →
    mayWait e.1 = false → ∃ earlier previous, before = earlier ++ [.exchange carrier previous]

/-- What comes before an exchange that does not wait is the last of the worker's own exchanges until
then. -/
theorem Unbroken.exists_previous {history before after : List TrafficEvent} {carrier : Carrier}
    {e last : Exchange} {course : List Exchange} (h : Unbroken history)
    (hhistory : history = before ++ .exchange carrier e :: after) (hwaits : mayWait e.1 = false)
    (hcourse : dealings carrier before = course ++ [last]) :
    ∃ earlier, before = earlier ++ [.exchange carrier last] ∧
      dealings carrier earlier = course := by
  obtain ⟨earlier, previous, rfl⟩ := h _ _ _ _ hhistory hwaits
  rw [dealings_concat] at hcourse
  obtain ⟨hearlier, hlast⟩ := List.append_inj' hcourse rfl
  obtain rfl := List.singleton_inj.mp hlast
  exact ⟨earlier, rfl, hearlier⟩

theorem Unbroken.nil : Unbroken [] := by
  intro before carrier e after h
  cases List.append_eq_nil_iff.mp h.symm |>.2

/-- A history stays unbroken with one event more, if that event waits or comes straight behind one
of the same worker. -/
theorem Unbroken.concat {history : List TrafficEvent} {event : TrafficEvent} (h : Unbroken history)
    (hevent : ∀ carrier e, event = .exchange carrier e → mayWait e.1 = false →
      ∃ earlier previous, history = earlier ++ [.exchange carrier previous]) :
    Unbroken (history ++ [event]) := by
  intro before carrier e after hsplit hwaits
  -- It is the last event, or one of those before.
  rcases List.eq_nil_or_concat after with rfl | ⟨after', last, rfl⟩
  · obtain ⟨rfl, hlast⟩ := List.append_inj' hsplit rfl
    exact hevent carrier e (List.singleton_inj.mp hlast) hwaits
  · rw [List.concat_eq_append, ← List.cons_append, ← List.append_assoc] at hsplit
    obtain ⟨rfl, -⟩ := List.append_inj' hsplit rfl
    exact h before carrier e after' rfl hwaits

/-- What another sender does breaks nothing. -/
theorem Unbroken.puts {history : List TrafficEvent} (h : Unbroken history) (sender : Nat)
    (nonce : UInt64) : Unbroken (history ++ [.puts sender nonce]) :=
  h.concat (by rintro carrier e ⟨⟩)

/-- **Exchanges of one worker** may follow upon any history if the first of them waits. -/
theorem Unbroken.append_dealings {history : List TrafficEvent} (h : Unbroken history)
    (carrier : Carrier) {first : Exchange} (hfirst : mayWait first.1 = true) (t : List Exchange) :
    Unbroken (history ++ (first :: t).map (.exchange carrier)) := by
  -- On the exchanges behind the first one, from the last one backwards.
  induction t using List.reverseRecOn with
  | nil =>
    refine h.concat ?_
    rintro c e ⟨⟩ hwaits
    rw [hfirst] at hwaits
    cases hwaits
  | append_singleton t e ih =>
    have hmap : history ++ (first :: (t ++ [e])).map (TrafficEvent.exchange carrier) =
        (history ++ (first :: t).map (.exchange carrier)) ++ [.exchange carrier e] := by
      simp
    rw [hmap]
    refine ih.concat ?_
    rintro c e' ⟨⟩ -
    rcases List.eq_nil_or_concat t with rfl | ⟨t', last, rfl⟩
    · exact ⟨history, first, by simp⟩
    · exact ⟨history ++ (first :: t').map (.exchange carrier), last, by simp⟩

/-! ### The queues -/

namespace Traffic

/-- Changing one of some queues, and leaving the others as they are. -/
def amend (s : QueueId → Queue) (queue : QueueId) (f : Queue → Queue) : QueueId → Queue :=
  Function.update s queue (f (s queue))

/-- A nonce added at the end of a queue. -/
def push (nonce : UInt64) (q : Queue) : Queue :=
  { q with items := q.items ++ [nonce] }

/-- Taking a nonce from the front of a queue, if it is the one that is there. -/
def take (s : QueueId → Queue) (queue : QueueId) (nonce : UInt64) : Option (QueueId → Queue) :=
  match (s queue).items with
  | [] => none
  | next :: rest =>
    if next = nonce then some (amend s queue fun q => { q with items := rest }) else none

variable (nonces : QueueId)

/-- **What may happen next**, and the queues afterwards. The other senders send to the queue
`nonces`. -/
def step (s : QueueId → Queue) : TrafficEvent → Option (QueueId → Queue)
  | .waits sender => some (amend s nonces fun q => { q with senders := q.senders ++ [sender] })
  | .leaves sender => some (amend s nonces fun q => { q with senders := q.senders.erase sender })
  -- A sender is served when its turn has come and there is room.
  | .puts sender nonce =>
    if (s nonces).isOpen ∧ (s nonces).admits sender then
      some (amend s nonces fun q => { push nonce q with senders := q.senders.erase sender })
    else none
  -- A queue gives what has been in it longest.
  | .exchange _ ⟨.receive queue, .nonce nonce⟩ => take s queue nonce
  | .exchange _ ⟨.tryReceive queue, some nonce⟩ => take s queue nonce
  | .exchange _ ⟨.tryReceive queue, none⟩ => if (s queue).items = [] then some s else none
  | .exchange _ ⟨.hasRoom queue, room⟩ => if room = (s queue).hasRoom then some s else none
  | .exchange _ ⟨.trySend queue nonce, true⟩ =>
    if (s queue).isOpen ∧ (s queue).hasRoom then some (amend s queue (push nonce)) else none
  | .exchange _ ⟨.trySend queue _, false⟩ =>
    if (s queue).isOpen ∧ (s queue).hasRoom then none else some s
  | .exchange _ ⟨.closeQueue queue, _⟩ => some (amend s queue fun q => { q with isOpen := false })
  -- Whatever else is exchanged has nothing to do with the queues, or is broken off.
  | .exchange _ _ => some s

/-- The queues after some events, if they may happen one after the other. -/
def run (s : QueueId → Queue) (history : List TrafficEvent) : Option (QueueId → Queue) :=
  history.foldlM (step nonces) s

/-- Queues that are open and empty, and have no senders. -/
def fresh (capacity : QueueId → Nat) : QueueId → Queue :=
  fun queue => ⟨capacity queue, [], [], true⟩

/-- The nonce that comes into a queue with an event, from whoever it comes. The other senders send
to `nonces` only. -/
def arrival? (queue : QueueId) : TrafficEvent → Option UInt64
  | .puts _ nonce => if nonces = queue then some nonce else none
  | .exchange _ e => putBy? queue e
  | _ => none

/-- The nonces that come into a queue, in order. -/
def arrivals (queue : QueueId) (history : List TrafficEvent) : List UInt64 :=
  history.filterMap (arrival? nonces queue)

/-- The nonces that leave a queue, in order. -/
def departures (queue : QueueId) (history : List TrafficEvent) : List UInt64 :=
  history.filterMap (TrafficEvent.seen? (takenBy? queue))

variable {nonces} {s s' : QueueId → Queue} {queue : QueueId} {history : List TrafficEvent}

/-- A nonce is taken if it is in front, and then the rest is left. -/
theorem take_eq_some {nonce : UInt64} (h : take s queue nonce = some s') :
    ∃ rest, (s queue).items = nonce :: rest ∧
      s' = amend s queue fun q => { q with items := rest } := by
  unfold take at h
  split at h
  · cases h
  · next next rest hitems =>
    split at h
    · next heq =>
      rw [heq] at hitems
      exact ⟨rest, hitems, (Option.some.inj h).symm⟩
    · cases h

@[simp] theorem amend_self (s : QueueId → Queue) (queue : QueueId) (f : Queue → Queue) :
    amend s queue f queue = f (s queue) :=
  Function.update_self ..

theorem amend_of_ne {other : QueueId} (h : other ≠ queue) (s : QueueId → Queue)
    (f : Queue → Queue) : amend s queue f other = s other :=
  Function.update_of_ne h ..

/-- A queue that takes a nonce, seen from each queue. For the other queues both sides are what they
were. -/
theorem items_amend_push (s : QueueId → Queue) (queue other : QueueId) (nonce : UInt64)
    (f : Queue → Queue) (hf : (f (s queue)).items = (s queue).items ++ [nonce]) :
    (s other).items ++ (if queue = other then some nonce else none).toList =
      (amend s queue f other).items := by
  by_cases h : queue = other
  · obtain rfl := h
    rw [if_pos rfl, amend_self, hf]
    rfl
  · rw [if_neg h, amend_of_ne (Ne.symm h)]
    exact List.append_nil _

/-- A queue that gives a nonce, seen from each queue. -/
theorem items_take {nonce : UInt64} (h : take s queue nonce = some s') (other : QueueId) :
    (s other).items =
      (if queue = other then some nonce else none).toList ++ (s' other).items := by
  obtain ⟨rest, hitems, rfl⟩ := take_eq_some h
  by_cases h : queue = other
  · obtain rfl := h
    rw [if_pos rfl, amend_self, hitems]
    rfl
  · rw [if_neg h, amend_of_ne (Ne.symm h)]
    rfl

/-- A change that leaves the nonces of a queue is not seen in any of them. -/
theorem items_amend (s : QueueId → Queue) (queue other : QueueId) (f : Queue → Queue)
    (hf : (f (s queue)).items = (s queue).items) :
    (s other).items = (amend s queue f other).items := by
  by_cases h : other = queue
  · obtain rfl := h
    rw [amend_self, hf]
  · rw [amend_of_ne h]

/-- A change that leaves a queue open, or closed, is not seen in this. -/
theorem isOpen_amend (s : QueueId → Queue) (queue other : QueueId) (f : Queue → Queue)
    (hf : (f (s queue)).isOpen = (s queue).isOpen) :
    (amend s queue f other).isOpen = (s other).isOpen := by
  by_cases h : other = queue
  · obtain rfl := h
    rw [amend_self, hf]
  · rw [amend_of_ne h]

/-- Taking a nonce closes nothing. -/
theorem isOpen_take {nonce : UInt64} (h : take s queue nonce = some s') (other : QueueId) :
    (s' other).isOpen = (s other).isOpen := by
  obtain ⟨rest, -, rfl⟩ := take_eq_some h
  exact isOpen_amend s queue other _ rfl

/-- **What an event does to each queue**: a nonce comes in at the end, leaves at the front, or
neither; and the queue stays open unless the event closes it. There is a case for each line of
`step`. -/
theorem step_effect {event : TrafficEvent} (h : step nonces s event = some s')
    (queue : QueueId) :
    (s queue).items ++ (arrival? nonces queue event).toList =
        (event.seen? (takenBy? queue)).toList ++ (s' queue).items ∧
      ((∀ carrier, event ≠ .exchange carrier ⟨.closeQueue queue, ()⟩) →
        (s' queue).isOpen = (s queue).isOpen) := by
  unfold step at h
  split at h
  -- Another sender waits or gives up, or puts a nonce.
  case h_1 sender | h_2 sender =>
    obtain rfl := Option.some.inj h
    exact ⟨(List.append_nil _).trans (items_amend s nonces queue _ rfl),
      fun _ => isOpen_amend s nonces queue _ rfl⟩
  case h_3 sender nonce =>
    split at h
    · obtain rfl := Option.some.inj h
      exact ⟨items_amend_push s nonces queue nonce _ rfl,
        fun _ => isOpen_amend s nonces queue _ rfl⟩
    · cases h
  -- A worker takes a nonce.
  case h_4 carrier q nonce | h_5 carrier q nonce =>
    exact ⟨(List.append_nil _).trans (items_take h queue), fun _ => isOpen_take h queue⟩
  -- A worker is told that there is nothing, or whether there is room.
  case h_6 carrier q | h_7 carrier q room =>
    split at h
    · obtain rfl := Option.some.inj h
      exact ⟨List.append_nil _, fun _ => rfl⟩
    · cases h
  -- A worker sends, and is refused.
  case h_8 carrier q nonce =>
    split at h
    · obtain rfl := Option.some.inj h
      exact ⟨items_amend_push s q queue nonce _ rfl, fun _ => isOpen_amend s q queue _ rfl⟩
    · cases h
  case h_9 carrier q nonce =>
    split at h
    · cases h
    · obtain rfl := Option.some.inj h
      exact ⟨List.append_nil _, fun _ => rfl⟩
  -- A queue is closed.
  case h_10 carrier q answer =>
    obtain rfl := Option.some.inj h
    refine ⟨(List.append_nil _).trans (items_amend s q queue _ rfl), ?_⟩
    intro hother
    have hne : queue ≠ q := by
      rintro rfl
      exact hother carrier rfl
    rw [amend_of_ne hne]
  case h_11 carrier e hreceive htake hnone hroom hsent hrefused hclose =>
    obtain rfl := Option.some.inj h
    -- What puts a nonce into a queue, or takes one from it, is among the cases before.
    have harrival : arrival? nonces queue (.exchange carrier e) = none := by
      refine Option.eq_none_iff_forall_ne_some.mpr fun n hn => ?_
      exact hsent queue n (putBy?_eq_some hn)
    have hdeparture : TrafficEvent.seen? (takenBy? queue) (.exchange carrier e) = none := by
      refine Option.eq_none_iff_forall_ne_some.mpr fun n hn => ?_
      rcases takenBy?_eq_some hn with heq | heq
      · exact hreceive queue n heq
      · exact htake queue n heq
    rw [harrival, hdeparture]
    exact ⟨List.append_nil _, fun _ => rfl⟩

/-! ### Runs -/

theorem run_cons {event : TrafficEvent} (h : run nonces s (event :: history) = some s') :
    ∃ mid, step nonces s event = some mid ∧ run nonces mid history = some s' := by
  unfold run at h
  rw [List.foldlM_cons] at h
  exact Option.bind_eq_some_iff.mp h

theorem run_append {before after : List TrafficEvent}
    (h : run nonces s (before ++ after) = some s') :
    ∃ mid, run nonces s before = some mid ∧ run nonces mid after = some s' := by
  unfold run at h
  rw [List.foldlM_append] at h
  exact Option.bind_eq_some_iff.mp h

/-- **What came into a queue** is what left it and what it still holds, in this order. The induction
is on the history, with `step_effect` for its first event. -/
theorem items_append_arrivals (h : run nonces s history = some s') (queue : QueueId) :
    (s queue).items ++ arrivals nonces queue history =
      departures queue history ++ (s' queue).items := by
  induction history generalizing s with
  | nil =>
    obtain rfl := Option.some.inj h
    exact List.append_nil _
  | cons event history ih =>
    obtain ⟨mid, hstep, hrest⟩ := run_cons h
    -- Both lists begin with what the first event does.
    have harrivals : arrivals nonces queue (event :: history) =
        (arrival? nonces queue event).toList ++ arrivals nonces queue history := by
      rw [arrivals, List.filterMap_cons]
      cases arrival? nonces queue event <;> rfl
    have hdepartures : departures queue (event :: history) =
        (event.seen? (takenBy? queue)).toList ++ departures queue history := by
      rw [departures, List.filterMap_cons]
      cases event.seen? (takenBy? queue) <;> rfl
    calc (s queue).items ++ arrivals nonces queue (event :: history)
        = ((s queue).items ++ (arrival? nonces queue event).toList) ++
            arrivals nonces queue history := by rw [harrivals, List.append_assoc]
      _ = (event.seen? (takenBy? queue)).toList ++
            ((mid queue).items ++ arrivals nonces queue history) := by
          rw [(step_effect hstep queue).1, List.append_assoc]
      _ = departures queue (event :: history) ++ (s' queue).items := by
          rw [ih hrest, hdepartures, List.append_assoc]

/-- A queue stays open as long as nobody closes it. -/
theorem isOpen_run (h : run nonces s history = some s') (queue : QueueId)
    (hclose : ∀ carrier, .exchange carrier ⟨.closeQueue queue, ()⟩ ∉ history) :
    (s' queue).isOpen = (s queue).isOpen := by
  induction history generalizing s with
  | nil =>
    obtain rfl := Option.some.inj h
    rfl
  | cons event history ih =>
    obtain ⟨mid, hstep, hrest⟩ := run_cons h
    have hkept : (mid queue).isOpen = (s queue).isOpen := by
      refine (step_effect hstep queue).2 ?_
      rintro carrier rfl
      exact hclose carrier List.mem_cons_self
    rw [ih hrest fun carrier hmem => hclose carrier (List.mem_cons_of_mem _ hmem), hkept]

/-- **A queue that has room takes a nonce**, if in between a nonce is taken from another queue only.
So the drain, which looks for room before, is never refused. -/
theorem sent_of_hasRoom {requeue : QueueId} {carrier : Carrier} {taken nonce : UInt64} {sent : Bool}
    {after : List TrafficEvent} (hne : nonces ≠ requeue)
    (h : run nonces s (.exchange carrier ⟨.hasRoom nonces, true⟩ ::
      .exchange carrier ⟨.tryReceive requeue, some taken⟩ ::
      .exchange carrier ⟨.trySend nonces nonce, sent⟩ :: after) = some s')
    (hopen : (s nonces).isOpen = true) : sent = true := by
  -- The three events one after the other, with the queues in between.
  obtain ⟨s₁, hroom, h₁⟩ := run_cons h
  obtain ⟨s₂, htake, h₂⟩ := run_cons h₁
  obtain ⟨s₃, hsend, -⟩ := run_cons h₂
  change (if true = (s nonces).hasRoom then some s else none) = some s₁ at hroom
  split at hroom
  · next hasRoom =>
    obtain rfl := Option.some.inj hroom
    change take s requeue taken = some s₂ at htake
    obtain ⟨rest, -, rfl⟩ := take_eq_some htake
    cases sent with
    | true => rfl
    | false =>
      -- The queue of nonces is as it was, so it cannot refuse.
      change (if (amend s requeue _ nonces).isOpen ∧ (amend s requeue _ nonces).hasRoom then none
        else some _) = some s₃ at hsend
      rw [amend_of_ne hne, if_pos ⟨hopen, hasRoom.symm⟩] at hsend
      cases hsend
  · cases hroom

/-! ### Who moves what -/

/-- What only one of the workers does is seen in its exchanges. -/
theorem filterMap_seen? {see : Exchange → Option UInt64} {carrier : Carrier}
    (hothers : ∀ other e, other ≠ carrier → .exchange other e ∈ history → see e = none) :
    history.filterMap (TrafficEvent.seen? see) = (dealings carrier history).filterMap see := by
  rw [dealings, List.filterMap_filterMap]
  refine List.filterMap_congr fun event hevent => ?_
  cases event with
  | waits | puts | leaves => rfl
  | exchange c e =>
    show see e = (if c = carrier then some e else none).bind see
    by_cases hc : c = carrier
    · rw [if_pos hc]
      rfl
    · rw [if_neg hc]
      exact hothers c e hc hevent

/-- What leaves a queue is what the only worker that takes from it has taken. -/
theorem departures_eq {carrier : Carrier}
    (hothers : ∀ other, other ≠ carrier → takenFrom queue (motions (dealings other history)) = []) :
    departures queue history = takenFrom queue (motions (dealings carrier history)) := by
  rw [departures, takenFrom_motions]
  refine filterMap_seen? fun other e hne hmem => ?_
  have hnone := hothers other hne
  rw [takenFrom_motions] at hnone
  exact List.filterMap_eq_nil_iff.mp hnone e (mem_dealings.mpr hmem)

/-- What the workers put into a queue is what the only one that does has put. -/
theorem filterMap_putBy?_eq {carrier : Carrier}
    (hothers : ∀ other, other ≠ carrier → putInto queue (motions (dealings other history)) = []) :
    history.filterMap (TrafficEvent.seen? (putBy? queue)) =
      putInto queue (motions (dealings carrier history)) := by
  rw [putInto_motions]
  refine filterMap_seen? fun other e hne hmem => ?_
  have hnone := hothers other hne
  rw [putInto_motions] at hnone
  exact List.filterMap_eq_nil_iff.mp hnone e (mem_dealings.mpr hmem)

/-- **The queue that the other senders send to**, and one worker: what comes in is what they put and
what the worker puts. The order between these is that of the history, and is given up here. -/
theorem arrivals_perm {carrier : Carrier}
    (hothers : ∀ other, other ≠ carrier → putInto nonces (motions (dealings other history)) = []) :
    (arrivals nonces nonces history).Perm
      (puts history ++ putInto nonces (motions (dealings carrier history))) := by
  rw [← filterMap_putBy?_eq hothers]
  clear hothers
  induction history with
  | nil => exact .nil
  | cons event history ih =>
    cases event with
    | waits sender => exact ih
    | leaves sender => exact ih
    -- A nonce of another sender is at the front on both sides.
    | puts sender nonce =>
      have harrival : arrival? nonces nonces (.puts sender nonce) = some nonce := if_pos rfl
      rw [arrivals, List.filterMap_cons_some harrival]
      exact ih.cons nonce
    -- A nonce of a worker is at the front of the arrivals, and between the two parts on the right.
    | exchange c e =>
      have harrival : arrival? nonces nonces (.exchange c e) = putBy? nonces e := rfl
      have hseen : TrafficEvent.seen? (putBy? nonces) (.exchange c e) = putBy? nonces e := rfl
      show (arrivals nonces nonces (_ :: history)).Perm (puts history ++ _)
      rw [arrivals, List.filterMap_cons, List.filterMap_cons, harrival, hseen]
      cases putBy? nonces e with
      | none => exact ih
      | some nonce => exact (ih.cons nonce).trans List.perm_middle.symm

end Traffic

end Countersign
