import Countersign.Orchestrator.Workers
import Countersign.Proofs.Orchestrator.Feed
import Countersign.Proofs.Routine.Loop
import Countersign.Proofs.Routine.Retrying

/-!
# Courses of the listener

What one turn of the listener does, case by case, and what follows for the turns on its first
stream: it puts into the queue what the stream brings, in order, and nothing else. When it waits
for something while it receives, all that the stream brought is in the queue, apart from a nonce
that it is just about to put there (`Orchestrator.heardOn_of_waits`).
-/

namespace Countersign

open Routine

/-! ### Exchanges that matter to nobody -/

/-- **An exchange without a new stream, a nonce brought or a nonce sent.** Of most exchanges a
listener makes, nothing more needs to be known: they may be left out of the three counts. -/
structure Quiet (e : Exchange) : Prop where
  subscribed : subscribed? e = none
  heard : ∀ stream, heard? stream e = none
  sent : ∀ queue, sent? queue e = none

namespace Quiet

variable {t : List Exchange}

/-- Quiet exchanges open no stream. This and the two lemmas after it are what quiet is for. -/
theorem subscriptions_eq_nil (h : ∀ e ∈ t, Quiet e) : subscriptions t = [] :=
  List.filterMap_eq_nil_iff.mpr fun e he => (h e he).subscribed

theorem heardOn_eq_nil (h : ∀ e ∈ t, Quiet e) (stream : StreamId) : heardOn stream t = [] :=
  List.filterMap_eq_nil_iff.mpr fun e he => (h e he).heard stream

theorem sentTo_eq_nil (h : ∀ e ∈ t, Quiet e) (queue : QueueId) : sentTo queue t = [] :=
  List.filterMap_eq_nil_iff.mpr fun e he => (h e he).sent queue

theorem now (answer : Nat) : Quiet ⟨.now, answer⟩ :=
  ⟨rfl, fun _ => rfl, fun _ => rfl⟩

theorem latestNonce (answer : Except SourceError UInt64) : Quiet ⟨.source .latestNonce, answer⟩ :=
  ⟨rfl, fun _ => rfl, fun _ => rfl⟩

/-- What comes before a success is quiet, if failed attempts are. Waits, notes and readings of the
clock are quiet by themselves. -/
theorem of_preparing {ε α : Type} {delay : Nat} {operation : Nat → Routine (Except ε α)}
    {e : Exchange}
    (hfailed : ∀ n t error, Follows (operation n) t (.error error) → ∀ e ∈ t, Quiet e)
    (h : Preparing delay operation e) : Quiet e := by
  cases h with
  | isCancelled answer => exact ⟨rfl, fun _ => rfl, fun _ => rfl⟩
  | pause answer => exact ⟨rfl, fun _ => rfl, fun _ => rfl⟩
  | failed hfollows he => exact hfailed _ _ _ hfollows e he

end Quiet

/-- **A quiet exchange that does not tell the latest nonce** either. The first answer about the
latest nonce is what the queue is compared with, so it must be known which one it is. -/
structure Idle (e : Exchange) : Prop extends Quiet e where
  unread : latestRead? e = none

namespace Idle

theorem quiet {t : List Exchange} (h : ∀ e ∈ t, Idle e) : ∀ e ∈ t, Quiet e :=
  fun e he => (h e he).toQuiet

theorem firstLatest?_eq_none {t : List Exchange} (h : ∀ e ∈ t, Idle e) : firstLatest? t = none :=
  List.findSome?_eq_none_iff.mpr fun e he => (h e he).unread

/-- The same of idle exchanges. -/
theorem of_preparing {ε α : Type} {delay : Nat} {operation : Nat → Routine (Except ε α)}
    {e : Exchange}
    (hfailed : ∀ n t error, Follows (operation n) t (.error error) → ∀ e ∈ t, Idle e)
    (h : Preparing delay operation e) : Idle e := by
  refine ⟨.of_preparing (fun n t error hfollows => quiet (hfailed n t error hfollows)) h, ?_⟩
  cases h with
  | isCancelled answer => rfl
  | pause answer => rfl
  | failed hfollows he => exact (hfailed _ _ _ hfollows e he).unread

end Idle

namespace Orchestrator

variable {setup : OrchestratorSetup} {queue : QueueId}

/-! ### One turn -/

/-- **An answer that was waited for** comes after failures. The exchanges before it are those of
attempts that failed, and of the waits between them. -/
theorem follows_persist_some {α : Type} {query : Routine (Except SourceError α)}
    {t : List Exchange} {a : α} (h : Follows (persist setup query) t (.ok (some a))) :
    ∃ before last, t = before ++ last ∧ Follows query last (.ok a) ∧
      ∀ e ∈ before, Preparing setup.retry.delay (fun _ => query) e := by
  rw [persist] at h
  obtain ⟨result, retried, rest, rfl, hretry, h₁⟩ := follows_bind_iff.mp h
  -- Cancelled, out of attempts, failed for good, or answered.
  rcases result with (_ | ⟨attempts, error⟩ | error) | a'
  · obtain ⟨-, ⟨⟩⟩ := follows_done_iff.mp h₁
  · obtain ⟨-, ⟨⟩⟩ := follows_done_iff.mp h₁
  · obtain ⟨-, ⟨⟩⟩ := follows_done_iff.mp h₁
  · obtain ⟨rfl, heq⟩ := follows_done_iff.mp h₁
    obtain rfl := Option.some.inj (Except.ok.inj heq)
    obtain ⟨before, n, last, rfl, hlast, hbefore⟩ := follows_retryFrom_ok hretry
    exact ⟨before, last, List.append_nil _, hlast, hbefore⟩

/-- Opening a stream, after failures. None of them opened one. -/
theorem follows_persist_subscribe {t : List Exchange} {stream : StreamId}
    (h : Follows (persist setup SourceQuery.subscribe.perform) t (.ok (some stream))) :
    ∃ asking, t = asking ++ [⟨.source .subscribe, .ok stream⟩] ∧ ∀ e ∈ asking, Idle e := by
  obtain ⟨asking, last, rfl, hlast, hasking⟩ := follows_persist_some h
  obtain rfl := (follows_perform_iff (r := .source .subscribe)).mp hlast
  refine ⟨asking, rfl, fun e he =>
    .of_preparing (fun n t error hfailed e he => ?_) (hasking e he)⟩
  obtain rfl := (follows_perform_iff (r := .source .subscribe)).mp hfailed
  obtain rfl := List.mem_singleton.mp he
  exact ⟨⟨rfl, fun _ => rfl, fun _ => rfl⟩, rfl⟩

/-- Reading the latest nonce, after failures. So the answer is the first one that there is. -/
theorem follows_persist_latestNonce {t : List Exchange} {latest : UInt64}
    (h : Follows (persist setup SourceQuery.latestNonce.perform) t (.ok (some latest))) :
    ∃ reading, t = reading ++ [⟨.source .latestNonce, .ok latest⟩] ∧ ∀ e ∈ reading, Idle e := by
  obtain ⟨reading, last, rfl, hlast, hreading⟩ := follows_persist_some h
  obtain rfl := (follows_perform_iff (r := .source .latestNonce)).mp hlast
  refine ⟨reading, rfl, fun e he =>
    .of_preparing (fun n t error hfailed e he => ?_) (hreading e he)⟩
  obtain rfl := (follows_perform_iff (r := .source .latestNonce)).mp hfailed
  obtain rfl := List.mem_singleton.mp he
  exact ⟨.latestNonce _, rfl⟩

/-- **Connecting** opens one stream, then reads the latest nonce. What follows depends on whether it
is the first time: a new listener goes on to receive, and one that has seen a nonce catches up from
there. -/
theorem follows_connect {lastSeen : Option UInt64} {t : List Exchange} {s : ListenerState}
    (h : Follows (connect setup lastSeen) t (.again s)) :
    ∃ stream latest asking reading resuming,
      t = asking ++ ⟨.source .subscribe, .ok stream⟩ ::
        (reading ++ ⟨.source .latestNonce, .ok latest⟩ :: resuming) ∧
      (∀ e ∈ asking, Idle e) ∧ (∀ e ∈ reading, Idle e) ∧ (∀ e ∈ resuming, Idle e) ∧
      ((lastSeen = none ∧ ∃ tick, s = ⟨.receiving stream tick, some latest⟩) ∨
        ∃ seen, lastSeen = some seen ∧ resuming = [] ∧
          s = ⟨.catchingUp stream (saturatingAdd seen 1)
            (rangeSize (saturatingAdd seen 1) latest) latest, lastSeen⟩) := by
  rw [connect] at h
  -- A connection that is given up, or cancelled, does not go on to another turn.
  obtain ⟨answer, subscribing, rest, rfl, hsubscribe, h₁⟩ := follows_bind_iff.mp h
  rcases answer with error | _ | stream
  · obtain ⟨-, ⟨⟩⟩ := follows_done_iff.mp h₁
  · obtain ⟨-, ⟨⟩⟩ := follows_done_iff.mp h₁
  obtain ⟨asking, rfl, hasking⟩ := follows_persist_subscribe hsubscribe
  obtain ⟨answer, looking, resuming, rfl, hlatest, h₂⟩ := follows_bind_iff.mp h₁
  rcases answer with error | _ | latest
  · obtain ⟨-, ⟨⟩⟩ := follows_done_iff.mp h₂
  · obtain ⟨-, ⟨⟩⟩ := follows_done_iff.mp h₂
  obtain ⟨reading, rfl, hreading⟩ := follows_persist_latestNonce hlatest
  refine ⟨stream, latest, asking, reading, resuming, by simp, hasking, hreading, ?_⟩
  -- The first time there is nothing to catch up with, and receiving begins.
  cases lastSeen with
  | none =>
    obtain ⟨now, rest, rfl, h₃⟩ := follows_perform_bind_iff.mp h₂
    obtain ⟨rfl, heq⟩ := follows_done_iff.mp h₃
    refine ⟨fun e he => ?_, Or.inl ⟨rfl, _, Turn.again.inj heq⟩⟩
    obtain rfl := List.mem_singleton.mp he
    exact ⟨.now now, rfl⟩
  -- After that the listener catches up from the nonce behind the last one seen.
  | some seen =>
    obtain ⟨rfl, heq⟩ := follows_done_iff.mp h₂
    exact ⟨by simp, Or.inr ⟨seen, rfl, rfl, Turn.again.inj heq⟩⟩

/-- **What is seen of connecting** is the stream that it opens. Nothing is heard of any stream and
nothing is sent before the next turn. -/
theorem subscriptions_of_connect {lastSeen : Option UInt64} {t : List Exchange} {s : ListenerState}
    (h : Follows (connect setup lastSeen) t (.again s)) :
    ∃ stream, subscriptions t = [stream] ∧ (∀ other, heardOn other t = []) ∧
      (∀ queue, sentTo queue t = []) ∧
      (lastSeen = none → ∃ tick, s.phase = .receiving stream tick) := by
  obtain ⟨stream, latest, asking, reading, resuming, rfl, hasking, hreading, hresuming, hs⟩ :=
    follows_connect h
  replace hasking := Idle.quiet hasking
  replace hreading := Idle.quiet hreading
  replace hresuming := Idle.quiet hresuming
  refine ⟨stream, ?_, fun other => ?_, fun queue => ?_, fun hnone => ?_⟩
  · simp [subscriptions_cons, subscribed?, Quiet.subscriptions_eq_nil hasking,
      Quiet.subscriptions_eq_nil hreading, Quiet.subscriptions_eq_nil hresuming]
  · simp [heardOn_cons, heard?, Quiet.heardOn_eq_nil hasking, Quiet.heardOn_eq_nil hreading,
      Quiet.heardOn_eq_nil hresuming]
  · simp [sentTo_cons, sent?, Quiet.sentTo_eq_nil hasking, Quiet.sentTo_eq_nil hreading,
      Quiet.sentTo_eq_nil hresuming]
  · rcases hs with ⟨-, tick, rfl⟩ | ⟨seen, hseen, -⟩
    · exact ⟨tick, rfl⟩
    · rw [hnone] at hseen
      cases hseen

/-- **Receiving**: a nonce that the stream brings goes into the queue. Otherwise nothing is heard or
sent, and the listener goes on or connects again. A nonce that is heard and cannot be sent ends the
listener, so no turn follows. -/
theorem follows_receiving {stream : StreamId} {tick : Nat} {lastSeen : Option UInt64}
    {t : List Exchange} {s : ListenerState}
    (h : Follows (listen setup queue ⟨.receiving stream tick, lastSeen⟩) t (.again s)) :
    (∃ nonce, t = [⟨.nextSignal stream tick, .nonce nonce⟩, ⟨.send queue nonce, .sent⟩] ∧
      s = ⟨.receiving stream tick, seeing lastSeen nonce⟩) ∨
    ((∀ e ∈ t, Quiet e) ∧
      (s = ⟨.connecting, lastSeen⟩ ∨ ∃ tick', s = ⟨.receiving stream tick', lastSeen⟩)) := by
  obtain ⟨signal, rest, rfl, h₁⟩ := follows_perform_bind_iff.mp h
  cases signal with
  | cancelled => obtain ⟨-, ⟨⟩⟩ := follows_done_iff.mp h₁
  | tick =>
    -- It is time to ask for the source's health, and to connect again if this is bad.
    obtain ⟨now, rest₁, rfl, h₂⟩ := follows_perform_bind_iff.mp h₁
    obtain ⟨health, rest₂, rfl, h₃⟩ := (follows_perform_bind_iff (r := .source .health)).mp h₂
    have hquiet : ∀ e ∈ [(⟨.nextSignal stream tick, .tick⟩ : Exchange), ⟨.now, now⟩,
        ⟨.source .health, health⟩], Quiet e := by
      intro e he
      simp only [List.mem_cons, List.not_mem_nil, or_false] at he
      rcases he with rfl | rfl | rfl
      · exact ⟨rfl, fun _ => rfl, fun _ => rfl⟩
      · exact .now now
      · exact ⟨rfl, fun _ => rfl, fun _ => rfl⟩
    cases health with
    | ok u =>
      obtain ⟨rfl, heq⟩ := follows_done_iff.mp h₃
      exact Or.inr ⟨hquiet, Or.inr ⟨_, Turn.again.inj heq⟩⟩
    | error e =>
      obtain ⟨rfl, heq⟩ := follows_done_iff.mp h₃
      exact Or.inr ⟨hquiet, Or.inl (Turn.again.inj heq)⟩
  | nonce nonce =>
    -- A nonce that cannot be sent ends the listener.
    obtain ⟨sending, rest₁, rfl, h₂⟩ := follows_perform_bind_iff.mp h₁
    cases sending with
    | sent =>
      obtain ⟨rfl, heq⟩ := follows_done_iff.mp h₂
      exact Or.inl ⟨nonce, rfl, Turn.again.inj heq⟩
    | closed => obtain ⟨-, ⟨⟩⟩ := follows_done_iff.mp h₂
    | cancelled => obtain ⟨-, ⟨⟩⟩ := follows_done_iff.mp h₂
  -- A stream that fails or ends is opened anew, and nothing was brought.
  | failed error =>
    obtain ⟨rfl, heq⟩ := follows_done_iff.mp h₁
    refine Or.inr ⟨fun e he => ?_, Or.inl (Turn.again.inj heq)⟩
    obtain rfl := List.mem_singleton.mp he
    exact ⟨rfl, fun _ => rfl, fun _ => rfl⟩
  | ended =>
    obtain ⟨rfl, heq⟩ := follows_done_iff.mp h₁
    refine Or.inr ⟨fun e he => ?_, Or.inl (Turn.again.inj heq)⟩
    obtain rfl := List.mem_singleton.mp he
    exact ⟨rfl, fun _ => rfl, fun _ => rfl⟩

/-! ### The first stream -/

/-- **What a listener did so far**: nothing; or it opened one stream and sent what this brought; or
it opened several. Of the last case nothing is needed, since the results are about the time before
the second stream. -/
inductive Listened (queue : QueueId) : List Exchange → ListenerState → Prop where
  | nothing : Listened queue [] .start
  | once {t : List Exchange} {s : ListenerState} (stream : StreamId)
      (opened : subscriptions t = [stream]) (sent : sentTo queue t = heardOn stream t)
      (phase : s.phase = .connecting ∨ ∃ tick, s.phase = .receiving stream tick) :
      Listened queue t s
  | again {t : List Exchange} {s : ListenerState} (opened : 2 ≤ (subscriptions t).length) :
      Listened queue t s

/-- **One more turn** keeps to these three: connecting leads from the first to the second and from
there to the third, receiving stays in the second. -/
theorem Listened.turn {t t' : List Exchange} {s s' : ListenerState} (h : Listened queue t s)
    (hturn : Follows (listen setup queue s) t' (.again s')) : Listened queue (t ++ t') s' := by
  cases h with
  | nothing =>
    -- The first turn connects, and what it opens brings nothing yet.
    have hconnect : Follows (connect setup none) t' (.again s') := hturn
    obtain ⟨stream, hopened, hheard, hsent, hphase⟩ := subscriptions_of_connect hconnect
    rw [List.nil_append]
    exact .once stream hopened ((hsent queue).trans (hheard stream).symm) (Or.inr (hphase rfl))
  | once stream opened sent phase =>
    obtain ⟨current, lastSeen⟩ := s
    rcases phase with hphase | ⟨tick, hphase⟩
    · -- Connecting again opens a second stream.
      obtain rfl : current = .connecting := hphase
      obtain ⟨second, hsecond, -⟩ := subscriptions_of_connect hturn
      refine .again ?_
      rw [subscriptions_append, opened, hsecond]
      exact Nat.le_refl 2
    · obtain rfl : current = .receiving stream tick := hphase
      rcases follows_receiving hturn with ⟨nonce, rfl, rfl⟩ | ⟨hquiet, hs⟩
      · -- The stream brought a nonce, and this was sent.
        refine .once stream ?_ ?_ (Or.inr ⟨tick, rfl⟩)
        · rw [subscriptions_append, opened]
          rfl
        · rw [sentTo_append, heardOn_append, sent, sentTo_cons, sentTo_cons, heardOn_cons,
            heardOn_cons]
          simp [sent?, heard?, sentTo, heardOn]
      · -- Nothing that matters here happened.
        refine .once stream ?_ ?_ ?_
        · rw [subscriptions_append, Quiet.subscriptions_eq_nil hquiet, List.append_nil, opened]
        · rw [sentTo_append, heardOn_append, Quiet.sentTo_eq_nil hquiet,
            Quiet.heardOn_eq_nil hquiet, sent]
        · rcases hs with rfl | ⟨tick', rfl⟩
          · exact Or.inl rfl
          · exact Or.inr ⟨tick', rfl⟩
  | again opened =>
    -- Streams do not become fewer.
    refine .again ?_
    rw [subscriptions_append, List.length_append]
    omega

/-- Any number of turns, from the start, by induction on them. -/
theorem listened_of_loops {t : List Exchange} {s : ListenerState}
    (h : Loops (listen setup queue) .start t s) : Listened queue t s := by
  induction h with
  | start => exact .nothing
  | turn _ hturn ih => exact ih.turn hturn

/-- The nonce that is just about to be sent, if there is one. A listener that waits here has heard
one nonce more than it has sent. -/
def inHand (queue : QueueId) : Request → List UInt64
  | .send q nonce => if q = queue then [nonce] else []
  | _ => []

/-- **Within a turn of receiving**, a nonce that the stream brought is about to be sent. -/
theorem heardOn_of_asks_receiving {stream : StreamId} {tick : Nat} {lastSeen : Option UInt64}
    {t : List Exchange} {r : Request}
    (h : Asks (listen setup queue ⟨.receiving stream tick, lastSeen⟩) t r) :
    subscriptions t = [] ∧ heardOn stream t = sentTo queue t ++ inHand queue r := by
  rcases asks_perform_bind_iff.mp h with ⟨rfl, rfl⟩ | ⟨signal, rest, rfl, h₁⟩
  · exact ⟨rfl, rfl⟩
  cases signal with
  | cancelled => exact absurd h₁ not_asks_done
  | tick =>
    rcases asks_perform_bind_iff.mp h₁ with ⟨rfl, rfl⟩ | ⟨now, rest₁, rfl, h₂⟩
    · exact ⟨rfl, rfl⟩
    rcases (asks_perform_bind_iff (r := .source .health)).mp h₂ with
      ⟨rfl, rfl⟩ | ⟨health, rest₂, rfl, h₃⟩
    · exact ⟨rfl, rfl⟩
    · cases health <;> exact absurd h₃ not_asks_done
  | nonce nonce =>
    -- The only place in a turn where something was brought that is not sent yet.
    rcases asks_perform_bind_iff.mp h₁ with ⟨rfl, rfl⟩ | ⟨sending, rest₁, rfl, h₂⟩
    · simp [subscriptions, heardOn, sentTo, subscribed?, heard?, sent?, inHand]
    · cases sending <;> exact absurd h₂ not_asks_done
  | failed error => exact absurd h₁ not_asks_done
  | ended => exact absurd h₁ not_asks_done

/-- **While it receives on its only stream**, the listener has sent what the stream brought, apart
from the nonce that is just about to be sent. So the queue holds the stream's nonces in their
order. -/
theorem heardOn_of_waits {t : List Exchange} {stream : StreamId} {tick : Nat}
    {lastSeen : Option UInt64} {r : Request}
    (h : Waits (listen setup queue) .start t ⟨.receiving stream tick, lastSeen⟩ r)
    (only : subscriptions t = [stream]) : heardOn stream t = sentTo queue t ++ inHand queue r := by
  obtain ⟨whole, begun, rfl, hloops, hasks⟩ := h
  -- The turn that has begun opens nothing, so it is the whole turns that opened the stream.
  obtain ⟨hbegun, hheard⟩ := heardOn_of_asks_receiving hasks
  rw [subscriptions_append, hbegun, List.append_nil] at only
  cases listened_of_loops hloops with
  | once other opened sent _ =>
    obtain rfl : stream = other := by
      rw [only] at opened
      exact (List.cons.inj opened).1
    rw [heardOn_append, sentTo_append, hheard, sent, List.append_assoc]
  | again opened =>
    rw [only] at opened
    exact absurd opened (Nat.not_succ_le_self 1)

end Orchestrator

end Countersign
