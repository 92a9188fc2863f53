import Countersign.Proofs.Orchestrator.Handover

/-!
# Reconnecting

A listener may lose its stream at any time: the stream ends or fails, or the source shows no sign of
life. It then opens another one, reads the latest nonce, and sends everything behind the greatest
nonce that it had seen. This module says that nothing is lost on the way
(`Orchestrator.reconnecting_loses_nothing`): whenever the listener receives, every nonce above the
latest one that it read first was sent, is just being sent, or will be brought by its stream.

The invariant has two halves, which meet at the greatest nonce that was seen:

* everything up to it was sent (`Orchestrator.SentUpTo`), apart from what the first reading already
  covered;
* everything above it is still to be brought by the stream (`Orchestrator.BringsAbove`).

While the listener catches up, the two halves are apart, and the gap is what it is just sending
(`Orchestrator.CatchesUp`). What is buffered in a stream that is dropped lies above the greatest
nonce that was seen, and so belongs to the next gap.
-/

namespace Countersign

open Routine

namespace Orchestrator

variable {setup : OrchestratorSetup} {queue : QueueId}

/-! ### What one turn does -/

/-- **Catching up**: the next nonce goes into the queue, or there is none left and receiving begins.
A turn that ends the listener is no such turn, so the queue has taken what was sent. -/
theorem follows_catchingUp {stream : StreamId} {next latest : UInt64} {left : Nat}
    {lastSeen : Option UInt64} {t : List Exchange} {s : ListenerState}
    (h : Follows (listen setup queue ⟨.catchingUp stream next left latest, lastSeen⟩) t
      (.again s)) :
    (∃ rest, left = rest + 1 ∧ t = [⟨.send queue next, .sent⟩] ∧
      s = ⟨.catchingUp stream (next + 1) rest latest, lastSeen⟩) ∨
    (left = 0 ∧ (∀ e ∈ t, Quiet e) ∧
      ∃ tick, s = ⟨.receiving stream tick, seeing lastSeen latest⟩) := by
  cases left with
  -- The gap is closed: a timer is set, and the listener receives.
  | zero =>
    obtain ⟨now, rest, rfl, h₁⟩ := follows_perform_bind_iff.mp h
    obtain ⟨rfl, heq⟩ := follows_done_iff.mp h₁
    refine Or.inr ⟨rfl, fun e he => ?_, _, Turn.again.inj heq⟩
    obtain rfl := List.mem_singleton.mp he
    exact .now now
  | succ rest =>
    obtain ⟨sending, rest₁, rfl, h₁⟩ := follows_perform_bind_iff.mp h
    cases sending with
    | sent =>
      obtain ⟨rfl, heq⟩ := follows_done_iff.mp h₁
      exact Or.inl ⟨rest, rfl, rfl, Turn.again.inj heq⟩
    -- A queue that is closed and a cancellation both end the listener.
    | closed => obtain ⟨-, ⟨⟩⟩ := follows_done_iff.mp h₁
    | cancelled => obtain ⟨-, ⟨⟩⟩ := follows_done_iff.mp h₁

/-- The greater one of two nonces is one of them. Which one it is does not matter for the invariant,
as both have everything below them sent. -/
theorem seeing_some (seen nonce : UInt64) :
    ∃ greater, seeing (some seen) nonce = some greater ∧ seen ≤ greater ∧ nonce ≤ greater ∧
      (greater = seen ∨ greater = nonce) := by
  by_cases hle : seen ≤ nonce
  · refine ⟨nonce, ?_, hle, UInt64.le_refl nonce, Or.inr rfl⟩
    rw [seeing, if_pos hle]
  · refine ⟨seen, ?_, UInt64.le_refl seen, UInt64.le_of_lt (UInt64.not_le.mp hle), Or.inl rfl⟩
    rw [seeing, if_neg hle]

/-- What was seen is not forgotten: what is seen afterwards is no less. As long as nothing was seen
there is nothing to forget. -/
def NoLess (before after : Option UInt64) : Prop :=
  ∀ seen, before = some seen → ∃ later, after = some later ∧ seen ≤ later

namespace NoLess

theorem refl (lastSeen : Option UInt64) : NoLess lastSeen lastSeen := by
  intro seen hseen
  exact ⟨seen, hseen, UInt64.le_refl seen⟩

theorem trans {before between after : Option UInt64} (h : NoLess before between)
    (h' : NoLess between after) : NoLess before after := by
  intro seen hseen
  obtain ⟨later, hlater, hle⟩ := h seen hseen
  obtain ⟨last, hlast, hle'⟩ := h' later hlater
  exact ⟨last, hlast, UInt64.le_trans hle hle'⟩

/-- To see another nonce is not to forget the ones before. -/
theorem seeing (lastSeen : Option UInt64) (nonce : UInt64) :
    NoLess lastSeen (seeing lastSeen nonce) := by
  rintro seen rfl
  obtain ⟨greater, heq, hle, -⟩ := seeing_some seen nonce
  exact ⟨greater, heq, hle⟩

end NoLess

/-- **One turn** does not forget what was seen, whether it connects, catches up or receives. -/
theorem noLess_of_turn {t : List Exchange} {s s' : ListenerState}
    (h : Follows (listen setup queue s) t (.again s')) : NoLess s.lastSeen s'.lastSeen := by
  obtain ⟨phase, lastSeen⟩ := s
  cases phase with
  | connecting =>
    obtain ⟨stream, latest, _, _, _, -, -, -, -, ⟨hnone, -⟩ | ⟨seen, -, -, rfl⟩⟩ :=
      follows_connect h
    · -- The first time nothing was seen yet.
      intro seen hseen
      rw [hnone] at hseen
      cases hseen
    · exact .refl lastSeen
  | catchingUp stream next left latest =>
    rcases follows_catchingUp h with ⟨_, -, -, rfl⟩ | ⟨-, -, _, rfl⟩
    · exact .refl lastSeen
    · exact .seeing lastSeen latest
  | receiving stream tick =>
    rcases follows_receiving h with ⟨nonce, -, rfl⟩ | ⟨-, rfl | ⟨_, rfl⟩⟩
    · exact .seeing lastSeen nonce
    · exact .refl lastSeen
    · exact .refl lastSeen

/-- Any number of turns does not forget it either. -/
theorem noLess_of_loops {t : List Exchange} {s s' : ListenerState}
    (h : Loops (listen setup queue) s t s') : NoLess s.lastSeen s'.lastSeen := by
  induction h with
  | start => exact .refl s.lastSeen
  | turn _ hturn ih => exact ih.trans (noLess_of_turn hturn)

/-! ### What was sent, and what is still to come -/

variable {history events : List FeedEvent} {feed feed' : Feed} {t : List Exchange}
  {first seen : UInt64} {stream : StreamId}

/-- **Everything up to a nonce was sent**, as far as it lies above the latest nonce that was read
first. What lies below that is left to the backfill. -/
structure SentUpTo (queue : QueueId) (feed : Feed) (t : List Exchange) (first seen : UInt64) :
    Prop where
  read : firstLatest? t = some first
  seen_le : seen ≤ feed.latest
  sent : ∀ nonce ∈ feed.made, first < nonce → nonce ≤ seen → nonce ∈ sentTo queue t

namespace SentUpTo

/-- Nothing below what was seen is made any more, so it stays true that all of it was sent. -/
theorem later (h : SentUpTo queue feed t first seen) (increasing : feed.made.Pairwise (· < ·))
    (hrun : feed.run events = some feed') (t' : List Exchange) :
    SentUpTo queue feed' (t ++ t') first seen := by
  refine ⟨?_, UInt64.le_trans h.seen_le (Feed.latest_le_of_run hrun increasing), ?_⟩
  · rw [firstLatest?_append, h.read, Option.some_or]
  · intro nonce hmade hfirst hseen
    rw [sentTo_append]
    rw [Feed.made_of_run hrun] at hmade
    rcases List.mem_append.mp hmade with hbefore | hnew
    · exact List.mem_append_left _ (h.sent nonce hbefore hfirst hseen)
    · -- What is new lies above the latest nonce, and this is not below what was seen.
      have habove := Feed.latest_lt_of_created hrun increasing hnew hfirst
      have hbelow := UInt64.le_trans hseen h.seen_le
      exact absurd hbelow (UInt64.not_le.mpr habove)

/-- If everything up to each of two nonces was sent, so was everything up to the greater one. -/
theorem seeing {nonce greater : UInt64} (h : SentUpTo queue feed t first seen)
    (h' : SentUpTo queue feed t first nonce) (hgreater : greater = seen ∨ greater = nonce) :
    SentUpTo queue feed t first greater := by
  rcases hgreater with rfl | rfl
  · exact h
  · exact h'

end SentUpTo

/-- A stream that has everything above a nonce to bring. What is below may be among it, too. -/
def BringsAbove (feed : Feed) (stream : StreamId) (seen : UInt64) : Prop :=
  ∃ left, feed.pending stream = some left ∧ ∀ nonce ∈ feed.made, seen < nonce → nonce ∈ left

namespace BringsAbove

/-- **What an open stream brings while something happens**, and what it has to bring afterwards,
contains everything above the nonce, in increasing order. -/
theorem run (h : BringsAbove feed stream seen) (hfeed : Feed.empty.run history = some feed)
    (hrun : feed.run events = some feed') :
    ∃ left, feed'.pending stream = some left ∧
      (heardOn stream (exchangesOf .listener events) ++ left).Pairwise (· < ·) ∧
      (∀ nonce ∈ heardOn stream (exchangesOf .listener events) ++ left, nonce ∈ feed'.made) ∧
      ∀ nonce ∈ feed'.made, seen < nonce →
        nonce ∈ heardOn stream (exchangesOf .listener events) ++ left := by
  obtain ⟨pending, hopen, hbrings⟩ := h
  obtain ⟨left, hleft, heq⟩ := Feed.pending_of_run hrun hopen
  have hmade := Feed.made_of_run hrun
  -- What it has to bring was made in this order, and so was what came in addition.
  have hsub : (pending ++ created events).Sublist feed'.made := by
    rw [hmade]
    exact (Feed.pending_sublist_made hfeed hopen).append (List.Sublist.refl _)
  have hincreasing := Feed.pairwise_made hrun (Feed.increasing hfeed)
  rw [heq] at hsub
  refine ⟨left, hleft, hincreasing.sublist hsub, fun nonce hmem => hsub.subset hmem, ?_⟩
  intro nonce hnonce hseen
  rw [← heq]
  rw [hmade] at hnonce
  rcases List.mem_append.mp hnonce with hbefore | hnew
  · exact List.mem_append_left _ (hbrings nonce hbefore hseen)
  · exact List.mem_append_right _ hnew

/-- A stream that brings nothing while something happens still has everything above the nonce to
bring. -/
theorem later (h : BringsAbove feed stream seen) (hfeed : Feed.empty.run history = some feed)
    (hrun : feed.run events = some feed')
    (hquiet : heardOn stream (exchangesOf .listener events) = []) :
    BringsAbove feed' stream seen := by
  obtain ⟨left, hleft, -, -, hbrings⟩ := h.run hfeed hrun
  rw [hquiet, List.nil_append] at hbrings
  exact ⟨left, hleft, hbrings⟩

theorem mono {greater : UInt64} (h : BringsAbove feed stream seen) (hle : seen ≤ greater) :
    BringsAbove feed stream greater := by
  obtain ⟨left, hleft, hbrings⟩ := h
  exact ⟨left, hleft, fun nonce hmade hlt =>
    hbrings nonce hmade (UInt64.lt_of_le_of_lt hle hlt)⟩

end BringsAbove

/-- **A listener that catches up**: it goes through everything up to the latest nonce that it read,
and the stream has the rest. `place` says that `left` nonces, from `next` on, remain of the gap. -/
structure CatchesUp (queue : QueueId) (feed : Feed) (t : List Exchange) (first : UInt64)
    (stream : StreamId) (next : UInt64) (left : Nat) (latest : UInt64) : Prop where
  latest_le : latest ≤ feed.latest
  place : left = 0 ∨ next.toNat + left = latest.toNat + 1
  sent : ∀ nonce ∈ feed.made, first < nonce → nonce.toNat + left ≤ latest.toNat →
    nonce ∈ sentTo queue t
  brings : BringsAbove feed stream latest

/-! ### Connecting -/

/-- **A stream that is just opened** brings everything above the latest nonce that is read behind
it. The order of the two matters: a nonce that is made between them is below the one that is read,
and in the stream, too. -/
theorem bringsAbove_of_connect {lastSeen : Option UInt64} {s : ListenerState}
    (hfeed : Feed.empty.run history = some feed) (hrun : feed.run events = some feed')
    (h : Follows (connect setup lastSeen) (exchangesOf .listener events) (.again s)) :
    ∃ stream latest, firstLatest? (exchangesOf .listener events) = some latest ∧
      latest ≤ feed'.latest ∧ BringsAbove feed' stream latest ∧
      ((lastSeen = none ∧ ∃ tick, s = ⟨.receiving stream tick, some latest⟩) ∨
        ∃ seen, lastSeen = some seen ∧
          s = ⟨.catchingUp stream (saturatingAdd seen 1)
            (rangeSize (saturatingAdd seen 1) latest) latest, lastSeen⟩) := by
  obtain ⟨stream, latest, asking, reading, resuming, hcourse, hasking, hreading, hresuming, hs⟩ :=
    follows_connect h
  -- The events are cut where the stream is opened, and again where the latest nonce is read.
  obtain ⟨asked, rest, rfl, -, hrest⟩ := exchangesOf_eq_append_cons hcourse
  obtain ⟨looked, resumed, rfl, -, hresumed⟩ := exchangesOf_eq_append_cons hrest
  obtain ⟨before, hbefore, hrun₁⟩ := Feed.run_append_eq_some.mp hrun
  obtain ⟨opened, hopened, hrun₂⟩ := Feed.run_cons_eq_some.mp hrun₁
  obtain ⟨reached, hlooked, hrun₃⟩ := Feed.run_append_eq_some.mp hrun₂
  obtain ⟨read, hread, hrun₄⟩ := Feed.run_cons_eq_some.mp hrun₃
  obtain ⟨-, rfl⟩ := Feed.step_subscribe hopened
  obtain ⟨hlatest, rfl⟩ := Feed.step_latestNonce hread
  -- The source as it was when the latest nonce was read is one of such a history.
  have hreached : Feed.empty.run (history ++ (asked ++
      .exchange .listener ⟨.source .subscribe, .ok stream⟩ :: looked)) = some read := by
    refine Feed.run_append_eq_some.mpr ⟨feed, hfeed, ?_⟩
    refine Feed.run_append_eq_some.mpr ⟨before, hbefore, ?_⟩
    exact Feed.run_cons_eq_some.mpr ⟨_, hopened, hlooked⟩
  have hincreasing := Feed.increasing hreached
  -- When the latest nonce is read, nothing is above it, and the stream is open.
  have hthen : BringsAbove read stream latest := by
    obtain ⟨left, hleft, -⟩ :=
      Feed.pending_of_run hlooked (Feed.pending_setPending_self before stream [])
    refine ⟨left, hleft, fun nonce hmade habove => ?_⟩
    have hle := Feed.le_latest hincreasing hmade
    rw [← hlatest] at hle
    exact absurd hle (UInt64.not_le.mpr habove)
  refine ⟨stream, latest, ?_, ?_, ?_, ?_⟩
  · rw [hcourse, firstLatest?_append, Idle.firstLatest?_eq_none hasking, Option.none_or,
      ← List.singleton_append, firstLatest?_append, firstLatest?_append,
      Idle.firstLatest?_eq_none hreading]
    rfl
  · rw [hlatest]
    exact Feed.latest_le_of_run hrun₄ hincreasing
  · refine hthen.later hreached hrun₄ ?_
    rw [hresumed]
    exact Quiet.heardOn_eq_nil (Idle.quiet hresuming) stream
  · rcases hs with hs | ⟨seen, hseen, -, hs⟩
    · exact Or.inl hs
    · exact Or.inr ⟨seen, hseen, hs⟩

/-! ### Catching up and receiving -/

/-- **The gap when catching up begins**: from behind the greatest nonce that was seen up to the
latest one. -/
theorem catchesUp_start {latest : UInt64} (hsent : SentUpTo queue feed t first seen)
    (hlatest : latest ≤ feed.latest) (hbrings : BringsAbove feed stream latest) :
    CatchesUp queue feed t first stream (saturatingAdd seen 1)
      (rangeSize (saturatingAdd seen 1) latest) latest := by
  have hnext : (saturatingAdd seen 1).toNat = min (seen.toNat + 1) (UInt64.size - 1) :=
    toNat_saturatingAdd seen 1
  have hbound := seen.toNat_lt
  have hsize : UInt64.size = 2 ^ 64 := rfl
  have hbound' := latest.toNat_lt
  refine ⟨hlatest, ?_, fun nonce hmade hfirst hleft => ?_, hbrings⟩
  · unfold rangeSize
    omega
  · -- A nonce outside of the gap was seen, so it was sent.
    refine hsent.sent nonce hmade hfirst ?_
    rw [UInt64.le_iff_toNat_le]
    unfold rangeSize at hleft
    omega

/-- **One nonce of the gap is sent**, and the gap is one nonce smaller. Nonces that are made
meanwhile are above it. -/
theorem CatchesUp.send {next latest : UInt64} {left : Nat}
    (h : CatchesUp queue feed t first stream next (left + 1) latest)
    (hfeed : Feed.empty.run history = some feed) (hrun : feed.run events = some feed')
    (hevents : exchangesOf .listener events = [⟨.send queue next, .sent⟩]) :
    CatchesUp queue feed' (t ++ exchangesOf .listener events) first stream (next + 1) left
      latest := by
  -- The nonce that is sent is the one from which the rest of the gap is counted.
  have hplace : next.toNat + left = latest.toNat := by
    have := h.place
    omega
  have hincreasing := Feed.increasing hfeed
  refine ⟨?_, ?_, fun nonce hmade hfirst hleft => ?_, ?_⟩
  · exact UInt64.le_trans h.latest_le (Feed.latest_le_of_run hrun hincreasing)
  · -- The next nonce does not wrap around while there is one left.
    by_cases hleft : left = 0
    · exact Or.inl hleft
    · right
      have hbound := latest.toNat_lt
      have hnext : (next + 1).toNat = next.toNat + 1 := by
        rw [UInt64.toNat_add]
        exact Nat.mod_eq_of_lt (by change next.toNat + 1 < 2 ^ 64; omega)
      omega
  · rw [hevents, sentTo_append]
    by_cases hnext : nonce = next
    · subst hnext
      simp [sentTo, sent?]
    · -- It lies below the nonce that was sent, so it was sent before.
      have hne : nonce.toNat ≠ next.toNat := fun heq => hnext (UInt64.toNat_inj.mp heq)
      have hbelow : nonce ≤ latest := by
        rw [UInt64.le_iff_toNat_le]
        omega
      rw [Feed.made_of_run hrun] at hmade
      rcases List.mem_append.mp hmade with hbefore | hnew
      · exact List.mem_append_left _ (h.sent nonce hbefore hfirst (by omega))
      · have habove := Feed.latest_lt_of_created hrun hincreasing hnew hfirst
        exact absurd (UInt64.le_trans hbelow h.latest_le) (UInt64.not_le.mpr habove)
  · refine h.brings.later hfeed hrun ?_
    rw [hevents]
    rfl

/-- The gap is closed: everything up to the latest nonce was sent. -/
theorem CatchesUp.sentUpTo {next latest : UInt64}
    (h : CatchesUp queue feed t first stream next 0 latest) (hread : firstLatest? t = some first) :
    SentUpTo queue feed t first latest :=
  ⟨hread, h.latest_le, fun nonce hmade hfirst hle =>
    h.sent nonce hmade hfirst (UInt64.le_iff_toNat_le.mp hle)⟩

/-- **A nonce that the stream brought is sent**: it is the least one above what was seen, if it is
above it at all. So both halves of the invariant move on to it. -/
theorem BringsAbove.receive {tick : Nat} {nonce : UInt64} (h : BringsAbove feed stream seen)
    (hsent : SentUpTo queue feed t first seen) (hfeed : Feed.empty.run history = some feed)
    (hrun : feed.run events = some feed')
    (hevents : exchangesOf .listener events =
      [⟨.nextSignal stream tick, .nonce nonce⟩, ⟨.send queue nonce, .sent⟩]) :
    SentUpTo queue feed' (t ++ exchangesOf .listener events) first nonce ∧
      ∀ greater, seen ≤ greater → nonce ≤ greater → BringsAbove feed' stream greater := by
  have hlater := hsent.later (Feed.increasing hfeed) hrun
    (exchangesOf .listener events)
  obtain ⟨left, hleft, hincreasing, hmade, hbrings⟩ := h.run hfeed hrun
  have hheard : heardOn stream (exchangesOf .listener events) = [nonce] := by
    rw [hevents]
    simp [heardOn, heard?]
  rw [hheard, List.singleton_append] at hincreasing hmade hbrings
  -- The stream brings in increasing order, so the nonce is the least that it had to bring.
  have hmin := (List.pairwise_cons.mp hincreasing).1
  refine ⟨⟨hlater.read, ?_, fun other hother hfirst hle => ?_⟩, fun greater hseen hnonce => ?_⟩
  · have hincreasing' := Feed.pairwise_made hrun (Feed.increasing hfeed)
    exact Feed.le_latest hincreasing' (hmade nonce List.mem_cons_self)
  · by_cases hseen : other ≤ seen
    · exact hlater.sent other hother hfirst hseen
    · -- The stream had it to bring, and nothing that comes behind is below the nonce.
      rcases List.mem_cons.mp (hbrings other hother (UInt64.not_le.mp hseen)) with rfl | hbehind
      · rw [hevents, sentTo_append]
        simp [sentTo, sent?]
      · exact absurd hle (UInt64.not_le.mpr (hmin other hbehind))
  · refine ⟨left, hleft, fun other hother habove => ?_⟩
    have hseen' := UInt64.lt_of_le_of_lt hseen habove
    rcases List.mem_cons.mp (hbrings other hother hseen') with rfl | hbehind
    · exact absurd hnonce (UInt64.not_le.mpr habove)
    · exact hbehind

/-! ### Nothing is lost -/

/-- **A listener that loses nothing**, by what it is about to do. Before it has read anything there
is no nonce that it could lose. -/
inductive LosesNothing (queue : QueueId) (feed : Feed) (t : List Exchange) :
    ListenerState → Prop where
  /-- It has not connected yet. -/
  | unconnected (unread : firstLatest? t = none) :
      LosesNothing queue feed t ⟨.connecting, none⟩
  | connecting {first seen : UInt64} (sent : SentUpTo queue feed t first seen) :
      LosesNothing queue feed t ⟨.connecting, some seen⟩
  | catchingUp {first seen next latest : UInt64} {stream : StreamId} {left : Nat}
      (sent : SentUpTo queue feed t first seen)
      (catches : CatchesUp queue feed t first stream next left latest) :
      LosesNothing queue feed t ⟨.catchingUp stream next left latest, some seen⟩
  | receiving {first seen : UInt64} {stream : StreamId} {tick : Nat}
      (sent : SentUpTo queue feed t first seen) (brings : BringsAbove feed stream seen) :
      LosesNothing queue feed t ⟨.receiving stream tick, some seen⟩

/-- **One turn loses nothing**, whatever is made meanwhile. Each case is one of the lemmas above,
taken from the state in which the turn begins. -/
theorem LosesNothing.turn {s s' : ListenerState} (h : LosesNothing queue feed t s)
    (hfeed : Feed.empty.run history = some feed) (hrun : feed.run events = some feed')
    (hturn : Follows (listen setup queue s) (exchangesOf .listener events) (.again s')) :
    LosesNothing queue feed' (t ++ exchangesOf .listener events) s' := by
  have hincreasing := Feed.increasing hfeed
  cases h with
  -- The first connection: the latest nonce that it reads is the first one, and counts as seen.
  | unconnected unread =>
    have hconnect : Follows (connect setup none) (exchangesOf .listener events) (.again s') := hturn
    obtain ⟨stream, latest, hread, hlatest, hbrings, ⟨-, tick, rfl⟩ | ⟨_, hseen, -⟩⟩ :=
      bringsAbove_of_connect hfeed hrun hconnect
    · have hsent : SentUpTo queue feed' (t ++ exchangesOf .listener events) latest latest := by
        refine ⟨?_, hlatest, fun nonce _ hfirst hle => ?_⟩
        · rw [firstLatest?_append, unread, Option.none_or, hread]
        · -- There is nothing between the latest nonce and itself.
          exact absurd hle (UInt64.not_le.mpr hfirst)
      exact .receiving hsent hbrings
    · cases hseen
  -- A later connection: the gap begins where the listener has stopped.
  | @connecting first seen sent =>
    have hconnect : Follows (connect setup (some seen)) (exchangesOf .listener events)
        (.again s') := hturn
    have hsent := sent.later hincreasing hrun (exchangesOf .listener events)
    obtain ⟨stream, latest, -, hlatest, hbrings, ⟨hnone, -⟩ | ⟨seen, hseen, rfl⟩⟩ :=
      bringsAbove_of_connect hfeed hrun hconnect
    · cases hnone
    · obtain rfl := Option.some.inj hseen
      exact .catchingUp hsent (catchesUp_start hsent hlatest hbrings)
  -- Catching up: one more nonce of the gap is sent, or there is none left.
  | catchingUp sent catches =>
    have hsent := sent.later hincreasing hrun (exchangesOf .listener events)
    rcases follows_catchingUp hturn with ⟨rest, rfl, hcourse, rfl⟩ | ⟨rfl, hquiet, tick, rfl⟩
    · exact .catchingUp hsent (catches.send hfeed hrun hcourse)
    · -- The gap is closed, and the greater one of its ends counts as seen.
      obtain ⟨greater, heq, -, hle, hone⟩ := seeing_some _ _
      rw [heq]
      have hclosed := (catches.sentUpTo sent.read).later hincreasing hrun
        (exchangesOf .listener events)
      have hlater := catches.brings.later hfeed hrun (Quiet.heardOn_eq_nil hquiet _)
      exact .receiving (hsent.seeing hclosed hone) (hlater.mono hle)
  -- Receiving: the stream brings a nonce, or nothing new is known of it.
  | receiving sent brings =>
    have hsent := sent.later hincreasing hrun (exchangesOf .listener events)
    rcases follows_receiving hturn with ⟨nonce, hcourse, rfl⟩ | ⟨hquiet, rfl | ⟨tick, rfl⟩⟩
    · obtain ⟨greater, heq, hseen, hle, hone⟩ := seeing_some _ nonce
      rw [heq]
      obtain ⟨hreceived, hlater⟩ := brings.receive sent hfeed hrun hcourse
      exact .receiving (hsent.seeing hreceived hone) (hlater greater hseen hle)
    · exact .connecting hsent
    · exact .receiving hsent (brings.later hfeed hrun (Quiet.heardOn_eq_nil hquiet _))

/-- Any number of turns loses nothing. The induction is on the turns; each of them has its own part
of the history. -/
theorem losesNothing_of_loops {s : ListenerState} (hfeed : Feed.empty.run history = some feed)
    (h : Loops (listen setup queue) .start (exchangesOf .listener history) s) :
    LosesNothing queue feed (exchangesOf .listener history) s := by
  generalize hcourse : exchangesOf .listener history = course at h
  induction h generalizing history feed with
  | start => exact .unconnected rfl
  | turn _ hturn ih =>
    obtain ⟨before, events, rfl, hbefore, rfl⟩ := exchangesOf_eq_append hcourse
    obtain ⟨middle, hmiddle, hrun⟩ := Feed.run_append_eq_some.mp hfeed
    exact (ih hmiddle hbefore).turn hmiddle hrun hturn

/-- What a listener has in hand is what it is asking the queue to take. -/
theorem mem_inHand {nonce : UInt64} {r : Request} :
    nonce ∈ inHand queue r ↔ r = .send queue nonce := by
  unfold inHand
  split
  · next q other =>
    split
    · next hq => simp [hq, eq_comm]
    · next hq => simp [hq]
  · next hr =>
    constructor
    · rintro ⟨⟩
    · intro heq
      exact absurd heq (hr queue nonce)

/-- **Reconnecting loses nothing.** Whenever a listener receives, on its first stream or on any
later one, every nonce that was made above the latest one which it read first was put into the
queue, is just being put there, or is still to be brought by the stream. And what it saw never
decreases. -/
theorem reconnecting_loses_nothing {tick : Nat} {lastSeen : Option UInt64} {awaited : Request}
    (h : Feed.empty.run history = some feed)
    (receiving : Waits (listen setup queue) .start (exchangesOf .listener history)
      ⟨.receiving stream tick, lastSeen⟩ awaited) :
    (∃ first, firstLatest? (exchangesOf .listener history) = some first ∧
      ∀ nonce ∈ created history, first < nonce →
        nonce ∈ sentTo queue (exchangesOf .listener history) ∨ awaited = .send queue nonce ∨
          ∃ left, feed.pending stream = some left ∧ nonce ∈ left) ∧
    ∀ s course s', Loops (listen setup queue) s course s' → NoLess s.lastSeen s'.lastSeen := by
  refine ⟨?_, fun s course s' hloops => noLess_of_loops hloops⟩
  obtain ⟨whole, begun, hcourse, hloops, hasks⟩ := receiving
  -- The turn that has begun has its own part of the history.
  obtain ⟨before, events, rfl, rfl, rfl⟩ := exchangesOf_eq_append hcourse
  obtain ⟨middle, hmiddle, hrun⟩ := Feed.run_append_eq_some.mp h
  cases losesNothing_of_loops hmiddle hloops with
  | @receiving first seen _ _ sent brings =>
    obtain ⟨left, hleft, -, -, hbrings⟩ := brings.run hmiddle hrun
    have hlater := sent.later (Feed.increasing hmiddle) hrun (exchangesOf .listener events)
    rw [(heardOn_of_asks_receiving hasks).2] at hbrings
    rw [exchangesOf_append]
    refine ⟨first, hlater.read, fun nonce hmade hfirst => ?_⟩
    rw [← Feed.made_eq_created h] at hmade
    -- It was sent by the whole turns, or the stream had it to bring when the last turn began.
    by_cases hseen : nonce ≤ seen
    · exact Or.inl (hlater.sent nonce hmade hfirst hseen)
    · rcases List.mem_append.mp (hbrings nonce hmade (UInt64.not_le.mp hseen)) with
        hbrought | hpending
      · rcases List.mem_append.mp hbrought with hsent | hhand
        · rw [sentTo_append]
          exact Or.inl (List.mem_append_right _ hsent)
        · exact Or.inr (Or.inl (mem_inHand.mp hhand))
      · exact Or.inr (Or.inr ⟨left, hleft, hpending⟩)

/-! ### A listener whose stream ended -/

/-- What a listener exchanges to connect, if the source answers at once. -/
def openingCourse (stream : StreamId) : List Exchange :=
  [⟨.isCancelled, false⟩, ⟨.source .subscribe, .ok stream⟩]

/-- What it exchanges to read the latest nonce, if the source answers at once. -/
def readingCourse (latest : UInt64) : List Exchange :=
  [⟨.isCancelled, false⟩, ⟨.source .latestNonce, .ok latest⟩]

theorem follows_openingCourse (setup : OrchestratorSetup) (stream : StreamId) :
    Follows (persist setup SourceQuery.subscribe.perform) (openingCourse stream)
      (.ok (some stream)) := by
  have hopened : Follows SourceQuery.subscribe.perform
      [⟨.source .subscribe, .ok stream⟩] (.ok stream) :=
    .ask _ (.done _)
  exact follows_persist (follows_retryFrom_of_ok _ hopened)

theorem follows_readingCourse (setup : OrchestratorSetup) (latest : UInt64) :
    Follows (persist setup SourceQuery.latestNonce.perform) (readingCourse latest)
      (.ok (some latest)) := by
  have hread : Follows SourceQuery.latestNonce.perform
      [⟨.source .latestNonce, .ok latest⟩] (.ok latest) :=
    .ask _ (.done _)
  exact follows_persist (follows_retryFrom_of_ok _ hread)

/-- The first time there is nothing to catch up with, and receiving begins at once. -/
theorem follows_connect_first (setup : OrchestratorSetup) (stream : StreamId) (latest : UInt64)
    (now : Nat) :
    Follows (connect setup none) (openingCourse stream ++ (readingCourse latest ++ [⟨.now, now⟩]))
      (.again ⟨.receiving stream (now + setup.config.livenessInterval), some latest⟩) := by
  rw [connect]
  refine (follows_openingCourse setup stream).bind ?_
  refine (follows_readingCourse setup latest).bind ?_
  exact .perform_bind (.done _)

/-- Later the listener catches up before it receives. -/
theorem follows_connect_again (setup : OrchestratorSetup) (stream : StreamId)
    (latest seen : UInt64) :
    Follows (connect setup (some seen)) (openingCourse stream ++ (readingCourse latest ++ []))
      (.again ⟨.catchingUp stream (saturatingAdd seen 1)
        (rangeSize (saturatingAdd seen 1) latest) latest, some seen⟩) := by
  rw [connect]
  refine (follows_openingCourse setup stream).bind ?_
  refine (follows_readingCourse setup latest).bind ?_
  exact .done _

/-- A course with an interruption: the first stream ends, and the nonce 2 is missed. -/
def endedCourse : List Exchange :=
  openingCourse 0 ++ (readingCourse 1 ++ [⟨.now, (0 : Nat)⟩]) ++ [⟨.nextSignal 0 30000, .ended⟩]

/-- What follows upon the interruption: another stream is opened, and the nonce that was missed is
sent. -/
def resumedCourse : List Exchange :=
  openingCourse 1 ++ (readingCourse 2 ++ []) ++ [⟨.send 0 2, .sent⟩] ++ [⟨.now, (0 : Nat)⟩]

/-- A listener takes both courses one behind the other, and receives from its second stream then. -/
theorem loops_resumedCourse :
    Loops (listen standardSetup 0) .start (endedCourse ++ resumedCourse)
      ⟨.receiving 1 30000, some 2⟩ := by
  have hfirst : Follows (listen standardSetup 0 .start)
      (openingCourse 0 ++ (readingCourse 1 ++ [⟨.now, (0 : Nat)⟩]))
      (.again ⟨.receiving 0 30000, some 1⟩) :=
    follows_connect_first standardSetup 0 1 0
  have hended : Follows (listen standardSetup 0 ⟨.receiving 0 30000, some 1⟩)
      [⟨.nextSignal 0 30000, .ended⟩] (.again ⟨.connecting, some 1⟩) :=
    .perform_bind (.done _)
  have hagain : Follows (listen standardSetup 0 ⟨.connecting, some 1⟩)
      (openingCourse 1 ++ (readingCourse 2 ++ [])) (.again ⟨.catchingUp 1 2 1 2, some 1⟩) :=
    follows_connect_again standardSetup 1 2 1
  have hsent : Follows (listen standardSetup 0 ⟨.catchingUp 1 2 1 2, some 1⟩)
      [⟨.send 0 2, .sent⟩] (.again ⟨.catchingUp 1 3 0 2, some 1⟩) :=
    .perform_bind (.done _)
  have hresumed : Follows (listen standardSetup 0 ⟨.catchingUp 1 3 0 2, some 1⟩)
      [⟨.now, (0 : Nat)⟩] (.again ⟨.receiving 1 30000, some 2⟩) :=
    .perform_bind (.done _)
  have hloops := ((((Loops.single hfirst).turn hended).turn hagain).turn hsent).turn hresumed
  simpa [endedCourse, resumedCourse] using hloops

/-- A history with an interruption: 2 is made while there is no stream, 3 when there is one
again. -/
def interrupted : List FeedEvent :=
  .created 1 :: (endedCourse.map (.exchange .listener) ++
    .created 2 :: (resumedCourse.map (.exchange .listener) ++ [.created 3]))

theorem listener_interrupted :
    exchangesOf .listener interrupted = endedCourse ++ resumedCourse := by
  simp [interrupted]

/-- **After an interruption** both nonces that were made meanwhile are there. -/
theorem reconnecting_loses_nothing_of_interrupted :
    ∃ feed, Feed.empty.run interrupted = some feed ∧ ∀ nonce ∈ [2, 3],
      nonce ∈ sentTo 0 (exchangesOf .listener interrupted) ∨
        ∃ left, feed.pending 1 = some left ∧ nonce ∈ left := by
  obtain ⟨feed, hrun⟩ : ∃ feed, Feed.empty.run interrupted = some feed := ⟨_, rfl⟩
  have hwaits : Waits (listen standardSetup 0) .start (exchangesOf .listener interrupted)
      ⟨.receiving 1 30000, some 2⟩ (.nextSignal 1 30000) := by
    rw [listener_interrupted]
    exact loops_resumedCourse.waits .here
  obtain ⟨⟨first, hfirst, hcovers⟩, -⟩ := reconnecting_loses_nothing hrun hwaits
  obtain rfl : 1 = first := Option.some.inj (by rw [← hfirst, listener_interrupted]; rfl)
  refine ⟨feed, hrun, fun nonce hmem => ?_⟩
  -- Both were made after the first reading, and nothing is in hand.
  have hmade : nonce ∈ created interrupted ∧ 1 < nonce := by
    rcases List.mem_cons.mp hmem with rfl | hmem
    · exact ⟨by simp [interrupted], by decide⟩
    · obtain rfl := List.mem_singleton.mp hmem
      exact ⟨by simp [interrupted], by decide⟩
  rcases hcovers nonce hmade.1 hmade.2 with hsent | hhand | hpending
  · exact Or.inl hsent
  · cases hhand
  · exact Or.inr hpending

end Orchestrator

end Countersign
