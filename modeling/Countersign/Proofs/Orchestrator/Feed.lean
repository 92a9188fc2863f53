import Countersign.Proofs.Routine.Course
import Mathlib.Logic.Function.Basic

/-!
# The source while listener and backfill read it

Listener and backfill read the same source, each at its own times, while attestations are made. This
module says what may happen then, as far as nonces are concerned.

* What happens is a list of events: an attestation is made, or one of the two exchanges
  (`FeedEvent`).
* The source is a state with a step (`Feed.step`): nonces increase, the latest one is that of the
  last attestation, and a stream brings, in order, every nonce made after it was opened. Which
  answers fail, and when, is left open.
* A history is one of such a source if it runs from the empty state (`Feed.run`).

What a stream brought and what it still has to bring is together what was made since it was opened
(`Feed.created_eq_heardOn`).
-/

namespace Countersign

open Routine

/-! ### What is seen of an exchange -/

/-- The stream that was opened, if one was. A subscription that failed has opened none. -/
def subscribed? : Exchange → Option StreamId
  | ⟨.source .subscribe, .ok stream⟩ => some stream
  | _ => none

/-- The nonce that a stream brought, if it did. -/
def heard? (stream : StreamId) : Exchange → Option UInt64
  | ⟨.nextSignal s _, .nonce nonce⟩ => if s = stream then some nonce else none
  | _ => none

/-- The latest nonce, if it was read. -/
def latestRead? : Exchange → Option UInt64
  | ⟨.source .latestNonce, .ok nonce⟩ => some nonce
  | _ => none

/-- The nonce that was put into a queue, if one was. A queue that is closed takes nothing. -/
def sent? (queue : QueueId) : Exchange → Option UInt64
  | ⟨.send q nonce, .sent⟩ => if q = queue then some nonce else none
  | _ => none

/-- The streams that were opened, in order. -/
def subscriptions (t : List Exchange) : List StreamId :=
  t.filterMap subscribed?

/-- The nonces that a stream brought, in order. -/
def heardOn (stream : StreamId) (t : List Exchange) : List UInt64 :=
  t.filterMap (heard? stream)

/-- The latest nonce as it was first read. A listener that reconnects reads it again, but what lies
below the first reading is for the backfill. -/
def firstLatest? (t : List Exchange) : Option UInt64 :=
  t.findSome? latestRead?

/-- The nonces that were put into a queue, in order. -/
def sentTo (queue : QueueId) (t : List Exchange) : List UInt64 :=
  t.filterMap (sent? queue)

@[simp] theorem subscriptions_append (t t' : List Exchange) :
    subscriptions (t ++ t') = subscriptions t ++ subscriptions t' :=
  List.filterMap_append

@[simp] theorem heardOn_append (stream : StreamId) (t t' : List Exchange) :
    heardOn stream (t ++ t') = heardOn stream t ++ heardOn stream t' :=
  List.filterMap_append

@[simp] theorem firstLatest?_append (t t' : List Exchange) :
    firstLatest? (t ++ t') = (firstLatest? t).or (firstLatest? t') :=
  List.findSome?_append

@[simp] theorem sentTo_append (queue : QueueId) (t t' : List Exchange) :
    sentTo queue (t ++ t') = sentTo queue t ++ sentTo queue t' :=
  List.filterMap_append

theorem subscriptions_cons (e : Exchange) (t : List Exchange) :
    subscriptions (e :: t) = (subscribed? e).toList ++ subscriptions t := by
  rw [subscriptions, List.filterMap_cons]
  cases subscribed? e <;> rfl

theorem heardOn_cons (stream : StreamId) (e : Exchange) (t : List Exchange) :
    heardOn stream (e :: t) = (heard? stream e).toList ++ heardOn stream t := by
  rw [heardOn, List.filterMap_cons]
  cases heard? stream e <;> rfl

theorem sentTo_cons (queue : QueueId) (e : Exchange) (t : List Exchange) :
    sentTo queue (e :: t) = (sent? queue e).toList ++ sentTo queue t := by
  rw [sentTo, List.filterMap_cons]
  cases sent? queue e <;> rfl

/-! ### Events -/

/-- **The two workers that read nonces from the source.** They share nothing but the source, and the
queue into which they send. -/
inductive Reader where
  | listener
  | backfill
deriving DecidableEq

/-- **What happens**: an attestation is made, or one of the two has an exchange, also one that is no
concern of the source. -/
inductive FeedEvent where
  | created (nonce : UInt64)
  | exchange (reader : Reader) (e : Exchange)

/-- The nonces that were made, in order. -/
def created (history : List FeedEvent) : List UInt64 :=
  history.filterMap fun
    | .created nonce => some nonce
    | .exchange _ _ => none

/-- The exchanges of one reader, in order. This is its course, which the reader's own routine has to
follow. -/
def exchangesOf (reader : Reader) (history : List FeedEvent) : List Exchange :=
  history.filterMap fun
    | .created _ => none
    | .exchange r e => if r = reader then some e else none

@[simp] theorem created_append (before after : List FeedEvent) :
    created (before ++ after) = created before ++ created after :=
  List.filterMap_append

@[simp] theorem exchangesOf_append (reader : Reader) (before after : List FeedEvent) :
    exchangesOf reader (before ++ after) = exchangesOf reader before ++ exchangesOf reader after :=
  List.filterMap_append

@[simp] theorem created_nil : created [] = [] := rfl

@[simp] theorem exchangesOf_nil (reader : Reader) : exchangesOf reader [] = [] := rfl

@[simp] theorem created_created (nonce : UInt64) (history : List FeedEvent) :
    created (.created nonce :: history) = nonce :: created history := rfl

@[simp] theorem created_exchange (reader : Reader) (e : Exchange) (history : List FeedEvent) :
    created (.exchange reader e :: history) = created history := rfl

@[simp] theorem exchangesOf_created (reader : Reader) (nonce : UInt64) (history : List FeedEvent) :
    exchangesOf reader (.created nonce :: history) = exchangesOf reader history := rfl

@[simp] theorem exchangesOf_exchange_self (reader : Reader) (e : Exchange)
    (history : List FeedEvent) :
    exchangesOf reader (.exchange reader e :: history) = e :: exchangesOf reader history := by
  simp [exchangesOf]

theorem exchangesOf_exchange_of_ne {reader other : Reader} (h : other ≠ reader) (e : Exchange)
    (history : List FeedEvent) :
    exchangesOf reader (.exchange other e :: history) = exchangesOf reader history := by
  simp [exchangesOf, h]

@[simp] theorem created_map_created (nonces : List UInt64) :
    created (nonces.map .created) = nonces := by
  rw [created, List.filterMap_map]
  exact List.filterMap_some

@[simp] theorem created_map_exchange (reader : Reader) (t : List Exchange) :
    created (t.map (.exchange reader)) = [] := by
  simp [created, List.filterMap_map]

@[simp] theorem exchangesOf_map_created (reader : Reader) (nonces : List UInt64) :
    exchangesOf reader (nonces.map .created) = [] := by
  simp [exchangesOf, List.filterMap_map]

@[simp] theorem exchangesOf_map_exchange (reader other : Reader) (t : List Exchange) :
    exchangesOf reader (t.map (.exchange other)) = if other = reader then t else [] := by
  rw [exchangesOf, List.filterMap_map]
  show t.filterMap (fun e => if other = reader then some e else none) = _
  split
  · exact List.filterMap_some
  · exact List.filterMap_eq_nil_iff.mpr fun e _ => rfl

/-- The exchanges of a reader are cut where the events are. -/
theorem exchangesOf_eq_append {reader : Reader} {history : List FeedEvent}
    {before after : List Exchange} (h : exchangesOf reader history = before ++ after) :
    ∃ earlier later, history = earlier ++ later ∧ exchangesOf reader earlier = before ∧
      exchangesOf reader later = after :=
  List.filterMap_eq_append_iff.mp h

/-- **An exchange of a reader** stands somewhere among the events, with the reader's earlier
exchanges before it and the later ones behind. -/
theorem exchangesOf_eq_append_cons {reader : Reader} {history : List FeedEvent}
    {before after : List Exchange} {e : Exchange}
    (h : exchangesOf reader history = before ++ e :: after) :
    ∃ earlier later, history = earlier ++ .exchange reader e :: later ∧
      exchangesOf reader earlier = before ∧ exchangesOf reader later = after := by
  obtain ⟨earlier, rest, rfl, hbefore, hrest⟩ := exchangesOf_eq_append h
  obtain ⟨between, event, later, rfl, hbetween, hevent, hafter⟩ :=
    List.filterMap_eq_cons_iff.mp hrest
  have hnone : exchangesOf reader between = [] := List.filterMap_eq_nil_iff.mpr hbetween
  refine ⟨earlier ++ between, later, ?_, ?_, hafter⟩
  · -- Only an exchange of this reader is seen as one.
    cases event with
    | created nonce => cases hevent
    | exchange r e' =>
      dsimp only at hevent
      split at hevent
      · next hreader =>
        obtain rfl := Option.some.inj hevent
        rw [hreader, List.append_assoc]
      · cases hevent
  · rw [exchangesOf_append, hbefore, hnone, List.append_nil]

/-! ### The source -/

/-- **A source of nonces**: what was made, and what each open stream still has to bring. A stream
that was never opened has `none`, one that has brought everything has `some []`. -/
structure Feed where
  made : List UInt64
  pending : StreamId → Option (List UInt64)

namespace Feed

/-- A source at its start, with no attestation and no stream. -/
def empty : Feed := ⟨[], fun _ => none⟩

/-- The nonce of the last attestation, zero if there is none. -/
def latest (f : Feed) : UInt64 :=
  f.made.getLastD 0

/-- A new attestation, which every stream that is open will bring. -/
def push (f : Feed) (nonce : UInt64) : Feed :=
  ⟨f.made ++ [nonce], fun stream => (f.pending stream).map (· ++ [nonce])⟩

/-- The source with a stream that has the given nonces to bring. -/
def setPending (f : Feed) (stream : StreamId) (nonces : List UInt64) : Feed :=
  { f with pending := Function.update f.pending stream (some nonces) }

/-- **What may happen next**, and the source afterwards. Streams are the listener's alone. -/
def step (f : Feed) : FeedEvent → Option Feed
  -- Nonces increase.
  | .created nonce => if f.made.all (· < nonce) then some (f.push nonce) else none
  -- The latest nonce is answered as it is now, to either reader.
  | .exchange _ ⟨.source .latestNonce, .ok nonce⟩ => if nonce = f.latest then some f else none
  -- A new stream has its own name.
  | .exchange .listener ⟨.source .subscribe, .ok stream⟩ =>
    match f.pending stream with
    | none => some (f.setPending stream [])
    | some _ => none
  -- A stream brings what it has to bring, in order.
  | .exchange .listener ⟨.nextSignal stream _, .nonce nonce⟩ =>
    match f.pending stream with
    | some (next :: rest) => if nonce = next then some (f.setPending stream rest) else none
    | _ => none
  -- Whatever else is exchanged has nothing to do with nonces, or fails.
  | .exchange _ _ => some f

/-- The source after some events, if they may happen one after the other. -/
def run (f : Feed) (history : List FeedEvent) : Option Feed :=
  history.foldlM step f

/-- **Everything that may happen** to a source, and what it does to it. All that follows about the
source is read off these four cases. -/
theorem step_cases {f f' : Feed} {event : FeedEvent} (h : f.step event = some f') :
    (∃ nonce, event = .created nonce ∧ (∀ m ∈ f.made, m < nonce) ∧ f' = f.push nonce) ∨
    (∃ stream, event = .exchange .listener ⟨.source .subscribe, .ok stream⟩ ∧
      f.pending stream = none ∧ f' = f.setPending stream []) ∨
    (∃ stream tick nonce rest,
      event = .exchange .listener ⟨.nextSignal stream tick, .nonce nonce⟩ ∧
      f.pending stream = some (nonce :: rest) ∧ f' = f.setPending stream rest) ∨
    (∃ reader e, event = .exchange reader e ∧ f' = f ∧
      (reader = .listener → ∀ stream, heard? stream e = none) ∧
      ∀ nonce, e = ⟨.source .latestNonce, .ok nonce⟩ → nonce = f.latest) := by
  unfold step at h
  split at h
  · -- A new nonce is above all others.
    next nonce =>
    split at h
    · next hlt =>
      refine Or.inl ⟨nonce, rfl, fun m hm => ?_, (Option.some.inj h).symm⟩
      exact of_decide_eq_true (List.all_eq_true.mp hlt m hm)
    · cases h
  · -- The latest nonce is read, by either reader.
    next reader nonce =>
    split at h
    · next hlatest =>
      refine Or.inr (Or.inr (Or.inr ⟨reader, _, rfl, (Option.some.inj h).symm, ?_, ?_⟩))
      · exact fun _ _ => rfl
      · intro nonce' heq
        cases heq
        exact hlatest
    · cases h
  · -- A stream is opened.
    next stream =>
    split at h
    · next hnone => exact Or.inr (Or.inl ⟨stream, rfl, hnone, (Option.some.inj h).symm⟩)
    · cases h
  · -- A stream brings its next nonce.
    next stream tick nonce =>
    split at h
    · next hpending =>
      split at h
      · next heq =>
        subst heq
        exact Or.inr (Or.inr (Or.inl ⟨stream, tick, _, _, rfl, hpending, (Option.some.inj h).symm⟩))
      · cases h
    · cases h
  · -- Nothing of the source's concern: the other cases were left, which says what it is not.
    next reader e hlatest _ hheard =>
    refine Or.inr (Or.inr (Or.inr ⟨reader, e, rfl, (Option.some.inj h).symm, ?_, ?_⟩))
    · rintro rfl stream
      unfold heard?
      split
      · exact (hheard _ _ _ rfl rfl).elim
      · rfl
    · rintro nonce rfl
      exact (hlatest nonce rfl).elim

/-- Opening a stream: it was not open before, and has nothing to bring yet. -/
theorem step_subscribe {f f' : Feed} {stream : StreamId}
    (h : f.step (.exchange .listener ⟨.source .subscribe, .ok stream⟩) = some f') :
    f.pending stream = none ∧ f' = f.setPending stream [] := by
  rw [step] at h
  split at h
  · next hclosed => exact ⟨hclosed, (Option.some.inj h).symm⟩
  · cases h

/-- Reading the latest nonce: it is the latest, and the source stays as it is. -/
theorem step_latestNonce {f f' : Feed} {reader : Reader} {nonce : UInt64}
    (h : f.step (.exchange reader ⟨.source .latestNonce, .ok nonce⟩) = some f') :
    nonce = f.latest ∧ f' = f := by
  rw [step] at h
  split at h
  · next heq => exact ⟨heq, (Option.some.inj h).symm⟩
  · cases h

/-! ### What was made -/

theorem run_cons_eq_some {f f' : Feed} {event : FeedEvent} {history : List FeedEvent} :
    f.run (event :: history) = some f' ↔ ∃ next, f.step event = some next ∧
      next.run history = some f' := by
  rw [run, List.foldlM_cons]
  exact Option.bind_eq_some_iff

theorem run_append_eq_some {f f' : Feed} {before after : List FeedEvent} :
    f.run (before ++ after) = some f' ↔ ∃ next, f.run before = some next ∧
      next.run after = some f' := by
  rw [run, List.foldlM_append]
  exact Option.bind_eq_some_iff

/-- A fact that each event preserves is preserved by all of them. -/
theorem run_induction {motive : Feed → Prop} {f f' : Feed} {history : List FeedEvent}
    (h : f.run history = some f')
    (step : ∀ {g g' event}, g.step event = some g' → motive g → motive g') (start : motive f) :
    motive f' := by
  induction history generalizing f with
  | nil =>
    cases h
    exact start
  | cons event history ih =>
    obtain ⟨next, hnext, hrest⟩ := run_cons_eq_some.mp h
    exact ih hrest (step hnext start)

/-- **What the source remembers of its past** is what was made. -/
theorem made_of_run {f f' : Feed} {history : List FeedEvent} (h : f.run history = some f') :
    f'.made = f.made ++ created history := by
  induction history generalizing f with
  | nil =>
    cases h
    exact (List.append_nil _).symm
  | cons event history ih =>
    obtain ⟨next, hnext, hrest⟩ := run_cons_eq_some.mp h
    rw [ih hrest]
    -- Only an attestation that is made changes what was made.
    rcases step_cases hnext with ⟨nonce, rfl, -, rfl⟩ | ⟨stream, rfl, -, rfl⟩ |
      ⟨stream, tick, nonce, rest, rfl, -, rfl⟩ | ⟨reader, e, rfl, rfl, -⟩
    · rw [created_created, push, List.append_assoc]
      rfl
    · rfl
    · rfl
    · rfl

/-- Nonces increase, since each new one is above all others. -/
theorem pairwise_made {f f' : Feed} {history : List FeedEvent} (h : f.run history = some f')
    (increasing : f.made.Pairwise (· < ·)) : f'.made.Pairwise (· < ·) := by
  refine run_induction h (motive := fun g => g.made.Pairwise (· < ·)) ?_ increasing
  intro g g' event hstep hg
  rcases step_cases hstep with ⟨nonce, rfl, hlt, rfl⟩ | ⟨stream, rfl, -, rfl⟩ |
    ⟨stream, tick, nonce, rest, rfl, -, rfl⟩ | ⟨reader, e, rfl, rfl, -⟩
  · refine List.pairwise_append.mpr ⟨hg, List.pairwise_singleton _ _, fun m hm n hn => ?_⟩
    obtain rfl := List.mem_singleton.mp hn
    exact hlt m hm
  · exact hg
  · exact hg
  · exact hg

/-- The latest nonce was made, if anything was. -/
theorem latest_eq_zero_or_mem (f : Feed) : f.latest = 0 ∨ f.latest ∈ f.made := by
  rcases List.eq_nil_or_concat f.made with hnil | ⟨init, last, hconcat⟩
  · left
    rw [latest, hnil]
    rfl
  · right
    rw [latest, hconcat, List.concat_eq_append, List.getLastD_concat]
    simp

/-- No nonce is above the latest one. -/
theorem le_latest {f : Feed} (increasing : f.made.Pairwise (· < ·)) {nonce : UInt64}
    (h : nonce ∈ f.made) : nonce ≤ f.latest := by
  rcases List.eq_nil_or_concat f.made with hnil | ⟨init, last, hconcat⟩
  · rw [hnil] at h
    cases h
  · rw [List.concat_eq_append] at hconcat
    rw [hconcat] at h increasing
    rw [latest, hconcat, List.getLastD_concat]
    rcases List.mem_append.mp h with hinit | hlast
    · exact UInt64.le_of_lt ((List.pairwise_append.mp increasing).2.2 nonce hinit last (by simp))
    · rw [List.mem_singleton.mp hlast]
      exact UInt64.le_refl last

/-- The latest nonce does not go back. -/
theorem latest_le_of_run {f f' : Feed} {history : List FeedEvent} (h : f.run history = some f')
    (increasing : f.made.Pairwise (· < ·)) : f.latest ≤ f'.latest := by
  rcases f.latest_eq_zero_or_mem with hzero | hmem
  · rw [hzero]
    exact UInt64.zero_le
  · refine le_latest (pairwise_made h increasing) ?_
    rw [made_of_run h]
    exact List.mem_append_left _ hmem

/-- A nonce that is made later is above the latest one before, if it is above anything. Only the
nonce zero could be made without that. -/
theorem latest_lt_of_created {f f' : Feed} {history : List FeedEvent} {least nonce : UInt64}
    (h : f.run history = some f') (increasing : f.made.Pairwise (· < ·))
    (hmade : nonce ∈ created history) (hleast : least < nonce) : f.latest < nonce := by
  rcases f.latest_eq_zero_or_mem with hzero | hmem
  · rw [hzero]
    exact UInt64.lt_of_le_of_lt UInt64.zero_le hleast
  · have hpairwise := pairwise_made h increasing
    rw [made_of_run h] at hpairwise
    exact (List.pairwise_append.mp hpairwise).2.2 _ hmem _ hmade

/-! ### What streams bring -/

theorem pending_push {f : Feed} {stream : StreamId} (nonce : UInt64) :
    (f.push nonce).pending stream = (f.pending stream).map (· ++ [nonce]) := rfl

theorem pending_setPending_self (f : Feed) (stream : StreamId) (nonces : List UInt64) :
    (f.setPending stream nonces).pending stream = some nonces :=
  Function.update_self ..

theorem pending_setPending_of_ne {f : Feed} {stream other : StreamId} (h : stream ≠ other)
    (nonces : List UInt64) :
    (f.setPending other nonces).pending stream = f.pending stream :=
  Function.update_of_ne h ..

/-- **One event of an open stream**: what it brings comes from the front of what it has to bring, to
which a new nonce is added behind. -/
theorem pending_of_step {f f' : Feed} {event : FeedEvent} {stream : StreamId}
    {nonces : List UInt64} (h : f.step event = some f') (hopen : f.pending stream = some nonces) :
    ∃ left, f'.pending stream = some left ∧ nonces ++ created [event] =
      heardOn stream (exchangesOf .listener [event]) ++ left := by
  rcases step_cases h with ⟨nonce, rfl, -, rfl⟩ | ⟨opened, rfl, hclosed, rfl⟩ |
    ⟨taken, tick, nonce, rest, rfl, hpending, rfl⟩ | ⟨reader, e, rfl, rfl, hquiet, -⟩
  · -- A new nonce is added behind.
    refine ⟨nonces ++ [nonce], ?_, rfl⟩
    rw [pending_push, hopen, Option.map_some]
  · -- It is another stream that is opened.
    have hne : stream ≠ opened := by
      rintro rfl
      rw [hopen] at hclosed
      cases hclosed
    refine ⟨nonces, ?_, List.append_nil _⟩
    rw [pending_setPending_of_ne hne, hopen]
  · -- A nonce is taken from the front of this stream, or from another one.
    rw [exchangesOf_exchange_self]
    by_cases hne : stream = taken
    · subst hne
      obtain rfl := Option.some.inj (hopen.symm.trans hpending)
      refine ⟨rest, pending_setPending_self .., ?_⟩
      simp [heardOn, heard?]
    · refine ⟨nonces, ?_, ?_⟩
      · rw [pending_setPending_of_ne hne, hopen]
      · simp [heardOn, heard?, Ne.symm hne]
  · -- Nothing is taken from any stream.
    refine ⟨nonces, hopen, ?_⟩
    by_cases hreader : reader = .listener
    · subst hreader
      simp [heardOn, hquiet rfl]
    · simp [heardOn, exchangesOf, hreader]

/-- **What a stream has to bring** was made, in the same order. The first nonces may be missing, as
it may have brought them, or been opened later. -/
theorem pending_sublist_made {f : Feed} {history : List FeedEvent} {stream : StreamId}
    {nonces : List UInt64} (h : empty.run history = some f)
    (hopen : f.pending stream = some nonces) : nonces.Sublist f.made := by
  refine run_induction h (motive := fun g =>
    ∀ nonces, g.pending stream = some nonces → nonces.Sublist g.made) ?_ ?start nonces hopen
  case start => exact fun _ hnone => by cases hnone
  intro g g' event hstep hg nonces hpending
  rcases step_cases hstep with ⟨nonce, rfl, -, rfl⟩ | ⟨opened, rfl, -, rfl⟩ |
    ⟨taken, tick, nonce, rest, rfl, htaken, rfl⟩ | ⟨reader, e, rfl, rfl, -⟩
  · -- The new nonce stands behind, on both sides.
    rw [pending_push] at hpending
    obtain ⟨before, hbefore, rfl⟩ := Option.map_eq_some_iff.mp hpending
    exact (hg before hbefore).append (List.Sublist.refl _)
  · -- The stream is the one that is opened, or it is as before.
    by_cases hne : stream = opened
    · subst hne
      rw [pending_setPending_self] at hpending
      obtain rfl := Option.some.inj hpending
      exact List.nil_sublist _
    · rw [pending_setPending_of_ne hne] at hpending
      exact hg nonces hpending
  · -- The stream is the one from which a nonce is taken, or it is as before.
    by_cases hne : stream = taken
    · subst hne
      rw [pending_setPending_self] at hpending
      obtain rfl := Option.some.inj hpending
      exact (List.sublist_cons_self nonce rest).trans (hg _ htaken)
    · rw [pending_setPending_of_ne hne] at hpending
      exact hg nonces hpending
  · exact hg nonces hpending

/-- **A stream that is open stays open.** What it brought and what it still has to bring is together
what it had to bring before, and what was made since. -/
theorem pending_of_run {f f' : Feed} {history : List FeedEvent} {stream : StreamId}
    {nonces : List UInt64} (h : f.run history = some f') (hopen : f.pending stream = some nonces) :
    ∃ left, f'.pending stream = some left ∧ nonces ++ created history =
      heardOn stream (exchangesOf .listener history) ++ left := by
  -- On the events, with what the stream has to bring left open: each event changes it.
  induction history generalizing f nonces with
  | nil =>
    cases h
    exact ⟨nonces, hopen, List.append_nil _⟩
  | cons event history ih =>
    obtain ⟨next, hnext, hrest⟩ := run_cons_eq_some.mp h
    obtain ⟨mid, hmid, hfirst⟩ := pending_of_step hnext hopen
    obtain ⟨left, hleft, hlater⟩ := ih hrest hmid
    refine ⟨left, hleft, ?_⟩
    rw [← List.singleton_append, created_append, exchangesOf_append, heardOn_append,
      ← List.append_assoc, hfirst, List.append_assoc, hlater, List.append_assoc]

/-- **A stream that is not open has brought nothing.** The induction is on the history, from its
first event on. -/
theorem heardOn_eq_nil_of_run {f f' : Feed} {history : List FeedEvent} {stream : StreamId}
    (h : f.run history = some f') (hclosed : f'.pending stream = none) :
    heardOn stream (exchangesOf .listener history) = [] := by
  induction history generalizing f with
  | nil => rfl
  | cons event history ih =>
    obtain ⟨next, hnext, hrest⟩ := run_cons_eq_some.mp h
    have hlater := ih hrest
    -- A stream that brings something is open, and stays so.
    have hnone : ∀ nonces, f.pending stream ≠ some nonces := by
      intro nonces hopen
      obtain ⟨left, hleft, -⟩ := pending_of_run h hopen
      rw [hclosed] at hleft
      cases hleft
    rw [← List.singleton_append, exchangesOf_append, heardOn_append, hlater, List.append_nil]
    -- So it remains that this event is not one of the stream.
    rcases step_cases hnext with ⟨nonce, rfl, -⟩ | ⟨opened, rfl, -⟩ |
      ⟨taken, tick, nonce, rest, rfl, hpending, -⟩ | ⟨reader, e, rfl, -, hquiet, -⟩
    · rfl
    · rfl
    · have hne : taken ≠ stream := by
        rintro rfl
        exact hnone _ hpending
      simp [heardOn, heard?, exchangesOf, hne]
    · by_cases hreader : reader = .listener
      · subst hreader
        simp [heardOn, hquiet rfl, exchangesOf]
      · simp [heardOn, exchangesOf, hreader]

/-! ### Histories from the start -/

/-- What was made since a stream was opened is what it brought, and then what it still has to
bring. -/
theorem created_eq_heardOn {f : Feed} {before since : List FeedEvent} {stream : StreamId}
    (h : empty.run (before ++ .exchange .listener ⟨.source .subscribe, .ok stream⟩ :: since) =
      some f) :
    heardOn stream (exchangesOf .listener before) = [] ∧
      ∃ left, f.pending stream = some left ∧
        created since = heardOn stream (exchangesOf .listener since) ++ left := by
  obtain ⟨opening, hbefore, hrest⟩ := run_append_eq_some.mp h
  obtain ⟨opened, hopen, hsince⟩ := run_cons_eq_some.mp hrest
  -- A stream that is opened has not been open before, and has nothing to bring yet.
  obtain ⟨hclosed, rfl⟩ := step_subscribe hopen
  have hpending := pending_of_run hsince (pending_setPending_self opening stream [])
  exact ⟨heardOn_eq_nil_of_run hbefore hclosed, hpending⟩

/-- The latest nonce that is read is the last one that was made before. -/
theorem latest_eq {f : Feed} {early late : List FeedEvent} {reader : Reader} {nonce : UInt64}
    (h : empty.run (early ++ .exchange reader ⟨.source .latestNonce, .ok nonce⟩ :: late) = some f) :
    nonce = (created early).getLastD 0 := by
  obtain ⟨reading, hearly, hrest⟩ := run_append_eq_some.mp h
  obtain ⟨next, hread, -⟩ := run_cons_eq_some.mp hrest
  rw [(step_latestNonce hread).1, latest, made_of_run hearly]
  rfl

/-- What a source remembers is all that was made. -/
theorem made_eq_created {f : Feed} {history : List FeedEvent} (h : empty.run history = some f) :
    f.made = created history := by
  rw [made_of_run h]
  rfl

/-- What a source remembers increases, from the empty source on. -/
theorem increasing {f : Feed} {history : List FeedEvent} (h : empty.run history = some f) :
    f.made.Pairwise (· < ·) :=
  pairwise_made h .nil

/-- What was made increases, whatever else happened in between. -/
theorem pairwise {f : Feed} {history : List FeedEvent} (h : empty.run history = some f) :
    (created history).Pairwise (· < ·) := by
  rw [← made_eq_created h]
  exact increasing h

end Feed

end Countersign
