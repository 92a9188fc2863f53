import Countersign.Proofs.Routine.Course
import Countersign.Source.Following

/-!
# Every nonce of a stream comes once

A stream that is kept up by asking has two counters, the last nonce handed out and the greatest one
known, and each answer of the source may be anything: ahead, behind, the same again, or a failure.

* `Subscription.Waited` says once what a turn of waiting can come to
  (`Subscription.follows_awaitItem_iff`): a nonce is handed out, an answer is heard, or a failure is
  passed on.
* `Subscription.Reads` is a reader's history, turn by turn, and `Subscription.Complete` what holds
  all along: what was handed out and what is pending are, in order, the nonces behind the first one
  up to the greatest one heard of. Each way a turn can end preserves it (`Complete.handOut`,
  `Complete.hear`, `Complete.fail`), so every history has it (`Reads.complete`).
* `Subscription.emits_every_nonce_once` puts it together with what happens next in each state: what
  is pending comes without asking, and a failure costs nothing.
-/

namespace Countersign.Subscription

open Routine

variable {interval : Nat} {latest : UInt64} {t t' : List Exchange} {items : List Item}
  {s s' : Subscription}

/-! ### What is seen of a stream -/

/-- The nonces among items or answers, as numbers. Items that are handed out and answers that are
heard have the same form, so one definition reads both. -/
def nonces (items : List Item) : List Nat :=
  items.filterMap fun
    | .ok nonce => some nonce.toNat
    | .error _ => none

/-- The failures among items or answers, in order. -/
def failures (items : List Item) : List SourceError :=
  items.filterMap fun
    | .ok _ => none
    | .error error => some error

/-- An answer about the latest nonce, if an exchange is one. The other exchange of a turn is the
wait before it. -/
def polled? : Exchange → Option Item
  | ⟨.source .latestNonce, answer⟩ => some answer
  | _ => none

/-- What the source was heard to answer about its latest nonce. This list is the only thing about
the source that the results below depend on. -/
def polls (t : List Exchange) : List Item :=
  t.filterMap polled?

/-- The greatest nonce heard of, the first one included. A source that goes back does not lower
it. -/
def highest (latest : UInt64) (answers : List Item) : Nat :=
  (nonces answers).foldl max latest.toNat

/-- The nonces that are known and were not handed out, the next one first. -/
def pending (s : Subscription) : List Nat :=
  List.range' (s.emitted.toNat + 1) (s.known.toNat - s.emitted.toNat)

@[simp] theorem nonces_append (items items' : List Item) :
    nonces (items ++ items') = nonces items ++ nonces items' :=
  List.filterMap_append

@[simp] theorem failures_append (items items' : List Item) :
    failures (items ++ items') = failures items ++ failures items' :=
  List.filterMap_append

@[simp] theorem polls_append (t t' : List Exchange) : polls (t ++ t') = polls t ++ polls t' :=
  List.filterMap_append

@[simp] theorem nonces_ok (nonce : UInt64) : nonces [.ok nonce] = [nonce.toNat] := rfl

@[simp] theorem nonces_error (error : SourceError) : nonces [.error error] = [] := rfl

@[simp] theorem failures_ok (nonce : UInt64) : failures [.ok nonce] = [] := rfl

@[simp] theorem failures_error (error : SourceError) : failures [.error error] = [error] := rfl

@[simp] theorem polls_nil : polls [] = [] := rfl

@[simp] theorem highest_nil (latest : UInt64) : highest latest [] = latest.toNat := rfl

@[simp] theorem highest_append_ok (latest nonce : UInt64) (answers : List Item) :
    highest latest (answers ++ [.ok nonce]) = max (highest latest answers) nonce.toNat := by
  simp [highest, List.foldl_append]

@[simp] theorem highest_append_error (latest : UInt64) (answers : List Item) (error : SourceError) :
    highest latest (answers ++ [.error error]) = highest latest answers := by
  simp [highest]

/-- Nothing is pending exactly if the two counters have met. -/
theorem pending_eq_nil_iff : s.pending = [] ↔ ¬ s.emitted < s.known := by
  rw [pending, List.range'_eq_nil_iff, UInt64.lt_iff_toNat_lt]
  omega

/-! ### Handing out a nonce -/

/-- The counter does not run over while something is pending, since it is below the other one. -/
theorem toNat_emitted_add_one (h : s.emitted < s.known) :
    (s.emitted + 1).toNat = s.emitted.toNat + 1 := by
  have hlt : s.emitted.toNat < s.known.toNat := UInt64.lt_iff_toNat_lt.mp h
  have hsize : s.known.toNat < UInt64.size := s.known.toNat_lt_size
  rw [UInt64.toNat_add]
  show (s.emitted.toNat + 1) % UInt64.size = s.emitted.toNat + 1
  exact Nat.mod_eq_of_lt (by omega)

/-- The next nonce is the one behind the last, as long as the counters have not met. -/
theorem next?_eq_some_iff {nonce : UInt64} :
    s.next? = some (nonce, s') ↔
      s.emitted < s.known ∧ nonce = s.emitted + 1 ∧ s' = ⟨nonce, s.known⟩ := by
  rw [next?]
  split <;> rename_i h
  · simp only [Option.some.injEq, Prod.mk.injEq, h, true_and]
    constructor
    · rintro ⟨rfl, rfl⟩
      exact ⟨rfl, rfl⟩
    · rintro ⟨rfl, rfl⟩
      exact ⟨rfl, rfl⟩
  · simp [h]

/-- There is no next nonce exactly if they have. -/
theorem next?_eq_none_iff : s.next? = none ↔ ¬ s.emitted < s.known := by
  rw [next?]
  split <;> simp_all

/-- A nonce that is handed out is the first that was pending, and the others stay. -/
theorem pending_of_next? {nonce : UInt64} (h : s.next? = some (nonce, s')) :
    s.pending = nonce.toNat :: s'.pending := by
  obtain ⟨hlt, rfl, rfl⟩ := next?_eq_some_iff.mp h
  have hstep := toNat_emitted_add_one hlt
  have hltNat : s.emitted.toNat < s.known.toNat := UInt64.lt_iff_toNat_lt.mp hlt
  obtain ⟨left, hleft⟩ : ∃ left, s.known.toNat - s.emitted.toNat = left + 1 :=
    ⟨s.known.toNat - s.emitted.toNat - 1, by omega⟩
  have hrest : s.known.toNat - (s.emitted.toNat + 1) = left := by omega
  rw [pending, pending, hstep, hleft, hrest, List.range'_succ]

/-! ### One turn of waiting -/

/-- **What a turn of waiting can come to**: the next nonce, without any exchange; or a wait and a
question, whose answer is heard or, if it is a failure, handed out. -/
inductive Waited (interval : Nat) (s : Subscription) :
    List Exchange → Turn Subscription (Item × Subscription) → Prop where
  | handedOut {nonce : UInt64} {rest : Subscription} (next : s.next? = some (nonce, rest)) :
      Waited interval s [] (.finish (.ok nonce, rest))
  | heard (drained : s.next? = none) (nonce : UInt64) :
      Waited interval s [⟨.labour interval, ()⟩, ⟨.source .latestNonce, .ok nonce⟩]
        (.again (s.hear nonce))
  | failed (drained : s.next? = none) (error : SourceError) :
      Waited interval s [⟨.labour interval, ()⟩, ⟨.source .latestNonce, .error error⟩]
        (.finish (.error error, s))

/-- **The turns of waiting are those.** The other direction is used to read a stream on, in
`Reads.drain` and `Reads.exists_later`. -/
theorem follows_awaitItem_iff {turn : Turn Subscription (Item × Subscription)} :
    Follows (s.awaitItem interval) t turn ↔ Waited interval s t turn := by
  constructor
  · intro h
    rw [awaitItem] at h
    split at h
    · -- Something is pending, so nothing is asked.
      rename_i nonce rest hnext
      obtain ⟨rfl, rfl⟩ := follows_done_iff.mp h
      exact .handedOut hnext
    · -- Nothing is pending, so the source is asked behind a wait.
      rename_i hdrained
      obtain ⟨-, asked, rfl, hasked⟩ := follows_perform_bind_iff.mp h
      obtain ⟨answer, rest, rfl, hanswered⟩ :=
        (follows_perform_bind_iff (r := .source .latestNonce)).mp hasked
      cases answer with
      | ok nonce =>
        obtain ⟨rfl, rfl⟩ := follows_done_iff.mp hanswered
        exact .heard hdrained nonce
      | error error =>
        obtain ⟨rfl, rfl⟩ := follows_done_iff.mp hanswered
        exact .failed hdrained error
  · intro h
    rw [awaitItem]
    -- Conversely, each kind of turn says what is pending, which decides the branch.
    cases h with
    | handedOut hnext =>
      rw [hnext]
      exact .done _
    | heard hdrained nonce =>
      rw [hdrained]
      exact .perform_bind (r := .labour interval)
        (.perform_bind (r := .source .latestNonce) (.done _))
    | failed hdrained error =>
      rw [hdrained]
      exact .perform_bind (r := .labour interval)
        (.perform_bind (r := .source .latestNonce) (.done _))

/-! ### All that was read so far -/

/-- **A reader's history**: the exchanges of whole turns, the items that came of them, and where the
stream is then. -/
inductive Reads (interval : Nat) (start : Subscription) :
    List Exchange → List Item → Subscription → Prop where
  | opened : Reads interval start [] [] start
  | again {t t' : List Exchange} {items : List Item} {s s' : Subscription} :
      Reads interval start t items s → Follows (s.awaitItem interval) t' (.again s') →
        Reads interval start (t ++ t') items s'
  | item {t t' : List Exchange} {items : List Item} {item : Item} {s s' : Subscription} :
      Reads interval start t items s → Follows (s.awaitItem interval) t' (.finish (item, s')) →
        Reads interval start (t ++ t') (items ++ [item]) s'

/-- **What holds of a stream all along**, given the answers that were heard and the items that were
handed out. -/
structure Complete (latest : UInt64) (answers items : List Item) (s : Subscription) : Prop where
  /-- Nothing greater than what was heard of is known, and nothing that was is forgotten. -/
  known : s.known.toNat = highest latest answers
  handedOut : nonces items = List.range' (latest.toNat + 1) (s.emitted.toNat - latest.toNat)
  latest_le : latest.toNat ≤ s.emitted.toNat
  emitted_le : s.emitted.toNat ≤ s.known.toNat
  failed : failures items = failures answers

namespace Complete

/-- A stream that was just opened has handed out nothing, and knows the nonce with which it was
opened. -/
theorem start (latest : UInt64) : Complete latest [] [] (start latest) :=
  ⟨rfl, by simp [Subscription.start, nonces], Nat.le_refl _, Nat.le_refl _, rfl⟩

/-- **Handing out a nonce** takes it from those that are pending. This is where the counter is
raised. -/
theorem handOut {answers : List Item} {nonce : UInt64} (h : Complete latest answers items s)
    (hnext : s.next? = some (nonce, s')) : Complete latest answers (items ++ [.ok nonce]) s' := by
  obtain ⟨hlt, rfl, rfl⟩ := next?_eq_some_iff.mp hnext
  have hstep := toNat_emitted_add_one hlt
  have hltNat : s.emitted.toNat < s.known.toNat := UInt64.lt_iff_toNat_lt.mp hlt
  have hlatest := h.latest_le
  refine ⟨h.known, ?_, ?_, ?_, by simp [h.failed]⟩
  · have hcount : (s.emitted + 1).toNat - latest.toNat = s.emitted.toNat - latest.toNat + 1 := by
      omega
    rw [nonces_append, nonces_ok, h.handedOut, hcount, List.range'_1_concat, hstep]
    congr 2
    omega
  · show latest.toNat ≤ (s.emitted + 1).toNat
    omega
  · show (s.emitted + 1).toNat ≤ s.known.toNat
    omega

/-- Hearing of a latest nonce, ahead or behind: the greatest one heard of is known, and nothing is
handed out yet. -/
theorem hear {answers : List Item} (h : Complete latest answers items s) (nonce : UInt64) :
    Complete latest (answers ++ [.ok nonce]) items (s.hear nonce) := by
  have hknown : (s.hear nonce).known.toNat = max s.known.toNat nonce.toNat := by
    show (if s.known ≤ nonce then nonce else s.known).toNat = _
    split <;> rename_i hle <;> rw [UInt64.le_iff_toNat_le] at hle <;> omega
  refine ⟨by rw [hknown, h.known, highest_append_ok], h.handedOut, h.latest_le, ?_,
    by simp [h.failed]⟩
  rw [hknown]
  exact Nat.le_trans h.emitted_le (Nat.le_max_left _ _)

/-- Passing on a failure changes neither counter. -/
theorem fail {answers : List Item} (h : Complete latest answers items s) (error : SourceError) :
    Complete latest (answers ++ [.error error]) (items ++ [.error error]) s :=
  ⟨by rw [h.known, highest_append_error], by simp [h.handedOut], h.latest_le, h.emitted_le,
    by simp [h.failed]⟩

/-- Handed out and pending together leave no gap: they are the nonces behind the first, up to the
greatest heard of. -/
theorem nonces_append_pending {answers : List Item} (h : Complete latest answers items s) :
    nonces items ++ s.pending =
      List.range' (latest.toNat + 1) (highest latest answers - latest.toNat) := by
  have hlatest := h.latest_le
  have hemitted := h.emitted_le
  have hfirst : s.emitted.toNat + 1 = latest.toNat + 1 + (s.emitted.toNat - latest.toNat) := by
    omega
  rw [h.handedOut, pending, hfirst, List.range'_append_1, ← h.known]
  congr 1
  omega

end Complete

/-- **Every history is complete.** The induction is on its turns, and each of them is one of the
three steps above. -/
theorem Reads.complete (h : Reads interval (start latest) t items s) :
    Complete latest (polls t) items s := by
  -- On the turns: each hands out a nonce, hears an answer or passes on a failure.
  induction h with
  | opened => exact .start latest
  | again _ hturn ih =>
    cases follows_awaitItem_iff.mp hturn with
    | heard _ nonce =>
      rw [polls_append]
      exact ih.hear nonce
  | item _ hturn ih =>
    cases follows_awaitItem_iff.mp hturn with
    | handedOut hnext =>
      rw [List.append_nil]
      exact ih.handOut hnext
    | failed _ error =>
      rw [polls_append]
      exact ih.fail error

/-! ### Reading on -/

/-- **All that is pending can be read** without asking. The induction is on what is pending. -/
theorem Reads.drain (h : Reads interval (start latest) t items s) :
    ∃ items' s', Reads interval (start latest) t (items ++ items') s' ∧ s'.next? = none := by
  -- On how much is pending: each turn hands out the first of it.
  generalize hsize : s.pending.length = size
  induction size generalizing items s with
  | zero =>
    have hnil : s.pending = [] := List.length_eq_zero_iff.mp hsize
    exact ⟨[], s, by rwa [List.append_nil],
      next?_eq_none_iff.mpr (pending_eq_nil_iff.mp hnil)⟩
  | succ size ih =>
    cases hnext : s.next? with
    | none =>
      rw [pending_eq_nil_iff.mpr (next?_eq_none_iff.mp hnext)] at hsize
      cases hsize
    | some given =>
      obtain ⟨nonce, rest⟩ := given
      have hread := h.item (follows_awaitItem_iff.mpr (.handedOut hnext))
      rw [List.append_nil] at hread
      rw [pending_of_next? hnext, List.length_cons] at hsize
      obtain ⟨items', s', hreads, hdrained⟩ := ih hread (by omega)
      exact ⟨.ok nonce :: items', s', by rwa [List.append_assoc] at hreads, hdrained⟩

/-- **Whatever the source answers next**, the reader asks for all of it. So the law is not one about
readers that stopped early. -/
theorem Reads.exists_later (h : Reads interval (start latest) t items s) (later : List Item) :
    ∃ t' items' s', Reads interval (start latest) (t ++ t') (items ++ items') s' ∧
      polls t' = later ∧ s'.pending = [] := by
  -- On the answers: before each of them, and after the last, what is pending is read.
  induction later generalizing t items s with
  | nil =>
    obtain ⟨items', s', hreads, hdrained⟩ := h.drain
    exact ⟨[], items', s', by rwa [List.append_nil], rfl,
      pending_eq_nil_iff.mpr (next?_eq_none_iff.mp hdrained)⟩
  | cons answer later ih =>
    obtain ⟨drained, s₁, hreads, hdrained⟩ := h.drain
    cases answer with
    | ok nonce =>
      obtain ⟨t', items', s', hrest, hpolls, hpending⟩ :=
        ih (hreads.again (follows_awaitItem_iff.mpr (.heard hdrained nonce)))
      rw [List.append_assoc, List.append_assoc] at hrest
      refine ⟨_, _, s', hrest, ?_, hpending⟩
      rw [polls_append, hpolls]
      rfl
    | error error =>
      obtain ⟨t', items', s', hrest, hpolls, hpending⟩ :=
        ih (hreads.item (follows_awaitItem_iff.mpr (.failed hdrained error)))
      rw [List.append_assoc, List.append_assoc, List.append_assoc] at hrest
      refine ⟨_, _, s', hrest, ?_, hpending⟩
      rw [polls_append, hpolls]
      rfl

/-! ### The result -/

/-- **Every nonce comes once.** However the answers of the source rise, fall, repeat, jump or fail:

* the nonces handed out and those pending are, in order, the ones behind the first up to the
  greatest heard of, and those handed out have no gap among themselves;
* the failures handed out are those of the answers, one for one, and a failure leaves the stream as
  it was;
* what is pending comes first, without asking, as the nonce behind the last one: the counter does
  not run over;
* the stream can be read on whatever the source answers, until nothing is pending. -/
theorem emits_every_nonce_once (h : Reads interval (start latest) t items s) :
    nonces items ++ s.pending =
        List.range' (latest.toNat + 1) (highest latest (polls t) - latest.toNat) ∧
      nonces items = List.range' (latest.toNat + 1) (nonces items).length ∧
      failures items = failures (polls t) ∧
      (∀ t' turn error, Follows (s.awaitItem interval) t' turn → .error error ∈ polls t' →
        turn = .finish (.error error, s)) ∧
      (s.pending ≠ [] → ∀ t' turn, Follows (s.awaitItem interval) t' turn →
        t' = [] ∧ ∃ nonce rest, turn = .finish (.ok nonce, rest) ∧
          nonce.toNat = s.emitted.toNat + 1 ∧ s.pending = nonce.toNat :: rest.pending) ∧
      ∀ later, ∃ t' items' s', Reads interval (start latest) (t ++ t') (items ++ items') s' ∧
        polls t' = later ∧ s'.pending = [] := by
  have hcomplete := h.complete
  refine ⟨hcomplete.nonces_append_pending, ?_, hcomplete.failed,
    fun t' turn error hturn herror => ?_, fun hpending t' turn hturn => ?_, h.exists_later⟩
  · rw [hcomplete.handedOut, List.length_range']
  · -- A turn with a failure among its answers has no other answer, and hands the failure out.
    cases follows_awaitItem_iff.mp hturn with
    | handedOut => simp at herror
    | heard => simp [polls, polled?] at herror
    | failed _ e =>
      obtain rfl : e = error := by simpa [polls, polled?] using herror
      rfl
  · -- Where something is pending, only the first kind of turn is possible.
    have hlt : s.emitted < s.known :=
      Decidable.not_not.mp fun h => hpending (pending_eq_nil_iff.mpr h)
    cases follows_awaitItem_iff.mp hturn with
    | handedOut hnext =>
      obtain ⟨-, rfl, rfl⟩ := next?_eq_some_iff.mp hnext
      exact ⟨rfl, _, _, rfl, toNat_emitted_add_one hlt, pending_of_next? hnext⟩
    | heard hdrained => exact absurd hlt (next?_eq_none_iff.mp hdrained)
    | failed hdrained => exact absurd hlt (next?_eq_none_iff.mp hdrained)

/-- What the source answers a reader near the greatest nonce there is: not at all, ahead, far
behind, and ahead again. -/
def lastAnswers : List Item :=
  [.error (.transport ""), .ok 18446744073709551614, .ok 2, .ok 18446744073709551615]

/-- The exchanges of that reader. -/
def lastCourse : List Exchange :=
  lastAnswers.flatMap fun answer => [⟨.labour 10, ()⟩, ⟨.source .latestNonce, answer⟩]

/-- The items that come of it: the failure and the two nonces, each once. -/
def lastItems : List Item :=
  [.error (.transport ""), .ok 18446744073709551614, .ok 18446744073709551615]

/-- The reader goes through these answers turn by turn. -/
theorem reads_lastCourse :
    Reads 10 (start 18446744073709551613) lastCourse lastItems
      ⟨18446744073709551615, 18446744073709551615⟩ :=
  (((((Reads.opened.item (follows_awaitItem_iff.mpr (.failed rfl (.transport "")))).again
    (follows_awaitItem_iff.mpr (.heard rfl 18446744073709551614))).item
    (follows_awaitItem_iff.mpr (.handedOut rfl))).again
    (follows_awaitItem_iff.mpr (.heard rfl 2))).again
    (follows_awaitItem_iff.mpr (.heard rfl 18446744073709551615))).item
    (follows_awaitItem_iff.mpr (.handedOut rfl))

/-- **At the end of the range** nothing runs over: both nonces come once, in spite of an answer far
behind and a failure. -/
theorem emits_every_nonce_once_of_lastCourse :
    Reads 10 (start 18446744073709551613) lastCourse lastItems
        ⟨18446744073709551615, 18446744073709551615⟩ ∧
      nonces lastItems = [18446744073709551614, 18446744073709551615] ∧
      failures lastItems = [.transport ""] ∧
      ∀ later, ∃ t' items' s', Reads 10 (start 18446744073709551613) (lastCourse ++ t')
        (lastItems ++ items') s' ∧ polls t' = later ∧ s'.pending = [] := by
  obtain ⟨hnonces, -, hfailures, -, -, hlater⟩ := emits_every_nonce_once reads_lastCourse
  refine ⟨reads_lastCourse, ?_, hfailures, hlater⟩
  rw [show pending ⟨18446744073709551615, 18446744073709551615⟩ = [] from rfl,
    List.append_nil] at hnonces
  exact hnonces

end Countersign.Subscription
