import Countersign.Proofs.Routine.Timing
import Countersign.Proofs.Store.Polling
import Mathlib.Data.List.Basic

/-!
# When a quorum is looked for, and when it is found

A call for a quorum is not answered by the cache, and polls replicas whose contents change as they
like. Reading takes no time (`Store.TimedQuorum`), so what is collected is settled by when it is
collected, and that by the settings alone: at the multiples of the interval below the deadline, and
at the deadline (`TimedQuorum.offsets`).

* Poll number `i` is at the offset `min (i * interval) deadline` (`TimedQuorum.offset`), because
  each pause ends at the deadline if not before. That is how the polls are counted in the proof, by
  induction on those that are left, and it is shown to be the same (`TimedQuorum.offsets_eq_map`).
* The call ends with the first collection that reaches the threshold, or with the one at the
  deadline, unless the cancellation comes before (`TimedQuorum.Concludes`).
* A record that is held from some time on is counted in each collection behind it, and one that is
  held before the deadline therefore at the deadline (`TimedQuorum.IsConfirmOf.exists_mem_collected`).
-/

namespace Countersign.Store

open Routine

/-- **Replicas that are read at once**, whatever they hold at a time, and a cache that has nothing.
The reads are answered from `held`, which is any function of the time and the key: what the replicas
do between two polls is left open. -/
inductive QuorumTiming (cancelAt : Option Nat)
    (held : Nat → String → Except OverlayError (List Bytes)) : Timing where
  | clock {now later : Nat} {e : Exchange} (told : Clocked cancelAt now e later) :
      QuorumTiming cancelAt held now e later
  | forgotten (now : Nat) (target : QuorumTarget) :
      QuorumTiming cancelAt held now ⟨.recall target, none⟩ now
  | read (now : Nat) (keys : List String) (limit : Nat) :
      QuorumTiming cancelAt held now ⟨.getAll keys limit, keys.map (held now)⟩ now
  | remembered (now : Nat) (target : QuorumTarget) (records : List Bytes) :
      QuorumTiming cancelAt held now ⟨.remember target records, ()⟩ now

/-- The times at which a run read the replicas, in order. Everything that is said about when a call
collects is said about this list. -/
def collectionTimes (t : List (Nat × Exchange)) : List Nat :=
  t.filterMap fun e => match e.2.1 with
    | .getAll _ _ => some e.1
    | _ => none

/-- **A call for a quorum, in time**: when it begins, when it is cancelled, if it is, and what the
replicas hold under each key at each time. -/
structure TimedQuorum where
  config : StoreConfig
  target : QuorumTarget
  valset : Valset
  deadline : Nat
  start : Nat
  cancelAt : Option Nat
  held : Nat → String → Except OverlayError (List Bytes)

namespace TimedQuorum

variable (q : TimedQuorum)

/-- The call itself, which is `Store.queryQuorum` with the settings of `q`. -/
def routine : Routine (Except StoreError (List Confirm)) :=
  queryQuorum q.config q.target q.valset q.deadline

/-- Who answers the call, and when. The abbreviation keeps the four fields of `q` that matter for it
together. -/
abbrev timing : Timing := QuorumTiming q.cancelAt q.held

/-! ### The offsets of the collections -/

/-- The number of intervals that begin before the deadline, which is the deadline divided by the
interval, rounded up. -/
def rounds : Nat := (q.deadline + q.config.pollInterval - 1) / q.config.pollInterval

/-- When to collect, counted from the beginning of the call: after each interval that begins before
the deadline, and at the deadline. This is the schedule in the terms of a reader; the proofs count
polls by `offset`. -/
def offsets : List Nat :=
  (List.range q.rounds).map (· * q.config.pollInterval) ++ [q.deadline]

/-- The offset of a poll by its number. Behind the last round all polls would be at the deadline, so
the schedule stops there. -/
def offset (i : Nat) : Nat := min (i * q.config.pollInterval) q.deadline

variable {q}

theorem lt_rounds_iff (interval : 0 < q.config.pollInterval) {i : Nat} :
    i < q.rounds ↔ i * q.config.pollInterval < q.deadline := by
  rw [rounds, Nat.lt_div_iff_mul_lt interval]
  omega

theorem offset_of_lt (interval : 0 < q.config.pollInterval) {i : Nat} (h : i < q.rounds) :
    q.offset i = i * q.config.pollInterval :=
  Nat.min_eq_left (Nat.le_of_lt ((lt_rounds_iff interval).mp h))

theorem offset_rounds (interval : 0 < q.config.pollInterval) : q.offset q.rounds = q.deadline :=
  Nat.min_eq_right (Nat.le_of_not_lt fun h => Nat.lt_irrefl _ ((lt_rounds_iff interval).mpr h))

@[simp] theorem offset_zero : q.offset 0 = 0 := by
  simp [offset]

theorem offset_le_deadline (i : Nat) : q.offset i ≤ q.deadline := Nat.min_le_right _ _

theorem offset_mono {i j : Nat} (h : i ≤ j) : q.offset i ≤ q.offset j := by
  have := Nat.mul_le_mul_right q.config.pollInterval h
  simp only [offset]
  omega

/-- From one poll to the next it is an interval, or what is left until the deadline. This is the
pause that the call asks for, so the polls are where `offset` says. -/
theorem offset_succ {i : Nat} :
    q.offset i + min q.config.pollInterval (q.deadline - q.offset i) = q.offset (i + 1) := by
  simp only [offset, Nat.add_mul, Nat.one_mul]
  omega

theorem offsets_eq_map (interval : 0 < q.config.pollInterval) :
    q.offsets = (List.range (q.rounds + 1)).map q.offset := by
  rw [List.range_succ, List.map_append, List.map_singleton, offset_rounds interval, offsets]
  congr 1
  refine List.map_congr_left fun i hi => ?_
  exact (offset_of_lt interval (List.mem_range.mp hi)).symm

theorem length_offsets : q.offsets.length = q.rounds + 1 := by
  simp [offsets]

/-- The schedule is cut at a poll: the polls before it, the poll, and those behind it. -/
theorem exists_offsets_eq (interval : 0 < q.config.pollInterval) {i : Nat} (h : i ≤ q.rounds) :
    ∃ rest, q.offsets = (List.range i).map q.offset ++ q.offset i :: rest := by
  obtain ⟨d, hd⟩ := Nat.exists_eq_add_of_le h
  refine ⟨((List.range d).map (i + 1 + ·)).map q.offset, ?_⟩
  rw [offsets_eq_map interval, hd, Nat.add_assoc, Nat.add_comm d 1, ← Nat.add_assoc,
    List.range_add, List.range_succ]
  simp

/-! ### What is collected -/

variable (q)

/-- What the replicas show for each member at an offset. A key that could not be read shows nothing,
as in `Store.fetchCandidates`. -/
def candidates (offset : Nat) : List (List Bytes) :=
  q.valset.members.map fun m =>
    match q.held (q.start + offset) (confirmKey q.target.kind q.target.nonce m.address) with
    | .ok values => values
    | .error _ => []

/-- The confirms that a collection at an offset comes to, with the powers of their members. -/
def collected (offset : Nat) : List (UInt64 × Confirm) :=
  collect q.target q.valset.members (q.candidates offset)

/-- The power behind a collection at an offset, which is compared with the threshold. -/
def power (offset : Nat) : UInt64 := collectedPower (q.collected offset)

/-- A collection that has the power of a quorum. A call that is not cancelled ends with the first of
these. -/
def Reaches (offset : Nat) : Prop := q.valset.threshold ≤ q.power offset

instance (offset : Nat) : Decidable (q.Reaches offset) :=
  inferInstanceAs (Decidable (_ ≤ _))

variable {q}

theorem runs_fetchCandidates {o stop : Nat} {t : List (Nat × Exchange)}
    {candidates : List (List Bytes)}
    (h : Runs q.timing (fetchCandidates q.config q.target q.valset) (q.start + o) t stop
      candidates) :
    (∃ keys answers, t = [(q.start + o, ⟨.getAll keys q.config.requestTimeout, answers⟩)]) ∧
      stop = q.start + o ∧ candidates = q.candidates o := by
  rw [fetchCandidates] at h
  obtain ⟨answers, later, rest, rfl, hread, hdone⟩ := runs_perform_bind_iff.mp h
  obtain ⟨rfl, rfl, rfl⟩ := runs_done_iff.mp hdone
  cases hread with
  | clock told => cases told
  | read =>
    refine ⟨⟨_, _, rfl⟩, rfl, ?_⟩
    rw [List.map_map, List.map_map]
    rfl

/-- **A confirm of a member** for the target: its signature passes both checks, and its signer is
listed with the member's power. -/
structure IsConfirmOf (q : TimedQuorum) (confirm : Confirm) (member : Member) : Prop where
  kind : confirm.kind = q.target.kind
  checked : confirm.checkSignature q.target.nonce = .ok ()
  verified : verifyText q.target.digest confirm.signature confirm.signer = .ok ()
  found : q.valset.members.find? (·.address == confirm.signer) = some member

/-- A confirm's record that the replicas hold at an offset, among others that may be forged. -/
def Holds (q : TimedQuorum) (offset : Nat) (confirm : Confirm) : Prop :=
  ∃ values, q.held (q.start + offset)
      (confirmKey q.target.kind q.target.nonce confirm.signer) = .ok values ∧
    Bytes.ofText confirm.encode ∈ values

/-- A confirm that is held is counted, with the power of its member. The confirm that is counted
need not be the same one, since another valid record of the signer may come first. -/
theorem IsConfirmOf.exists_mem_collected {confirm : Confirm} {member : Member} {o : Nat}
    (h : q.IsConfirmOf confirm member) (holds : q.Holds o confirm) :
    ∃ counted, (member.power, counted) ∈ q.collected o ∧ counted.signer = confirm.signer := by
  obtain ⟨values, hheld, hmem⟩ := holds
  refine exists_mem_collect h.kind h.checked h.verified ?_ h.found
  rw [candidates, List.forall₂_map_right_iff, List.forall₂_same]
  intro m _ haddress
  rw [haddress, hheld]
  exact hmem

/-! ### Poll by poll -/

theorem tellsTime : TellsTime q.cancelAt q.timing := by
  refine .of_clocked .clock (fun h => ?_) fun h => ?_
  · cases h with
    | clock told => exact told
  · cases h with
    | clock told => exact told

/-- **One poll, and what follows**, with the times of the collections from it on. There is one
constructor for each way in which `Store.poll` goes on, and each says where the cancellation is. -/
inductive Polled (q : TimedQuorum) (polls o : Nat) : (times : List Nat) → (stop : Nat) →
    Except StoreError (List Confirm) → Prop where
  | stopped {c : Nat} (mem : c ∈ q.cancelAt) (missed : c ≤ q.start + o) :
      Polled q polls o [] (q.start + o) (.error .cancelled)
  | reached (early : ∀ c ∈ q.cancelAt, q.start + o ≤ c) (reaches : q.Reaches o) :
      Polled q polls o [q.start + o] (q.start + o) (.ok ((q.collected o).map Prod.snd))
  | late (early : ∀ c ∈ q.cancelAt, q.start + o ≤ c) (short : ¬ q.Reaches o)
      (due : q.deadline ≤ o) :
      Polled q polls o [q.start + o] (q.start + o)
        (.error (.quorumTimeout q.target.nonce (q.power o) q.valset.threshold))
  | interrupted {c : Nat} (early : ∀ c ∈ q.cancelAt, q.start + o ≤ c) (short : ¬ q.Reaches o)
      (left : o < q.deadline) (mem : c ∈ q.cancelAt)
      (missed : c ≤ q.start + (o + min q.config.pollInterval (q.deadline - o))) :
      Polled q polls o [q.start + o] c (.error .cancelled)
  | again {known : Collection q.target q.valset.members} {rest : List (Nat × Exchange)}
      {stop : Nat} {result : Except StoreError (List Confirm)}
      (early : ∀ c ∈ q.cancelAt, q.start + o ≤ c) (short : ¬ q.Reaches o) (left : o < q.deadline)
      (waited : ∀ c ∈ q.cancelAt, q.start + (o + min q.config.pollInterval (q.deadline - o)) ≤ c)
      (next : Runs q.timing
        (poll q.config q.target q.valset q.deadline q.start polls known)
        (q.start + (o + min q.config.pollInterval (q.deadline - o))) rest stop result) :
      Polled q polls o ((q.start + o) :: collectionTimes rest) stop result

/-- **Every run of polls** begins with one of these. The steps of the routine are followed one after
the other, and each leaves two ways open. -/
theorem polled_of_runs {polls o stop : Nat} {known : Collection q.target q.valset.members}
    {t : List (Nat × Exchange)} {result : Except StoreError (List Confirm)}
    (h : Runs q.timing (poll q.config q.target q.valset q.deadline q.start (polls + 1) known)
      (q.start + o) t stop result) : q.Polled polls o (collectionTimes t) stop result := by
  rw [poll] at h
  obtain ⟨seen, later, looked, rfl, hlook, hrest⟩ := runs_perform_bind_iff.mp h
  obtain ⟨rfl, ⟨rfl, early⟩ | ⟨rfl, c, mem, missed⟩⟩ :=
    (tellsTime.isCancelled hlook).isCancelled_cases
  · -- The call goes on, reads the replicas at once, and counts what they show.
    rw [if_neg Bool.false_ne_true] at hrest
    obtain ⟨candidates, between, read, after, rfl, hfetch, hafter⟩ := runs_bind_iff.mp hrest
    obtain ⟨⟨_, _, rfl⟩, rfl, rfl⟩ := runs_fetchCandidates hfetch
    change q.Polled polls o ((q.start + o) :: collectionTimes after) stop result
    dsimp only at hafter
    rw [Collection.confirms_renew] at hafter
    split at hafter
    · next reaches =>
      -- What was reached is remembered and given.
      obtain ⟨_, _, _, rfl, hremember, hdone⟩ := runs_perform_bind_iff.mp hafter
      obtain ⟨rfl, rfl, rfl⟩ := runs_done_iff.mp hdone
      cases hremember with
      | clock told => cases told
      | remembered => exact .reached early reaches
    · next short =>
      -- The power is not enough. The clock shows whether there is time left.
      obtain ⟨now, _, rest, rfl, hnow, hrest⟩ := runs_perform_bind_iff.mp hafter
      obtain ⟨rfl, rfl⟩ : now = q.start + o ∧ _ = q.start + o := by
        cases hnow with
        | clock told => exact told.now_cases
      rw [Nat.add_sub_cancel_left] at hrest
      split at hrest
      · next due =>
        -- The deadline has come, so the time is over.
        obtain ⟨rfl, rfl, rfl⟩ := runs_done_iff.mp hrest
        exact .late early short due
      · next left =>
        -- There is a pause, and behind it another poll unless the task is cancelled.
        have left : o < q.deadline := Nat.lt_of_not_le left
        obtain ⟨wait, _, rest, rfl, hpause, hrest⟩ := runs_perform_bind_iff.mp hrest
        obtain ⟨rfl, rfl, waited⟩ | ⟨rfl, c, mem, rfl, missed⟩ :=
          (tellsTime.pause hpause).pause_cases
        · -- The pause came to its end, and so it was not cut short.
          change q.Polled polls o ((q.start + o) :: collectionTimes rest) stop result
          rw [Nat.add_assoc] at hrest waited
          refine .again early short left (fun c mem => ?_) hrest
          exact Nat.le_trans (waited c mem) (Nat.max_le.mpr ⟨early c mem, Nat.le_refl c⟩)
        · -- The cancellation came in the pause, and ended it.
          obtain ⟨rfl, rfl, rfl⟩ := runs_done_iff.mp hrest
          rw [Nat.add_assoc] at missed
          rw [Nat.max_eq_right (early c mem)]
          exact .interrupted early short left mem missed
  · -- The cancellation was noticed before anything was read.
    obtain ⟨rfl, rfl, rfl⟩ := runs_done_iff.mp hrest
    exact .stopped mem missed

/-- **How a call ends**, with the offsets at which it collected: at the first collection that
reaches the threshold; at the deadline, if none does; or when it is cancelled, if that is no later
than the next collection would be. -/
inductive Concludes (q : TimedQuorum) : (polled : List Nat) → (stop : Nat) →
    Except StoreError (List Confirm) → Prop where
  | reached {missed rest : List Nat} {last : Nat} (split : q.offsets = missed ++ last :: rest)
      (short : ∀ o ∈ missed, ¬ q.Reaches o) (reaches : q.Reaches last)
      (early : ∀ c ∈ q.cancelAt, q.start + last ≤ c) :
      Concludes q (missed ++ [last]) (q.start + last) (.ok ((q.collected last).map Prod.snd))
  | late (short : ∀ o ∈ q.offsets, ¬ q.Reaches o)
      (early : ∀ c ∈ q.cancelAt, q.start + q.deadline ≤ c) :
      Concludes q q.offsets (q.start + q.deadline)
        (.error (.quorumTimeout q.target.nonce (q.power q.deadline) q.valset.threshold))
  | cancelled {polled rest : List Nat} {next c : Nat} (split : q.offsets = polled ++ next :: rest)
      (short : ∀ o ∈ polled, ¬ q.Reaches o) (mem : c ∈ q.cancelAt)
      (begun : ∀ o ∈ polled, q.start + o ≤ c) (missed : c ≤ q.start + next) :
      Concludes q polled (max q.start c) (.error .cancelled)

/-- The first `i` polls are behind: none of them reached the threshold, and no cancellation came
before them. This is the invariant of `exists_concludes_poll`. -/
def Behind (q : TimedQuorum) (i : Nat) : Prop :=
  ∀ o ∈ (List.range i).map q.offset, ¬ q.Reaches o ∧ ∀ c ∈ q.cancelAt, q.start + o ≤ c

theorem behind_zero : q.Behind 0 := by
  rintro o ⟨⟩

theorem Behind.succ {i : Nat} (h : q.Behind i) (short : ¬ q.Reaches (q.offset i))
    (early : ∀ c ∈ q.cancelAt, q.start + q.offset i ≤ c) : q.Behind (i + 1) := by
  intro o ho
  rw [List.range_succ, List.map_append, List.map_singleton, List.mem_append,
    List.mem_singleton] at ho
  rcases ho with ho | rfl
  · exact h o ho
  · exact ⟨short, early⟩

/-- **Polling from one poll on.** The induction is on the polls that are left, of which there are
enough to come to the deadline; the pause before this one was not cut short. -/
theorem exists_concludes_poll (interval : 0 < q.config.pollInterval) {polls i stop : Nat}
    {known : Collection q.target q.valset.members} {t : List (Nat × Exchange)}
    {result : Except StoreError (List Confirm)} (hi : i ≤ q.rounds) (hpolls : q.rounds < i + polls)
    (hbehind : q.Behind i) (hwaited : ∀ c ∈ q.cancelAt, q.start + q.offset i ≤ max q.start c)
    (h : Runs q.timing (poll q.config q.target q.valset q.deadline q.start polls known)
      (q.start + q.offset i) t stop result) :
    ∃ polled, collectionTimes t = polled.map (q.start + ·) ∧
      q.Concludes ((List.range i).map q.offset ++ polled) stop result := by
  induction polls generalizing i known t with
  -- There are more polls than rounds, so they do not run out here.
  | zero => omega
  | succ polls ih =>
    obtain ⟨rest, hsplit⟩ := exists_offsets_eq interval hi
    have hpolled := polled_of_runs h
    generalize collectionTimes t = times at hpolled ⊢
    -- Behind this poll, if it is before the deadline, there is a next one.
    have hnext : q.offset i < q.deadline → i + 1 ≤ q.rounds := by
      intro left
      refine Nat.lt_of_le_of_ne hi ?_
      rintro rfl
      rw [offset_rounds interval] at left
      exact Nat.lt_irrefl _ left
    -- The polls behind, together with this one, are those behind the next one.
    have hjoin : (List.range i).map q.offset ++ [q.offset i] =
        (List.range (i + 1)).map q.offset := by
      rw [List.range_succ, List.map_append, List.map_singleton]
    cases hpolled with
    | @stopped c mem missed =>
      -- It is the pause before that ended at the cancellation, or the call began behind it.
      have hstop : q.start + q.offset i = max q.start c := by
        have := hwaited c mem
        omega
      rw [hstop]
      refine ⟨[], rfl, ?_⟩
      rw [List.append_nil]
      exact .cancelled hsplit (fun o ho => (hbehind o ho).1) mem
        (fun o ho => (hbehind o ho).2 c mem) missed
    | reached early reaches =>
      -- This is the first collection that reaches the threshold, as none of those behind did.
      exact ⟨[q.offset i], rfl, .reached hsplit (fun o ho => (hbehind o ho).1) reaches early⟩
    | late early short due =>
      -- The deadline has come, so this is the last of all polls.
      obtain rfl : i = q.rounds := by
        refine Nat.le_antisymm hi (Nat.le_of_not_lt fun hlt => ?_)
        have := (lt_rounds_iff interval).mp hlt
        rw [offset_of_lt interval hlt] at due
        omega
      refine ⟨[q.offset q.rounds], rfl, ?_⟩
      have hshort := hbehind.succ short early
      rw [Behind, ← offsets_eq_map interval] at hshort
      rw [hjoin, ← offsets_eq_map interval, offset_rounds interval]
      rw [offset_rounds interval] at early
      exact .late (fun o ho => (hshort o ho).1) early
    | @interrupted c early short left mem missed =>
      -- The cancellation came before the next poll, so this collection was the last one.
      obtain ⟨rest, hsplit⟩ := exists_offsets_eq interval (hnext left)
      have hbehind := hbehind.succ short early
      have hstop : stop = max q.start stop := by
        have := early stop mem
        omega
      rw [offset_succ] at missed
      rw [hstop]
      refine ⟨[q.offset i], rfl, ?_⟩
      rw [hjoin]
      exact .cancelled hsplit (fun o ho => (hbehind o ho).1) mem
        (fun o ho => (hbehind o ho).2 stop mem) missed
    | again early short left waited next =>
      -- The pause is over at the next poll, from where the induction goes on.
      rw [offset_succ] at waited next
      obtain ⟨polled, htimes, hconcludes⟩ := ih (hnext left) (by omega) (hbehind.succ short early)
        (fun c mem => Nat.le_trans (waited c mem) (Nat.le_max_right _ _)) next
      refine ⟨q.offset i :: polled, ?_, ?_⟩
      · rw [List.map_cons, htimes]
      · rw [List.append_cons, hjoin]
        exact hconcludes

/-! ### Whole calls -/

theorem rounds_lt_pollBound (interval : 0 < q.config.pollInterval) :
    q.rounds < pollBound q.config q.deadline := by
  rw [pollBound, Nat.max_eq_right interval, rounds]
  have hle : (q.deadline + q.config.pollInterval - 1) / q.config.pollInterval ≤
      (q.deadline + q.config.pollInterval) / q.config.pollInterval :=
    Nat.div_le_div_right (Nat.sub_le _ _)
  rw [Nat.add_div_right _ interval] at hle
  omega

/-- A call comes to an end whatever the replicas hold, because the number of polls is bounded. -/
theorem ends_routine (q : TimedQuorum) : Ends q.timing q.routine := by
  refine conforms_queryQuorum.ends fun r hasked now => ?_
  cases hasked with
  | «recall» => exact ⟨none, now, .forgotten now _⟩
  | now => exact ⟨now, now, .clock (.now now)⟩
  | isCancelled => exact tellsTime.exists_isCancelled now
  | candidates => exact ⟨_, now, .read now _ _⟩
  | remember reached => exact ⟨(), now, .remembered now _ _⟩
  | pause ms => exact tellsTime.exists_pause now ms

/-- What a whole call concludes with. The cache is asked first and has nothing, so that polling
begins at the start of the call with no polls behind. -/
theorem exists_concludes (interval : 0 < q.config.pollInterval) (power : 0 < q.valset.totalPower)
    {t : List (Nat × Exchange)} {stop : Nat} {result : Except StoreError (List Confirm)}
    (h : Runs q.timing q.routine q.start t stop result) :
    ∃ polled, collectionTimes t = polled.map (q.start + ·) ∧ q.Concludes polled stop result := by
  rw [routine, queryQuorum, if_neg (Valset.threshold_ne_zero power)] at h
  obtain ⟨recalled, _, rest, rfl, hrecall, hrest⟩ := runs_perform_bind_iff.mp h
  cases hrecall with
  | clock told => cases told
  | forgotten =>
    -- The time is read once, and it is the start of the call.
    obtain ⟨started, _, rest, rfl, hnow, hpoll⟩ := runs_perform_bind_iff.mp hrest
    obtain ⟨rfl, rfl⟩ : started = q.start ∧ _ = q.start := by
      cases hnow with
      | clock told => exact told.now_cases
    have hpoll' : Runs q.timing (poll q.config q.target q.valset q.deadline q.start
        (pollBound q.config q.deadline) (.ofCandidates [])) (q.start + q.offset 0) rest stop
        result := by
      rw [offset_zero]
      exact hpoll
    change ∃ polled, collectionTimes rest = _ ∧ _
    refine exists_concludes_poll interval (Nat.zero_le _) ?_ behind_zero (fun c _ => ?_) hpoll'
    · -- The polls that are counted out are more than the rounds.
      rw [Nat.zero_add]
      exact rounds_lt_pollBound interval
    · -- The first poll has no pause before it.
      rw [offset_zero]
      exact Nat.le_max_left _ _

/-- The offset of the collection that decides: the first one that reaches the threshold, or the one
at the deadline. It depends on the replicas and the settings only, not on the run. -/
def decisive (q : TimedQuorum) : Nat :=
  (q.offsets.find? fun o => decide (q.Reaches o)).getD q.deadline

theorem decisive_eq {front back : List Nat} (split : q.offsets = front ++ back)
    (short : ∀ o ∈ front, ¬ q.Reaches o) :
    q.decisive = (back.find? fun o => decide (q.Reaches o)).getD q.deadline := by
  have hfront : (front.find? fun o => decide (q.Reaches o)) = none :=
    List.find?_eq_none.mpr fun o ho => by simpa using short o ho
  rw [decisive, split, List.find?_append, hfront, Option.none_or]

theorem decisive_eq_of_reaches {missed rest : List Nat} {last : Nat}
    (split : q.offsets = missed ++ last :: rest) (short : ∀ o ∈ missed, ¬ q.Reaches o)
    (reaches : q.Reaches last) : q.decisive = last := by
  rw [decisive_eq split short, List.find?_cons_of_pos (by simpa using reaches)]
  rfl

theorem decisive_eq_deadline (short : ∀ o ∈ q.offsets, ¬ q.Reaches o) :
    q.decisive = q.deadline :=
  decisive_eq (List.append_nil _).symm short

/-- **The collection that decides** is none of those before that did not. So a call that was
cancelled before its next collection was cancelled before the decision. -/
theorem le_decisive (interval : 0 < q.config.pollInterval) {polled rest : List Nat} {next : Nat}
    (split : q.offsets = polled ++ next :: rest) (short : ∀ o ∈ polled, ¬ q.Reaches o) :
    next ≤ q.decisive := by
  have hsorted : q.offsets.Pairwise (· ≤ ·) := by
    rw [offsets_eq_map interval, List.pairwise_map]
    exact List.pairwise_lt_range.imp fun h => offset_mono (Nat.le_of_lt h)
  have hnext : next ≤ q.deadline := by
    have hmem : next ∈ q.offsets := by simp [split]
    rw [offsets_eq_map interval] at hmem
    obtain ⟨i, -, rfl⟩ := List.mem_map.mp hmem
    exact offset_le_deadline i
  rw [split, List.pairwise_append, List.pairwise_cons] at hsorted
  rw [decisive_eq split short]
  cases hfound : (next :: rest).find? fun o => decide (q.Reaches o) with
  | none => exact hnext
  | some o =>
    rcases List.mem_cons.mp (List.mem_of_find?_eq_some hfound) with rfl | ho
    · exact Nat.le_refl _
    · exact hsorted.2.1.1 o ho

namespace Concludes

variable {polled : List Nat} {stop : Nat} {result : Except StoreError (List Confirm)}

theorem length_le (h : q.Concludes polled stop result) : polled.length ≤ q.rounds + 1 := by
  rw [← length_offsets]
  cases h with
  | reached split => simp [split]
  | late => exact Nat.le_refl _
  | cancelled split => simp [split]

/-- The time runs out exactly if no collection reaches the threshold, as long as the call is not
cancelled. -/
theorem late_iff (h : q.Concludes polled stop result) (hresult : result ≠ .error .cancelled) :
    (∃ short, result = .error (.quorumTimeout q.target.nonce short q.valset.threshold)) ↔
      ∀ o ∈ q.offsets, ¬ q.Reaches o := by
  cases h with
  | @reached missed rest last split short reaches =>
    have hmem : last ∈ q.offsets := by simp [split]
    refine ⟨?_, fun hnever => absurd reaches (hnever last hmem)⟩
    rintro ⟨_, ⟨⟩⟩
  | late short => exact ⟨fun _ => short, fun _ => ⟨_, rfl⟩⟩
  | cancelled => exact absurd rfl hresult

/-- **The call is cancelled exactly if the cancellation comes before the decision**, unless both
come at one moment. -/
theorem cancelled_iff (h : q.Concludes polled stop result) (interval : 0 < q.config.pollInterval)
    (tieless : ∀ c ∈ q.cancelAt, c ≠ q.start + q.decisive) :
    result = .error .cancelled ↔ ∃ c ∈ q.cancelAt, c < q.start + q.decisive := by
  cases h with
  | reached split short reaches early =>
    rw [decisive_eq_of_reaches split short reaches]
    refine ⟨by rintro ⟨⟩, ?_⟩
    rintro ⟨c, mem, hc⟩
    exact absurd (early c mem) (Nat.not_le_of_lt hc)
  | late short early =>
    rw [decisive_eq_deadline short]
    refine ⟨by rintro ⟨⟩, ?_⟩
    rintro ⟨c, mem, hc⟩
    exact absurd (early c mem) (Nat.not_le_of_lt hc)
  | @cancelled _ rest next c split short mem begun missed =>
    refine ⟨fun _ => ⟨c, mem, ?_⟩, fun _ => rfl⟩
    have := le_decisive interval split short
    have := tieless c mem
    omega

end Concludes

/-! ### A record that comes late -/

/-- A call while the only record comes late: at first nothing is held, and from time 3 on the record
of the only member. With an interval of 2 and a deadline of 5 the polls are at 0, 2, 4 and 5. -/
def lateRecord (target : QuorumTarget) (confirm : Confirm) : TimedQuorum where
  config := ⟨10, 2, 10⟩
  target := target
  valset := soleValset confirm.signer
  deadline := 5
  start := 0
  cancelAt := none
  held time _ := .ok (if time < 3 then [] else [Bytes.ofText confirm.encode])

section
variable {target : QuorumTarget} {confirm : Confirm}

theorem power_lateRecord : 0 < (lateRecord target confirm).valset.totalPower := by
  change (0 : UInt64) < saturatingAdd 0 1
  decide

theorem threshold_lateRecord : (lateRecord target confirm).valset.threshold = 1 :=
  threshold_soleValset confirm.signer

theorem offsets_lateRecord : (lateRecord target confirm).offsets = [0, 2] ++ 4 :: [5] := by
  have hrounds : (lateRecord target confirm).rounds = 3 := by
    change (5 + 2 - 1) / 2 = 3
    decide
  rw [offsets, hrounds]
  rfl

theorem collected_lateRecord (o : Nat) : (lateRecord target confirm).collected o =
    collect target [⟨1, confirm.signer⟩]
      [if o < 3 then [] else [Bytes.ofText confirm.encode]] := by
  simp [collected, candidates, lateRecord, soleValset]

theorem not_holds_lateRecord {o : Nat} (h : o < 3) :
    ¬ (lateRecord target confirm).Holds o confirm := by
  rintro ⟨values, hvalues, hmem⟩
  change Except.ok (if 0 + o < 3 then [] else _) = _ at hvalues
  rw [if_pos (by omega)] at hvalues
  obtain rfl := Except.ok.inj hvalues
  cases hmem

theorem not_reaches_lateRecord {o : Nat} (h : o < 3) : ¬ (lateRecord target confirm).Reaches o := by
  have hcollected : (lateRecord target confirm).collected o = [] := by
    rw [collected_lateRecord, if_pos h]
    rfl
  rw [Reaches, TimedQuorum.power, hcollected, threshold_lateRecord]
  decide

theorem collected_lateRecord_four (hkind : confirm.kind = target.kind)
    (hcheck : confirm.checkSignature target.nonce = .ok ())
    (hverify : verifyText target.digest confirm.signature confirm.signer = .ok ()) :
    (lateRecord target confirm).collected 4 = [(1, confirm)] := by
  have hkept : confirmAmong target ⟨1, confirm.signer⟩ [Bytes.ofText confirm.encode] =
      some confirm := confirmAmong_encode hkind rfl hcheck hverify []
  rw [collected_lateRecord, if_neg (by decide), collect_cons, hkept]
  rfl

/-- The third collection decides, because it is the first one behind the time of the record. -/
theorem decisive_lateRecord (h : (lateRecord target confirm).Reaches 4) :
    (lateRecord target confirm).decisive = 4 := by
  refine decisive_eq_of_reaches offsets_lateRecord (fun o ho => not_reaches_lateRecord ?_) h
  rcases List.mem_pair.mp ho with rfl | rfl <;> decide

end

/-! ### The whole of it -/

/-- **A quorum in time.** A call that the cache does not answer comes to an end. It collects at the
offsets that are foreseen, up to the collection that decides, unless it is cancelled before, and
then it ends at once. So it ends with confirms if some collection reaches the threshold, and
otherwise at the deadline for want of them. A confirm that is held from some time on is counted in
each collection from then on, of which the one at the deadline is the last. -/
theorem quorum_in_time (q : TimedQuorum) (interval : 0 < q.config.pollInterval)
    (power : 0 < q.valset.totalPower) :
    (∃ t stop result, Runs q.timing q.routine q.start t stop result) ∧
    (∀ t stop result, Runs q.timing q.routine q.start t stop result →
      ∃ polled, collectionTimes t = polled.map (q.start + ·) ∧
        polled.length ≤ (q.deadline + q.config.pollInterval - 1) / q.config.pollInterval + 1 ∧
        q.Concludes polled stop result ∧
        (result ≠ .error .cancelled →
          ((∃ short, result = .error (.quorumTimeout q.target.nonce short q.valset.threshold)) ↔
            ∀ o ∈ q.offsets, ¬ q.Reaches o)) ∧
        ((∀ c ∈ q.cancelAt, c ≠ q.start + q.decisive) →
          (result = .error .cancelled ↔ ∃ c ∈ q.cancelAt, c < q.start + q.decisive))) ∧
    q.deadline ∈ q.offsets ∧
    ∀ confirm member since, q.IsConfirmOf confirm member →
      (∀ o, since ≤ o → q.Holds o confirm) →
      ∀ o ∈ q.offsets, since ≤ o →
        ∃ counted, (member.power, counted) ∈ q.collected o ∧ counted.signer = confirm.signer := by
  refine ⟨q.ends_routine q.start, fun t stop result hrun => ?_, by simp [offsets], ?_⟩
  · -- What a run concludes with says everything about its end.
    obtain ⟨polled, htimes, hconcludes⟩ := exists_concludes interval power hrun
    exact ⟨polled, htimes, hconcludes.length_le, hconcludes, hconcludes.late_iff,
      hconcludes.cancelled_iff interval⟩
  · intro confirm member since hconfirm hholds o _ hsince
    exact hconfirm.exists_mem_collected (hholds o hsince)

/-- **A record that comes late**: nothing is there for the first two polls, and the only member's
record for the third. -/
theorem quorum_in_time_late_record : ∃ (q : TimedQuorum) (confirm : Confirm),
    0 < q.config.pollInterval ∧ 0 < q.valset.totalPower ∧ q.config.pollInterval = 2 ∧
      q.deadline = 5 ∧ q.start = 0 ∧ (∀ o < 3, ¬ q.Holds o confirm) ∧
      ∃ t, Runs q.timing q.routine 0 t 4 (.ok [confirm]) := by
  obtain ⟨target, -, confirm, -, -, -, hkind, hcheck, hverify⟩ := exists_confirm
  have hcollected := collected_lateRecord_four hkind hcheck hverify
  have hreaches : (lateRecord target confirm).Reaches 4 := by
    rw [Reaches, TimedQuorum.power, hcollected, threshold_lateRecord]
    change 1 ≤ saturatingAdd 0 1
    decide
  have hinterval : 0 < (lateRecord target confirm).config.pollInterval := by
    change 0 < 2
    decide
  -- There is a run; it is not cancelled, and the deadline is not what ends it.
  obtain ⟨⟨t, stop, result, hrun⟩, hall, -⟩ :=
    quorum_in_time (lateRecord target confirm) hinterval power_lateRecord
  obtain ⟨polled, -, -, hconcludes, -⟩ := hall t stop result hrun
  cases hconcludes with
  -- The collection that decides is the third one, behind the time of the record.
  | reached split short reaches =>
    have hlast := (decisive_eq_of_reaches split short reaches).symm.trans
      (decisive_lateRecord hreaches)
    subst hlast
    rw [hcollected] at hrun
    exact ⟨lateRecord target confirm, confirm, hinterval, power_lateRecord, rfl, rfl, rfl,
      fun o => not_holds_lateRecord, t, hrun⟩
  | late short => exact absurd hreaches (short 4 (by simp [offsets_lateRecord]))
  | cancelled split short mem => cases mem

end TimedQuorum

end Countersign.Store
