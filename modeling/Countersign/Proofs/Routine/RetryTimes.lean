import Countersign.Proofs.Routine.Retrying
import Countersign.Proofs.Routine.Timing
import Countersign.Simulation.Clock
import Mathlib.Algebra.Ring.Nat
import Mathlib.Data.Nat.Find

/-!
# When a retried operation ends, and how

An operation is tried again under a clock and a cancellation. Of its attempts it is foreseen how
each of them ends and how long it takes (`Routine.TimedRetry`). This settles everything else:

* `k` is the first attempt that is not in vain, if there is one (`TimedRetry.FirstSettled`);
* without cancellation, attempt number `min k maxRetries` is the last one (`TimedRetry.last`), and
  its outcome is the verdict (`TimedRetry.Verdict`): a value, an error that is final, or the error
  after which there are no more attempts;
* attempt number `n` begins at `TimedRetry.beginning r n`, after those before it and a delay for
  each of them. There is no delay behind the last one;
* a cancellation is noticed where another attempt would begin, and during a delay. So it is too late
  once the last attempt has begun, and the verdict of that attempt stands.

A run is taken apart attempt by attempt (`TimedRetry.Makes`, by induction on the delays that are
left of the supply), with the number of attempts that were made. What it concludes with then follows
by induction on the attempts (`TimedRetry.Makes.concludes`).
-/

namespace Countersign.Routine

variable {ε α : Type}

/-! ### An operation and its attempts -/

/-- **A retried operation of which the attempts are foreseen.** Attempt number `n` ends with
`outcome n` and takes the time `duration n`, whenever it begins. The last three fields are what
makes this a foresight: the timing tells the time, every attempt can be run to its end, and no run
of it ends otherwise. -/
structure TimedRetry (ε α : Type) where
  policy : RetryPolicy
  retryable : ε → Bool
  operation : Nat → Routine (Except ε α)
  timing : Timing
  start : Nat
  cancelAt : Option Nat
  outcome : Nat → Except ε α
  duration : Nat → Nat
  tellsTime : TellsTime cancelAt timing
  exists_run (n now : Nat) :
    ∃ t, Runs timing (operation n) now t (now + duration n) (outcome n)
  foreseen {n now stop : Nat} {t : List (Nat × Exchange)} {result : Except ε α} :
    Runs timing (operation n) now t stop result → stop = now + duration n ∧ result = outcome n

namespace TimedRetry

variable (r : TimedRetry ε α)

/-- What is run: `retry`, with the policy and the test of `r`. -/
def routine : Routine (Except (RetryError ε) α) :=
  retry r.policy r.retryable r.operation

/-! ### What is foreseen of the whole -/

/-- An attempt in vain: it fails in a way that is worth another attempt. Whether there is another
attempt left does not matter here. -/
def Vain (n : Nat) : Prop :=
  ∃ error, r.outcome n = .error error ∧ r.retryable error = true

/-- **The first attempt that is not in vain**, if there is one. All that is decided about the
attempts depends on it, and on the number of retries. -/
inductive FirstSettled : Option Nat → Prop where
  | found {k : Nat} (vain : ∀ n < k, r.Vain n) (settled : ¬ r.Vain k) : FirstSettled (some k)
  | never (vain : ∀ n, r.Vain n) : FirstSettled none

/-- There is a first attempt that is not in vain, or all of them are. -/
theorem exists_firstSettled : ∃ k, r.FirstSettled k := by
  classical
  by_cases h : ∃ k, ¬ r.Vain k
  · exact ⟨some (Nat.find h), .found (fun n hn => Decidable.of_not_not (Nat.find_min h hn))
      (Nat.find_spec h)⟩
  · exact ⟨none, .never fun n => Decidable.of_not_not fun hn => h ⟨n, hn⟩⟩

/-- The last attempt if there is no cancellation: the first one that is not in vain, as long as it
is allowed. -/
def last : Option Nat → Nat
  | some k => min k r.policy.maxRetries
  | none => r.policy.maxRetries

/-- When an attempt begins, if it is made: the attempts before it have taken their time, and there
was a delay behind each of them. -/
def beginning (n : Nat) : Nat :=
  r.start + ((List.range n).map r.duration).sum + n * r.policy.delay

/-- When an attempt is over, if it is made. -/
def ending (n : Nat) : Nat := r.beginning n + r.duration n

/-- An attempt ends behind all attempts up to it, with a delay between them. There is one delay less
than there are attempts. -/
theorem ending_eq (n : Nat) : r.ending n =
    r.start + ((List.range (n + 1)).map r.duration).sum + n * r.policy.delay := by
  simp only [ending, beginning, List.range_succ, List.map_append, List.sum_append, List.map_cons,
    List.map_nil, List.sum_singleton]
  omega

@[simp] theorem beginning_zero : r.beginning 0 = r.start := by
  simp [beginning]

/-- The next attempt begins a delay behind the end of this one. -/
theorem beginning_succ (n : Nat) : r.beginning (n + 1) = r.ending n + r.policy.delay := by
  rw [ending_eq, beginning, Nat.add_mul, Nat.one_mul, ← Nat.add_assoc]

theorem beginning_mono {m n : Nat} (h : m ≤ n) : r.beginning m ≤ r.beginning n := by
  induction h with
  | refl => exact Nat.le_refl _
  | step _ ih =>
    rw [Nat.succ_eq_add_one, beginning_succ, ending]
    omega

/-- When the attempts that were made are over. Behind them there may be a delay, which is not
counted. -/
def doneAt : (attempts : Nat) → Nat
  | 0 => r.start
  | n + 1 => r.ending n

theorem doneAt_le_beginning (n : Nat) : r.doneAt n ≤ r.beginning n := by
  cases n with
  | zero => simp [doneAt]
  | succ n =>
    rw [doneAt, beginning_succ]
    exact Nat.le_add_right _ _

/-- **What is decided by the first attempt that is not in vain**, or by the last one if none is
allowed that is not. The cases are exclusive, so a verdict is determined by the outcomes. -/
inductive Verdict (k : Option Nat) : Except (RetryError ε) α → Prop where
  | ok {n : Nat} {a : α} (first : k = some n) (allowed : n ≤ r.policy.maxRetries)
      (success : r.outcome n = .ok a) : Verdict k (.ok a)
  | aborted {n : Nat} {error : ε} (first : k = some n) (allowed : n ≤ r.policy.maxRetries)
      (failure : r.outcome n = .error error) : Verdict k (.error (.aborted error))
  | exhausted {error : ε} (missed : ∀ n ∈ k, r.policy.maxRetries < n)
      (failure : r.outcome r.policy.maxRetries = .error error) :
      Verdict k (.error (.exhausted (r.policy.maxRetries + 1) error))

/-! ### Attempt by attempt -/

/-- **What one attempt decides**, if no other follows. Unlike `Verdict` this looks at one attempt
only, since the loop knows nothing of those before it. -/
inductive Decides (n : Nat) : Except (RetryError ε) α → Prop where
  | ok {a : α} (success : r.outcome n = .ok a) : Decides n (.ok a)
  | aborted {error : ε} (failure : r.outcome n = .error error)
      (final : r.retryable error = false) : Decides n (.error (.aborted error))
  | exhausted {error : ε} (failure : r.outcome n = .error error)
      (worth : r.retryable error = true) (none_left : n = r.policy.maxRetries) :
      Decides n (.error (.exhausted (n + 1) error))

/-- **A run from an attempt on**, with the number of all attempts that are made in the end. Each
attempt is made at its time, and only if no cancellation came before. The constructors are the ways
in which `retryFrom` goes on: it is stopped before the attempt, the attempt decides, the delay
behind it is interrupted, or the next attempt follows. -/
inductive Makes : (n : Nat) → List (Nat × Exchange) → (attempts stop : Nat) →
    Except (RetryError ε) α → Prop where
  | stopped {n c : Nat} (mem : c ∈ r.cancelAt) (late : c ≤ r.beginning n) :
      Makes n [(r.beginning n, ⟨.isCancelled, true⟩)] n (r.beginning n) (.error .cancelled)
  | decided {n : Nat} {made : List (Nat × Exchange)} {result : Except (RetryError ε) α}
      (early : ∀ c ∈ r.cancelAt, r.beginning n ≤ c)
      (attempt : Runs r.timing (r.operation n) (r.beginning n) made (r.ending n) (r.outcome n))
      (decides : r.Decides n result) :
      Makes n ((r.beginning n, ⟨.isCancelled, false⟩) :: made) (n + 1) (r.ending n) result
  | interrupted {n c : Nat} {made : List (Nat × Exchange)}
      (early : ∀ c ∈ r.cancelAt, r.beginning n ≤ c)
      (attempt : Runs r.timing (r.operation n) (r.beginning n) made (r.ending n) (r.outcome n))
      (vain : r.Vain n) (left : n < r.policy.maxRetries)
      (mem : c ∈ r.cancelAt) (late : c ≤ r.beginning (n + 1)) :
      Makes n ((r.beginning n, ⟨.isCancelled, false⟩) ::
          (made ++ [(r.ending n, ⟨.pause r.policy.delay, .cancelled⟩)]))
        (n + 1) (max (r.ending n) c) (.error .cancelled)
  | again {n attempts stop : Nat} {made rest : List (Nat × Exchange)}
      {result : Except (RetryError ε) α}
      (early : ∀ c ∈ r.cancelAt, r.beginning n ≤ c)
      (attempt : Runs r.timing (r.operation n) (r.beginning n) made (r.ending n) (r.outcome n))
      (vain : r.Vain n) (left : n < r.policy.maxRetries)
      (waited : ∀ c ∈ r.cancelAt, r.beginning (n + 1) ≤ max (r.ending n) c)
      (next : Makes (n + 1) rest attempts stop result) :
      Makes n ((r.beginning n, ⟨.isCancelled, false⟩) ::
          (made ++ (r.ending n, ⟨.pause r.policy.delay, .elapsed⟩) :: rest))
        attempts stop result

variable {r}

/-- **One attempt, and what follows**: what is made of it if the attempts behind it are known.
`hnext` stands for the induction hypothesis of `exists_makes`. -/
theorem exists_makes_step {left n stop : Nat} {t : List (Nat × Exchange)}
    {result : Except (RetryError ε) α} (hleft : n + left = r.policy.maxRetries)
    (h : Runs r.timing (retryFrom r.operation r.retryable (.make r.policy.delay left) n)
      (r.beginning n) t stop result)
    (hnext : ∀ k rest, left = k + 1 →
      Runs r.timing (retryFrom r.operation r.retryable (.make r.policy.delay k) (n + 1))
        (r.beginning (n + 1)) rest stop result →
      ∃ attempts, r.Makes (n + 1) rest attempts stop result) :
    ∃ attempts, r.Makes n t attempts stop result := by
  rw [retryFrom_make] at h
  obtain ⟨seen, later, rest, rfl, hlook, hrest⟩ := runs_perform_bind_iff.mp h
  obtain ⟨rfl, ⟨rfl, early⟩ | ⟨rfl, c, mem, late⟩⟩ :=
    (r.tellsTime.isCancelled hlook).isCancelled_cases
  · -- The attempt is made, and ends as foreseen.
    obtain ⟨attempted, between, made, after, rfl, hattempt, hafter⟩ := runs_bind_iff.mp hrest
    obtain ⟨rfl, rfl⟩ := r.foreseen hattempt
    cases houtcome : r.outcome n with
    | ok a =>
      rw [houtcome] at hafter
      obtain ⟨rfl, rfl, rfl⟩ := runs_done_iff.mp hafter
      rw [List.append_nil]
      exact ⟨n + 1, .decided early hattempt (.ok houtcome)⟩
    | error error =>
      rw [houtcome] at hafter
      dsimp only at hafter
      cases hretryable : r.retryable error with
      | false =>
        rw [hretryable] at hafter
        obtain ⟨rfl, rfl, rfl⟩ := runs_done_iff.mp hafter
        rw [List.append_nil]
        exact ⟨n + 1, .decided early hattempt (.aborted houtcome hretryable)⟩
      | true =>
        have vain : r.Vain n := ⟨error, houtcome, hretryable⟩
        rw [hretryable] at hafter
        cases left with
        | zero =>
          -- It failed, and no other attempt is left.
          obtain ⟨rfl, rfl, rfl⟩ := runs_done_iff.mp hafter
          rw [List.append_nil]
          exact ⟨n + 1, .decided early hattempt (.exhausted houtcome hretryable hleft)⟩
        | succ k =>
          -- It failed, and there is a delay, which the cancellation may cut short.
          have hmore : n < r.policy.maxRetries := by omega
          obtain ⟨wait, later, rest, rfl, hpause, hrest⟩ := runs_perform_bind_iff.mp hafter
          obtain ⟨rfl, rfl, waited⟩ | ⟨rfl, c, mem, rfl, late⟩ :=
            (r.tellsTime.pause hpause).pause_cases
          · rw [← ending, ← beginning_succ] at hrest waited
            obtain ⟨attempts, hmakes⟩ := hnext k rest rfl hrest
            exact ⟨attempts, .again early hattempt vain hmore waited hmakes⟩
          · obtain ⟨rfl, rfl, rfl⟩ := runs_done_iff.mp hrest
            rw [← ending, ← beginning_succ] at late
            exact ⟨n + 1, .interrupted early hattempt vain hmore mem late⟩
  · -- The cancellation came before.
    obtain ⟨rfl, rfl, rfl⟩ := runs_done_iff.mp hrest
    exact ⟨n, .stopped mem late⟩

/-- A run from an attempt on makes this attempt and others behind it. The induction is on the
retries that are left. -/
theorem exists_makes {left n stop : Nat} {t : List (Nat × Exchange)}
    {result : Except (RetryError ε) α} (hleft : n + left = r.policy.maxRetries)
    (h : Runs r.timing (retryFrom r.operation r.retryable (.make r.policy.delay left) n)
      (r.beginning n) t stop result) : ∃ attempts, r.Makes n t attempts stop result := by
  induction left generalizing n t with
  | zero =>
    refine exists_makes_step hleft h ?_
    rintro k rest ⟨⟩
  | succ left ih =>
    refine exists_makes_step hleft h ?_
    rintro k rest ⟨⟩ hrest
    exact ih (by omega) hrest

/-- **Retrying comes to an end**, because each attempt does and their number is limited. `round` is
one attempt of it, and the induction is on the retries that are left. -/
theorem ends_retryFrom (r : TimedRetry ε α) (left n : Nat) :
    Ends r.timing (retryFrom r.operation r.retryable (.make r.policy.delay left) n) := by
  -- One attempt, if what comes behind it ends: a look at the token, the attempt, and perhaps a
  -- delay.
  have round : ∀ left n, (∀ k, left = k + 1 →
      Ends r.timing (retryFrom r.operation r.retryable (.make r.policy.delay k) (n + 1))) →
      Ends r.timing (retryFrom r.operation r.retryable (.make r.policy.delay left) n) := by
    intro left n hnext
    rw [retryFrom_make]
    refine .perform_bind r.tellsTime.exists_isCancelled fun cancelled => ?_
    split
    · exact .done _
    refine .bind (fun now => ?_) fun attempted => ?_
    · obtain ⟨t, h⟩ := r.exists_run n now
      exact ⟨t, _, _, h⟩
    split
    · exact .done _
    split
    · exact .done _
    cases left with
    | zero => exact .done _
    | succ k =>
      refine .perform_bind (fun now => r.tellsTime.exists_pause now _) fun wait => ?_
      cases wait with
      | cancelled => exact .done _
      | elapsed => exact hnext k rfl
  induction left generalizing n with
  | zero => exact round 0 n (by rintro k ⟨⟩)
  | succ left ih =>
    refine round (left + 1) n ?_
    rintro k ⟨⟩
    exact ih (n + 1)

/-! ### What it concludes with -/

section
variable {k : Option Nat}

/-- The attempts up to the last one are those that are allowed and come behind attempts in vain
only. -/
theorem FirstSettled.le_last_iff (first : r.FirstSettled k) {n : Nat} :
    n ≤ r.last k ↔ n ≤ r.policy.maxRetries ∧ ∀ m < n, r.Vain m := by
  cases first with
  | never vain => exact ⟨fun h => ⟨h, fun m _ => vain m⟩, And.left⟩
  | @found k vain settled =>
    rw [last, Nat.le_min]
    constructor
    · rintro ⟨hk, hallowed⟩
      exact ⟨hallowed, fun m hm => vain m (by omega)⟩
    · rintro ⟨hallowed, hvain⟩
      exact ⟨Nat.le_of_not_lt fun hk => settled (hvain k hk), hallowed⟩

/-- The first attempt that is not in vain, read off the attempts before it. -/
theorem FirstSettled.eq_some (first : r.FirstSettled k) {n : Nat} (hvain : ∀ m < n, r.Vain m)
    (hsettled : ¬ r.Vain n) : k = some n := by
  cases first with
  | never vain => exact absurd (vain n) hsettled
  | @found k vain settled =>
    rcases Nat.lt_trichotomy k n with h | rfl | h
    · exact absurd (hvain k h) settled
    · rfl
    · exact absurd (vain n h) hsettled

/-- **An attempt that decides** is the last one, and what it decides is the verdict. -/
theorem Decides.verdict (first : r.FirstSettled k) {n : Nat} {result : Except (RetryError ε) α}
    (h : r.Decides n result) (hn : n ≤ r.last k) : n = r.last k ∧ r.Verdict k result := by
  obtain ⟨hallowed, hvain⟩ := first.le_last_iff.mp hn
  -- An attempt that is not in vain is the first such, as those before it are.
  have hsettled : ¬ r.Vain n → k = some n ∧ n = r.last k := by
    intro settled
    obtain rfl := first.eq_some hvain settled
    exact ⟨rfl, (Nat.min_eq_left hallowed).symm⟩
  cases h with
  | @ok a success =>
    obtain ⟨hk, hlast⟩ := hsettled (by rintro ⟨error, failure, -⟩; simp [success] at failure)
    exact ⟨hlast, .ok hk hallowed success⟩
  | @aborted error failure final =>
    obtain ⟨hk, hlast⟩ := hsettled (by
      rintro ⟨error', failure', worth⟩
      obtain rfl : error = error' := Except.error.inj (failure.symm.trans failure')
      simp [final] at worth)
    exact ⟨hlast, .aborted hk hallowed failure⟩
  -- All attempts up to this one are in vain, so a first one that is not comes behind the last one
  -- allowed.
  | @exhausted error failure worth none_left =>
    subst none_left
    have hmissed : ∀ m ∈ k, r.policy.maxRetries < m := by
      rintro m hm
      cases first with
      | never => cases hm
      | @found k vain settled =>
        obtain rfl := Option.some.inj hm
        refine Nat.lt_of_le_of_ne (Nat.le_trans hn (Nat.min_le_left _ _)) ?_
        rintro rfl
        exact settled ⟨error, failure, worth⟩
    refine ⟨Nat.le_antisymm hn ?_, .exhausted hmissed failure⟩
    exact (first.le_last_iff.mp (Nat.le_refl _)).1

/-- An attempt in vain that is not the last one allowed has another one behind it. -/
theorem Vain.succ_le_last (first : r.FirstSettled k) {n : Nat} (h : r.Vain n)
    (left : n < r.policy.maxRetries) (hn : n ≤ r.last k) : n + 1 ≤ r.last k := by
  obtain ⟨-, hvain⟩ := first.le_last_iff.mp hn
  refine first.le_last_iff.mpr ⟨left, fun m hm => ?_⟩
  rcases Nat.lt_succ_iff_lt_or_eq.mp hm with hm | rfl
  · exact hvain m hm
  · exact h

/-- **How retrying ends.** It comes to the last attempt, and its verdict stands; or there is a
cancellation, and no attempt begins behind it: the attempts that were made began before, the next
one would not have. Then it ends at the cancellation, or with the attempt that was running. -/
inductive Concludes (r : TimedRetry ε α) (k : Option Nat) : (attempts stop : Nat) →
    Except (RetryError ε) α → Prop where
  | decided {result : Except (RetryError ε) α}
      (early : ∀ c ∈ r.cancelAt, r.beginning (r.last k) ≤ c) (verdict : r.Verdict k result) :
      Concludes r k (r.last k + 1)
        (r.start + ((List.range (r.last k + 1)).map r.duration).sum + r.last k * r.policy.delay)
        result
  | cancelled {attempts c : Nat} (mem : c ∈ r.cancelAt) (missing : attempts ≤ r.last k)
      (begun : ∀ n < attempts, r.beginning n ≤ c) (late : c ≤ r.beginning attempts) :
      Concludes r k attempts (max (r.doneAt attempts) c) (.error .cancelled)

/-- **What a run from an attempt on concludes with**, by induction on its attempts. Those before it
are known to have begun in time, and the delay before it not to have been cut short. -/
theorem Makes.concludes (first : r.FirstSettled k) {n attempts stop : Nat}
    {t : List (Nat × Exchange)} {result : Except (RetryError ε) α}
    (h : r.Makes n t attempts stop result) (hn : n ≤ r.last k)
    (hbegun : ∀ m < n, ∀ c ∈ r.cancelAt, r.beginning m ≤ c)
    (hwaited : ∀ c ∈ r.cancelAt, r.beginning n ≤ max (r.doneAt n) c) :
    r.Concludes k attempts stop result := by
  -- An attempt that begins in time joins those that did.
  have hjoin : ∀ {n : Nat}, (∀ m < n, ∀ c ∈ r.cancelAt, r.beginning m ≤ c) →
      (∀ c ∈ r.cancelAt, r.beginning n ≤ c) →
      ∀ m < n + 1, ∀ c ∈ r.cancelAt, r.beginning m ≤ c := by
    intro n before early m hm
    rcases Nat.lt_succ_iff_lt_or_eq.mp hm with hm | rfl
    · exact before m hm
    · exact early
  induction h with
  -- The delay before was not cut short, so the run stops at the beginning of the attempt that is
  -- missing.
  | @stopped n c mem late =>
    have hstop : r.beginning n = max (r.doneAt n) c := by
      have := hwaited c mem
      have := r.doneAt_le_beginning n
      omega
    rw [hstop]
    exact .cancelled mem hn (fun m hm => hbegun m hm c mem) late
  -- The attempt began in time, and what it decides is the verdict.
  | decided early attempt decides =>
    obtain ⟨rfl, verdict⟩ := decides.verdict first hn
    rw [ending_eq]
    exact .decided early verdict
  -- The delay behind the attempt was cut short, and no other attempt began.
  | @interrupted n c made early attempt vain left mem late =>
    have hstarted : n + 1 ≤ r.last k := vain.succ_le_last first left hn
    exact .cancelled mem hstarted (fun m hm => hjoin hbegun early m hm c mem) late
  | again early attempt vain left waited next ih =>
    exact ih (vain.succ_le_last first left hn) (hjoin hbegun early) waited

/-- A whole run makes attempts from the first one on, and concludes. -/
theorem exists_concludes (first : r.FirstSettled k) {t : List (Nat × Exchange)} {stop : Nat}
    {result : Except (RetryError ε) α} (h : Runs r.timing r.routine r.start t stop result) :
    ∃ attempts, r.Makes 0 t attempts stop result ∧ r.Concludes k attempts stop result := by
  rw [routine, retry, ← r.beginning_zero] at h
  obtain ⟨attempts, hmakes⟩ := exists_makes (Nat.zero_add _) h
  refine ⟨attempts, hmakes, hmakes.concludes first (Nat.zero_le _) ?_ fun c _ => ?_⟩
  · rintro m ⟨⟩
  · rw [beginning_zero, doneAt]
    exact Nat.le_max_left _ _

/-- **Retrying in time.** Every retried operation comes to an end. The first attempt that is not in
vain says which attempt is the last one, when it ends, and with what; a cancellation that is not
later than the beginning of the last attempt comes before it. With the moment of that beginning
itself put aside, retrying is cancelled exactly if the cancellation comes before it. -/
theorem runs_routine (r : TimedRetry ε α) : ∃ k, r.FirstSettled k ∧
    (∃ t stop result, Runs r.timing r.routine r.start t stop result) ∧
    ∀ t stop result, Runs r.timing r.routine r.start t stop result →
      ∃ attempts, r.Makes 0 t attempts stop result ∧ r.Concludes k attempts stop result ∧
        ((∀ c ∈ r.cancelAt, c ≠ r.beginning (r.last k)) →
          (result = .error .cancelled ↔ ∃ c ∈ r.cancelAt, c < r.beginning (r.last k))) := by
  obtain ⟨k, first⟩ := r.exists_firstSettled
  refine ⟨k, first, r.ends_retryFrom _ 0 r.start, fun t stop result hrun => ?_⟩
  obtain ⟨attempts, hmakes, hconcludes⟩ := exists_concludes first hrun
  refine ⟨attempts, hmakes, hconcludes, fun tieless => ?_⟩
  cases hconcludes with
  | decided early verdict =>
    constructor
    · rintro rfl
      cases verdict
    · rintro ⟨c, mem, hc⟩
      exact absurd (early c mem) (Nat.not_le_of_lt hc)
  | @cancelled attempts c mem missing begun late =>
    refine ⟨fun _ => ⟨c, mem, ?_⟩, fun _ => rfl⟩
    exact Nat.lt_of_le_of_ne (Nat.le_trans late (r.beginning_mono missing)) (tieless c mem)

end

/-! ### An operation whose attempts are planned -/

/-- **A clock, and work that takes its time** and is not interrupted by a cancellation, as with an
operation that does not look at its token. -/
inductive Working (cancelAt : Option Nat) : Timing where
  | clock {now later : Nat} {e : Exchange} (told : Clocked cancelAt now e later) :
      Working cancelAt now e later
  | labour (now ms : Nat) : Working cancelAt now ⟨.labour ms, ()⟩ (now + ms)

/-- How a planned attempt ends. A plan that is used up goes on with its last entry. -/
def plannedOutcome (plan : List Simulation.Attempt) (n : Nat) : Except String Nat :=
  match plan.getD (min n (plan.length - 1)) .success with
  | .success => .ok n
  | .failure error => .error error

/-- A planned attempt is a single piece of work, which takes its time and ends as it is planned. -/
theorem runs_plannedOperation_iff {cancelAt : Option Nat} {ms n now stop : Nat}
    {plan : List Simulation.Attempt} {t : List (Nat × Exchange)} {result : Except String Nat} :
    Runs (Working cancelAt) (Simulation.plannedOperation ms plan n) now t stop result ↔
      t = [(now, ⟨.labour ms, ()⟩)] ∧ stop = now + ms ∧ result = plannedOutcome plan n := by
  have hplan : Simulation.plannedOperation ms plan n =
      (Request.labour ms).perform >>= fun _ => .done (plannedOutcome plan n) := by
    rw [Simulation.plannedOperation, plannedOutcome]
    cases plan.getD (min n (plan.length - 1)) .success <;> rfl
  rw [hplan, runs_perform_bind_iff]
  constructor
  · rintro ⟨answer, later, rest, rfl, ⟨⟨⟩⟩ | _, hdone⟩
    obtain ⟨rfl, rfl, rfl⟩ := runs_done_iff.mp hdone
    exact ⟨rfl, rfl, rfl⟩
  · rintro ⟨rfl, rfl, rfl⟩
    exact ⟨(), _, [], rfl, .labour now ms, .done _ _⟩

/-- **Retrying as it is planned**: each attempt is work of one length. This is the instance of
`TimedRetry` behind the rehearsals of the program. -/
def planned (policy : RetryPolicy) (retryable : String → Bool) (ms : Nat)
    (plan : List Simulation.Attempt) (cancelAt : Option Nat) : TimedRetry String Nat where
  policy := policy
  retryable := retryable
  operation := Simulation.plannedOperation ms plan
  timing := Working cancelAt
  start := 0
  cancelAt := cancelAt
  outcome := plannedOutcome plan
  duration _ := ms
  tellsTime := by
    refine .of_clocked .clock (fun h => ?_) fun h => ?_
    · cases h with
      | clock told => exact told
    · cases h with
      | clock told => exact told
  exists_run n now := ⟨_, runs_plannedOperation_iff.mpr ⟨rfl, rfl, rfl⟩⟩
  foreseen h := (runs_plannedOperation_iff.mp h).2

/-! ### The rehearsal

What was said holds of `Simulation.rehearseRetry`, which is run: its clock gives the answers of a
timing, and counts an attempt for each piece of work. -/

open Simulation (Clock)

/-- **What a clock is asked.** Nothing else is asked when a plan is retried, so that a clock alone
can answer it. -/
inductive Timed : Request → Prop where
  | isCancelled : Timed .isCancelled
  | pause (ms : Nat) : Timed (.pause ms)
  | labour (ms : Nat) : Timed (.labour ms)

/-- The number of pieces of work in a run, which are its attempts. -/
def labours (t : List (Nat × Exchange)) : Nat :=
  t.countP fun e => match e.2.1 with
    | .labour _ => true
    | _ => false

/-- The work of a run is counted exchange by exchange. -/
theorem labours_cons (e : Nat × Exchange) (t : List (Nat × Exchange)) :
    labours (e :: t) = labours [e] + labours t := by
  show labours ([e] ++ t) = labours [e] + labours t
  exact List.countP_append

/-- **A clock answers in time**, and counts the work. Each case computes what `Clock.respond` does
with the request. -/
theorem Timed.respond {r : Request} (h : Timed r) (clock : Clock) :
    Working clock.cancelAt clock.now ⟨r, (clock.respond r).1⟩ (clock.respond r).2.now ∧
      (clock.respond r).2.cancelAt = clock.cancelAt ∧
      (clock.respond r).2.labours =
        clock.labours + labours [(clock.now, ⟨r, (clock.respond r).1⟩)] := by
  obtain ⟨now, cancelAt, done⟩ := clock
  cases h with
  | isCancelled =>
    refine ⟨.clock ?_, rfl, rfl⟩
    change Clocked cancelAt now ⟨.isCancelled, Clock.isCancelled ⟨now, cancelAt, done⟩⟩ now
    -- A clock without cancellation is never cancelled, and one with it is so from that time on.
    cases cancelAt with
    | none => exact .running (by rintro c ⟨⟩)
    | some c =>
      by_cases late : c ≤ now
      · rw [show Clock.isCancelled ⟨now, some c, done⟩ = true from decide_eq_true late]
        exact .cancelled rfl late
      · rw [show Clock.isCancelled ⟨now, some c, done⟩ = false from decide_eq_false late]
        exact .running (by rintro _ ⟨⟩; omega)
  | pause ms =>
    -- A pause is waited for to its end, or to the cancellation.
    have hawait : Clocked cancelAt now
        ⟨.pause ms, (Clock.await ⟨now, cancelAt, done⟩ (now + ms)).1⟩
        (Clock.await ⟨now, cancelAt, done⟩ (now + ms)).2.now ∧
        (Clock.await ⟨now, cancelAt, done⟩ (now + ms)).2.cancelAt = cancelAt ∧
        (Clock.await ⟨now, cancelAt, done⟩ (now + ms)).2.labours = done := by
      have hend : max now (now + ms) = now + ms := by omega
      cases cancelAt with
      | none =>
        refine ⟨?_, rfl, rfl⟩
        rw [Clock.await, hend]
        exact .elapsed (by rintro c ⟨⟩)
      | some c =>
        rw [Clock.await]
        dsimp only
        split
        · next late => exact ⟨.interrupted rfl (by omega), rfl, rfl⟩
        · next early =>
          rw [hend]
          exact ⟨.elapsed (by rintro _ ⟨⟩; omega), rfl, rfl⟩
    exact ⟨.clock hawait.1, hawait.2⟩
  | labour ms => exact ⟨.labour now ms, rfl, rfl⟩

/-- What is run with a clock runs in time, and the clock has counted its work in the end. -/
theorem exists_runs_of_clock {p : Routine α} (h : Conforms Timed (fun _ => True) p)
    (clock : Clock) : ∃ t, Runs (Working clock.cancelAt) p clock.now t
        (p.run Clock.respond clock).2.now (p.run Clock.respond clock).1 ∧
      (p.run Clock.respond clock).2.labours = clock.labours + labours t := by
  induction p generalizing clock with
  | done a => exact ⟨[], .done a clock.now, rfl⟩
  | ask r next ih =>
    obtain ⟨hanswer, hcancelAt, hlabours⟩ := h.1.respond clock
    obtain ⟨t, hrun, hcount⟩ := ih _ (h.2 (clock.respond r).1) (clock.respond r).2
    rw [hcancelAt] at hrun
    refine ⟨(clock.now, ⟨r, (clock.respond r).1⟩) :: t, .ask hanswer hrun, ?_⟩
    rw [run_ask, hcount, hlabours, Nat.add_assoc, ← labours_cons]

section
variable {policy : RetryPolicy} {worth : String → Bool} {ms : Nat}
  {plan : List Simulation.Attempt} {cancelAt : Option Nat}

/-- Retrying a plan asks a clock only. -/
theorem conforms_retry_planned : Conforms Timed (fun _ => True)
    (retry policy worth (Simulation.plannedOperation ms plan)) := by
  refine conforms_retryFrom .isCancelled (.pause _) (fun n => ?_) _ _
  rw [Simulation.plannedOperation]
  refine conforms_perform_bind.mpr ⟨.labour ms, fun _ => ?_⟩
  split
  · trivial
  · trivial

/-- **Each attempt that is made is one piece of work.** -/
theorem Makes.labours_eq {n attempts stop : Nat} {t : List (Nat × Exchange)}
    {result : Except (RetryError String) Nat}
    (h : (planned policy worth ms plan cancelAt).Makes n t attempts stop result) :
    n + labours t = attempts := by
  induction h with
  | stopped mem late => rfl
  | decided early attempt decides =>
    obtain ⟨rfl, -⟩ := runs_plannedOperation_iff.mp attempt
    rfl
  | interrupted early attempt vain left mem late =>
    obtain ⟨rfl, -⟩ := runs_plannedOperation_iff.mp attempt
    rfl
  | @again n attempts stop made rest result early attempt vain left waited next ih =>
    obtain ⟨rfl, -⟩ := runs_plannedOperation_iff.mp attempt
    simp only [labours, List.cons_append, List.nil_append, List.countP_cons, Bool.false_eq_true,
      if_false, if_true] at ih ⊢
    omega

/-- A rehearsal is a run in time of what is planned, and counts the attempts by their work. So all
that is known of runs holds of what the program reports. -/
theorem exists_runs_rehearseRetry (policy : RetryPolicy) (worth : String → Bool) (ms : Nat)
    (plan : List Simulation.Attempt) (cancelAt : Option Nat) :
    let report := Simulation.rehearseRetry policy worth ms plan cancelAt
    let foreseen := planned policy worth ms plan cancelAt
    ∃ t, Runs foreseen.timing foreseen.routine foreseen.start t report.elapsed report.result ∧
      labours t = report.attempts := by
  intro report foreseen
  have htimed : Conforms Timed (fun _ => True)
      (retry policy worth (Simulation.plannedOperation ms plan)) := conforms_retry_planned
  obtain ⟨t, hrun, hlabours⟩ := exists_runs_of_clock htimed ⟨0, cancelAt, 0⟩
  exact ⟨t, hrun, (hlabours.trans (Nat.zero_add _)).symm⟩

/-- The attempts of a plan begin at equal distances. -/
theorem beginning_planned (n : Nat) :
    (planned policy worth ms plan cancelAt).beginning n = n * (ms + policy.delay) := by
  have hdurations : ((List.range n).map fun _ => ms).sum = n * ms := by
    rw [List.map_const', List.length_range, List.sum_replicate_nat]
  rw [Nat.mul_add, ← hdurations]
  exact congrArg (· + n * policy.delay) (Nat.zero_add _)

end

/-- An operation that fails once, and would succeed when it is tried again after the delay of 100.
Each attempt takes 10. -/
def flaky (cancelAt : Option Nat) : TimedRetry String Nat :=
  planned ⟨3, 100⟩ (fun _ => true) 10 [.failure "flaky", .success] cancelAt

theorem not_vain_one_flaky (cancelAt : Option Nat) : ¬ (flaky cancelAt).Vain 1 := by
  rintro ⟨error, hfailure, -⟩
  cases hfailure

theorem vain_flaky (cancelAt : Option Nat) : ∀ n < 1, (flaky cancelAt).Vain n := by
  intro n hn
  obtain rfl : n = 0 := by omega
  exact ⟨"flaky", rfl, rfl⟩

theorem beginning_flaky (cancelAt : Option Nat) (n : Nat) :
    (flaky cancelAt).beginning n = n * 110 :=
  beginning_planned n

/-- **What two rehearsals report.** A task that is cancelled late makes the second attempt, which
succeeds. One that is cancelled in the delay makes no second attempt, and ends at the
cancellation. -/
theorem rehearsals_of_flaky :
    let rehearse := Simulation.rehearseRetry ⟨3, 100⟩ (fun _ => true) 10
      [.failure "flaky", .success]
    rehearse (some 400) = ⟨.ok 1, 2, 120⟩ ∧ rehearse (some 60) = ⟨.error .cancelled, 1, 60⟩ := by
  -- The report is known by what the run concludes with, and is not computed.
  have hrehearsal (cancelAt : Option Nat) : ∃ result attempts elapsed,
      Simulation.rehearseRetry ⟨3, 100⟩ (fun _ => true) 10 [.failure "flaky", .success] cancelAt =
          ⟨result, attempts, elapsed⟩ ∧
        (flaky cancelAt).Concludes (some 1) attempts elapsed result := by
    obtain ⟨k, first, -, hall⟩ := runs_routine (flaky cancelAt)
    obtain rfl : k = some 1 := first.eq_some (vain_flaky cancelAt) (not_vain_one_flaky cancelAt)
    obtain ⟨t, hrun, hmade⟩ := exists_runs_rehearseRetry ⟨3, 100⟩ (fun _ => true) 10
      [.failure "flaky", .success] cancelAt
    obtain ⟨attempts, hmakes, hconcludes, -⟩ := hall t _ _ hrun
    rw [← hmakes.labours_eq, Nat.zero_add, hmade] at hconcludes
    exact ⟨_, _, _, rfl, hconcludes⟩
  constructor
  · -- Cancelled late: of the verdicts only the success of the second attempt is left.
    obtain ⟨result, attempts, elapsed, hreport, hconcludes⟩ := hrehearsal (some 400)
    refine hreport.trans ?_
    cases hconcludes with
    | decided early verdict =>
      cases verdict with
      | ok hk allowed success =>
        obtain rfl := Option.some.inj hk
        obtain rfl := Except.ok.inj success
        rfl
      | aborted hk allowed failure =>
        obtain rfl := Option.some.inj hk
        cases failure
      | exhausted missed failure => exact absurd (missed 1 rfl) (by decide)
    | cancelled mem missing begun late =>
      -- The cancellation is behind the beginning of the second attempt.
      obtain rfl := Option.some.inj mem
      have hmissing : attempts ≤ 1 := missing
      rw [beginning_flaky] at late
      omega
  · obtain ⟨result, attempts, elapsed, hreport, hconcludes⟩ := hrehearsal (some 60)
    refine hreport.trans ?_
    cases hconcludes with
    -- The second attempt would begin behind the cancellation.
    | decided early verdict =>
      have hearly := early 60 rfl
      rw [beginning_flaky] at hearly
      exact absurd hearly (by decide)
    | cancelled mem missing begun late =>
      obtain rfl := Option.some.inj mem
      have hmissing : attempts ≤ 1 := missing
      rw [beginning_flaky] at late
      obtain rfl : attempts = 1 := by omega
      rfl

end TimedRetry

end Countersign.Routine
