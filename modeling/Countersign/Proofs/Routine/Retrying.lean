import Countersign.Proofs.Routine.Conforming
import Countersign.Retry

/-!
# Courses of an operation that is tried again

What one attempt can come to is said once (`Routine.Attempted`, `Routine.attempted_of_follows`).
What a whole course comes to follows by induction on the attempts that are left.

A retried operation that succeeds ends with a successful attempt, and one that does not has none.
What comes before is of three kinds only (`Routine.Preparing`): looking for cancellation, pausing,
and the exchanges of attempts that failed.
-/

namespace Countersign.Routine

variable {ε α : Type} {delay : Nat} {operation : Nat → Routine (Except ε α)} {retryable : ε → Bool}

/-! ### The supply of delays -/

/-- One attempt and what is done about its failure, with the next delay taken from the supply. The
model looks at the same delay with a proof that it was taken, for the recursion to end; from here on
the proof is gone. -/
theorem retryFrom_eq (b : Backoff) (attempt : Nat) :
    retryFrom operation retryable b attempt = (do
      if ← Request.isCancelled.perform then return .error .cancelled
      match ← operation attempt with
      | .ok a => return .ok a
      | .error e =>
        if !retryable e then return .error (.aborted e)
        match b.next with
        | (none, _) => return .error (.exhausted (attempt + 1) e)
        | (some delay, rest) =>
          match ← (Request.pause delay).perform with
          | .cancelled => return .error .cancelled
          | .elapsed => retryFrom operation retryable rest (attempt + 1)) := by
  rw [retryFrom]
  refine congrArg (Request.isCancelled.perform >>= ·) (funext fun seen => congrArg (ite _ _) ?_)
  refine congrArg (operation attempt >>= ·) (funext fun result => ?_)
  cases result with
  | ok a => rfl
  | error e =>
    refine congrArg (ite _ _) ?_
    split
    · next hnone => exact hnone ▸ rfl
    · next hsome => exact hsome ▸ rfl

/-- Attempts do not depend on how much of the supply was used, but on what is left of it. The
induction is on what is left: both supplies are used up, or both give a delay and have one less. -/
theorem retryFrom_congr {b b' : Backoff} (hinterval : b.interval = b'.interval)
    (hleft : b.left = b'.left) (attempt : Nat) :
    retryFrom operation retryable b attempt = retryFrom operation retryable b' attempt := by
  induction hn : b.left generalizing b b' attempt with
  | zero =>
    obtain ⟨-, hnone⟩ | ⟨_, -, -, hmore⟩ := b.next_cases
    · obtain ⟨-, hnone'⟩ | ⟨_, -, -, hmore'⟩ := b'.next_cases
      · rw [retryFrom_eq b, retryFrom_eq b', hnone, hnone']
      · omega
    · omega
  | succ n ih =>
    obtain ⟨hzero, -⟩ | ⟨rest, hsome, hrest, hmore⟩ := b.next_cases
    · omega
    · obtain ⟨hzero', -⟩ | ⟨rest', hsome', hrest', hmore'⟩ := b'.next_cases
      · omega
      · have hnext : retryFrom operation retryable rest (attempt + 1) =
            retryFrom operation retryable rest' (attempt + 1) :=
          ih (by rw [hrest, hrest', hinterval]) (by omega) (attempt + 1) (by omega)
        rw [retryFrom_eq b, retryFrom_eq b', hsome, hsome', hinterval]
        dsimp only
        rw [hnext]

/-- **Attempts with a number of retries left.** A course is read with a fresh supply, which has as
many delays as there are retries. What is left behind one of them is as good as a fresh supply, so
the same holds of the next attempt with one retry less. Every statement about retries rests on this
one. -/
theorem retryFrom_make (retries attempt : Nat) :
    retryFrom operation retryable (.make delay retries) attempt = (do
      if ← Request.isCancelled.perform then return .error .cancelled
      match ← operation attempt with
      | .ok a => return .ok a
      | .error e =>
        if !retryable e then return .error (.aborted e)
        match retries with
        | 0 => return .error (.exhausted (attempt + 1) e)
        | left + 1 =>
          match ← (Request.pause delay).perform with
          | .cancelled => return .error .cancelled
          | .elapsed => retryFrom operation retryable (.make delay left) (attempt + 1)) := by
  rw [retryFrom_eq]
  cases retries with
  | zero => rfl
  | succ left =>
    have hrest : retryFrom operation retryable ⟨delay, left + 1, 1⟩ (attempt + 1) =
        retryFrom operation retryable (.make delay left) (attempt + 1) :=
      retryFrom_congr (by rfl) (by rfl) (attempt + 1)
    dsimp only
    rw [← hrest]
    rfl

/-! ### What an attempt comes to -/

/-- **What may come before the successful attempt**, if there is one: a look at the token, a pause,
or an exchange of an attempt that failed. -/
inductive Preparing (delay : Nat) (operation : Nat → Routine (Except ε α)) : Exchange → Prop where
  | isCancelled (answer : Bool) : Preparing delay operation ⟨.isCancelled, answer⟩
  | pause (answer : Wait) : Preparing delay operation ⟨.pause delay, answer⟩
  | failed {attempt : Nat} {t : List Exchange} {error : ε} {e : Exchange}
      (h : Follows (operation attempt) t (.error error)) (he : e ∈ t) : Preparing delay operation e

/-- **What comes of a failed attempt**: it is final, or the last one, or there is a pause, which may
be cut short, and then more attempts. -/
inductive AfterFailure (delay : Nat) (operation : Nat → Routine (Except ε α))
    (retryable : ε → Bool) (error : ε) :
    (retries attempt : Nat) → List Exchange → Except (RetryError ε) α → Prop where
  | aborted {retries attempt : Nat} (final : retryable error = false) :
      AfterFailure delay operation retryable error retries attempt [] (.error (.aborted error))
  | exhausted {attempt : Nat} (worth : retryable error = true) :
      AfterFailure delay operation retryable error 0 attempt []
        (.error (.exhausted (attempt + 1) error))
  | cancelled {left attempt : Nat} (worth : retryable error = true) :
      AfterFailure delay operation retryable error (left + 1) attempt [⟨.pause delay, .cancelled⟩]
        (.error .cancelled)
  | again {left attempt : Nat} {rest : List Exchange} {result : Except (RetryError ε) α}
      (worth : retryable error = true)
      (next : Follows (retryFrom operation retryable (.make delay left) (attempt + 1)) rest
        result) :
      AfterFailure delay operation retryable error (left + 1) attempt
        (⟨.pause delay, .elapsed⟩ :: rest) result

/-- **What attempts begin with**: cancellation, or an attempt that succeeds or fails. -/
inductive Attempted (delay : Nat) (operation : Nat → Routine (Except ε α)) (retryable : ε → Bool)
    (retries attempt : Nat) : List Exchange → Except (RetryError ε) α → Prop where
  | cancelled : Attempted delay operation retryable retries attempt [⟨.isCancelled, true⟩]
      (.error .cancelled)
  | succeeded {made : List Exchange} {a : α} (success : Follows (operation attempt) made (.ok a)) :
      Attempted delay operation retryable retries attempt (⟨.isCancelled, false⟩ :: made) (.ok a)
  | failed {made after : List Exchange} {error : ε} {result : Except (RetryError ε) α}
      (failure : Follows (operation attempt) made (.error error))
      (next : AfterFailure delay operation retryable error retries attempt after result) :
      Attempted delay operation retryable retries attempt
        (⟨.isCancelled, false⟩ :: (made ++ after)) result

/-- **Every course of attempts** begins in one of these ways. This takes the loop apart once, so
that the lemmas below are by cases. -/
theorem attempted_of_follows {retries attempt : Nat} {t : List Exchange}
    {result : Except (RetryError ε) α}
    (h : Follows (retryFrom operation retryable (.make delay retries) attempt) t result) :
    Attempted delay operation retryable retries attempt t result := by
  rw [retryFrom_make] at h
  obtain ⟨cancelled, rest, rfl, h₁⟩ := follows_perform_bind_iff.mp h
  cases cancelled with
  | true =>
    obtain ⟨rfl, rfl⟩ := follows_done_iff.mp h₁
    exact .cancelled
  | false =>
    obtain ⟨attempted, made, after, rfl, hattempt, h₂⟩ := follows_bind_iff.mp h₁
    cases attempted with
    | ok a =>
      obtain ⟨rfl, rfl⟩ := follows_done_iff.mp h₂
      rw [List.append_nil]
      exact .succeeded hattempt
    | error error =>
      -- The attempt failed; what follows depends on the error, the retries that are left, and the
      -- pause.
      refine .failed hattempt ?_
      dsimp only at h₂
      cases hretryable : retryable error with
      | false =>
        rw [hretryable] at h₂
        obtain ⟨rfl, rfl⟩ := follows_done_iff.mp h₂
        exact .aborted hretryable
      | true =>
        rw [hretryable] at h₂
        cases retries with
        | zero =>
          obtain ⟨rfl, rfl⟩ := follows_done_iff.mp h₂
          exact .exhausted hretryable
        | succ left =>
          obtain ⟨wait, rest, rfl, h₃⟩ := follows_perform_bind_iff.mp h₂
          cases wait with
          | cancelled =>
            obtain ⟨rfl, rfl⟩ := follows_done_iff.mp h₃
            exact .cancelled hretryable
          | elapsed => exact .again hretryable h₃

/-- **Whatever begins so** is a course of attempts. With `attempted_of_follows` this makes
`Attempted` a description of the courses. -/
theorem Attempted.follows {retries attempt : Nat} {t : List Exchange}
    {result : Except (RetryError ε) α}
    (h : Attempted delay operation retryable retries attempt t result) :
    Follows (retryFrom operation retryable (.make delay retries) attempt) t result := by
  rw [retryFrom_make]
  cases h with
  | cancelled => exact .perform_bind (r := .isCancelled) (.done _)
  | @succeeded made a success =>
    refine .perform_bind (r := .isCancelled) ?_
    rw [← List.append_nil made]
    exact success.bind (.done _)
  -- The attempt that failed is a part of the course, and then the loop goes the same way.
  | failed failure next =>
    refine .perform_bind (r := .isCancelled) (failure.bind ?_)
    dsimp only
    cases next with
    | aborted final =>
      rw [final]
      exact .done _
    | exhausted worth =>
      rw [worth]
      exact .done _
    | cancelled worth =>
      rw [worth]
      exact .perform_bind (r := .pause delay) (.done _)
    | again worth next =>
      rw [worth]
      exact .perform_bind (r := .pause delay) next

/-- **One attempt, and what comes of it**: it was not made, was the last one, or another one
follows. -/
theorem follows_retryFrom {retries attempt : Nat} {t : List Exchange}
    {result : Except (RetryError ε) α}
    (h : Follows (retryFrom operation retryable (.make delay retries) attempt) t result) :
    (∃ a last, result = .ok a ∧ t = ⟨.isCancelled, false⟩ :: last ∧
      Follows (operation attempt) last (.ok a)) ∨
    (∃ error, result = .error error ∧ ∀ e ∈ t, Preparing delay operation e) ∨
    (∃ before rest left, retries = left + 1 ∧ t = before ++ rest ∧
      (∀ e ∈ before, Preparing delay operation e) ∧
      Follows (retryFrom operation retryable (.make delay left) (attempt + 1)) rest result) := by
  cases attempted_of_follows h with
  | cancelled =>
    refine Or.inr (Or.inl ⟨.cancelled, rfl, fun e he => ?_⟩)
    obtain rfl := List.mem_singleton.mp he
    exact .isCancelled true
  | succeeded success => exact Or.inl ⟨_, _, rfl, rfl, success⟩
  | @failed made after error _ failure next =>
    -- Everything up to here prepares, and so does a pause behind it, even if it is cut short.
    have hprepared : ∀ e ∈ (⟨.isCancelled, false⟩ : Exchange) :: made,
        Preparing delay operation e := by
      intro e he
      rcases List.mem_cons.mp he with rfl | he
      · exact .isCancelled false
      · exact .failed failure he
    have hpaused : ∀ wait, ∀ e ∈ (⟨.isCancelled, false⟩ :: made) ++ [⟨.pause delay, wait⟩],
        Preparing delay operation e := by
      intro wait e he
      rcases List.mem_append.mp he with he | he
      · exact hprepared e he
      · obtain rfl := List.mem_singleton.mp he
        exact .pause wait
    cases next with
    -- A final failure, the last one and a pause cut short all end the course; only `again` goes on.
    | aborted final =>
      rw [List.append_nil]
      exact Or.inr (Or.inl ⟨_, rfl, hprepared⟩)
    | exhausted worth =>
      rw [List.append_nil]
      exact Or.inr (Or.inl ⟨_, rfl, hprepared⟩)
    | cancelled worth => exact Or.inr (Or.inl ⟨_, rfl, hpaused .cancelled⟩)
    | @again left _ rest _ worth next =>
      refine Or.inr (Or.inr ⟨_, rest, left, rfl, ?_, hpaused .elapsed, next⟩)
      rw [List.append_assoc]
      rfl

/-- **A success** is that of the last attempt. All before it prepares. The induction is on the
retries that are left. -/
theorem follows_retryFrom_ok {retries attempt : Nat} {t : List Exchange} {a : α}
    (h : Follows (retryFrom operation retryable (.make delay retries) attempt) t (.ok a)) :
    ∃ before n last, t = before ++ last ∧ Follows (operation n) last (.ok a) ∧
      ∀ e ∈ before, Preparing delay operation e := by
  -- On the attempts that are left; the number of the attempt goes up meanwhile.
  induction retries generalizing attempt t with
  | zero =>
    rcases follows_retryFrom h with ⟨b, last, hb, rfl, hlast⟩ | ⟨_, ⟨⟩, -⟩ | ⟨_, _, _, ⟨⟩, -⟩
    obtain rfl := Except.ok.inj hb
    exact ⟨[⟨.isCancelled, false⟩], attempt, last, rfl, hlast, by simp [Preparing.isCancelled]⟩
  | succ retries ih =>
    rcases follows_retryFrom h with
      ⟨b, last, hb, rfl, hlast⟩ | ⟨_, ⟨⟩, -⟩ | ⟨before, rest, _, ⟨⟩, rfl, hbefore, hrest⟩
    · obtain rfl := Except.ok.inj hb
      exact ⟨[⟨.isCancelled, false⟩], attempt, last, rfl, hlast, by simp [Preparing.isCancelled]⟩
    · -- A failure came before, and it prepares as well as what the later attempts have.
      obtain ⟨later, n, last, rfl, hlast, hlater⟩ := ih hrest
      refine ⟨before ++ later, n, last, (List.append_assoc ..).symm, hlast, fun e he => ?_⟩
      exact (List.mem_append.mp he).elim (hbefore e) (hlater e)

/-- Without success no attempt succeeded, so that all of the course prepares. -/
theorem follows_retryFrom_error {retries attempt : Nat} {t : List Exchange} {error : RetryError ε}
    (h : Follows (retryFrom operation retryable (.make delay retries) attempt) t (.error error)) :
    ∀ e ∈ t, Preparing delay operation e := by
  induction retries generalizing attempt t with
  | zero =>
    rcases follows_retryFrom h with ⟨_, _, ⟨⟩, -⟩ | ⟨_, -, ht⟩ | ⟨_, _, _, ⟨⟩, -⟩
    exact ht
  | succ retries ih =>
    rcases follows_retryFrom h with
      ⟨_, _, ⟨⟩, -⟩ | ⟨_, -, ht⟩ | ⟨before, rest, _, ⟨⟩, rfl, hbefore, hrest⟩
    · exact ht
    · intro e he
      exact (List.mem_append.mp he).elim (hbefore e) (ih hrest e)

/-- **Attempts that all fail**, each with an error that is worth another attempt, until none is
left. The last error is the result. -/
inductive Exhausts (delay : Nat) (operation : Nat → Routine (Except ε α)) (retryable : ε → Bool) :
    (retries attempt : Nat) → List Exchange → ε → Prop where
  | last {attempt : Nat} {t : List Exchange} {error : ε} :
      Follows (operation attempt) t (.error error) → retryable error = true →
      Exhausts delay operation retryable 0 attempt (⟨.isCancelled, false⟩ :: t) error
  | again {retries attempt : Nat} {t rest : List Exchange} {error lastError : ε} :
      Follows (operation attempt) t (.error error) → retryable error = true →
      Exhausts delay operation retryable retries (attempt + 1) rest lastError →
      Exhausts delay operation retryable (retries + 1) attempt
        (⟨.isCancelled, false⟩ :: (t ++ ⟨.pause delay, .elapsed⟩ :: rest)) lastError

/-- **What is asked between the attempts** is whether the task is cancelled, and a pause. So a
routine that conforms does so when it is tried again. -/
theorem conforms_retryFrom {asked : Request → Prop} (hcancelled : asked .isCancelled)
    (hpause : asked (.pause delay))
    (hoperation : ∀ attempt, Conforms asked (fun _ => True) (operation attempt))
    (retries attempt : Nat) :
    Conforms asked (fun _ => True)
      (retryFrom operation retryable (.make delay retries) attempt) := by
  -- One attempt, if the attempts behind it conform.
  have round : ∀ left attempt, (∀ k, left = k + 1 →
        Conforms asked (fun _ => True)
          (retryFrom operation retryable (.make delay k) (attempt + 1))) →
      Conforms asked (fun _ => True)
        (retryFrom operation retryable (.make delay left) attempt) := by
    intro left attempt hnext
    rw [retryFrom_make]
    refine conforms_perform_bind.mpr ⟨hcancelled, fun cancelled => ?_⟩
    -- The three ways out: the task is cancelled, the attempt succeeds, or its error is final.
    split
    · trivial
    refine (hoperation attempt).bind fun result _ => ?_
    split
    · trivial
    split
    · trivial
    cases left with
    | zero => trivial
    | succ k =>
      refine conforms_perform_bind.mpr ⟨hpause, fun wait => ?_⟩
      cases wait with
      | cancelled => trivial
      | elapsed => exact hnext k rfl
  induction retries generalizing attempt with
  | zero => exact round 0 attempt (by rintro k ⟨⟩)
  | succ retries ih =>
    refine round (retries + 1) attempt ?_
    rintro k ⟨⟩
    exact ih (attempt + 1)

/-- **What is asked while something is tried**: whether the task is cancelled, a pause, or what an
attempt asks. -/
theorem asks_retryFrom {retries attempt : Nat} {t : List Exchange} {r : Request}
    (h : Asks (retryFrom operation retryable (.make delay retries) attempt) t r) :
    r = .isCancelled ∨ r = .pause delay ∨
      ∃ n before run, t = before ++ run ∧ Asks (operation n) run r := by
  -- It belongs to the first attempt and what comes of it, or to the attempts after that.
  have round : ∀ left attempt t,
      Asks (retryFrom operation retryable (.make delay left) attempt) t r →
      (r = .isCancelled ∨ r = .pause delay ∨
        ∃ n before run, t = before ++ run ∧ Asks (operation n) run r) ∨
      ∃ k before rest, left = k + 1 ∧ t = before ++ rest ∧
        Asks (retryFrom operation retryable (.make delay k) (attempt + 1)) rest r := by
    intro left attempt t h
    rw [retryFrom_make] at h
    -- Before an attempt it is asked whether the task is cancelled.
    rcases asks_perform_bind_iff.mp h with ⟨-, rfl⟩ | ⟨cancelled, rest, rfl, h₁⟩
    · exact Or.inl (Or.inl rfl)
    cases cancelled with
    | true => exact absurd h₁ not_asks_done
    | false =>
      -- Then comes what the attempt asks itself, if it is not over by then.
      rcases asks_bind_iff.mp h₁ with hasks | ⟨result, made, after, rfl, -, h₂⟩
      · exact Or.inl (Or.inr (Or.inr ⟨attempt, [⟨.isCancelled, false⟩], rest, rfl, hasks⟩))
      rcases result with error | a
      · dsimp only at h₂
        -- Behind a failure there is a pause, if it is worth trying again and a retry is left.
        split at h₂
        · exact absurd h₂ not_asks_done
        cases left with
        | zero => exact absurd h₂ not_asks_done
        | succ k =>
          rcases asks_perform_bind_iff.mp h₂ with ⟨-, rfl⟩ | ⟨wait, later, rfl, h₃⟩
          · exact Or.inl (Or.inr (Or.inl rfl))
          cases wait with
          | cancelled => exact absurd h₃ not_asks_done
          | elapsed =>
            exact Or.inr ⟨k, ⟨.isCancelled, false⟩ :: (made ++ [⟨.pause delay, .elapsed⟩]), later,
              rfl, by simp, h₃⟩
      · exact absurd h₂ not_asks_done
  -- On the retries that are left: what was asked before a round is put in front of it.
  induction retries generalizing attempt t with
  | zero =>
    rcases round 0 attempt t h with hfirst | ⟨k, _, _, ⟨⟩, -⟩
    exact hfirst
  | succ retries ih =>
    rcases round (retries + 1) attempt t h with hfirst | ⟨k, before, rest, ⟨⟩, rfl, hrest⟩
    · exact hfirst
    refine (ih hrest).imp_right (Or.imp_right ?_)
    rintro ⟨n, earlier, run, rfl, hasks⟩
    exact ⟨n, before ++ earlier, run, (List.append_assoc ..).symm, hasks⟩

/-! ### Courses that are built -/

/-- A success at once needs no other attempt. -/
theorem follows_retryFrom_of_ok (operation : Nat → Routine (Except ε α)) {retries attempt : Nat}
    {t : List Exchange} {a : α} (h : Follows (operation attempt) t (.ok a)) :
    Follows (retryFrom operation retryable (.make delay retries) attempt)
      (⟨.isCancelled, false⟩ :: t) (.ok a) :=
  (Attempted.succeeded h).follows

/-- A failure may be followed by a pause and more attempts. -/
theorem follows_retryFrom_of_error (operation : Nat → Routine (Except ε α))
    {retries attempt : Nat} {t rest : List Exchange} {error : ε}
    {result : Except (RetryError ε) α} (h : Follows (operation attempt) t (.error error))
    (hretryable : retryable error = true)
    (hrest : Follows (retryFrom operation retryable (.make delay retries) (attempt + 1)) rest
      result) :
    Follows (retryFrom operation retryable (.make delay (retries + 1)) attempt)
      (⟨.isCancelled, false⟩ :: (t ++ ⟨.pause delay, .elapsed⟩ :: rest)) result :=
  (Attempted.failed h (.again hretryable hrest)).follows

/-- A failure that is final ends the attempts. -/
theorem follows_retryFrom_of_final (operation : Nat → Routine (Except ε α)) {retries attempt : Nat}
    {t : List Exchange} {error : ε} (h : Follows (operation attempt) t (.error error))
    (hfinal : retryable error = false) :
    Follows (retryFrom operation retryable (.make delay retries) attempt)
      (⟨.isCancelled, false⟩ :: t) (.error (.aborted error)) := by
  rw [← List.append_nil t]
  exact (Attempted.failed h (.aborted hfinal)).follows

/-- Attempts that are all in vain, of which each failure is worth another one, are a course of the
loop. -/
theorem Exhausts.follows {retries attempt : Nat} {t : List Exchange} {error : ε}
    (h : Exhausts delay operation retryable retries attempt t error) :
    Follows (retryFrom operation retryable (.make delay retries) attempt) t
      (.error (.exhausted (attempt + retries + 1) error)) := by
  induction h with
  | @last attempt t error hfailed hretryable =>
    rw [← List.append_nil t]
    exact (Attempted.failed hfailed (.exhausted hretryable)).follows
  | @again retries attempt t rest error lastError hfailed hretryable _ ih =>
    have hattempts : attempt + (retries + 1) + 1 = attempt + 1 + retries + 1 := by omega
    rw [hattempts]
    exact follows_retryFrom_of_error operation hfailed hretryable ih

end Countersign.Routine
