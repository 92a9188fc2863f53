import Countersign.Proofs.Routine.Conforming
import Countersign.Proofs.Routine.Retrying

/-!
# Routines that stop at a failure

Some exchanges end a routine at once, and its result is then known: a write that fails, say, and the
failure is the result. Which ones these are is given by a function `stop` from exchanges to results,
and `Routine.StopsOn stop p` says that `p` obeys it, whatever it is answered. Like
`Routine.Conforms` it follows the program text.

A routine that obeys has nothing behind such an exchange (`StopsOn.follows`). If it is tried again,
what follows is the business of the retries alone (`Routine.AfterFailure`), and depends on nothing
but whether the failure is worth another attempt (`Routine.afterFailure_of_stopsOn`).
-/

namespace Countersign.Routine

variable {α β ε : Type} {stop : Exchange → Option α} {p : Routine α}

/-- Some exchanges end the routine with the results that are given for them. The condition is on
each exchange that the routine may have, whatever came before it. -/
def StopsOn (stop : Exchange → Option α) : Routine α → Prop
  | .done _ => True
  | .ask r next => ∀ answer,
    (∀ a, stop ⟨r, answer⟩ = some a → next answer = .done a) ∧ StopsOn stop (next answer)

/-- A request and then a routine, which is done at once if the answer makes the exchange a stop. -/
theorem stopsOn_perform_bind {r : Request} {f : r.Answer → Routine α} :
    StopsOn stop (r.perform >>= f) ↔ ∀ answer,
      (∀ a, stop ⟨r, answer⟩ = some a → f answer = .done a) ∧ StopsOn stop (f answer) :=
  Iff.rfl

/-- A request that is no stop, and then a routine. -/
theorem stopsOn_quiet_bind {r : Request} {f : r.Answer → Routine α}
    (hquiet : ∀ answer, stop ⟨r, answer⟩ = none) (hf : ∀ answer, StopsOn stop (f answer)) :
    StopsOn stop (r.perform >>= f) := by
  rw [stopsOn_perform_bind]
  intro answer
  refine ⟨?_, hf answer⟩
  intro a ha
  rw [hquiet answer] at ha
  cases ha

/-- **One routine after another.** The first one stops with a result that the second one passes
on. -/
theorem StopsOn.bind {earlier : Exchange → Option β} {q : Routine β} {f : β → Routine α}
    (hq : StopsOn earlier q)
    (hpass : ∀ e a, stop e = some a → ∃ b, earlier e = some b ∧ f b = .done a)
    (hf : ∀ b, StopsOn stop (f b)) : StopsOn stop (q >>= f) := by
  -- Along the first routine: where it stops, the second one is left with its result.
  induction q with
  | done b => exact hf b
  | ask r next ih =>
    intro answer
    obtain ⟨hdone, hnext⟩ := hq answer
    refine ⟨?_, ih answer hnext⟩
    intro a ha
    obtain ⟨b, hb, hfb⟩ := hpass _ a ha
    show (next answer >>= f) = .done a
    rw [hdone b hb, done_bind]
    exact hfb

/-- A routine without a stop, and then one that may have some. -/
theorem Conforms.stopsOn_bind {given : β → Prop} {q : Routine β} {f : β → Routine α}
    (hq : Conforms (fun r => ∀ answer, stop ⟨r, answer⟩ = none) given q)
    (hf : ∀ b, StopsOn stop (f b)) : StopsOn stop (q >>= f) := by
  induction q with
  | done b => exact hf b
  | ask r next ih =>
    obtain ⟨hquiet, hnext⟩ := hq
    intro answer
    refine ⟨?_, ih answer (hnext answer)⟩
    -- What the first routine asks is answered by no stop.
    intro a ha
    rw [hquiet answer] at ha
    cases ha

/-- Nothing comes behind a stop, and the result is the one that is given for it. This is what is
known of courses. -/
theorem StopsOn.follows (h : StopsOn stop p) {before after : List Exchange} {e : Exchange}
    {a result : α} (ht : Follows p (before ++ e :: after) result) (he : stop e = some a) :
    after = [] ∧ result = a := by
  -- On what comes before: the routine that is left obeys as well.
  induction before generalizing p with
  | nil =>
    -- The stop is the first exchange, and leaves a routine that is done.
    rcases ht with _ | ⟨answer, hrest⟩
    rw [(h answer).1 a he] at hrest
    exact follows_done_iff.mp hrest
  | cons x before ih =>
    rcases ht with _ | ⟨answer, hrest⟩
    exact ih (h answer).2 hrest

/-! ### Trying again -/

variable {delay : Nat} {operation : Nat → Routine (Except ε α)} {retryable : ε → Bool} {error : ε}

/-- An exchange behind another one that is not the same stands in the rest. -/
theorem exists_behind {x e : Exchange} {rest before after : List Exchange} (hne : x ≠ e)
    (h : x :: rest = before ++ e :: after) : ∃ later, rest = later ++ e :: after := by
  cases before with
  | nil => exact absurd (List.cons.inj h).1 hne
  | cons y later => exact ⟨later, (List.cons.inj h).2⟩

/-- **One attempt of those of which one stops**: it stops itself, or another one follows that does.
-/
theorem follows_retryFrom_of_stop {stop : Exchange → Option (Except ε α)}
    (hoperation : ∀ attempt, StopsOn stop (operation attempt))
    (hcancelled : ∀ answer, stop ⟨.isCancelled, answer⟩ = none)
    (hpause : ∀ answer, stop ⟨.pause delay, answer⟩ = none) {e : Exchange}
    (he : stop e = some (.error error)) {retries attempt : Nat} {before after : List Exchange}
    {result : Except (RetryError ε) α}
    (h : Follows (retryFrom operation retryable (.make delay retries) attempt)
      (before ++ e :: after) result) :
    AfterFailure delay operation retryable error retries attempt after result ∨
      ∃ left later, retries = left + 1 ∧
        Follows (retryFrom operation retryable (.make delay left) (attempt + 1))
          (later ++ e :: after) result := by
  -- Neither looking for cancellation nor a pause is the stop.
  have hne : ∀ x, stop x = none → x ≠ e := by
    rintro x hx rfl
    rw [hx] at he
    cases he
  generalize hcourse : before ++ e :: after = t at h
  cases attempted_of_follows h with
  | cancelled =>
    -- Then there is nothing else, and no room for the stop.
    obtain ⟨later, hlater⟩ := exists_behind (hne _ (hcancelled _)) hcourse.symm
    simp at hlater
  | succeeded success =>
    -- An attempt that stops does not succeed.
    obtain ⟨later, rfl⟩ := exists_behind (hne _ (hcancelled _)) hcourse.symm
    cases ((hoperation attempt).follows success he).2
  | @failed made rest _ _ failure next =>
    obtain ⟨later, hlater⟩ := exists_behind (hne _ (hcancelled _)) hcourse.symm
    rcases append_cons_eq_append hlater.symm with ⟨part, rfl, rfl⟩ | ⟨part, rfl, rfl⟩
    · -- The attempt itself stops, so there is nothing more of it, and this is its failure.
      obtain ⟨rfl, hfailure⟩ := (hoperation attempt).follows failure he
      obtain rfl := Except.error.inj hfailure
      exact Or.inl next
    · -- The attempt failed in another way, and the stop is behind the pause.
      generalize hrest : part ++ e :: after = rest at next
      cases next with
      | aborted final => simp at hrest
      | exhausted worth => simp at hrest
      | cancelled worth =>
        obtain ⟨last, hlast⟩ := exists_behind (hne _ (hpause _)) hrest.symm
        simp at hlast
      | @again left _ _ _ worth next =>
        obtain ⟨last, rfl⟩ := exists_behind (hne _ (hpause _)) hrest.symm
        exact Or.inr ⟨left, last, rfl, next⟩

/-- **An attempt that stops with a failure** is followed by what the retries do about it. The
induction is on the retries, since the stop may be in any of the attempts. -/
theorem afterFailure_of_stopsOn {stop : Exchange → Option (Except ε α)}
    (hoperation : ∀ attempt, StopsOn stop (operation attempt))
    (hcancelled : ∀ answer, stop ⟨.isCancelled, answer⟩ = none)
    (hpause : ∀ answer, stop ⟨.pause delay, answer⟩ = none) {e : Exchange}
    (he : stop e = some (.error error)) {retries attempt : Nat} {before after : List Exchange}
    {result : Except (RetryError ε) α}
    (h : Follows (retryFrom operation retryable (.make delay retries) attempt)
      (before ++ e :: after) result) :
    ∃ left number, AfterFailure delay operation retryable error left number after result := by
  -- On the attempts that are left after the next one.
  induction retries generalizing attempt before with
  | zero =>
    rcases follows_retryFrom_of_stop hoperation hcancelled hpause he h with hafter | ⟨_, _, ⟨⟩, -⟩
    exact ⟨0, attempt, hafter⟩
  | succ retries ih =>
    rcases follows_retryFrom_of_stop hoperation hcancelled hpause he h with
      hafter | ⟨_, later, ⟨⟩, hlater⟩
    · exact ⟨retries + 1, attempt, hafter⟩
    · exact ih hlater

end Countersign.Routine
