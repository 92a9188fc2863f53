import Countersign.Proofs.Routine.Course

/-!
# Courses of a loop

A loop goes from state to state, each step being a routine (`Turn`). Seen from outside, what it
did so far is a list of exchanges again: those of whole turns, and then the beginning of one more.

* `Routine.Loops turn start t s`: whole turns with the exchanges `t` lead from `start` to `s`. A
  fact that each turn preserves holds for all of them by induction.
* `Routine.Waits turn start t s r`: after the exchanges `t` the loop is within a turn that began
  at `s`, and waits for the answer to `r`. So it is still running.
-/

namespace Countersign.Routine

variable {σ α : Type} {turn : σ → Routine (Turn σ α)} {start : σ}

/-- **Whole turns** of a loop, from a state to a state. A turn that ends the loop is none of these,
so more may follow. -/
inductive Loops (turn : σ → Routine (Turn σ α)) (start : σ) : List Exchange → σ → Prop where
  | start : Loops turn start [] start
  | turn {t t' : List Exchange} {s s' : σ} :
      Loops turn start t s → Follows (turn s) t' (.again s') → Loops turn start (t ++ t') s'

/-- A loop that waits for an answer, within a turn from the given state. What it has exchanged in
this turn is known, and what it will do with the answer is up to it. -/
def Waits (turn : σ → Routine (Turn σ α)) (start : σ) (t : List Exchange) (s : σ) (r : Request) :
    Prop :=
  ∃ whole begun, t = whole ++ begun ∧ Loops turn start whole s ∧ Asks (turn s) begun r

/-- One turn from the start. -/
theorem Loops.single {t : List Exchange} {s : σ} (h : Follows (turn start) t (.again s)) :
    Loops turn start t s :=
  .turn .start h

/-- A loop waits between its turns, for the answer that the next one asks first. -/
theorem Loops.waits {t : List Exchange} {s : σ} {r : Request} (h : Loops turn start t s)
    (hasks : Asks (turn s) [] r) : Waits turn start t s r :=
  ⟨t, [], (List.append_nil t).symm, h, hasks⟩

/-- Every exchange of whole turns was waited for, in one of the turns. -/
theorem Loops.exists_waits {t t' : List Exchange} {e : Exchange} {s : σ}
    (h : Loops turn start (t ++ e :: t') s) : ∃ s₀, Waits turn start t s₀ e.1 := by
  generalize hcourse : t ++ e :: t' = course at h
  -- On the turns: the exchange is one of the last turn, or of those before.
  induction h generalizing t' with
  | start => cases List.append_eq_nil_iff.mp hcourse |>.2
  | @turn whole last s s' hloops hturn ih =>
    rcases append_cons_eq_append hcourse with ⟨part, rfl, -⟩ | ⟨part, rfl, rfl⟩
    · exact ih rfl
    · exact ⟨s, whole, part, rfl, hloops, hturn.begins.asks⟩

/-- Every exchange of a loop was waited for, be it in a whole turn or in the one that has begun. -/
theorem Waits.exists_waits {t t' : List Exchange} {e : Exchange} {s : σ} {r : Request}
    (h : Waits turn start (t ++ e :: t') s r) : ∃ s₀, Waits turn start t s₀ e.1 := by
  obtain ⟨whole, begun, hcourse, hloops, hasks⟩ := h
  rcases append_cons_eq_append hcourse with ⟨part, rfl, -⟩ | ⟨part, rfl, rfl⟩
  · exact hloops.exists_waits
  · exact ⟨s, whole, part, rfl, hloops, hasks.begins.asks⟩

end Countersign.Routine
