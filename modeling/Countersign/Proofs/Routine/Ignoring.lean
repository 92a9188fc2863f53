import Countersign.Proofs.Routine.Conforming

/-!
# Routines that do not look at some answers

A routine **ignores** the answers to requests of a sort if it goes on in the same way whatever it is
answered (`Routine.Ignores`). It still asks, and so the answers stand in its courses; but

* any of them may be replaced by another one (`Ignores.replace`);
* two courses in which all *other* requests are answered alike have the same result, and differ in
  nothing but the ignored answers (`Ignores.unique`).

Alike means: by the same table, which may take into account all that was exchanged before except
what is ignored (`AnsweredBy`). So the surroundings may have a memory of their own, as long as
nothing gets from the ignored requests into the others.

A routine whose result is thrown away is ignored with it, if it asks once at most
(`ignores_bind_of_asksOnce`).
-/

namespace Countersign.Routine

variable {α β : Type} {sort : Request → Bool} {p : Routine α} {t t' : List Exchange} {a a' : α}

/-- A routine to which the answers to requests of a sort make no difference: it goes on as the same
routine, not only to the same result. -/
def Ignores (sort : Request → Bool) : Routine α → Prop
  | .done _ => True
  | .ask r next => (sort r = true → ∀ answer answer', next answer = next answer') ∧
      ∀ answer, Ignores sort (next answer)

/-! ### How routines are built -/

/-- What is never asked is ignored. -/
theorem Conforms.ignores {given : α → Prop} (h : Conforms (fun r => sort r = false) given p) :
    Ignores sort p := by
  induction p with
  | done a => trivial
  | ask r next ih =>
    refine ⟨fun hr => ?_, fun answer => ih answer (h.2 answer)⟩
    rw [h.1] at hr
    cases hr

/-- A request of another sort, and then a routine. -/
theorem ignores_perform_bind {r : Request} {f : r.Answer → Routine β} (hr : sort r = false)
    (hf : ∀ answer, Ignores sort (f answer)) : Ignores sort (r.perform >>= f) := by
  refine ⟨fun hsort => ?_, hf⟩
  rw [hr] at hsort
  cases hsort

/-- A routine that asks once at most, and is done then. Its result may depend on the answer. -/
def AsksOnce (p : Routine α) : Prop :=
  ∀ r next, p = .ask r next → ∀ answer, ∃ a, next answer = .done a

/-- **A routine whose result is thrown away.** It asks once, and what follows is the same whatever
it is answered. -/
theorem ignores_bind_of_asksOnce {q : Routine β} (hp : AsksOnce p) (hq : Ignores sort q) :
    Ignores sort (p >>= fun _ => q) := by
  cases p with
  | done a => exact hq
  | ask r next =>
    -- Whatever the answer, what comes next is the second routine.
    have hnext : ∀ answer, (next answer >>= fun _ => q) = q := by
      intro answer
      obtain ⟨a, ha⟩ := hp r next rfl answer
      rw [ha, done_bind]
    refine ⟨fun _ answer answer' => ?_, fun answer => ?_⟩
    · exact (hnext answer).trans (hnext answer').symm
    · change Ignores sort (next answer >>= fun _ => q)
      rw [hnext]
      exact hq

/-! ### What follows for courses -/

/-- An ignored answer may be replaced by any other one, and the rest of the course stays as it
is. -/
theorem Ignores.replace (h : Ignores sort p) {before after : List Exchange} {r : Request}
    {answer : r.Answer} (hr : sort r = true)
    (hfollows : Follows p (before ++ ⟨r, answer⟩ :: after) a) (answer' : r.Answer) :
    Follows p (before ++ ⟨r, answer'⟩ :: after) a := by
  -- On what was exchanged before it, which stays as it is.
  induction before generalizing p with
  | nil =>
    rcases hfollows with _ | ⟨_, hnext⟩
    refine .ask answer' ?_
    rw [h.1 hr answer' answer]
    exact hnext
  | cons e before ih =>
    rcases hfollows with _ | ⟨_, hnext⟩
    exact .ask _ (ih (h.2 _) hnext)

/-- The exchanges of a course that are not ignored, in order. -/
def others (sort : Request → Bool) (t : List Exchange) : List Exchange :=
  t.filter fun e => !sort e.1

theorem others_cons_of_ignored {e : Exchange} (h : sort e.1 = true) :
    others sort (e :: t) = others sort t :=
  List.filter_cons_of_neg (by simp [h])

theorem others_cons_of_other {e : Exchange} (h : sort e.1 = false) :
    others sort (e :: t) = e :: others sort t :=
  List.filter_cons_of_pos (by simp [h])

/-- A table of answers: to each request, given what was exchanged before it. It stands for
surroundings that decide by what they have seen. -/
abbrev Answers := List Exchange → (r : Request) → r.Answer

/-- A course in which all other requests are answered by a table. What is ignored is not looked up
in it, and does not count as seen. -/
def AnsweredBy (sort : Request → Bool) (answers : Answers) (t : List Exchange) : Prop :=
  ∀ before e after, t = before ++ e :: after → sort e.1 = false →
    e.2 = answers (others sort before) e.1

namespace AnsweredBy

variable {answers : Answers} {e : Exchange}

/-- An ignored exchange can be taken off in front, and the table stays. -/
theorem of_ignored (h : AnsweredBy sort answers (e :: t)) (he : sort e.1 = true) :
    AnsweredBy sort answers t := by
  intro before e' after ht he'
  have hanswer := h (e :: before) e' after (by rw [ht, List.cons_append]) he'
  rwa [others_cons_of_ignored he] at hanswer

/-- Any other one is answered by the table, which has then seen it. -/
theorem of_other (h : AnsweredBy sort answers (e :: t)) (he : sort e.1 = false) :
    e.2 = answers [] e.1 ∧ AnsweredBy sort (fun before => answers (e :: before)) t := by
  refine ⟨h [] e t rfl he, fun before e' after ht he' => ?_⟩
  have hanswer := h (e :: before) e' after (by rw [ht, List.cons_append]) he'
  rwa [others_cons_of_other he] at hanswer

end AnsweredBy

/-- **Two courses with the same other answers** have the same result and the same other exchanges.
The induction is on the routine, for all tables, since a table changes with what it has seen. -/
theorem Ignores.unique (h : Ignores sort p) {answers : Answers} (hfollows : Follows p t a)
    (hanswers : AnsweredBy sort answers t) (hfollows' : Follows p t' a')
    (hanswers' : AnsweredBy sort answers t') : a' = a ∧ others sort t' = others sort t := by
  -- Step by step along the first course. The second one asks the same, and goes on alike.
  induction hfollows generalizing answers t' with
  | done a =>
    obtain ⟨rfl, rfl⟩ := follows_done_iff.mp hfollows'
    exact ⟨rfl, rfl⟩
  | @ask r next answer rest a hnext ih =>
    obtain ⟨answer', rest', rfl, hnext'⟩ := follows_ask_iff.mp hfollows'
    cases hr : sort r with
    | true =>
      rw [h.1 hr answer' answer] at hnext'
      have hsame := ih (h.2 answer) (hanswers.of_ignored hr) hnext' (hanswers'.of_ignored hr)
      rwa [others_cons_of_ignored hr, others_cons_of_ignored hr]
    | false =>
      obtain ⟨hanswer, hrest⟩ := hanswers.of_other hr
      obtain ⟨hanswer', hrest'⟩ := hanswers'.of_other hr
      obtain rfl : answer' = answer := hanswer'.trans hanswer.symm
      obtain ⟨hresult, hothers⟩ := ih (h.2 _) hrest hnext' hrest'
      rw [others_cons_of_other hr, others_cons_of_other hr, hothers]
      exact ⟨hresult, rfl⟩

end Countersign.Routine
