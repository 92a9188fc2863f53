import Countersign.Routine.Basic

/-!
# Courses of a routine

What a routine does is seen from outside as a list of exchanges. This module takes such lists apart
along the structure of the routine. Three relations between a routine and a list of exchanges are
used throughout:

* `Routine.Follows p t a` (from `Countersign.Routine.Basic`): `t` is a whole course of `p`, which
  ends with `a`;
* `Routine.Begins p t`: `t` is how a course of `p` may begin. A routine that was dropped, or is
  still on its way, has only begun;
* `Routine.Asks p t r`: once `t` is exchanged, `p` asks `r`.

Nothing is said about who answers: each answer may be anything of its type. A statement about all
courses therefore holds whatever the surroundings are, and one about particular surroundings takes
what it needs as a hypothesis on the list.

For each relation there is one lemma for each way in which a routine is built: `follows_bind_iff`,
`begins_bind_iff` and `asks_bind_iff` for one routine after another, and those about `done`, `ask`
and `perform`. A course is then taken apart by rewriting with them.
-/

namespace Countersign.Routine

variable {α β : Type}

/-- An exchange of a course in two parts is in the first or in the second. What stands before and
behind it is cut accordingly. -/
theorem append_cons_eq_append {before after t₁ t₂ : List Exchange} {e : Exchange}
    (h : before ++ e :: after = t₁ ++ t₂) :
    (∃ part, t₁ = before ++ e :: part ∧ after = part ++ t₂) ∨
      ∃ part, before = t₁ ++ part ∧ t₂ = part ++ e :: after := by
  rcases List.append_eq_append_iff.mp h with ⟨part, rfl, hpart⟩ | ⟨part, hbefore, ht₂⟩
  · cases part with
    | nil => exact Or.inr ⟨[], by simp, hpart.symm⟩
    | cons e' part =>
      obtain ⟨rfl, rfl⟩ := List.cons.inj hpart
      exact Or.inl ⟨part, rfl, rfl⟩
  · exact Or.inr ⟨part, hbefore, ht₂⟩

/-! ### Whole courses -/

/-- A routine that is done exchanges nothing more. -/
@[simp] theorem follows_done_iff {a b : α} {t : List Exchange} :
    Follows (.done a) t b ↔ t = [] ∧ b = a := by
  constructor
  · rintro ⟨⟩
    exact ⟨rfl, rfl⟩
  · rintro ⟨rfl, rfl⟩
    exact .done b

/-- A course of a routine that asks begins with that request, answered in whatever way. -/
theorem follows_ask_iff {r : Request} {next : r.Answer → Routine α} {t : List Exchange} {b : α} :
    Follows (.ask r next) t b ↔ ∃ answer rest, t = ⟨r, answer⟩ :: rest ∧
      Follows (next answer) rest b := by
  constructor
  · rintro (_ | ⟨answer, h⟩)
    exact ⟨answer, _, rfl, h⟩
  · rintro ⟨answer, rest, rfl, h⟩
    exact .ask answer h

/-- **A course of one routine after another** is a course of the first, then one of the second. The
induction is on the first routine, whose requests come off one at a time. -/
theorem follows_bind_iff {p : Routine α} {f : α → Routine β} {t : List Exchange} {b : β} :
    Follows (p >>= f) t b ↔
      ∃ a t₁ t₂, t = t₁ ++ t₂ ∧ Follows p t₁ a ∧ Follows (f a) t₂ b := by
  -- Along the first routine: once it is done, the second has the whole course.
  induction p generalizing t with
  | done a =>
    rw [done_bind]
    constructor
    · intro h
      exact ⟨a, [], t, rfl, .done a, h⟩
    · rintro ⟨a', t₁, t₂, rfl, h₁, h₂⟩
      obtain ⟨rfl, rfl⟩ := follows_done_iff.mp h₁
      exact h₂
  | ask r next ih =>
    rw [ask_bind, follows_ask_iff]
    constructor
    · rintro ⟨answer, rest, rfl, h⟩
      obtain ⟨a, t₁, t₂, rfl, h₁, h₂⟩ := (ih answer).mp h
      exact ⟨a, ⟨r, answer⟩ :: t₁, t₂, rfl, .ask answer h₁, h₂⟩
    · rintro ⟨a, t₁, t₂, rfl, h₁, h₂⟩
      obtain ⟨answer, rest, rfl, h⟩ := follows_ask_iff.mp h₁
      exact ⟨answer, rest ++ t₂, rfl, (ih answer).mpr ⟨a, rest, t₂, rfl, h, h₂⟩⟩

theorem Follows.bind {p : Routine α} {f : α → Routine β} {t₁ t₂ : List Exchange} {a : α} {b : β}
    (h₁ : Follows p t₁ a) (h₂ : Follows (f a) t₂ b) : Follows (p >>= f) (t₁ ++ t₂) b :=
  follows_bind_iff.mpr ⟨a, t₁, t₂, rfl, h₁, h₂⟩

/-- A single request is a course by itself, with the answer as its result. -/
@[simp] theorem follows_perform_iff {r : Request} {t : List Exchange} {a : r.Answer} :
    Follows r.perform t a ↔ t = [⟨r, a⟩] := by
  rw [Request.perform, follows_ask_iff]
  constructor
  · rintro ⟨answer, rest, rfl, h⟩
    obtain ⟨rfl, rfl⟩ := follows_done_iff.mp h
    rfl
  · rintro rfl
    exact ⟨a, [], rfl, .done a⟩

/-- A request and then a routine. Most steps of a routine have this form, so most courses are taken
apart with this lemma. -/
theorem follows_perform_bind_iff {r : Request} {f : r.Answer → Routine β} {t : List Exchange}
    {b : β} :
    Follows (r.perform >>= f) t b ↔ ∃ answer rest, t = ⟨r, answer⟩ :: rest ∧
      Follows (f answer) rest b := by
  rw [Request.perform, ask_bind, follows_ask_iff]
  exact Iff.rfl

theorem Follows.perform_bind {r : Request} {f : r.Answer → Routine β} {answer : r.Answer}
    {rest : List Exchange} {b : β} (h : Follows (f answer) rest b) :
    Follows (r.perform >>= f) (⟨r, answer⟩ :: rest) b :=
  follows_perform_bind_iff.mpr ⟨answer, rest, rfl, h⟩

/-! ### Beginnings -/

/-- **How a course may begin.** Any routine may stop after any exchange, as far as this relation is
concerned: nothing says that there will be another answer. -/
inductive Begins : Routine α → List Exchange → Prop where
  | nil (p : Routine α) : Begins p []
  | ask {r : Request} {next : r.Answer → Routine α} (answer : r.Answer) {rest : List Exchange} :
      Begins (next answer) rest → Begins (.ask r next) (⟨r, answer⟩ :: rest)

@[simp] theorem begins_done_iff {a : α} {t : List Exchange} : Begins (.done a) t ↔ t = [] := by
  constructor
  · rintro ⟨⟩
    rfl
  · rintro rfl
    exact .nil _

/-- A routine that asks has not begun, or was answered and then began on what follows. -/
theorem begins_ask_iff {r : Request} {next : r.Answer → Routine α} {t : List Exchange} :
    Begins (.ask r next) t ↔ t = [] ∨ ∃ answer rest, t = ⟨r, answer⟩ :: rest ∧
      Begins (next answer) rest := by
  constructor
  · rintro (_ | ⟨answer, h⟩)
    · exact Or.inl rfl
    · exact Or.inr ⟨answer, _, rfl, h⟩
  · rintro (rfl | ⟨answer, rest, rfl, h⟩)
    · exact .nil _
    · exact .ask answer h

/-- A whole course is a beginning, so what holds of beginnings holds of whole courses. -/
theorem Follows.begins {p : Routine α} {t : List Exchange} {a : α} (h : Follows p t a) :
    Begins p t := by
  induction h with
  | done a => exact .nil _
  | ask answer _ ih => exact .ask answer ih

/-- **A beginning of one routine after another** ends within the first, or the first has a whole
course and the second has begun. A first routine with a whole course may be read in both ways. -/
theorem begins_bind_iff {p : Routine α} {f : α → Routine β} {t : List Exchange} :
    Begins (p >>= f) t ↔ Begins p t ∨
      ∃ a t₁ t₂, t = t₁ ++ t₂ ∧ Follows p t₁ a ∧ Begins (f a) t₂ := by
  -- Along the first routine, as for whole courses. Breaking off may happen on either side.
  induction p generalizing t with
  | done a =>
    rw [done_bind]
    constructor
    · intro h
      exact Or.inr ⟨a, [], t, rfl, .done a, h⟩
    · rintro (h | ⟨a', t₁, t₂, rfl, h₁, h₂⟩)
      · obtain rfl := begins_done_iff.mp h
        exact .nil _
      · obtain ⟨rfl, rfl⟩ := follows_done_iff.mp h₁
        exact h₂
  | ask r next ih =>
    rw [ask_bind, begins_ask_iff, begins_ask_iff]
    constructor
    · rintro (rfl | ⟨answer, rest, rfl, h⟩)
      · exact Or.inl (Or.inl rfl)
      · rcases (ih answer).mp h with h | ⟨a, t₁, t₂, rfl, h₁, h₂⟩
        · exact Or.inl (Or.inr ⟨answer, rest, rfl, h⟩)
        · exact Or.inr ⟨a, ⟨r, answer⟩ :: t₁, t₂, rfl, .ask answer h₁, h₂⟩
    · rintro ((rfl | ⟨answer, rest, rfl, h⟩) | ⟨a, t₁, t₂, rfl, h₁, h₂⟩)
      · exact Or.inl rfl
      · exact Or.inr ⟨answer, rest, rfl, (ih answer).mpr (Or.inl h)⟩
      · obtain ⟨answer, rest, rfl, h⟩ := follows_ask_iff.mp h₁
        exact Or.inr ⟨answer, rest ++ t₂, rfl,
          (ih answer).mpr (Or.inr ⟨a, rest, t₂, rfl, h, h₂⟩)⟩

theorem Follows.begins_bind {p : Routine α} {f : α → Routine β} {t₁ t₂ : List Exchange} {a : α}
    (h₁ : Follows p t₁ a) (h₂ : Begins (f a) t₂) : Begins (p >>= f) (t₁ ++ t₂) :=
  begins_bind_iff.mpr (Or.inr ⟨a, t₁, t₂, rfl, h₁, h₂⟩)

theorem Begins.perform_bind {r : Request} {f : r.Answer → Routine β} {answer : r.Answer}
    {rest : List Exchange} (h : Begins (f answer) rest) :
    Begins (r.perform >>= f) (⟨r, answer⟩ :: rest) :=
  .ask answer h

/-! ### What is asked -/

/-- **What a routine asks** once a list of exchanges is behind it. This speaks of the moment before
the answer, when nothing is known of it yet. -/
inductive Asks : Routine α → List Exchange → Request → Prop where
  | here {r : Request} {next : r.Answer → Routine α} : Asks (.ask r next) [] r
  | later {r r' : Request} {next : r.Answer → Routine α} (answer : r.Answer)
      {rest : List Exchange} :
      Asks (next answer) rest r' → Asks (.ask r next) (⟨r, answer⟩ :: rest) r'

@[simp] theorem not_asks_done {a : α} {t : List Exchange} {r : Request} :
    ¬ Asks (.done a) t r := by
  rintro ⟨⟩

theorem asks_ask_iff {r r' : Request} {next : r.Answer → Routine α} {t : List Exchange} :
    Asks (.ask r next) t r' ↔ (t = [] ∧ r' = r) ∨
      ∃ answer rest, t = ⟨r, answer⟩ :: rest ∧ Asks (next answer) rest r' := by
  constructor
  · rintro (_ | ⟨answer, h⟩)
    · exact Or.inl ⟨rfl, rfl⟩
    · exact Or.inr ⟨answer, _, rfl, h⟩
  · rintro (⟨rfl, rfl⟩ | ⟨answer, rest, rfl, h⟩)
    · exact .here
    · exact .later answer h

/-- **What one routine after another asks** is asked by the first, or by the second behind a whole
course of the first. -/
theorem asks_bind_iff {p : Routine α} {f : α → Routine β} {t : List Exchange} {r : Request} :
    Asks (p >>= f) t r ↔ Asks p t r ∨
      ∃ a t₁ t₂, t = t₁ ++ t₂ ∧ Follows p t₁ a ∧ Asks (f a) t₂ r := by
  -- Along the first routine. A routine that is done asks nothing, so the second asked.
  induction p generalizing t with
  | done a =>
    rw [done_bind]
    constructor
    · intro h
      exact Or.inr ⟨a, [], t, rfl, .done a, h⟩
    · rintro (h | ⟨a', t₁, t₂, rfl, h₁, h₂⟩)
      · exact absurd h not_asks_done
      · obtain ⟨rfl, rfl⟩ := follows_done_iff.mp h₁
        exact h₂
  | ask r' next ih =>
    rw [ask_bind, asks_ask_iff, asks_ask_iff]
    constructor
    · rintro (h | ⟨answer, rest, rfl, h⟩)
      · exact Or.inl (Or.inl h)
      · rcases (ih answer).mp h with h | ⟨a, t₁, t₂, rfl, h₁, h₂⟩
        · exact Or.inl (Or.inr ⟨answer, rest, rfl, h⟩)
        · exact Or.inr ⟨a, ⟨r', answer⟩ :: t₁, t₂, rfl, .ask answer h₁, h₂⟩
    · -- The first request is its own, or it was answered and the rest was asked later.
      rintro ((h | ⟨answer, rest, rfl, h⟩) | ⟨a, t₁, t₂, rfl, h₁, h₂⟩)
      · exact Or.inl h
      · exact Or.inr ⟨answer, rest, rfl, (ih answer).mpr (Or.inl h)⟩
      · obtain ⟨answer, rest, rfl, h⟩ := follows_ask_iff.mp h₁
        exact Or.inr ⟨answer, rest ++ t₂, rfl,
          (ih answer).mpr (Or.inr ⟨a, rest, t₂, rfl, h, h₂⟩)⟩

/-- What a request and then a routine asks: the request itself as long as nothing was exchanged, and
later what the routine asks. -/
theorem asks_perform_bind_iff {r r' : Request} {f : r.Answer → Routine β} {t : List Exchange} :
    Asks (r.perform >>= f) t r' ↔ (t = [] ∧ r' = r) ∨
      ∃ answer rest, t = ⟨r, answer⟩ :: rest ∧ Asks (f answer) rest r' := by
  rw [Request.perform, ask_bind, asks_ask_iff]
  exact Iff.rfl

/-- What is behind a request is how the course began. -/
theorem Asks.begins {p : Routine α} {t : List Exchange} {r : Request} (h : Asks p t r) :
    Begins p t := by
  induction h with
  | here => exact .nil _
  | later answer _ ih => exact .ask answer ih

/-- Nothing is asked behind a whole course. So a routine that still asks something has not ended. -/
theorem Follows.not_asks {p : Routine α} {t : List Exchange} {a : α} (h : Follows p t a)
    (rest : List Exchange) (r : Request) : ¬ Asks p (t ++ rest) r := by
  induction h with
  | done a => exact not_asks_done
  | ask answer _ ih =>
    rintro (_ | ⟨_, hasks⟩)
    exact ih hasks

/-- What is asked along a whole course is answered in it, by the next exchange. -/
theorem Asks.exists_answer {p : Routine α} {before after : List Exchange} {r : Request} {a : α}
    (h : Asks p before r) (hfollows : Follows p (before ++ after) a) :
    ∃ answer rest, after = ⟨r, answer⟩ :: rest := by
  induction h with
  | here =>
    rcases hfollows with _ | ⟨answer, -⟩
    exact ⟨answer, _, rfl⟩
  | later answer _ ih =>
    rcases hfollows with _ | ⟨_, hnext⟩
    exact ih hnext

/-- Every exchange of a beginning was asked for, behind those in front of it. -/
theorem Begins.asks {p : Routine α} {before after : List Exchange} {e : Exchange}
    (h : Begins p (before ++ e :: after)) : Asks p before e.1 := by
  -- On what was exchanged before it: each exchange is answered, and leaves what comes next.
  induction before generalizing p with
  | nil =>
    rcases h with _ | ⟨answer, h⟩
    exact .here
  | cons x before ih =>
    rcases h with _ | ⟨answer, h⟩
    exact .later answer (ih h)

/-- Every exchange of a beginning was asked for at some point of it. -/
theorem Begins.exists_asks {p : Routine α} {t : List Exchange} {e : Exchange} (h : Begins p t)
    (he : e ∈ t) : ∃ before, Asks p before e.1 := by
  obtain ⟨before, after, rfl⟩ := List.append_of_mem he
  exact ⟨before, h.asks⟩

end Countersign.Routine
