import Countersign.Routine.Request

/-!
# Routines

A `Routine α` is a course of action that asks its surroundings and in the end gives an `α`: a tree
whose inner nodes are requests and whose branches are their answers. It says nothing about who
answers. So the same routine is run by a program, stepped together with others by a scheduler, and
reasoned about for all answers.

* `Routine.run` lets one party answer everything, changing its state as it goes.
* `Routine.Follows` says that a list of requests and answers leads to a result.
* A course of action without an end is a *loop*: a step from state to state, each step a routine
  (`Turn`).

Every routine ends under `run`; only loops go on for ever.
-/

namespace Countersign

/-- A course of action that ends with an `α`. It is a tree of finite depth, so there is no course of
action without an end; what goes on for ever is a loop of such (`Turn`). -/
inductive Routine (α : Type) : Type where
  | done (result : α)
  | ask (request : Request) (next : request.Answer → Routine α)

namespace Routine

variable {α β σ : Type}

/-- One course after another: the second begins where the first is done, with its result. -/
protected def bind : Routine α → (α → Routine β) → Routine β
  | .done a, f => f a
  | .ask r next, f => .ask r fun a => (next a).bind f

instance : Monad Routine where
  pure := .done
  bind := Routine.bind

@[simp] theorem pure_eq_done (a : α) : (pure a : Routine α) = .done a := rfl

@[simp] theorem done_bind (a : α) (f : α → Routine β) : (Routine.done a >>= f) = f a := rfl

@[simp] theorem ask_bind (r : Request) (next : r.Answer → Routine α) (f : α → Routine β) :
    (Routine.ask r next >>= f) = .ask r fun a => next a >>= f := rfl

theorem bind_done (p : Routine α) : (p >>= Routine.done) = p := by
  induction p with
  | done a => rfl
  | ask r next ih => simp [ih]

theorem bind_bind {γ : Type} (p : Routine α) (f : α → Routine β) (g : β → Routine γ) :
    (p >>= f >>= g) = (p >>= fun a => f a >>= g) := by
  induction p with
  | done a => rfl
  | ask r next ih => simp [ih]

/-! ### Who answers -/

/-- A party that answers requests, with a state of its own. A simulated chain with its clock is one
such party, and the outside world is another. -/
abbrev Responder (σ : Type) := (r : Request) → σ → r.Answer × σ

/-- The result of a routine when one party answers everything, with what has become of the party.
Only one routine runs then, and nothing happens between its requests. -/
def run (respond : Responder σ) : Routine α → σ → α × σ
  | .done a, s => (a, s)
  | .ask r next, s =>
    let (a, s) := respond r s
    (next a).run respond s

/-- A request with its answer, which is all that can be seen of a routine from outside. -/
abbrev Exchange := (r : Request) × r.Answer

/-- **A list of exchanges leads a routine to a result.** Who answered is left open, so this is the
relation in which statements about all surroundings are made. -/
inductive Follows : Routine α → List Exchange → α → Prop where
  | done (a : α) : Follows (.done a) [] a
  | ask {r : Request} {next : r.Answer → Routine α} (answer : r.Answer) {rest : List Exchange}
      {a : α} : Follows (next answer) rest a → Follows (.ask r next) (⟨r, answer⟩ :: rest) a

@[simp] theorem run_ask (respond : Responder σ) (r : Request) (next : r.Answer → Routine α)
    (s : σ) :
    (Routine.ask r next).run respond s =
      (next (respond r s).1).run respond (respond r s).2 := rfl

end Routine

/-- A request as a routine that gives its answer. Services are written with it in `do` notation. -/
def Request.perform (r : Request) : Routine r.Answer :=
  .ask r .done

/-- A question to the source as a routine. It is the request for the question, with the answer in
the question's own type. -/
def SourceQuery.perform (q : SourceQuery) : Routine q.Answer :=
  .ask (.source q) .done

/-- How a turn of a loop ended: on to the next, or with a result. A scheduler takes one turn after
the other for as long as there are any. -/
inductive Turn (σ α : Type) where
  | again (state : σ)
  | finish (result : α)

end Countersign
