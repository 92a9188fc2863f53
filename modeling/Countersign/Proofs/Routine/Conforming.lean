import Countersign.Proofs.Routine.Interleaving

/-!
# Routines that keep a promise

A routine **conforms** to `asked` and `given` if, whatever it is answered, each of its requests
satisfies `asked` and its result satisfies `given` (`Routine.Conforms`). The definition follows the
routine, so a proof of it follows the program text: one lemma for each way of building a routine
(`conforms_done`, `conforms_perform`, `Conforms.bind`), and induction where the program loops.

What a conforming routine does is then known of every course and every beginning of one
(`Conforms.follows`, `Conforms.begins`, `Conforms.asks`).
-/

namespace Countersign.Routine

variable {α β : Type} {asked asked' : Request → Prop} {given given' : α → Prop} {p : Routine α}

/-- Requests and results that satisfy a condition each, whatever is answered. The condition on a
request cannot depend on the answers before it; where it must, `Routine.Promises` or a lemma on
courses is used. -/
def Conforms (asked : Request → Prop) (given : α → Prop) : Routine α → Prop
  | .done a => given a
  | .ask r next => asked r ∧ ∀ answer, Conforms asked given (next answer)

@[simp] theorem conforms_done {a : α} : Conforms asked given (.done a) ↔ given a := Iff.rfl

@[simp] theorem conforms_perform {r : Request} {given : r.Answer → Prop} :
    Conforms asked given r.perform ↔ asked r ∧ ∀ answer, given answer := Iff.rfl

/-- One routine after another. What the first is known to give, the second may rely upon, which is
how a checked value stays checked. -/
theorem Conforms.bind {f : α → Routine β} {given' : β → Prop} (h : Conforms asked given p)
    (hf : ∀ a, given a → Conforms asked given' (f a)) : Conforms asked given' (p >>= f) := by
  -- Along the first routine, at the end of which its result is known to be given.
  induction p with
  | done a => exact hf a h
  | ask r next ih => exact ⟨h.1, fun answer => ih answer (h.2 answer)⟩

/-- A request and then a routine. -/
theorem conforms_perform_bind {r : Request} {f : r.Answer → Routine β} {given : β → Prop} :
    Conforms asked given (r.perform >>= f) ↔ asked r ∧ ∀ answer, Conforms asked given (f answer) :=
  Iff.rfl

/-- What conforms to two conditions conforms to any that follow from them. -/
theorem Conforms.mono (h : Conforms asked given p) (hasked : ∀ r, asked r → asked' r)
    (hgiven : ∀ a, given a → given' a) : Conforms asked' given' p := by
  induction p with
  | done a => exact hgiven a h
  | ask r next ih => exact ⟨hasked r h.1, fun answer => ih answer (h.2 answer)⟩

/-- The result of a conforming routine, once it has a whole course. -/
theorem Conforms.follows (h : Conforms asked given p) {t : List Exchange} {a : α}
    (ht : Follows p t a) : given a := by
  induction ht with
  | done a => exact h
  | ask answer _ ih => exact ih (h.2 answer)

/-- What a conforming routine asks, wherever it is. -/
theorem Conforms.asks (h : Conforms asked given p) {t : List Exchange} {r : Request}
    (ht : Asks p t r) : asked r := by
  induction ht with
  | here => exact h.1
  | later answer _ ih => exact ih (h.2 answer)

/-- What a conforming routine has asked, also if it is broken off. -/
theorem Conforms.begins (h : Conforms asked given p) {t : List Exchange} (ht : Begins p t)
    {e : Exchange} (he : e ∈ t) : asked e.1 := by
  obtain ⟨before, hasks⟩ := ht.exists_asks he
  exact h.asks hasks

end Countersign.Routine
