import Countersign.Proofs.Routine.Course

/-!
# Interleaved calls

Several calls may be on their way at once, and what they exchange with their surroundings comes in
one order. An `Interleaving` of numbered calls is such an order: each exchange carries the number of
its call, and the exchanges of each call alone begin a course of its routine.

A call may be over, may still be on its way or have been dropped there, or may not have begun: the
number of calls is not bounded, but only finitely many have exchanged anything.

What one call learnt of another it can only have learnt through the surroundings. So a statement
about all calls takes the routine of the one that asked (`Interleaving.exists_asks`) and what the
surroundings promise.
-/

namespace Countersign.Routine

/-- The exchanges of one call among those of all, in order and without the number. -/
def ofCall (n : Nat) (course : List (Nat × Exchange)) : List Exchange :=
  course.filterMap fun e => if e.1 = n then some e.2 else none

/-- An exchange is one of a call's if it carries the number of the call. -/
theorem mem_ofCall {n : Nat} {course : List (Nat × Exchange)} {e : Exchange} :
    e ∈ ofCall n course ↔ (n, e) ∈ course := by
  rw [ofCall, List.mem_filterMap]
  constructor
  · rintro ⟨⟨m, e'⟩, hmem, h⟩
    split at h
    · next hm =>
      obtain rfl : m = n := hm
      obtain rfl := Option.some.inj h
      exact hmem
    · cases h
  · intro h
    exact ⟨(n, e), h, if_pos rfl⟩

@[simp] theorem ofCall_append (n : Nat) (before after : List (Nat × Exchange)) :
    ofCall n (before ++ after) = ofCall n before ++ ofCall n after := by
  rw [ofCall, List.filterMap_append]
  rfl

/-- A course of one call only is all of that call's own, and nothing of any other's. -/
theorem ofCall_map (m n : Nat) (t : List Exchange) :
    ofCall n (t.map fun e => (m, e)) = if m = n then t else [] := by
  rw [ofCall, List.filterMap_map]
  show t.filterMap (fun e => if m = n then some e else none) = _
  split
  · exact List.filterMap_some
  · exact List.filterMap_eq_nil_iff.mpr fun e _ => rfl

variable {α : Type}

/-- **An order of the exchanges of numbered calls.** -/
structure Interleaving (calls : Nat → Routine α) where
  course : List (Nat × Exchange)
  begins : ∀ n, Begins (calls n) (ofCall n course)

namespace Interleaving

variable {calls : Nat → Routine α} (h : Interleaving calls)

/-- Every exchange was asked for by its call, at some point of what this call had exchanged. -/
theorem exists_asks {n : Nat} {e : Exchange} (he : (n, e) ∈ h.course) :
    ∃ before, Asks (calls n) before e.1 :=
  (h.begins n).exists_asks (mem_ofCall.mpr he)

/-- What was exchanged when a call asked: the course up to an exchange of it, of which its own part
led it to the request. -/
theorem asks {n : Nat} {e : Exchange} {before after : List (Nat × Exchange)}
    (hcourse : h.course = before ++ (n, e) :: after) : Asks (calls n) (ofCall n before) e.1 := by
  -- The call's own part is cut where the whole course is.
  have hbegins := h.begins n
  have hown : ofCall n ((n, e) :: after) = e :: ofCall n after := by
    rw [ofCall, List.filterMap_cons, if_pos rfl]
    rfl
  rw [hcourse, ofCall_append, hown] at hbegins
  exact hbegins.asks

/-- One call alone, with the number zero. What is said of all calls holds of it. -/
def single {p : Routine α} {t : List Exchange} (hp : Begins p t) :
    Interleaving fun _ : Nat => p where
  course := t.map fun e => (0, e)
  begins n := by
    rw [ofCall_map]
    split
    · exact hp
    · exact .nil _

end Interleaving

end Countersign.Routine
