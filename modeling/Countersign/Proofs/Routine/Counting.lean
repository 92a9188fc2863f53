import Countersign.Proofs.Routine.Conforming

/-!
# How often a routine asks

`Routine.AsksAtMost sort count p` says that `p` asks at most `count` requests of a sort, whatever
it is answered and wherever it is broken off. A routine that conforms to asking none of them asks
at most zero (`Conforms.asksAtMost_zero`); one routine after another adds up (`AsksAtMost.bind`).
-/

namespace Countersign.Routine

variable {α β : Type} {sort : Request → Bool} {count : Nat}

/-- At most so many requests of a sort, in every beginning of a course. Requests count once they are
answered. -/
def AsksAtMost (sort : Request → Bool) (count : Nat) (p : Routine α) : Prop :=
  ∀ t, Begins p t → t.countP (fun e => sort e.1) ≤ count

/-- A routine that is done asks nothing. -/
theorem asksAtMost_done {a : α} : AsksAtMost sort count (.done a) := by
  intro t ht
  obtain rfl := begins_done_iff.mp ht
  exact Nat.zero_le _

/-- A routine that asks none, by what it conforms to. -/
theorem Conforms.asksAtMost_zero {p : Routine α} {given : α → Prop}
    (h : Conforms (fun r => sort r = false) given p) : AsksAtMost sort 0 p := by
  intro t ht
  refine Nat.le_of_eq (List.countP_eq_zero.mpr fun e he hsort => ?_)
  rw [h.begins ht he] at hsort
  exact absurd hsort Bool.false_ne_true

/-- One routine after another asks no more than both together. -/
theorem AsksAtMost.bind {p : Routine α} {f : α → Routine β} {m n : Nat}
    (hp : AsksAtMost sort m p) (hf : ∀ a, AsksAtMost sort n (f a)) :
    AsksAtMost sort (m + n) (p >>= f) := by
  intro t ht
  rcases begins_bind_iff.mp ht with h | ⟨a, t₁, t₂, rfl, h₁, h₂⟩
  · -- It is broken off before the second has begun.
    exact Nat.le_trans (hp t h) (Nat.le_add_right _ _)
  · rw [List.countP_append]
    exact Nat.add_le_add (hp t₁ h₁.begins) (hf a t₂ h₂)

/-- A routine that asks none, and then another, whose bound stays. -/
theorem AsksAtMost.bind_quiet {p : Routine α} {f : α → Routine β} (hp : AsksAtMost sort 0 p)
    (hf : ∀ a, AsksAtMost sort count (f a)) : AsksAtMost sort count (p >>= f) := by
  have h := hp.bind hf
  rwa [Nat.zero_add] at h

/-- A request of another sort, and then a routine. -/
theorem asksAtMost_perform_bind {r : Request} {f : r.Answer → Routine β} (hr : sort r = false)
    (hf : ∀ answer, AsksAtMost sort count (f answer)) :
    AsksAtMost sort count (r.perform >>= f) := by
  have hquiet : Conforms (fun r => sort r = false) (fun _ => True) r.perform :=
    conforms_perform.mpr ⟨hr, fun _ => trivial⟩
  exact hquiet.asksAtMost_zero.bind_quiet hf

/-- A single request. -/
theorem asksAtMost_perform {r : Request} : AsksAtMost sort 1 r.perform := by
  intro t ht
  rcases begins_ask_iff.mp ht with rfl | ⟨answer, rest, rfl, hrest⟩
  · exact Nat.zero_le _
  · obtain rfl := begins_done_iff.mp hrest
    exact List.countP_le_length

end Countersign.Routine
