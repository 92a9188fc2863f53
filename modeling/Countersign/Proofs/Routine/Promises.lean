import Countersign.Proofs.Routine.Timing

/-!
# What routines promise in time

A run under a timing (`Routine.Runs`) ends, and a routine that is still on its way has only
**started** (`Routine.Started`). A routine **promises** something if, whatever it is answered and
whenever, each of its requests satisfies one condition, and its result and the time of it satisfy
another (`Routine.Promises`). As with conforming (`Routine.Conforms`, which says nothing of times)
a proof follows the program text, and what is promised is known of every run
(`Promises.of_runs`) and of every start (`Promises.of_started`).

A result often tells of something that had happened by then, such as the cancellation. Such a
promise stays good as time goes on, which it does under a timing that **keeps time**
(`Routine.KeepsTime`): it has a true clock, and nothing is over before it began.
-/

namespace Countersign.Routine

variable {α β : Type} {timing : Timing} {now stop : Nat} {t : List (Nat × Exchange)}
  {p : Routine α}

/-! ### Runs on their way -/

/-- **A run that may be on its way**: the exchanges so far, with the times at which they were asked.
It may be one that never ends. -/
inductive Started (timing : Timing) : Routine α → Nat → List (Nat × Exchange) → Prop where
  | here (p : Routine α) (now : Nat) : Started timing p now []
  | ask {r : Request} {next : r.Answer → Routine α} {answer : r.Answer} {now later : Nat}
      {rest : List (Nat × Exchange)} :
      timing now ⟨r, answer⟩ later → Started timing (next answer) later rest →
        Started timing (.ask r next) now ((now, ⟨r, answer⟩) :: rest)

/-- A run that has ended has started. -/
theorem Runs.started {a : α} (h : Runs timing p now t stop a) : Started timing p now t := by
  induction h with
  | done a now => exact .here _ now
  | ask hanswer _ ih => exact .ask hanswer ih

/-- One routine after another, on its way: within the first, or within the second with a whole run
of the first behind it. -/
theorem started_bind_cases {f : α → Routine β} (h : Started timing (p >>= f) now t) :
    Started timing p now t ∨ ∃ a between t₁ t₂, t = t₁ ++ t₂ ∧ Runs timing p now t₁ between a ∧
      Started timing (f a) between t₂ := by
  -- Along the first routine. One that is done is behind, with nothing asked.
  induction p generalizing now t with
  | done a => exact Or.inr ⟨a, now, [], t, rfl, .done a now, h⟩
  | ask r next ih =>
    rcases h with _ | ⟨hanswer, hrest⟩
    · exact Or.inl (.here _ now)
    rcases ih _ hrest with hfirst | ⟨a, between, t₁, t₂, rfl, h₁, h₂⟩
    · exact Or.inl (.ask hanswer hfirst)
    · exact Or.inr ⟨a, between, _ :: t₁, t₂, rfl, .ask hanswer h₁, h₂⟩

/-- Where nothing is over before it began, nothing happens before the start. -/
theorem Started.le (forward : ∀ {time later : Nat} {e : Exchange}, timing time e later →
      time ≤ later) (h : Started timing p now t) : ∀ e ∈ t, now ≤ e.1 := by
  induction h with
  | here => simp
  | ask hanswer _ ih =>
    refine List.forall_mem_cons.mpr ⟨Nat.le_refl _, fun e he => ?_⟩
    exact Nat.le_trans (forward hanswer) (ih e he)

/-- Nor is a run over before its start. -/
theorem Runs.le {a : α} (forward : ∀ {time later : Nat} {e : Exchange}, timing time e later →
      time ≤ later) (h : Runs timing p now t stop a) : now ≤ stop := by
  induction h with
  | done => exact Nat.le_refl _
  | ask hanswer _ ih => exact Nat.le_trans (forward hanswer) ih

/-! ### Promises -/

/-- Requests, and results with their times, that satisfy a condition each, whatever is answered and
whenever. The time at which the routine begins is part of this, as conditions may refer to it. -/
def Promises (timing : Timing) (asked : Request → Prop) (given : α → Nat → Prop) :
    Routine α → Nat → Prop
  | .done a, now => given a now
  | .ask r next, now => asked r ∧ ∀ answer later, timing now ⟨r, answer⟩ later →
      Promises timing asked given (next answer) later

variable {asked asked' : Request → Prop} {given given' : α → Nat → Prop}

/-- A request and then a routine. -/
theorem promises_perform_bind {r : Request} {f : r.Answer → Routine β} {given : β → Nat → Prop} :
    Promises timing asked given (r.perform >>= f) now ↔ asked r ∧ ∀ answer later,
      timing now ⟨r, answer⟩ later → Promises timing asked given (f answer) later :=
  Iff.rfl

/-- One routine after another. What the first promises, the second may rely upon, and it begins at
the time for which it was promised. -/
theorem Promises.bind {f : α → Routine β} {given' : β → Nat → Prop}
    (h : Promises timing asked given p now)
    (hf : ∀ a later, given a later → Promises timing asked given' (f a) later) :
    Promises timing asked given' (p >>= f) now := by
  induction p generalizing now with
  | done a => exact hf a now h
  | ask r next ih => exact ⟨h.1, fun answer later htime => ih answer (h.2 answer later htime)⟩

/-- What conforms promises the same at any time. -/
theorem Conforms.promises {given : α → Prop} (h : Conforms asked given p) (now : Nat) :
    Promises timing asked (fun a _ => given a) p now := by
  induction p generalizing now with
  | done a => exact h
  | ask r next ih => exact ⟨h.1, fun answer later _ => ih answer (h.2 answer) later⟩

/-- The result of a run is as promised, at the time at which the run ends. -/
theorem Promises.of_runs (h : Promises timing asked given p now) {a : α}
    (hruns : Runs timing p now t stop a) : given a stop := by
  induction hruns with
  | done => exact h
  | ask hanswer _ ih => exact ih (h.2 _ _ hanswer)

/-- The requests of a start are as promised, whether or not the run comes to an end. -/
theorem Promises.of_started (h : Promises timing asked given p now)
    (hstarted : Started timing p now t) : ∀ e ∈ t, asked e.2.1 := by
  induction hstarted with
  | here => simp
  | ask hanswer _ ih => exact List.forall_mem_cons.mpr ⟨h.1, ih (h.2 _ _ hanswer)⟩

/-! ### A true clock -/

/-- **A timing that keeps time**: it tells the time, the clock shows it, and noting something takes
none. Everything else may take as long as it likes. -/
structure KeepsTime (cancelAt : Option Nat) (timing : Timing) : Prop
    extends TellsTime cancelAt timing where
  now {time later answer : Nat} :
    timing time ⟨.now, answer⟩ later → Clocked cancelAt time ⟨.now, answer⟩ later
  note {time later : Nat} {event : Event} :
    timing time ⟨.note event, ()⟩ later → later = time
  exists_note (time : Nat) (event : Event) : ∃ later, timing time ⟨.note event, ()⟩ later
  forward {time later : Nat} {e : Exchange} : timing time e later → time ≤ later

/-- Nothing of the clock is over before it began. -/
theorem Clocked.forward {cancelAt : Option Nat} {time later : Nat} {e : Exchange}
    (h : Clocked cancelAt time e later) : time ≤ later := by
  cases h with
  | now => exact Nat.le_refl _
  | running => exact Nat.le_refl _
  | cancelled => exact Nat.le_refl _
  | elapsed => exact Nat.le_add_right _ _
  | interrupted => exact Nat.le_max_left _ _

end Countersign.Routine
