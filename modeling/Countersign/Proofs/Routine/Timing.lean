import Countersign.Proofs.Routine.Conforming

/-!
# Courses in time

A course (`Routine.Follows`) says what was asked and answered, but not when. A **timing** says which
exchanges may begin at a time, and when they are over (`Routine.Timing`); a routine **runs** under a
timing from one time to another (`Routine.Runs`), and each exchange of it carries the time at which
it was asked. Several answers, or several times, may be possible for one request: a statement about
all runs holds however the surroundings choose.

Of the clock and the cancellation of a task, what matters is said once (`Routine.Clocked`):

* looking at them takes no time;
* a pause lasts as long as it was asked for, unless the cancellation comes first, which ends it;
* if both come at one moment, either may win.

A timing that keeps to this for looking and pausing **tells the time** (`Routine.TellsTime`).
-/

namespace Countersign.Routine

variable {α β : Type}

/-- What may be answered, and when: an exchange that begins at a time may be over at another. It is
a relation, as neither the answer nor its time is in the routine's hands. -/
abbrev Timing := Nat → Exchange → Nat → Prop

/-- **A run under a timing**: from a time on, the exchanges with the times at which they were asked
lead to a result at another time. -/
inductive Runs (timing : Timing) : Routine α → Nat → List (Nat × Exchange) → Nat → α → Prop where
  | done (a : α) (now : Nat) : Runs timing (.done a) now [] now a
  | ask {r : Request} {next : r.Answer → Routine α} {answer : r.Answer} {now later stop : Nat}
      {rest : List (Nat × Exchange)} {a : α} :
      timing now ⟨r, answer⟩ later → Runs timing (next answer) later rest stop a →
        Runs timing (.ask r next) now ((now, ⟨r, answer⟩) :: rest) stop a

variable {timing : Timing} {now stop : Nat} {t : List (Nat × Exchange)}

/-! ### Along the structure of a routine -/

/-- A routine that is done takes no time. -/
@[simp] theorem runs_done_iff {a b : α} :
    Runs timing (.done a) now t stop b ↔ t = [] ∧ stop = now ∧ b = a := by
  constructor
  · rintro ⟨⟩
    exact ⟨rfl, rfl, rfl⟩
  · rintro ⟨rfl, rfl, rfl⟩
    exact .done b stop

/-- A request and then a routine, which begins when the request is answered. -/
theorem runs_perform_bind_iff {r : Request} {f : r.Answer → Routine β} {b : β} :
    Runs timing (r.perform >>= f) now t stop b ↔ ∃ answer later rest,
      t = (now, ⟨r, answer⟩) :: rest ∧ timing now ⟨r, answer⟩ later ∧
        Runs timing (f answer) later rest stop b := by
  rw [Request.perform, ask_bind]
  constructor
  · rintro (_ | ⟨hanswer, hrest⟩)
    exact ⟨_, _, _, rfl, hanswer, hrest⟩
  · rintro ⟨answer, later, rest, rfl, hanswer, hrest⟩
    exact .ask hanswer hrest

/-- **A run of one routine after another** is a run of the first, then one of the second, which
begins when the first has ended. -/
theorem runs_bind_iff {p : Routine α} {f : α → Routine β} {b : β} :
    Runs timing (p >>= f) now t stop b ↔ ∃ a between t₁ t₂,
      t = t₁ ++ t₂ ∧ Runs timing p now t₁ between a ∧ Runs timing (f a) between t₂ stop b := by
  -- Along the first routine, as for courses without times.
  induction p generalizing now t with
  | done a =>
    rw [done_bind]
    constructor
    · intro h
      exact ⟨a, now, [], t, rfl, .done a now, h⟩
    · rintro ⟨a', between, t₁, t₂, rfl, h₁, h₂⟩
      obtain ⟨rfl, rfl, rfl⟩ := runs_done_iff.mp h₁
      exact h₂
  | ask r next ih =>
    constructor
    · rintro (_ | ⟨hanswer, hrest⟩)
      obtain ⟨a, between, t₁, t₂, rfl, h₁, h₂⟩ := (ih _).mp hrest
      exact ⟨a, between, _ :: t₁, t₂, rfl, .ask hanswer h₁, h₂⟩
    · rintro ⟨a, between, t₁, t₂, rfl, _ | ⟨hanswer, h₁⟩, h₂⟩
      exact .ask hanswer ((ih _).mpr ⟨a, between, _, t₂, rfl, h₁, h₂⟩)

/-! ### Routines that come to an end -/

/-- A routine that comes to an end, whenever it begins, for some answers. It shows that statements
about all its runs are not empty. -/
def Ends (timing : Timing) (p : Routine α) : Prop :=
  ∀ now, ∃ t stop a, Runs timing p now t stop a

theorem Ends.done (a : α) : Ends timing (.done a) := fun now => ⟨[], now, a, .done a now⟩

/-- A request that is always answered, and then a routine that ends whatever the answer is. -/
theorem Ends.perform_bind {r : Request} {f : r.Answer → Routine β}
    (hanswer : ∀ now, ∃ answer later, timing now ⟨r, answer⟩ later)
    (hf : ∀ answer, Ends timing (f answer)) : Ends timing (r.perform >>= f) := by
  intro now
  obtain ⟨answer, later, hexchange⟩ := hanswer now
  obtain ⟨rest, stop, b, hrest⟩ := hf answer later
  exact ⟨_, stop, b, runs_perform_bind_iff.mpr ⟨answer, later, rest, rfl, hexchange, hrest⟩⟩

/-- One routine after another comes to an end if both do. -/
theorem Ends.bind {p : Routine α} {f : α → Routine β} (hp : Ends timing p)
    (hf : ∀ a, Ends timing (f a)) : Ends timing (p >>= f) := by
  intro now
  obtain ⟨t₁, between, a, h₁⟩ := hp now
  obtain ⟨t₂, stop, b, h₂⟩ := hf a between
  exact ⟨t₁ ++ t₂, stop, b, runs_bind_iff.mpr ⟨a, between, t₁, t₂, rfl, h₁, h₂⟩⟩

/-- A routine whose requests are all answered comes to an end. There is no infinite routine: each is
a finite tree of requests. -/
theorem Conforms.ends {p : Routine α} {asked : Request → Prop} {given : α → Prop}
    (h : Conforms asked given p)
    (hanswer : ∀ r, asked r → ∀ now, ∃ answer later, timing now ⟨r, answer⟩ later) :
    Ends timing p := by
  induction p with
  | done a => exact .done a
  | ask r next ih => exact .perform_bind (f := next) (hanswer r h.1) fun answer => ih _ (h.2 answer)

/-! ### The clock and the cancellation -/

/-- **What the clock shows and how waits end**, if the task is cancelled at a time or never. -/
inductive Clocked (cancelAt : Option Nat) : Timing where
  | now (time : Nat) : Clocked cancelAt time ⟨.now, time⟩ time
  | running {time : Nat} (early : ∀ c ∈ cancelAt, time ≤ c) :
      Clocked cancelAt time ⟨.isCancelled, false⟩ time
  | cancelled {time c : Nat} (mem : c ∈ cancelAt) (late : c ≤ time) :
      Clocked cancelAt time ⟨.isCancelled, true⟩ time
  /-- A pause is over at its end; only an empty one can be so once the task is cancelled. -/
  | elapsed {time ms : Nat} (early : ∀ c ∈ cancelAt, time + ms ≤ max time c) :
      Clocked cancelAt time ⟨.pause ms, .elapsed⟩ (time + ms)
  | interrupted {time ms c : Nat} (mem : c ∈ cancelAt) (late : c ≤ time + ms) :
      Clocked cancelAt time ⟨.pause ms, .cancelled⟩ (max time c)

namespace Clocked

variable {cancelAt : Option Nat} {time later : Nat}

/-- Looking for the cancellation takes no time, and it is seen from its time on. At this time itself
both answers are possible. -/
theorem isCancelled_cases {answer : Bool} (h : Clocked cancelAt time ⟨.isCancelled, answer⟩ later) :
    later = time ∧ ((answer = false ∧ ∀ c ∈ cancelAt, time ≤ c) ∨
      (answer = true ∧ ∃ c ∈ cancelAt, c ≤ time)) := by
  cases h with
  | running early => exact ⟨rfl, Or.inl ⟨rfl, early⟩⟩
  | cancelled mem late => exact ⟨rfl, Or.inr ⟨rfl, _, mem, late⟩⟩

/-- A pause ends at its time or at the cancellation, whichever comes first, and with either if they
come together. -/
theorem pause_cases {ms : Nat} {wait : Wait} (h : Clocked cancelAt time ⟨.pause ms, wait⟩ later) :
    (wait = .elapsed ∧ later = time + ms ∧ ∀ c ∈ cancelAt, time + ms ≤ max time c) ∨
      (wait = .cancelled ∧ ∃ c ∈ cancelAt, later = max time c ∧ c ≤ time + ms) := by
  cases h with
  | elapsed early => exact Or.inl ⟨rfl, rfl, early⟩
  | interrupted mem late => exact Or.inr ⟨rfl, _, mem, rfl, late⟩

/-- The clock shows the time, and looking at it takes none. -/
theorem now_cases {answer : Nat} (h : Clocked cancelAt time ⟨.now, answer⟩ later) :
    answer = time ∧ later = time := by
  cases h with
  | now => exact ⟨rfl, rfl⟩

/-- There always is an answer about the cancellation. -/
theorem exists_isCancelled (cancelAt : Option Nat) (time : Nat) :
    ∃ answer : Bool, Clocked cancelAt time ⟨.isCancelled, answer⟩ time := by
  by_cases late : ∃ c ∈ cancelAt, c ≤ time
  · obtain ⟨c, mem, late⟩ := late
    exact ⟨true, .cancelled mem late⟩
  · refine ⟨false, .running fun c mem => ?_⟩
    exact Nat.le_of_lt (Nat.lt_of_not_le fun h => late ⟨c, mem, h⟩)

/-- Every pause ends in some way. -/
theorem exists_pause (cancelAt : Option Nat) (time ms : Nat) :
    ∃ (wait : Wait) (later : Nat), Clocked cancelAt time ⟨.pause ms, wait⟩ later := by
  by_cases late : ∃ c ∈ cancelAt, c ≤ time + ms
  · obtain ⟨c, mem, late⟩ := late
    exact ⟨.cancelled, _, .interrupted mem late⟩
  · refine ⟨.elapsed, _, .elapsed fun c mem => ?_⟩
    have hlater : time + ms < c := Nat.lt_of_not_le fun h => late ⟨c, mem, h⟩
    omega

end Clocked

/-- **A timing that tells the time** of looking for the cancellation and of pausing, and answers
both whenever it is asked. Nothing is said of any other request, so sources and stores may take as
long as they like. -/
structure TellsTime (cancelAt : Option Nat) (timing : Timing) : Prop where
  isCancelled {time later : Nat} {answer : Bool} :
    timing time ⟨.isCancelled, answer⟩ later → Clocked cancelAt time ⟨.isCancelled, answer⟩ later
  pause {time ms later : Nat} {wait : Wait} :
    timing time ⟨.pause ms, wait⟩ later → Clocked cancelAt time ⟨.pause ms, wait⟩ later
  exists_isCancelled (time : Nat) :
    ∃ (answer : Bool) (later : Nat), timing time ⟨.isCancelled, answer⟩ later
  exists_pause (time ms : Nat) :
    ∃ (wait : Wait) (later : Nat), timing time ⟨.pause ms, wait⟩ later

/-- **A timing with a clock in it** tells the time, if it has nothing else to say of these two. The
timings of the examples are made like this. -/
theorem TellsTime.of_clocked {cancelAt : Option Nat}
    (clock : ∀ {time later : Nat} {e : Exchange}, Clocked cancelAt time e later →
      timing time e later)
    (isCancelled : ∀ {time later : Nat} {answer : Bool},
      timing time ⟨.isCancelled, answer⟩ later → Clocked cancelAt time ⟨.isCancelled, answer⟩ later)
    (pause : ∀ {time ms later : Nat} {wait : Wait},
      timing time ⟨.pause ms, wait⟩ later → Clocked cancelAt time ⟨.pause ms, wait⟩ later) :
    TellsTime cancelAt timing where
  isCancelled := isCancelled
  pause := pause
  exists_isCancelled time :=
    let ⟨answer, told⟩ := Clocked.exists_isCancelled cancelAt time
    ⟨answer, time, clock told⟩
  exists_pause time ms :=
    let ⟨wait, later, told⟩ := Clocked.exists_pause cancelAt time ms
    ⟨wait, later, clock told⟩

end Countersign.Routine
