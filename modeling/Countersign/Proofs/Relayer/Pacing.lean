import Countersign.Proofs.Relayer.Truthful
import Mathlib.Data.List.Chain

/-!
# The pace of a relayer

A relayer's service goes from call to call. What it did so far is told in time (`Relayer.Serves`):
the exchanges with their times, the calls that ended, and where the service stands. One constructor
is one step of it, and the turns of `Relayer.turn` are made of these steps, whole ones
(`Serves.turn`) and those on their way (`Serves.begun`).

What holds after any number of steps is `Relayer.Paced`, by one lemma for each kind of step:

* nobody is contacted before the grace period of a backup is over, and nobody at all if the
  cancellation comes first;
* behind a call that relayed the next one begins at once, behind any other a pause later, and none
  begins after the cancellation (`Relayer.Precedes`);
* failures are noted one for each call that failed.

`Relayer.keeps_pace` adds that a turn whose call has ended comes to an end, and that the service
ends only by the cancellation. That rests on the store's error being true
(`Relayer.promises_relayNext`).
-/

namespace Countersign.Relayer

open Routine

variable {setup : RelayerSetup} {cancelAt : Option Nat} {timing : Timing} {start now stop : Nat}
  {t t' : List (Nat × Exchange)}

/-! ### A turn in parts -/

/-- A call that failed, other than by the cancellation. These are the calls for which the service
notes a failure. -/
def isFailure : Except RelayerError RelayOutcome → Bool
  | .ok _ => false
  | .error (.store .cancelled) => false
  | .error _ => true

/-- What a result comes to: whether there is nothing to do for now, or nothing any more. This is the
value that `settle` gives to `conclude`, without the note on the way. -/
def settledAs : Except RelayerError RelayOutcome → Option Bool
  | .ok (.relayed ..) => some false
  | .ok (.upToDate _) => some true
  | .error (.store .cancelled) => none
  | .error _ => some true

/-- The pause at the end of a turn, by what was settled: none if there may be something to do, the
poll interval if there was nothing. -/
def pauseTime (setup : RelayerSetup) : Option Bool → Nat
  | some false => 0
  | _ => setup.config.pollInterval

/-- The time between a call and the next: none behind one that relayed, a pause behind one that had
nothing to do or failed. -/
def idleTime (setup : RelayerSetup) (result : Except RelayerError RelayOutcome) : Nat :=
  pauseTime setup (settledAs result)

/-- The time before the first call, which only a backup lets pass. -/
def graceTime (setup : RelayerSetup) : Nat :=
  if setup.config.backup then setup.config.backupGracePeriod else 0

/-- A turn is a call, what it comes to, and the end. The proofs below follow these three parts, each
by a lemma of its own. -/
theorem turn_eq (setup : RelayerSetup) :
    turn setup = relayNext setup >>= fun result => settle result >>= conclude setup := rfl

/-- Only the cancellation leaves nothing to do any more. -/
theorem settledAs_eq_none_iff {result : Except RelayerError RelayOutcome} :
    settledAs result = none ↔ result = .error (.store .cancelled) := by
  rcases result with e | outcome
  · cases e with
    | store e => cases e <;> simp [settledAs]
    | _ => simp [settledAs]
  · cases outcome <;> simp [settledAs]

/-- **Settling a result** takes no time. It notes a failure, and nothing else, so its exchanges are
known from the result. -/
theorem settle_cases (keeps : KeepsTime cancelAt timing)
    {result : Except RelayerError RelayOutcome} {what : Option Bool}
    (h : Runs timing (settle result) now t stop what) :
    stop = now ∧ what = settledAs result ∧
      t.map Prod.snd = if isFailure result then [⟨.note .relayFailed, ()⟩] else [] := by
  unfold settle at h
  split at h
  · obtain ⟨rfl, rfl, rfl⟩ := runs_done_iff.mp h
    exact ⟨rfl, rfl, rfl⟩
  · obtain ⟨rfl, rfl, rfl⟩ := runs_done_iff.mp h
    exact ⟨rfl, rfl, rfl⟩
  · obtain ⟨rfl, rfl, rfl⟩ := runs_done_iff.mp h
    exact ⟨rfl, rfl, rfl⟩
  · -- The last case is any other error, which is not told by a pattern.
    next e hother =>
    obtain ⟨_, later, rest, rfl, hnote, hrest⟩ := runs_perform_bind_iff.mp h
    obtain ⟨rfl, rfl, rfl⟩ := runs_done_iff.mp hrest
    have hsettled : settledAs (.error e) = some true := by
      unfold settledAs
      split <;> simp_all
    have hfailure : isFailure (.error e) = true := by
      unfold isFailure
      split <;> simp_all
    rw [hsettled, hfailure]
    exact ⟨keeps.note hnote, rfl, rfl⟩

/-- A result can always be settled, since a note is answered by nothing. -/
theorem exists_settle (keeps : KeepsTime cancelAt timing)
    (result : Except RelayerError RelayOutcome) (now : Nat) :
    ∃ noted stop what, Runs timing (settle result) now noted stop what := by
  unfold settle
  split
  · exact ⟨[], now, _, .done _ _⟩
  · exact ⟨[], now, _, .done _ _⟩
  · exact ⟨[], now, _, .done _ _⟩
  · obtain ⟨later, hnote⟩ := keeps.exists_note now .relayFailed
    exact ⟨_, later, _, runs_perform_bind_iff.mpr ⟨(), later, [], rfl, hnote, .done _ _⟩⟩

/-- A note that is begun is made, or nothing was asked for it yet. There is nothing in between, as
settling has one exchange at most. -/
theorem settle_begun {result : Except RelayerError RelayOutcome}
    (h : Started timing (settle result) now t) :
    t = [] ∨ ∃ stop what, Runs timing (settle result) now t stop what := by
  unfold settle at h ⊢
  split at h
  · cases h
    exact Or.inl rfl
  · cases h
    exact Or.inl rfl
  · cases h
    exact Or.inl rfl
  · rcases h with _ | ⟨hnote, hrest⟩
    · exact Or.inl rfl
    · cases hrest
      exact Or.inr ⟨_, _, .ask hnote (.done _ _)⟩

/-- **How a turn ends**: the next one follows after the pause, if there is one, unless the task is
cancelled by then. The second case covers both places at which the token is looked at, before the
pause and during it. -/
theorem conclude_cases (keeps : KeepsTime cancelAt timing) {what : Option Bool}
    {ended : Turn Unit Unit} (h : Runs timing (conclude setup what) now t stop ended) :
    (ended = .again () ∧ what ≠ none ∧ stop = now + pauseTime setup what ∧
      ∀ c ∈ cancelAt, stop ≤ c) ∨
    (ended = .finish () ∧ (what = none ∧ stop = now ∨
      stop ≤ now + pauseTime setup what ∧ CancelledBy cancelAt stop)) := by
  cases what with
  -- Nothing is to be done any more, so the turn ends without a look at the token.
  | none =>
    obtain ⟨rfl, rfl, rfl⟩ := runs_done_iff.mp h
    exact Or.inr ⟨rfl, Or.inl ⟨rfl, rfl⟩⟩
  -- The token is looked at first, and a pause is asked for if there was nothing to do.
  | some idle =>
    obtain ⟨seen, time, rest, rfl, hseen, hrest⟩ := runs_perform_bind_iff.mp h
    obtain ⟨rfl, ⟨rfl, early⟩ | ⟨rfl, late⟩⟩ := (keeps.isCancelled hseen).isCancelled_cases
    · cases idle with
      | false =>
        obtain ⟨rfl, rfl, rfl⟩ := runs_done_iff.mp hrest
        exact Or.inl ⟨rfl, nofun, rfl, early⟩
      | true =>
        obtain ⟨wait, later, rest, rfl, hwait, hrest⟩ := runs_perform_bind_iff.mp hrest
        obtain ⟨rfl, rfl, waited⟩ | ⟨rfl, c, mem, rfl, hc⟩ := (keeps.pause hwait).pause_cases
        · obtain ⟨rfl, rfl, rfl⟩ := runs_done_iff.mp hrest
          refine Or.inl ⟨rfl, nofun, rfl, fun c mem => ?_⟩
          have hearly := early c mem
          have hwaited := waited c mem
          rwa [Nat.max_eq_right hearly] at hwaited
        · obtain ⟨rfl, rfl, rfl⟩ := runs_done_iff.mp hrest
          refine Or.inr ⟨rfl, Or.inr ⟨?_, c, mem, Nat.le_max_right _ _⟩⟩
          exact Nat.max_le.mpr ⟨Nat.le_add_right _ _, hc⟩
    · obtain ⟨rfl, rfl, rfl⟩ := runs_done_iff.mp hrest
      exact Or.inr ⟨rfl, Or.inr ⟨Nat.le_add_right _ _, late⟩⟩

/-- The end of a turn comes, whatever was settled: there is one look at the token and one pause at
most. -/
theorem ends_conclude (keeps : KeepsTime cancelAt timing) (what : Option Bool) :
    Ends timing (conclude setup what) := by
  cases what with
  | none => exact .done _
  | some idle =>
    refine .perform_bind keeps.exists_isCancelled fun seen => ?_
    cases seen with
    | true => exact .done _
    | false =>
      cases idle with
      | false => exact .done _
      | true =>
        refine .perform_bind (fun time => keeps.exists_pause time _) fun wait => ?_
        cases wait <;> exact .done _

/-! ### Contacts and failures -/

/-- A read of the contract, the source or the store, or a submission. What is left are the dealings
with clock, token, cache and log. -/
def isContact : Request → Bool
  | .lastRelayed => true
  | .source _ => true
  | .getAll _ _ => true
  | .submit _ => true
  | _ => false

/-- An exchange that contacts nobody and notes no failure. The grace period and the end of a turn
have only such exchanges. -/
def Idles (r : Request) : Prop := isContact r = false ∧ NotesNoFailure r

theorem idles_gracePeriod (setup : RelayerSetup) :
    Conforms Idles (fun _ => True) (gracePeriod setup) := by
  unfold gracePeriod
  split
  · exact conforms_perform.mpr ⟨⟨rfl, rfl⟩, fun _ => trivial⟩
  · trivial

theorem idles_conclude (setup : RelayerSetup) (what : Option Bool) :
    Conforms Idles (fun _ => True) (conclude setup what) := by
  cases what with
  | none => trivial
  | some idle =>
    refine conforms_perform_bind.mpr ⟨⟨rfl, rfl⟩, fun seen => ?_⟩
    split
    · trivial
    split
    · refine conforms_perform_bind.mpr ⟨⟨rfl, rfl⟩, fun wait => ?_⟩
      split <;> trivial
    · trivial

/-- The counters after exchanges. They are moved by notes alone. -/
def metricsAfter (metrics : Metrics) (t : List (Nat × Exchange)) : Metrics :=
  t.foldl (fun m e => match e.2 with
    | ⟨.note event, _⟩ => m.note event
    | _ => m) metrics

/-- **Failures are counted** by their notes. With one note for each call that failed, the counter is
the number of these calls. -/
theorem relayFailures_metricsAfter (metrics : Metrics) (t : List (Nat × Exchange)) :
    (metricsAfter metrics t).relayFailures =
      metrics.relayFailures + t.countP fun e => isFailureNote e.2.1 := by
  induction t generalizing metrics with
  | nil => rfl
  | cons e t ih =>
    obtain ⟨time, request, answer⟩ := e
    rw [List.countP_cons]
    refine (ih _).trans ?_
    cases request with
    | note event =>
      cases event with
      | relayFailed =>
        show metrics.relayFailures + 1 + _ = _ + (_ + 1)
        omega
      | published kind => cases kind <;> rfl
      | skipped reason => cases reason <;> rfl
      | relayed kind => cases kind <;> rfl
      | _ => rfl
    | _ => rfl

/-! ### The service, step by step -/

/-- **A call that ended**: when it began, when it was over, and what it came to. A call that is on
its way is not among the calls of a service. -/
structure Call where
  start : Nat
  stop : Nat
  result : Except RelayerError RelayOutcome

/-- **Where the service stands**, as far as what comes next depends on it. -/
inductive Standing where
  /-- In the grace period, within a call, or at the end of a turn. -/
  | underway
  /-- About to begin a turn. -/
  | ready (now : Nat)
  /-- A call is over and settled. -/
  | settled (now : Nat) (what : Option Bool)
  | finished (stop : Nat)

/-- Where the service stands behind a turn, which either leaves room for the next one or ends the
service. -/
def Standing.ofTurn (now : Nat) : Turn Unit Unit → Standing
  | .again () => .ready now
  | .finish () => .finished now

/-- **What the service has done**, from its start on: its exchanges with their times, the calls that
ended, and where it stands. There is a constructor for each step of the service, whether the step is
over or on its way. -/
inductive Serves (setup : RelayerSetup) (timing : Timing) (start : Nat) :
    List (Nat × Exchange) → List Call → Standing → Prop where
  | waiting {t : List (Nat × Exchange)} (grace : Started timing (gracePeriod setup) start t) :
      Serves setup timing start t [] .underway
  | stopped {t : List (Nat × Exchange)} {stop : Nat}
      (grace : Runs timing (gracePeriod setup) start t stop .cancelled) :
      Serves setup timing start t [] (.finished stop)
  | ready {t : List (Nat × Exchange)} {now : Nat}
      (grace : Runs timing (gracePeriod setup) start t now .elapsed) :
      Serves setup timing start t [] (.ready now)
  | calling {t called : List (Nat × Exchange)} {calls : List Call} {now : Nat}
      (history : Serves setup timing start t calls (.ready now))
      (call : Started timing (relayNext setup) now called) :
      Serves setup timing start (t ++ called) calls .underway
  | settled {t called noted : List (Nat × Exchange)} {calls : List Call} {now later stop : Nat}
      {result : Except RelayerError RelayOutcome} {what : Option Bool}
      (history : Serves setup timing start t calls (.ready now))
      (call : Runs timing (relayNext setup) now called later result)
      (settling : Runs timing (settle result) later noted stop what) :
      Serves setup timing start (t ++ (called ++ noted)) (calls ++ [⟨now, later, result⟩])
        (.settled stop what)
  | concluding {t rest : List (Nat × Exchange)} {calls : List Call} {now : Nat}
      {what : Option Bool} (history : Serves setup timing start t calls (.settled now what))
      (ending : Started timing (conclude setup what) now rest) :
      Serves setup timing start (t ++ rest) calls .underway
  | concluded {t rest : List (Nat × Exchange)} {calls : List Call} {now stop : Nat}
      {what : Option Bool} {ended : Turn Unit Unit}
      (history : Serves setup timing start t calls (.settled now what))
      (ending : Runs timing (conclude setup what) now rest stop ended) :
      Serves setup timing start (t ++ rest) calls (.ofTurn stop ended)

variable {calls : List Call} {standing : Standing}

/-- What a turn has done so far is part of the service, wherever the turn stands: within its call,
at the note of a failure, or at its end. The call counts as ended once its failure is noted, so that
there are as many notes as calls that failed. -/
theorem Serves.begun (h : Serves setup timing start t calls (.ready now))
    (hturn : Started timing (turn setup) now t') :
    ∃ ended, ended.length ≤ 1 ∧ Serves setup timing start (t ++ t') (calls ++ ended) .underway := by
  rw [turn_eq] at hturn
  have hwithin {called : List (Nat × Exchange)}
      (hcall : Started timing (relayNext setup) now called) :
      Serves setup timing start (t ++ called) (calls ++ []) .underway := by
    rw [List.append_nil]
    exact h.calling hcall
  -- The turn is within its call, or the call is over. Behind it the turn is at the note, or at its
  -- end.
  rcases started_bind_cases hturn with hcall | ⟨result, later, called, rest, rfl, hcall, hrest⟩
  · exact ⟨[], Nat.zero_le _, hwithin hcall⟩
  rcases started_bind_cases hrest with hnote | ⟨what, between, noted, ending, rfl, hsettle, hending⟩
  · rcases settle_begun hnote with rfl | ⟨stop, what, hsettle⟩
    · -- The call is over, but its failure is not noted.
      rw [List.append_nil]
      exact ⟨[], Nat.zero_le _, hwithin hcall.started⟩
    · -- It is noted, and the end has not begun.
      have hserves := (h.settled hcall hsettle).concluding (.here _ stop)
      rw [List.append_nil] at hserves
      exact ⟨_, Nat.le_refl _, hserves⟩
  · have hserves := (h.settled hcall hsettle).concluding hending
    rw [List.append_assoc, List.append_assoc] at hserves
    exact ⟨_, Nat.le_refl _, hserves⟩

/-- A whole turn takes the service on by one call, to where the turn leaves it. So `Serves` has the
turns of `Relayer.turn`, and not only parts of them. -/
theorem Serves.turn {ended : Turn Unit Unit} (h : Serves setup timing start t calls (.ready now))
    (hturn : Runs timing (turn setup) now t' stop ended) :
    ∃ call, Serves setup timing start (t ++ t') (calls ++ [call]) (.ofTurn stop ended) := by
  rw [turn_eq] at hturn
  obtain ⟨result, later, called, rest, rfl, hcall, hrest⟩ := runs_bind_iff.mp hturn
  obtain ⟨what, between, noted, rest, rfl, hsettle, hconclude⟩ := runs_bind_iff.mp hrest
  refine ⟨⟨now, later, result⟩, ?_⟩
  have hparts : t ++ (called ++ (noted ++ rest)) = (t ++ (called ++ noted)) ++ rest := by simp
  rw [hparts]
  exact (h.settled hcall hsettle).concluded hconclude

/-! ### What holds all along -/

/-- **A call that follows another one**: at once if that relayed, after the pause otherwise, and not
after the cancellation. -/
structure Precedes (setup : RelayerSetup) (cancelAt : Option Nat) (first next : Call) : Prop where
  notCancelled : first.result ≠ .error (.store .cancelled)
  start_eq : next.start = first.stop + idleTime setup first.result
  early : ∀ c ∈ cancelAt, next.start ≤ c

/-- The grace period came to its end, if there is one, and not to the cancellation. The maximum is
there for a service that was cancelled before its start. -/
def GraceOver (setup : RelayerSetup) (cancelAt : Option Nat) (start : Nat) : Prop :=
  ∀ c ∈ cancelAt, start + graceTime setup ≤ max start c

/-- What holds where the service stands. Each case keeps what the next step needs: at `ready`, that
a call begun now follows the last one as `Precedes` says; at `settled`, which call it was and what
it came to. -/
def Stands (setup : RelayerSetup) (cancelAt : Option Nat) (start : Nat) (calls : List Call) :
    Standing → Prop
  | .underway => True
  | .ready now => start + graceTime setup ≤ now ∧ GraceOver setup cancelAt start ∧
      (calls = [] → now = start + graceTime setup) ∧
      ∀ last ∈ calls.getLast?, ∀ next : Call, next.start = now → Precedes setup cancelAt last next
  | .settled now what => start + graceTime setup ≤ now ∧ GraceOver setup cancelAt start ∧
      ∃ front last, calls = front ++ [last] ∧ last.stop = now ∧ settledAs last.result = what ∧
        (what = none → CancelledBy cancelAt now)
  | .finished stop => CancelledBy cancelAt stop

/-- **What holds of the service all along.** The five fields before the last are what `keeps_pace`
says of the calls and exchanges so far, and `stands` carries the induction. -/
structure Paced (setup : RelayerSetup) (cancelAt : Option Nat) (start : Nat)
    (t : List (Nat × Exchange)) (calls : List Call) (standing : Standing) : Prop where
  contacts : ∀ e ∈ t, isContact e.2.1 = true → start + graceTime setup ≤ e.1
  first : ∀ call ∈ calls.head?, call.start = start + graceTime setup
  chain : calls.IsChain (Precedes setup cancelAt)
  failures : (t.countP fun e => isFailureNote e.2.1) = calls.countP fun c => isFailure c.result
  grace : GraceOver setup cancelAt start ∨ calls = [] ∧ ∀ e ∈ t, isContact e.2.1 = false
  stands : Stands setup cancelAt start calls standing

theorem countP_isFailureNote_eq_zero (h : ∀ e ∈ t, NotesNoFailure e.2.1) :
    (t.countP fun e => isFailureNote e.2.1) = 0 :=
  List.countP_eq_zero.mpr fun e he => Bool.eq_false_iff.mp (h e he)

/-- Before the first call there is nothing but idling, in the grace period. -/
theorem Paced.of_idles (h : ∀ e ∈ t, Idles e.2.1)
    (stands : Stands setup cancelAt start [] standing) :
    Paced setup cancelAt start t [] standing where
  contacts e he hcontact := by
    rw [(h e he).1] at hcontact
    cases hcontact
  first := nofun
  chain := .nil
  failures := countP_isFailureNote_eq_zero fun e he => (h e he).2
  grace := Or.inr ⟨rfl, fun e he => (h e he).1⟩
  stands := stands

namespace Paced

/-- **Idling on** changes nothing but where the service stands. -/
theorem idle (h : Paced setup cancelAt start t calls standing) (hidle : ∀ e ∈ t', Idles e.2.1)
    {standing' : Standing} (stands : Stands setup cancelAt start calls standing') :
    Paced setup cancelAt start (t ++ t') calls standing' where
  contacts := by
    refine List.forall_mem_append.mpr ⟨h.contacts, fun e he hcontact => ?_⟩
    rw [(hidle e he).1] at hcontact
    cases hcontact
  first := h.first
  chain := h.chain
  failures := by
    have hnone := countP_isFailureNote_eq_zero fun e he => (hidle e he).2
    rw [List.countP_append, hnone, h.failures, Nat.add_zero]
  grace := h.grace.imp_right fun ⟨hnone, hquiet⟩ =>
    ⟨hnone, List.forall_mem_append.mpr ⟨hquiet, fun e he => (hidle e he).1⟩⟩
  stands := stands

/-- Within a call, which begins when the grace period is over and notes no failure. It may contact
anybody, but the clock goes forward. -/
theorem call (keeps : KeepsTime cancelAt timing) (advances : Store.Advances timing setup.store)
    (h : Paced setup cancelAt start t calls (.ready now))
    (hcall : Started timing (relayNext setup) now t') :
    Paced setup cancelAt start (t ++ t') calls .underway := by
  obtain ⟨hnow, hgrace, -, -⟩ := h.stands
  refine ⟨?_, h.first, h.chain, ?_, Or.inl hgrace, trivial⟩
  · refine List.forall_mem_append.mpr ⟨h.contacts, fun e he _ => ?_⟩
    exact Nat.le_trans hnow (hcall.le keeps.forward e he)
  · have hnone := countP_isFailureNote_eq_zero
      ((promises_relayNext keeps advances).of_started hcall)
    rw [List.countP_append, hnone, h.failures, Nat.add_zero]

/-- **Settling a call** notes its failure, if it failed. This is the step at which a call is added
to the list, so it is here that it has to follow the last one. -/
theorem settle (keeps : KeepsTime cancelAt timing) (advances : Store.Advances timing setup.store)
    {called noted : List (Nat × Exchange)} {later : Nat} {what : Option Bool}
    {result : Except RelayerError RelayOutcome}
    (h : Paced setup cancelAt start t calls (.ready now))
    (hcall : Runs timing (relayNext setup) now called later result)
    (hsettle : Runs timing (Relayer.settle result) later noted stop what) :
    Paced setup cancelAt start (t ++ (called ++ noted)) (calls ++ [⟨now, later, result⟩])
      (.settled stop what) := by
  obtain ⟨hnow, hgrace, hfirst, hlast⟩ := h.stands
  have hwithin := h.call keeps advances hcall.started
  obtain ⟨rfl, rfl, hnoted⟩ := settle_cases keeps hsettle
  have hover := hcall.le keeps.forward
  -- A note is no contact, and there is one exactly if the call failed.
  have hquiet : ∀ e ∈ noted, isContact e.2.1 = false := by
    intro e he
    have hmem := List.mem_map_of_mem (f := Prod.snd) he
    rw [hnoted] at hmem
    split at hmem
    · rw [List.mem_singleton.mp hmem]
      rfl
    · cases hmem
  have hcount :
      (noted.countP fun e => isFailureNote e.2.1) = if isFailure result then 1 else 0 := by
    have hmap := List.countP_map (p := fun e : Exchange => isFailureNote e.1) (f := Prod.snd)
      (l := noted)
    rw [hnoted] at hmap
    rw [show (fun e : Nat × Exchange => isFailureNote e.2.1) =
      (fun e : Exchange => isFailureNote e.1) ∘ Prod.snd from rfl, ← hmap]
    split <;> rfl
  rw [← List.append_assoc]
  -- The parts are those of `Paced`: contacts, the first call, the chain, the failures, and where
  -- the service stands.
  refine ⟨?_, ?_, ?_, ?_, Or.inl hgrace, ?_⟩
  · refine List.forall_mem_append.mpr ⟨hwithin.contacts, fun e he hcontact => ?_⟩
    rw [hquiet e he] at hcontact
    cases hcontact
  · cases calls with
    | nil =>
      rintro call ⟨⟩
      exact hfirst rfl
    | cons first rest => exact h.first
  · refine h.chain.append (.singleton _) fun last hmem next hnext => ?_
    obtain rfl := Option.some.inj hnext
    exact hlast last hmem _ rfl
  · rw [List.countP_append, hwithin.failures, List.countP_append, hcount, List.countP_singleton]
  · refine ⟨Nat.le_trans hnow hover, hgrace, calls, _, rfl, rfl, rfl, fun hnone => ?_⟩
    exact (promises_relayNext keeps advances).of_runs hcall (settledAs_eq_none_iff.mp hnone)

/-- **The end of a turn**: the next one may begin, or the service is over. A turn is not begun again
if its call said that the task is cancelled, and then the store has told the truth. -/
theorem conclude (keeps : KeepsTime cancelAt timing) {what : Option Bool} {ended : Turn Unit Unit}
    (h : Paced setup cancelAt start t calls (.settled now what))
    (hconclude : Runs timing (Relayer.conclude setup what) now t' stop ended) :
    Paced setup cancelAt start (t ++ t') calls (.ofTurn stop ended) := by
  obtain ⟨hnow, hgrace, front, last, rfl, rfl, rfl, hcancelled⟩ := h.stands
  have hidle := ((idles_conclude setup (settledAs last.result)).promises
    last.stop).of_started hconclude.started
  refine h.idle hidle ?_
  obtain ⟨rfl, hwhat, rfl, early⟩ | ⟨rfl, hstop⟩ := conclude_cases keeps hconclude
  · refine ⟨by omega, hgrace, fun hnil => absurd hnil (by simp), fun last' hlast' next hnext => ?_⟩
    obtain rfl : last = last' := by simpa using hlast'
    refine ⟨fun hresult => hwhat (settledAs_eq_none_iff.mpr hresult), hnext, fun c mem => ?_⟩
    rw [hnext]
    exact early c mem
  · rcases hstop with ⟨hnone, rfl⟩ | ⟨-, hstop⟩
    · exact hcancelled hnone
    · exact hstop

end Paced

/-- **The grace period**, and what it says of the cancellation when it is over. Without a backup it
is over at once. -/
theorem gracePeriod_cases (keeps : KeepsTime cancelAt timing) {wait : Wait}
    (h : Runs timing (gracePeriod setup) start t stop wait) :
    (wait = .elapsed ∧ stop = start + graceTime setup ∧ GraceOver setup cancelAt start) ∨
      (wait = .cancelled ∧ CancelledBy cancelAt stop) := by
  unfold gracePeriod at h
  unfold GraceOver graceTime
  split at h
  · next hbackup =>
    rw [if_pos hbackup]
    obtain ⟨answer, later, rest, rfl, hwait, hrest⟩ :=
      runs_perform_bind_iff.mp (by rwa [bind_done] : Runs timing
        ((Request.pause setup.config.backupGracePeriod).perform >>= Routine.done) start t stop wait)
    obtain ⟨rfl, rfl, rfl⟩ := runs_done_iff.mp hrest
    obtain ⟨rfl, rfl, waited⟩ | ⟨rfl, c, mem, rfl, -⟩ := (keeps.pause hwait).pause_cases
    · exact Or.inl ⟨rfl, rfl, waited⟩
    · exact Or.inr ⟨rfl, c, mem, Nat.le_max_right _ _⟩
  · next hbackup =>
    obtain ⟨rfl, rfl, rfl⟩ := runs_done_iff.mp h
    rw [if_neg hbackup]
    exact Or.inl ⟨rfl, rfl, fun c _ => Nat.le_max_left _ _⟩

/-- **A service keeps its pace.** The induction is on its steps, and each of them is one of the
lemmas above. -/
theorem Serves.paced (keeps : KeepsTime cancelAt timing)
    (advances : Store.Advances timing setup.store)
    (h : Serves setup timing start t calls standing) :
    Paced setup cancelAt start t calls standing := by
  have hidles : ∀ {t : List (Nat × Exchange)}, Started timing (gracePeriod setup) start t →
      ∀ e ∈ t, Idles e.2.1 :=
    fun hgrace => ((idles_gracePeriod setup).promises start).of_started hgrace
  induction h with
  | waiting grace => exact .of_idles (hidles grace) trivial
  | stopped grace =>
    refine .of_idles (hidles grace.started) ?_
    obtain ⟨⟨⟩, -⟩ | ⟨-, hstop⟩ := gracePeriod_cases keeps grace
    exact hstop
  | ready grace =>
    refine .of_idles (hidles grace.started) ?_
    obtain ⟨-, rfl, hgrace⟩ | ⟨⟨⟩, -⟩ := gracePeriod_cases keeps grace
    exact ⟨Nat.le_refl _, hgrace, fun _ => rfl, nofun⟩
  | calling _ call ih => exact ih.call keeps advances call
  | settled _ call settling ih => exact ih.settle keeps advances call settling
  | @concluding _ _ _ now what _ ending ih =>
    exact ih.idle (((idles_conclude setup what).promises now).of_started ending) trivial
  | concluded _ ending ih => exact ih.conclude keeps ending

/-- **Behind a call that is over** the turn comes to its end: the service is ready after the pause,
or it is finished, for the cancellation came before. The turn that is found is a run of
`Relayer.turn`. -/
theorem Serves.exists_next (keeps : KeepsTime cancelAt timing)
    (advances : Store.Advances timing setup.store)
    (h : Serves setup timing start t calls (.ready now)) {called : List (Nat × Exchange)}
    {result : Except RelayerError RelayOutcome}
    (hcall : Runs timing (relayNext setup) now called stop result) :
    ∃ t' later ended, Runs timing (Relayer.turn setup) now (called ++ t') later ended ∧
      Serves setup timing start (t ++ (called ++ t')) (calls ++ [⟨now, stop, result⟩])
        (.ofTurn later ended) ∧
      (Standing.ofTurn later ended = .ready (stop + idleTime setup result) ∨
        (∃ moment, Standing.ofTurn later ended = .finished moment) ∧
          CancelledBy cancelAt (stop + idleTime setup result)) := by
  obtain ⟨noted, between, what, hsettle⟩ := exists_settle keeps result stop
  have hends : Ends timing (conclude setup what) := ends_conclude keeps what
  obtain ⟨rest, later, ended, hconclude⟩ := hends between
  have hserves := (h.settled hcall hsettle).concluded hconclude
  rw [List.append_assoc, List.append_assoc] at hserves
  -- The three parts together are a run of the turn.
  have hturn : Runs timing (Relayer.turn setup) now (called ++ (noted ++ rest)) later ended := by
    rw [turn_eq]
    exact runs_bind_iff.mpr ⟨result, stop, called, _, rfl, hcall,
      runs_bind_iff.mpr ⟨what, between, noted, rest, rfl, hsettle, hconclude⟩⟩
  refine ⟨_, later, ended, hturn, hserves, ?_⟩
  -- How the turn ends is that of its last part, and this depends on what the call came to.
  obtain ⟨rfl, rfl, -⟩ := settle_cases keeps hsettle
  obtain ⟨rfl, -, rfl, -⟩ | ⟨rfl, ⟨hnone, rfl⟩ | ⟨hle, hstop⟩⟩ := conclude_cases keeps hconclude
  · exact Or.inl rfl
  · -- The service is over because the call said that the task is cancelled.
    have htold := (promises_relayNext keeps advances).of_runs hcall (settledAs_eq_none_iff.mp hnone)
    exact Or.inr ⟨⟨_, rfl⟩, htold.mono (Nat.le_add_right _ _)⟩
  · exact Or.inr ⟨⟨_, rfl⟩, hstop.mono hle⟩

/-! ### The result -/

/-- **A relayer keeps its pace.** At any moment of a service, whatever its calls came to:

* where a turn may begin, the turns of `Relayer.turn` take the service on: one on its way leads to
  another moment of it, and a whole one to where the next turn may begin, or to the end;
* nobody is contacted before the grace period of a backup is over, and nobody at all if the
  cancellation comes during it; the first call begins as soon as it is over;
* behind a call that relayed the next one begins at once, and behind one that found nothing to do or
  failed a pause later; none begins after the cancellation, nor behind a call that it ended;
* behind every call the turn comes to its end, and the service to the next one, unless the task is
  cancelled by then;
* the service is over only once the task is cancelled;
* the counter of failures has grown by one for each call that failed otherwise than by the
  cancellation. -/
theorem keeps_pace (keeps : KeepsTime cancelAt timing)
    (advances : Store.Advances timing setup.store)
    (h : Serves setup timing start t calls standing) :
    (∀ now t', standing = .ready now → Started timing (turn setup) now t' →
      ∃ ended, ended.length ≤ 1 ∧
        Serves setup timing start (t ++ t') (calls ++ ended) .underway) ∧
    (∀ now t' stop ended, standing = .ready now → Runs timing (turn setup) now t' stop ended →
      ∃ call, Serves setup timing start (t ++ t') (calls ++ [call]) (.ofTurn stop ended)) ∧
    (∀ e ∈ t, isContact e.2.1 = true → start + graceTime setup ≤ e.1) ∧
    (∀ c ∈ cancelAt, max start c < start + graceTime setup →
      calls = [] ∧ ∀ e ∈ t, isContact e.2.1 = false) ∧
    (∀ call ∈ calls.head?, call.start = start + graceTime setup) ∧
    calls.IsChain (fun call next =>
      call.result ≠ .error (.store .cancelled) ∧
      next.start = call.stop + idleTime setup call.result ∧ ∀ c ∈ cancelAt, next.start ≤ c) ∧
    (∀ now called stop result, standing = .ready now →
      Runs timing (relayNext setup) now called stop result →
      ∃ t' later ended, Runs timing (turn setup) now (called ++ t') later ended ∧
        Serves setup timing start (t ++ (called ++ t')) (calls ++ [⟨now, stop, result⟩])
          (.ofTurn later ended) ∧
        (Standing.ofTurn later ended = .ready (stop + idleTime setup result) ∨
          (∃ moment, Standing.ofTurn later ended = .finished moment) ∧
            CancelledBy cancelAt (stop + idleTime setup result))) ∧
    (∀ moment, standing = .finished moment → CancelledBy cancelAt moment) ∧
    ∀ metrics : Metrics, (metricsAfter metrics t).relayFailures =
      metrics.relayFailures + calls.countP fun call => isFailure call.result := by
  -- Everything but the turns is a part of the invariant; the turns are taken from the service.
  have hpaced := h.paced keeps advances
  refine ⟨?_, ?_, hpaced.contacts, fun c mem hearly => ?_, hpaced.first, ?_, ?_, ?_,
    fun metrics => ?_⟩
  · rintro now t' rfl hturn
    exact h.begun hturn
  · rintro now t' stop ended rfl hturn
    exact h.turn hturn
  · -- The grace period was not over by then, so nothing has been done but to wait.
    refine hpaced.grace.resolve_left fun hover => ?_
    exact absurd (hover c mem) (Nat.not_le.mpr hearly)
  · exact hpaced.chain.imp fun call next hnext =>
      ⟨hnext.notCancelled, hnext.start_eq, hnext.early⟩
  · rintro now called stop result rfl hcall
    exact h.exists_next keeps advances hcall
  · rintro moment rfl
    exact hpaced.stands
  · rw [relayFailures_metricsAfter, hpaced.failures]

/-! ### A contract that cannot be read -/

/-- **A contract that cannot be read**, which takes three milliseconds to find out. Clock and token
keep time, and nothing else is answered, since nothing else is asked. -/
inductive UnreadContract (cancelAt : Option Nat) : Timing where
  | clock {time later : Nat} {e : Exchange} (told : Clocked cancelAt time e later) :
      UnreadContract cancelAt time e later
  | noted (time : Nat) (event : Event) : UnreadContract cancelAt time ⟨.note event, ()⟩ time
  | unread (time : Nat) :
      UnreadContract cancelAt time ⟨.lastRelayed, .error .rpc⟩ (time + 3)

namespace UnreadContract

/-- A relayer is kept in time there, whenever it is cancelled. -/
theorem keepsTime (cancelAt : Option Nat) : KeepsTime cancelAt (UnreadContract cancelAt) where
  toTellsTime := by
    refine .of_clocked .clock (fun h => ?_) fun h => ?_ <;>
    · cases h with
      | clock told => exact told
  now h := by
    cases h with
    | clock told => exact told
  note h := by
    cases h with
    | clock told => cases told
    | noted => rfl
  exists_note time event := ⟨time, .noted time event⟩
  forward h := by
    cases h with
    | clock told => exact told.forward
    | noted => exact Nat.le_refl _
    | unread => exact Nat.le_add_right _ _

/-- A call fails behind the read of the contract, and its failure is noted. -/
theorem exists_settled (h : Serves setup (UnreadContract cancelAt) start t calls (.ready now)) :
    ∃ t', Serves setup (UnreadContract cancelAt) start t'
      (calls ++ [⟨now, now + 3, .error (.submitter .rpc)⟩]) (.settled (now + 3) (some true)) := by
  have hcall : Runs (UnreadContract cancelAt) (relayNext setup) now
      [(now, ⟨.lastRelayed, .error .rpc⟩)] (now + 3) (.error (.submitter .rpc)) :=
    runs_perform_bind_iff.mpr ⟨_, _, [], rfl, .unread now, .done _ _⟩
  have hsettle : Runs (UnreadContract cancelAt) (settle (.error (.submitter .rpc))) (now + 3)
      [(now + 3, ⟨.note .relayFailed, ()⟩)] (now + 3) (some true) :=
    runs_perform_bind_iff.mpr ⟨_, _, [], rfl, .noted _ _, .done _ _⟩
  exact ⟨_, h.settled hcall hsettle⟩

/-- The pause behind it comes to its end, or to the cancellation. -/
theorem exists_concluded
    (h : Serves setup (UnreadContract cancelAt) start t calls (.settled now (some true)))
    (wait : Wait) {later : Nat} (early : ∀ c ∈ cancelAt, now ≤ c)
    (waits : Clocked cancelAt now ⟨.pause setup.config.pollInterval, wait⟩ later) :
    ∃ t', Serves setup (UnreadContract cancelAt) start t' calls
      (.ofTurn later (if wait = .elapsed then .again () else .finish ())) := by
  have hconclude : Runs (UnreadContract cancelAt) (conclude setup (some true)) now
      [(now, ⟨.isCancelled, false⟩), (now, ⟨.pause setup.config.pollInterval, wait⟩)] later
      (if wait = .elapsed then .again () else .finish ()) := by
    refine runs_perform_bind_iff.mpr ⟨false, now, _, rfl, .clock (.running early), ?_⟩
    refine runs_perform_bind_iff.mpr ⟨wait, later, [], rfl, .clock waits, ?_⟩
    cases wait <;> exact .done _ _
  exact ⟨_, h.concluded hconclude⟩

end UnreadContract

/-- **A backup relayer that cannot read the contract** waits for its time, fails twice, and is
cancelled in the pause behind. -/
theorem keeps_pace_of_unreadContract :
    let setup : RelayerSetup := ⟨.standard, ⟨10, 100, true, 50, .standard⟩⟩
    let calls : List Call := [⟨51, 54, .error (.submitter .rpc)⟩,
      ⟨64, 67, .error (.submitter .rpc)⟩]
    KeepsTime (some 70) (UnreadContract (some 70)) ∧
      Store.Advances (UnreadContract (some 70)) setup.store ∧
      ∃ t, Serves setup (UnreadContract (some 70)) 1 t calls (.finished 70) ∧
        (∀ e ∈ t, isContact e.2.1 = true → 51 ≤ e.1) ∧
        (metricsAfter .zero t).relayFailures = 2 := by
  intro setup calls
  have hkeeps := UnreadContract.keepsTime (some 70)
  have hadvances : Store.Advances (UnreadContract (some 70)) setup.store := .of_check rfl
  have hready : Serves setup (UnreadContract (some 70)) 1 [(1, ⟨.pause 50, .elapsed⟩)] []
      (.ready 51) := by
    refine .ready (runs_perform_bind_iff (f := Routine.done).mpr
      ⟨_, _, [], rfl, .clock (.elapsed ?_), .done _ _⟩)
    rintro c ⟨⟩
    decide
  -- The first call, and the pause behind it.
  obtain ⟨t₁, hfirst⟩ := UnreadContract.exists_settled hready
  obtain ⟨t₂, hagain⟩ := UnreadContract.exists_concluded hfirst .elapsed
    (by rintro c ⟨⟩; decide) (.elapsed (by rintro c ⟨⟩; decide))
  -- The second one, and the pause that is cut short.
  obtain ⟨t₃, hsecond⟩ := UnreadContract.exists_settled hagain
  obtain ⟨t₄, hfinished⟩ := UnreadContract.exists_concluded hsecond .cancelled
    (by rintro c ⟨⟩; decide) (.interrupted (c := 70) rfl (by decide))
  obtain ⟨-, -, hcontacts, -, -, -, -, -, hmetrics⟩ := keeps_pace hkeeps hadvances hfinished
  exact ⟨hkeeps, hadvances, t₄, hfinished, hcontacts, hmetrics .zero⟩

end Countersign.Relayer
