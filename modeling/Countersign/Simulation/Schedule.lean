import Countersign.Simulation.Play

/-!
# Stepping tasks together

All tasks of a rehearsal share one thread. In each round every task goes on until it must wait, the
script first and the others in the order in which they were started. When a whole round changed
nothing, the clock jumps to the earliest time at which some wait will be over. The rehearsal ends
with the script.

`rehearse` plays a script and gives the reports of its steps, and those of the steps that were put
off and have come to their end.
-/

namespace Countersign.Simulation

/-- How far a task has come: on its way, or waiting for the answer to a request. -/
inductive Progress where
  | running (course : Routine Intent)
  | waiting (request : Request) (ticket : Ticket) (next : request.Answer → Routine Intent)

/-- **A task**: who it is, what it carries along, and how far it has come. A task in the background
hands its report in apart from those of the script. -/
structure Task where
  id : TaskId
  context : Context
  setup : Option OrchestratorSetup
  background : Bool
  progress : Progress

/-- **What one action of a task comes to.** It went on, or it waits for an answer, or it has ended
and is gone. -/
inductive Action where
  | went (world : World) (task : Task)
  | waits (world : World) (task : Task)
  | ended (world : World)

/-- Handing in a report. Those of steps that were put off are kept apart, since nobody knows when
they will come. -/
def World.handIn (w : World) (background : Bool) (report : Report) : World :=
  if background then { w with laterReports := w.laterReports ++ [report] }
  else { w with reports := w.reports ++ [report] }

/-- The result of a relayer's turn, which is no failure. -/
def relayerTurn : Turn Unit Unit → Turn Unit WorkerResult
  | .again () => .again ()
  | .finish () => .finish (.ok ())

/-- **Carrying out an intent.** A loop of a service is stepped turn by turn: each turn is a course
of action of its own, and says what the next intent is. -/
def Task.turn (t : Task) (w : World) : Intent → Action
  | .finished result => .ended { w with finished := w.finished ++ [(t.id, result)] }
  | .listen setup queue s =>
    .went w { t with progress := .running do
      return .ofTurn (.listen setup queue) (← Orchestrator.listen setup queue s) }
  | .process setup nonces requeue =>
    .went w { t with progress := .running do
      return .ofTurn (fun () => .process setup nonces requeue)
        (← Orchestrator.processNext setup nonces requeue) }
  | .drain setup requeue nonces due =>
    .went w { t with progress := .running do
      return .ofTurn (.drain setup requeue nonces)
        (← Orchestrator.drainNext setup requeue nonces due) }
  | .relay setup =>
    .went w { t with progress := .running do
      return .ofTurn (fun () => .relay setup) (relayerTurn (← Relayer.turn setup)) }
  | .report report rest =>
    .went (w.handIn t.background report) { t with progress := .running (.done (.script rest)) }
  | .script [] => .ended w
  -- The context of a step is kept until the next step brings its own.
  | .script (step :: rest) =>
    match step.play w with
    | (.atOnce report, w) =>
      .went w { t with progress := .running (.done (.report report rest)) }
    | (.course context routine, w) =>
      .went w { t with
        context := context
        progress := .running do return .report (← routine) rest }

/-- Looking whether a request is answered. -/
def Task.look (t : Task) (w : World) (request : Request) (ticket : Ticket)
    (next : request.Answer → Routine Intent) : Action :=
  match w.poll t.context t.setup ticket request with
  | some (answer, w) => .went w { t with progress := .running (next answer) }
  | none => .waits w { t with progress := .waiting request ticket next }

/-- One action of a task. A request is noted when it is made and looked at in the same action, so an
answer that is ready costs no round. -/
def Task.act (t : Task) (w : World) : Action :=
  match t.progress with
  | .running (.done intent) => t.turn w intent
  | .running (.ask request next) =>
    let (ticket, w) := w.issue request
    t.look w request ticket next
  | .waiting request ticket next => t.look w request ticket next

/-- When the wait of a task will be over at the latest. -/
def Task.due (t : Task) : Option Nat :=
  match t.progress with
  | .running _ => none
  | .waiting request ticket _ => World.due ticket request

/-- The task of one that was just started. -/
def NewTask.task (n : NewTask) : Task :=
  ⟨n.id, n.context, n.setup, n.background, .running n.course⟩

/-- The earliest of some times, if there are any. -/
def earliestTime (times : List Nat) : Option Nat :=
  times.foldl (fun best time => some (min time (best.getD time))) none

/-- **All tasks in the middle of a round**: those whose turn is still to come, those that have had
it (the last one first), and whether anything has happened in this round. -/
structure Machine where
  world : World
  todo : List Task
  waiting : List Task
  moved : Bool

/-- The end of a round: the next one, or a jump of the clock; nothing if nothing can happen any
more. The clock jumps only if the whole round changed nothing, because what one task did may be what
another one waits for. -/
def Machine.nextRound (m : Machine) : Option Machine :=
  let tasks := m.waiting.reverse ++ m.world.started.map NewTask.task
  let moved := m.moved || !m.world.started.isEmpty
  let world := { m.world with started := [] }
  if moved then some ⟨world, tasks, [], false⟩
  else
    match earliestTime ((tasks.filterMap Task.due).filter (world.now < ·)) with
    | some time => some ⟨{ world with now := time }, tasks, [], false⟩
    | none => none

/-- One action of the whole; nothing once the script has ended. The script is the task of number
zero, and what the others still have to do does not keep a rehearsal going. -/
def Machine.step (m : Machine) : Option Machine :=
  match m.todo with
  | [] => m.nextRound
  | t :: rest =>
    match t.act m.world with
    | .went world t => some ⟨world, t :: rest, m.waiting, true⟩
    | .waits world t => some ⟨world, rest, t :: m.waiting, m.moved⟩
    | .ended world =>
      if t.id = 0 then none else some ⟨world, rest, m.waiting, true⟩

/-- At most `actions` actions. The bound makes the recursion structural, and is never met by a
script that ends. -/
def Machine.run : (actions : Nat) → Machine → Machine
  | 0, m => m
  | actions + 1, m =>
    match m.step with
    | some m => m.run actions
    | none => m

/-- The machine before its first action. -/
def Machine.start (setup : Setup) (steps : List Step) : Machine :=
  ⟨.start setup, [⟨0, ⟨0, none⟩, none, false, .running (.done (.script steps))⟩], [], false⟩

/-- More actions than any rehearsal takes. -/
def actionLimit : Nat := 1000000000000

/-- Playing a script: the reports of its steps, and of those that were put off. -/
def rehearse (setup : Setup) (steps : List Step) : List Report × List Report :=
  let m := (Machine.start setup steps).run actionLimit
  (m.world.reports, m.world.laterReports)

end Countersign.Simulation
