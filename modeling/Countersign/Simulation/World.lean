import Countersign.Simulation.Step

/-!
# A world made up

The surroundings of a rehearsal as one value: clock, source, replicas and their faults, contract,
queues, identities, counters, and the tasks that have been started. A request is answered in two
steps, because some take time:

* `World.issue` takes note of the request at the moment it is made and gives a `Ticket`;
* `World.poll` answers it, or does not, as long as it must be waited for;
* `World.due` says at what time a wait will be over at the latest, if time alone can end it.

Senders waiting for room in a queue are served in the order in which they came.
-/

namespace Countersign.Simulation

/-- **Settings of a rehearsal.** -/
structure Setup where
  replicas : Nat
  store : StoreConfig
  retry : RetryPolicy
  orchestrator : OrchestratorConfig
  relayer : RelayerConfig
  lastRelayed : UInt64

/-- **The faults of the overlay**: delays in milliseconds, and how many requests are to fail. -/
structure Faults where
  putDelay : Nat
  getDelay : Nat
  failPuts : Nat
  failGets : Nat
  dropReads : Bool

/-- **A candidate put among those of the replicas**, before or behind them. -/
structure Injected where
  key : String
  value : Bytes
  front : Bool

/-- **The state of the contract.** -/
structure Contract where
  last : UInt64
  submissions : List Submission
  faults : List (ContractMethod × Nat × ContractFault)

/-- **A bounded queue of nonces**, with the senders who wait for room. -/
structure Queue where
  capacity : Nat
  items : List UInt64
  senders : List Nat
  isOpen : Bool

/-- Whether a sender can put its nonce in now: there must be room for those before it, too. -/
def Queue.admits (q : Queue) (ticket : Nat) : Bool :=
  (q.senders.takeWhile (· != ticket)).length + q.items.length < q.capacity

/-- Whether a newcomer can put a nonce in now. -/
def Queue.hasRoom (q : Queue) : Bool :=
  q.senders.length + q.items.length < q.capacity

/-- What a task carries along: which cancellation reaches it, and whose key it signs with. -/
structure Context where
  token : Nat
  identity : Option Nat

/-- **A task that was just started.** It takes part from the next round on. -/
structure NewTask where
  id : TaskId
  context : Context
  course : Routine Intent
  setup : Option OrchestratorSetup
  background : Bool

/-- A service in the background: its task and what cancels it. -/
structure Service where
  task : TaskId
  token : Nat

/-- **The surroundings of a rehearsal.** -/
structure World where
  setup : Setup
  now : Nat
  source : Source
  overlay : Overlay
  faults : Faults
  injected : List Injected
  quorums : List (QuorumTarget × List Bytes)
  contract : Contract
  queues : List Queue
  queueNames : List (String × QueueId)
  identities : List (Nat × Identity)
  metrics : Metrics
  /-- What cancels the steps of the script. -/
  token : Nat
  tokens : Nat
  cancelled : List Nat
  tickets : Nat
  tasks : Nat
  started : List NewTask
  finished : List (TaskId × WorkerResult)
  services : List (String × Service)
  reports : List Report
  laterReports : List Report

/-- **What was noted when a request was made.** -/
structure Ticket where
  number : Nat
  start : Nat
  delay : Nat
  failing : List Bool

namespace World

/-- **The world before the first step.** -/
def start (setup : Setup) : World where
  setup := setup
  now := 0
  source := .empty
  overlay := List.replicate setup.replicas .empty
  faults := ⟨0, 0, 0, 0, false⟩
  injected := []
  quorums := []
  contract := ⟨setup.lastRelayed, [], []⟩
  queues := []
  queueNames := []
  identities := []
  metrics := .zero
  token := 0
  tokens := 1
  cancelled := []
  tickets := 0
  tasks := 1
  started := []
  finished := []
  services := []
  reports := []
  laterReports := []

/-! ### Parts -/

/-- Whether a task with this context is cancelled. -/
def isCancelled (w : World) (c : Context) : Bool :=
  w.cancelled.contains c.token

/-- Cancelling. -/
def cancel (w : World) (token : Nat) : World :=
  { w with cancelled := token :: w.cancelled }

/-- A new cancellation. -/
def newToken (w : World) : Nat × World :=
  (w.tokens, { w with tokens := w.tokens + 1 })

/-- The identity of a key, made when it is first asked for. Later steps find the same one, so a key
that was locked stays locked. -/
def identity (w : World) (key : Ecdsa.SecretKey) : Identity × World :=
  match w.identities.lookup key.secret with
  | some identity => (identity, w)
  | none =>
    let identity := Identity.ofKey key
    (identity, { w with identities := w.identities ++ [(key.secret, identity)] })

/-- Changing a queue. -/
def updateQueue (w : World) (queue : QueueId) (change : Queue → Queue) : World :=
  { w with queues := w.queues.modify queue change }

/-- A new queue. -/
def openQueue (w : World) (capacity : Nat) : QueueId × World :=
  (w.queues.length, { w with queues := w.queues ++ [⟨capacity, [], [], true⟩] })

/-- Starting a task. -/
def startTask (w : World) (context : Context) (course : Routine Intent)
    (setup : Option OrchestratorSetup) (background : Bool) : TaskId × World :=
  (w.tasks, { w with
    tasks := w.tasks + 1
    started := w.started ++ [⟨w.tasks, context, course, setup, background⟩] })

/-- Using up one of a number of failures. -/
def spend (budget : Nat) : Bool × Nat :=
  (decide (0 < budget), budget - 1)

/-- The contract's error for an armed fault. -/
def contractError (nonce : UInt64) : ContractFault → SubmitterError
  | .rpc => .rpc
  | .reverted => .reverted (BitVec.ofNat 256 (nonce.toNat % 256))
  | .receiptTimeout => .receiptTimeout 1500
  | .contract => .contract "injected"

/-- The fault that is armed for a question to the contract, used up. -/
def takeContractFault (c : Contract) (method : ContractMethod) :
    Option (ContractFault × Contract) :=
  match c.faults.lookup method with
  | some (times + 1, fault) =>
    some (fault, { c with faults := assign method (times, fault) c.faults })
  | _ => none

/-- The contract's last nonce. -/
def lastRelayed (w : World) : Except SubmitterError UInt64 × World :=
  match takeContractFault w.contract .lastRelayed with
  | some (fault, c) => (.error (contractError 0 fault), { w with contract := c })
  | none => (.ok w.contract.last, w)

/-- Handing a submission to the contract, which takes any. Whether a submission is sound is not the
contract's business here; a rehearsal looks at the submissions afterwards. -/
def submit (w : World) (s : Submission) : Except SubmitterError Word × World :=
  match takeContractFault w.contract .submit with
  | some (fault, c) => (.error (contractError s.nonce fault), { w with contract := c })
  | none =>
    (.ok (BitVec.ofNat 256 (s.nonce.toNat % 256)),
      { w with contract := { w.contract with
        last := s.nonce
        submissions := w.contract.submissions ++ [s] } })

/-- A write that is carried out now. An injected failure touches no replica. -/
def put (w : World) (key : String) (value : Bytes) (failing : Bool) :
    Except OverlayError Unit × World :=
  if failing then (.error (.unavailable "injected"), w)
  else
    let (overlay, result) := w.overlay.put key value
    (result, { w with overlay := overlay })

/-- The candidates for a key now: those that were put in front, those of the replicas, and those
that were put behind them. -/
def get (w : World) (key : String) (failing : Bool) : Except OverlayError (List Bytes) :=
  if failing then .error (.unavailable "injected")
  else if w.faults.dropReads then .ok []
  else
    let injected (front : Bool) : List Bytes :=
      (w.injected.filter fun i => i.key == key && i.front == front).map (·.value)
    .ok (injected true ++ w.overlay.get key ++ injected false)

/-- Remembering a quorum, as far as there is room; the oldest gives way. A quorum that is remembered
again becomes the newest. -/
def remember (w : World) (target : QuorumTarget) (records : List Bytes) : World :=
  let kept := (w.quorums.filter (·.1 != target)) ++ [(target, records)]
  { w with quorums := kept.drop (kept.length - w.setup.store.cacheCapacity) }

/-! ### Requests -/

/-- **Taking note of a request.** Failures of the overlay are used up and its delays read now, and a
sender takes its place among those who wait. -/
def issue (w : World) (r : Request) : Ticket × World :=
  let number := w.tickets
  let w := { w with tickets := number + 1 }
  let gets (count : Nat) : Ticket × World :=
    let failing := (List.range count).map fun i => decide (i < w.faults.failGets)
    (⟨number, w.now, w.faults.getDelay, failing⟩,
      { w with faults := { w.faults with failGets := w.faults.failGets - count } })
  match r with
  | .put _ _ _ =>
    let (failing, left) := spend w.faults.failPuts
    (⟨number, w.now, w.faults.putDelay, [failing]⟩,
      { w with faults := { w.faults with failPuts := left } })
  | .get _ _ => gets 1
  | .getAll keys _ => gets keys.length
  -- A sender stands in line from the moment of its request, whatever is looked at first.
  | .send queue _ =>
    (⟨number, w.now, 0, []⟩,
      w.updateQueue queue fun q => { q with senders := q.senders ++ [number] })
  | _ => (⟨number, w.now, 0, []⟩, w)

/-- A request that takes a delay but at most a limit: nothing as long as neither is over. The effect
of a request happens when its delay is over, so one that came too late has none. -/
def within {α : Type} (w : World) (t : Ticket) (limit : Nat)
    (onTime : α × World) (late : α) : Option (α × World) :=
  if t.delay ≤ limit then
    if t.start + t.delay ≤ w.now then some onTime else none
  else if t.start + limit ≤ w.now then some (late, w)
  else none

/-- A wait for a time that cancellation ends. If both have happened it is the cancellation that is
told. -/
def await (w : World) (c : Context) (time : Nat) : Option (Wait × World) :=
  if w.isCancelled c then some (.cancelled, w)
  else if time ≤ w.now then some (.elapsed, w)
  else none

/-- A sender's turn. Whatever the answer is, a sender that has one leaves the line, and only one
that was admitted leaves its nonce behind. -/
def pollSend (w : World) (c : Context) (t : Ticket) (queue : QueueId) (nonce : UInt64) :
    Option (Sending × World) :=
  let leave (add : List UInt64) : World :=
    w.updateQueue queue fun q =>
      { q with senders := q.senders.erase t.number, items := q.items ++ add }
  match w.queues[queue]? with
  | none => some (.closed, w)
  | some q =>
    if w.isCancelled c then some (.cancelled, leave [])
    else if !q.isOpen then some (.closed, leave [])
    else if q.admits t.number then some (.sent, leave [nonce])
    else none

/-- Taking from a queue without waiting. -/
def takeNext (w : World) (queue : QueueId) : Option UInt64 × World :=
  match w.queues[queue]? with
  | none => (none, w)
  | some q =>
    match q.items with
    | [] => (none, w)
    | nonce :: rest => (some nonce, w.updateQueue queue fun q => { q with items := rest })

/-- Putting into a queue without waiting. A queue that has no room, or is closed, stays as it is. -/
def trySend (w : World) (queue : QueueId) (nonce : UInt64) : Bool × World :=
  match w.queues[queue]? with
  | none => (false, w)
  | some q =>
    if q.isOpen ∧ q.hasRoom then
      (true, w.updateQueue queue fun q => { q with items := q.items ++ [nonce] })
    else (false, w)

/-- What a listener hears now. Cancellation comes before the tick, and the tick before what the
stream has to tell. -/
def pollSignal (w : World) (c : Context) (stream : StreamId) (tick : Nat) :
    Option (Signal × World) :=
  if w.isCancelled c then some (.cancelled, w)
  else if tick ≤ w.now then some (.tick, w)
  else
    match w.source.takeNonce stream with
    | none => none
    | some (none, s) => some (.ended, { w with source := s })
    | some (some nonce, s) => some (.nonce nonce, { w with source := s })

/-- Signing with the identity of a task. A task without one has no key to sign with. -/
def sign (w : World) (c : Context) (digest : Word) : Except SignatureError Vrs :=
  match c.identity.bind fun key => w.identities.lookup key with
  | some identity => identity.sign digest
  | none => .error .keyUnavailable

/-- Locking the identity of a task. -/
def lockIdentity (w : World) (key : Option Nat) : World :=
  { w with identities := w.identities.map fun x =>
      if some x.1 = key then (x.1, x.2.lock) else x }

/-- **The answer to a request**, if it need not be waited for any longer. -/
def poll (w : World) (c : Context) (setup : Option OrchestratorSetup) (t : Ticket) :
    (r : Request) → Option (r.Answer × World)
  | .source q =>
    let (answer, s) := w.source.respond q
    some (answer, { w with source := s })
  -- The overlay takes its time, and has its effect when that is over.
  | .put key value limit =>
    w.within t limit (w.put key value (t.failing.headD false)) (.error (.timeout limit))
  | .get key limit =>
    w.within t limit (w.get key (t.failing.headD false), w) (.error (.timeout limit))
  | .getAll keys limit =>
    w.within t limit ((keys.zip t.failing).map fun (key, failing) => w.get key failing, w)
      (keys.map fun _ => .error (.timeout limit))
  | .recall target => some (w.quorums.lookup target, w)
  | .remember target records => some ((), w.remember target records)
  -- Most requests have their answer at once.
  | .now => some (w.now, w)
  | .isCancelled => some (w.isCancelled c, w)
  | .pause ms => w.await c (t.start + ms)
  | .pauseUntil time => w.await c time
  | .labour ms => if t.start + ms ≤ w.now then some ((), w) else none
  | .cancel => some ((), w.cancel c.token)
  | .lastRelayed => some w.lastRelayed
  | .submit s => some (w.submit s)
  | .sign digest => some (w.sign c digest, w)
  | .lockKey => some ((), w.lockIdentity c.identity)
  | .openQueue capacity => some (w.openQueue capacity)
  | .send queue nonce => w.pollSend c t queue nonce
  | .trySend queue nonce => some (w.trySend queue nonce)
  -- Cancellation comes before a nonce that could be taken.
  | .receive queue =>
    if w.isCancelled c then some (.cancelled, w)
    else
      match w.takeNext queue with
      | (some nonce, w) => some (.nonce nonce, w)
      | (none, _) => none
  | .tryReceive queue => some (w.takeNext queue)
  | .hasRoom queue => some ((w.queues[queue]?.map Queue.hasRoom).getD false, w)
  | .closeQueue queue => some ((), w.updateQueue queue fun q => { q with isOpen := false })
  | .nextSignal stream tick => w.pollSignal c stream tick
  -- Only a service has workers, so without its settings the task ends at once.
  | .spawn worker =>
    match setup with
    | some s => some (w.startTask c (Intent.ofWorker s worker) setup true)
    | none => some (w.startTask c (return .finished (.ok ())) none true)
  | .joinAny tasks => (w.finished.find? fun x => tasks.contains x.1).map fun x => (x, w)
  | .note event => some ((), { w with metrics := w.metrics.note event })

/-- When a wait will be over at the latest, if time alone can end it. A wait for another task, or
for room in a queue, has no such time. -/
def due (t : Ticket) : Request → Option Nat
  | .put _ _ limit | .get _ limit | .getAll _ limit => some (t.start + min t.delay limit)
  | .pause ms | .labour ms => some (t.start + ms)
  | .pauseUntil time => some time
  | .nextSignal _ tick => some tick
  | _ => none

end World

end Countersign.Simulation
