import Countersign.Orchestrator.Service
import Countersign.Relayer.Relay
import Countersign.Simulation.Source

/-!
# The script of a rehearsal

A rehearsal plays a list of steps in a made-up world (`Step`): what happens to the source, the
replicas and the contract, and what the services do. Each step has a report (`Report`).

Services can be started in the background, and a step can be put off to a later time. What such a
task does next, when it comes to the end of a turn, is an `Intent`.
-/

namespace Countersign.Simulation

/-- **How the contract is made to fail.** -/
inductive ContractFault where
  | rpc
  | reverted
  | receiptTimeout
  | contract
deriving DecidableEq

/-- **The questions to the contract** for which failures can be armed. -/
inductive ContractMethod where
  | submit
  | lastRelayed
deriving DecidableEq

/-- **Faults of the overlay to be set**; what is not given stays as it is. -/
structure FaultChange where
  putDelay : Option Nat
  getDelay : Option Nat
  failPuts : Option Nat
  failGets : Option Nat
  dropReads : Option Bool

/-- Which confirm is signed: of a valset, or of a data root as if it had another nonce. The second
makes confirms that a replica must refuse. -/
inductive Signing where
  | valset (v : Valset)
  | dataRoot (root : Word) (signedNonce : UInt64)

/-- **A step of a script.** -/
inductive Step where
  | sourceAdd (attestation : Attestation) (root : Option Word)
  | sourceRoot (beginBlock endBlock : UInt64) (root : Word)
  | sourcePrune (nonce first last : UInt64)
  | sourceHeight (height : UInt64)
  | sourceUnhealthy (value : Bool)
  | sourceDrop
  | sourceFail (method : SourceMethod) (times : Nat) (error : SourceError)
  | sourceLookups
  | sourceSubscriptions
  | sourceBounds
  | replicaPut (replica : Nat) (key : String) (value : Bytes)
  | replicaGet (replica : Nat) (key : String)
  | replicaSize (replica : Nat)
  | nodePut (replica : Nat) (key : String) (value : Bytes)
  | storePut (nonce : UInt64) (confirm : Confirm)
  | storeSign (key : Ecdsa.SecretKey) (nonce : UInt64) (signing : Signing)
  | storeQuery (kind : AttestationKind) (nonce : UInt64) (signer : Address)
  | storePutLatest (valset : Valset)
  | storeLatest
  | storeQuorum (target : QuorumTarget) (valset : Valset) (deadline : Nat)
  | overlayPut (key : String) (value : Bytes)
  | overlayGet (key : String)
  | overlayFaults (change : FaultChange)
  | overlayInject (key : String) (value : Bytes) (front : Bool)
  | orchestratorProcess (key : Ecdsa.SecretKey) (nonce : UInt64)
  | queueOpen (name : String) (capacity : Nat)
  | orchestratorRequeue (nonce : UInt64) (name : String)
  | queuePop (name : String)
  | queueClose (name : String)
  | identityLock (key : Ecdsa.SecretKey)
  | identityUnlocked (key : Ecdsa.SecretKey)
  | orchestratorStart (key : Ecdsa.SecretKey) (name : String)
  | serviceRunning (name : String)
  | orchestratorStop (name : String)
  | orchestratorJoin (name : String)
  | relayNext
  | relayOrder (valset : Valset) (confirms : List Confirm)
  | contractLast
  | contractSetLast (nonce : UInt64)
  | contractFail (method : ContractMethod) (times : Nat) (fault : ContractFault)
  | contractSubmissions
  | contractNonces
  | relayerStart (name : String)
  | relayerStop (name : String)
  | historyResolve (nonce height : UInt64)
  | historyAttestation (nonce : UInt64)
  | historyValset (nonce : UInt64)
  | advance (ms : Nat)
  | clock
  | cancel
  | uncancel
  | later (ms : Nat) (step : Step)
  | metrics
  | renderMetrics

/-- **Why a step failed**, by the part of the library that said so. -/
inductive Failure where
  | validation (error : ValidationError)
  /-- A replica's own service refused a record, for the given reason. -/
  | refused (reason : String)
  | overlay (error : OverlayError)
  | store (error : StoreError)
  | signature (error : SignatureError)
  | orchestrator (error : OrchestratorError)
  | relayer (error : RelayerError)

/-- **What a step found out.** -/
inductive Finding where
  | nothing
  | number (n : Nat)
  | nonce (n : Option UInt64)
  | truth (b : Bool)
  | bounds (earliest latest : UInt64)
  | size (n : Nat)
  | record (value : Option Bytes)
  | records (values : List Bytes)
  | confirm (value : Option Confirm)
  | valset (value : Option Valset)
  | signers (addresses : List Address)
  | processed (outcome : ProcessOutcome)
  | decided (decision : RequeueDecision)
  | relayed (outcome : RelayOutcome)
  | slots (signatures : List Vrs)
  | submissions (l : List Submission)
  | nonces (l : List UInt64)
  | attestation (value : Attestation)
  | metrics (m : Metrics)
  | lines (l : List String)

/-- **The report of a step**: what came of it, how long a quorum was waited for, and whether a
service had been cancelled. -/
structure Report where
  result : Except Failure Finding
  waited : Option Nat
  cancelled : Option Bool

/-- A report of a success. -/
def Report.found (finding : Finding) : Report := ⟨.ok finding, none, none⟩

/-- A report of a failure. -/
def Report.failed (failure : Failure) : Report := ⟨.error failure, none, none⟩

/-- The report of a result. -/
def Report.of {ε α : Type} (failure : ε → Failure) (finding : α → Finding) :
    Except ε α → Report
  | .ok a => .found (finding a)
  | .error e => .failed (failure e)

/-- **What a task does next.** An intent is all that is kept of a service between two turns, so the
turns of several services can be taken in any order. -/
inductive Intent where
  | finished (result : WorkerResult)
  | listen (setup : OrchestratorSetup) (queue : QueueId) (state : Orchestrator.ListenerState)
  | process (setup : OrchestratorSetup) (nonces requeue : QueueId)
  | drain (setup : OrchestratorSetup) (requeue nonces : QueueId) (due : Nat)
  | relay (setup : RelayerSetup)
  /-- Handing in a report and going on with a script. -/
  | report (report : Report) (rest : List Step)
  | script (steps : List Step)

/-- What a task is to do after a turn of a loop. -/
def Intent.ofTurn {σ : Type} (again : σ → Intent) : Turn σ WorkerResult → Intent
  | .again s => again s
  | .finish result => .finished result

/-- The first intent of a worker, as a course of action. The backfill is no loop, so its course
leads to the end. -/
def Intent.ofWorker (setup : OrchestratorSetup) : Worker → Routine Intent
  | .listener nonces => return .listen setup nonces .start
  | .backfill nonces => do return .finished (← Orchestrator.backfill setup nonces)
  | .processor nonces requeue => return .process setup nonces requeue
  | .drain requeue nonces => do return .drain setup requeue nonces (← Request.now.perform)

end Countersign.Simulation
