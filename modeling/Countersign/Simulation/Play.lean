import Countersign.Simulation.World

/-!
# Playing a step

How each step of a script is carried out (`Step.play`): either it changes the world at once and has
its report, or it becomes a course of action that is then stepped together with the other tasks.
-/

namespace Countersign.Simulation

/-- A step that was begun: done at once, or a course of action with its context. -/
inductive Played where
  | atOnce (report : Report)
  | course (context : Context) (routine : Routine Report)

/-- The settings of an orchestrator with an identity. Of the identity only the address is a setting;
the key stays with the task and is reached by asking for a signature. -/
def Setup.orchestratorSetup (setup : Setup) (identity : Identity) : OrchestratorSetup :=
  ⟨identity.address, setup.store, setup.retry, setup.orchestrator⟩

/-- The settings of a relayer. -/
def Setup.relayerSetup (setup : Setup) : RelayerSetup :=
  ⟨setup.store, setup.relayer⟩

/-- A time that is never over, for what a script asks of the replicas itself. Only the store sets a
limit to its own requests. -/
def forever : Nat := UInt64.size

/-- The confirm that a fresh identity signs. A data root may be signed as if it had another nonce,
for confirms whose signature does not fit the key they are put under. -/
def signedConfirm (key : Ecdsa.SecretKey) (signing : Signing) : Except SignatureError Confirm :=
  let identity := Identity.ofKey key
  match signing with
  | .valset v => (identity.sign v.digest).map fun x => .valset ⟨identity.address, x.render⟩
  | .dataRoot root signedNonce =>
    (identity.sign (commitmentDigest signedNonce root)).map fun x =>
      .commitment ⟨x.render, identity.address, root⟩

/-- A quorum, and how long it was waited for. The clock is read before and after, so that a
rehearsal can tell a deadline that was kept from one that was not. -/
def playQuorum (setup : Setup) (target : QuorumTarget) (valset : Valset) (deadline : Nat) :
    Routine Report := do
  let started ← Request.now.perform
  let result ← Store.queryQuorum setup.store target valset deadline
  let ended ← Request.now.perform
  return { Report.of .store (fun confirms => .signers (confirms.map Confirm.signer)) result with
    waited := some (ended - started) }

/-- The end of a service, and whether it had been cancelled. A service whose worker stopped has
cancelled itself, and this is seen here. -/
def playJoin (task : TaskId) : Routine Report := do
  let (_, result) ← (Request.joinAny [task]).perform
  let cancelled ← Request.isCancelled.perform
  return { Report.of .orchestrator (fun _ => .nothing) result with cancelled := some cancelled }

/-- The end of a relayer. -/
def playRelayerStop (task : TaskId) : Routine Report := do
  let _ ← (Request.joinAny [task]).perform
  return .found .nothing

/-- The whole course of a relayer up to its first turn: the grace period, and then the turns, unless
it is cancelled before. -/
def relayerCourse (setup : RelayerSetup) : Routine Intent := do
  match ← Relayer.gracePeriod setup with
  | .cancelled => return .finished (.ok ())
  | .elapsed => return .relay setup

/-- A queue by its name. An unknown name gives a queue that does not exist, for which every request
has its answer. -/
def World.queueOf (w : World) (name : String) : QueueId :=
  (w.queueNames.lookup name).getD w.queues.length

/-- A service by its name. -/
def World.serviceOf (w : World) (name : String) : Service :=
  (w.services.lookup name).getD ⟨w.tasks, w.tokens⟩

/-- Starting a service under a name, with a cancellation of its own. So a script can stop one
service and let the others go on. -/
def World.startService (w : World) (name : String) (identity : Option Nat)
    (course : Routine Intent) (setup : Option OrchestratorSetup) : World :=
  let (token, w) := w.newToken
  let (task, w) := w.startTask ⟨token, identity⟩ course setup true
  { w with services := assign name ⟨task, token⟩ w.services }

/-- Setting faults of the overlay. Only what is given changes, so faults can be added one by one. -/
def Faults.change (f : Faults) (c : FaultChange) : Faults :=
  ⟨c.putDelay.getD f.putDelay, c.getDelay.getD f.getDelay, c.failPuts.getD f.failPuts,
    c.failGets.getD f.failGets, c.dropReads.getD f.dropReads⟩

/-- **Beginning a step.** A step that only changes the world is done at once. One that asks for
something becomes a course of action, because other tasks may go on while it waits. -/
def Step.play (w : World) (step : Step) : Played × World :=
  let here : Context := ⟨w.token, none⟩
  let quiet (w : World) : Played × World := (.atOnce (.found .nothing), w)
  let found (finding : Finding) : Played × World := (.atOnce (.found finding), w)
  let course (routine : Routine Report) : Played × World := (.course here routine, w)
  let replica (i : Nat) : Replica := w.overlay.getD i .empty
  match step with
  | .sourceAdd attestation root =>
    let source := match attestation, root with
      | .dataCommitment c, some root => w.source.setRoot c.beginBlock c.endBlock root
      | _, _ => w.source
    quiet { w with source := source.push attestation }
  | .sourceRoot beginBlock endBlock root =>
    quiet { w with source := w.source.setRoot beginBlock endBlock root }
  | .sourcePrune nonce first last => quiet { w with source := w.source.prune nonce first last }
  | .sourceHeight height => quiet { w with source := { w.source with height := height } }
  | .sourceUnhealthy value => quiet { w with source := { w.source with healthy := !value } }
  | .sourceDrop => quiet { w with source := w.source.dropStreams }
  | .sourceFail method times error => quiet { w with source := w.source.arm method times error }
  | .sourceLookups => found (.number w.source.lookups)
  | .sourceSubscriptions => found (.number w.source.subscriptions)
  | .sourceBounds => found (.bounds w.source.earliest w.source.latest)
  | .replicaPut i key value =>
    match (replica i).put key value with
    | .ok next => quiet { w with overlay := w.overlay.set i next }
    | .error e => (.atOnce (.failed (.validation e)), w)
  | .replicaGet i key => found (.record ((replica i).get? key))
  | .replicaSize i => found (.size (replica i).size)
  | .nodePut i key value =>
    match (replica i).put key value with
    | .ok next => quiet { w with overlay := w.overlay.set i next }
    | .error e => (.atOnce (.failed (.refused e.message)), w)
  | .storePut nonce confirm =>
    course do
      return Report.of .store (fun _ => .nothing) (← Store.putConfirm w.setup.store nonce confirm)
  | .storeSign key nonce signing =>
    match signedConfirm key signing with
    | .error e => (.atOnce (.failed (.signature e)), w)
    | .ok confirm =>
      course do
        return Report.of .store (fun _ => .nothing) (← Store.putConfirm w.setup.store nonce confirm)
  | .storeQuery kind nonce signer =>
    course do
      return Report.of .store .confirm (← Store.queryOne w.setup.store kind nonce signer)
  | .storePutLatest valset =>
    course do
      return Report.of .store (fun _ => .nothing) (← Store.putLatestValset w.setup.store valset)
  | .storeLatest =>
    course do return Report.of .store .valset (← Store.latestValset w.setup.store)
  | .storeQuorum target valset deadline => course (playQuorum w.setup target valset deadline)
  | .overlayPut key value =>
    course do
      return Report.of .overlay (fun _ => .nothing) (← (Request.put key value forever).perform)
  | .overlayGet key =>
    course do return Report.of .overlay .records (← (Request.get key forever).perform)
  | .overlayFaults change => quiet { w with faults := w.faults.change change }
  | .overlayInject key value front =>
    quiet { w with injected := w.injected ++ [⟨key, value, front⟩] }
  | .orchestratorProcess key nonce =>
    let (identity, w) := w.identity key
    (.course ⟨w.token, some key.secret⟩ do
      return Report.of .orchestrator .processed
        (← Orchestrator.process (w.setup.orchestratorSetup identity) nonce), w)
  | .queueOpen name capacity =>
    let (queue, w) := w.openQueue capacity
    quiet { w with queueNames := assign name queue w.queueNames }
  | .orchestratorRequeue nonce name =>
    course do
      return .found (.decided
        (← Orchestrator.requeueOrDrop w.setup.orchestrator nonce (w.queueOf name)))
  | .queuePop name =>
    let (nonce, w) := w.takeNext (w.queueOf name)
    (.atOnce (.found (.nonce nonce)), w)
  | .queueClose name =>
    quiet (w.updateQueue (w.queueOf name) fun q => { q with isOpen := false })
  | .identityLock key =>
    let (_, w) := w.identity key
    quiet (w.lockIdentity (some key.secret))
  | .identityUnlocked key =>
    let (identity, w) := w.identity key
    (.atOnce (.found (.truth identity.isUnlocked)), w)
  | .orchestratorStart key name =>
    let (identity, w) := w.identity key
    let setup := w.setup.orchestratorSetup identity
    quiet (w.startService name (some key.secret)
      (do return .finished (← Orchestrator.serve setup)) (some setup))
  | .serviceRunning name =>
    found (.truth ((w.finished.lookup (w.serviceOf name).task).isNone))
  | .orchestratorStop name =>
    let service := w.serviceOf name
    (.course ⟨service.token, none⟩ (playJoin service.task), w.cancel service.token)
  | .orchestratorJoin name =>
    let service := w.serviceOf name
    (.course ⟨service.token, none⟩ (playJoin service.task), w)
  | .relayNext =>
    course do
      return Report.of .relayer .relayed (← Relayer.relayNext w.setup.relayerSetup)
  | .relayOrder valset confirms =>
    (.atOnce (Report.of .signature .slots (orderSignatures valset confirms)), w)
  | .contractLast => found (.number w.contract.last.toNat)
  | .contractSetLast nonce => quiet { w with contract := { w.contract with last := nonce } }
  | .contractFail method times fault =>
    quiet { w with contract := { w.contract with
      faults := assign method (times, fault) w.contract.faults } }
  | .contractSubmissions => found (.submissions w.contract.submissions)
  | .contractNonces => found (.nonces (w.contract.submissions.map Submission.nonce))
  | .relayerStart name =>
    quiet (w.startService name none (relayerCourse w.setup.relayerSetup) none)
  | .relayerStop name =>
    let service := w.serviceOf name
    (.course ⟨service.token, none⟩ (playRelayerStop service.task), w.cancel service.token)
  | .historyResolve nonce height =>
    course do
      return Report.of .relayer .attestation
        (← History.resolve w.setup.relayer.history nonce height)
  | .historyAttestation nonce =>
    course do
      return Report.of .relayer .attestation
        (← History.attestation w.setup.relayer.history nonce)
  | .historyValset nonce =>
    course do
      return Report.of .relayer (fun v => .attestation (.valset v))
        (← History.valsetBefore w.setup.relayer.history nonce)
  | .advance ms =>
    course do
      (Request.labour ms).perform
      return .found .nothing
  | .clock => found (.number w.now)
  | .cancel => quiet (w.cancel w.token)
  | .uncancel =>
    let (token, w) := w.newToken
    quiet { w with token := token }
  | .later ms step =>
    let (_, w) := w.startTask here (do
      (Request.labour ms).perform
      return .script [step]) none true
    quiet w
  | .metrics =>
    let touched := w.metrics.touchAll
    (.atOnce (.found (.metrics touched)), { w with metrics := touched })
  | .renderMetrics => found (.lines w.metrics.render)

end Countersign.Simulation
