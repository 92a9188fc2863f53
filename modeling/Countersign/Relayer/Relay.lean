import Countersign.Relayer.History
import Countersign.Relayer.Slots
import Countersign.Store.Quorum

/-!
# Relaying attestations

`Relayer.relayNext` commits the attestation behind the contract's last one: it finds the attestation
and the valset before it, waits for a quorum of that valset, lines the signatures up and submits
them. It submits at most once, and only the next nonce.

`Relayer.turn` is one turn of the service. After an attestation was relayed the next turn follows at
once; if there was nothing to do, or something failed, it follows after a pause. Only cancellation
ends the service. A backup relayer waits for a while before its first turn.
-/

namespace Countersign

/-- **What came of one attempt to relay** that did not fail: nothing to do, or one attestation
more. -/
inductive RelayOutcome where
  | upToDate (lastRelayed : UInt64)
  | relayed (nonce : UInt64) (kind : AttestationKind) (transaction : Word)
deriving DecidableEq

/-- Settings of a relayer and of the store it reads. It signs no digests, so there is no address
among them. -/
structure RelayerSetup where
  store : StoreConfig
  config : RelayerConfig

namespace Relayer

/-- A quorum of a valset, the wait for it being noted however it ends. -/
def quorum (setup : RelayerSetup) (target : QuorumTarget) (current : Valset) :
    Routine (Except RelayerError (List Confirm)) := do
  let started ← Request.now.perform
  let result ← Store.queryQuorum setup.store target current setup.config.quorumTimeout
  let ended ← Request.now.perform
  (Request.note (.quorumWaited (ended - started))).perform
  match result with
  | .ok confirms => return .ok confirms
  | .error e => return .error (.store e)

/-- Waiting for a quorum and submitting. The submission is made of the signatures, once there are
any. -/
def submitWithQuorum (setup : RelayerSetup) (target : QuorumTarget) (current : Valset)
    (submission : List Vrs → Submission) : Routine (Except RelayerError Word) := do
  match ← quorum setup target current with
  | .error e => return .error e
  | .ok confirms =>
    match orderSignatures current confirms with
    | .error e => return .error (.signature e)
    | .ok signatures =>
      match ← (Request.submit (submission signatures)).perform with
      | .error e => return .error (.submitter e)
      | .ok transaction => return .ok transaction

/-- Committing an attestation that the members of `current` signed. The root of a commitment is
asked for first, as it is part of what was signed. -/
def commit (setup : RelayerSetup) (nonce : UInt64) (attestation : Attestation) (current : Valset) :
    Routine (Except RelayerError Word) := do
  match attestation with
  | .valset new =>
    submitWithQuorum setup ⟨.valset, nonce, new.digest⟩ current
      fun signatures => .valset new new.threshold current signatures
  | .dataCommitment c =>
    match ← (SourceQuery.dataRoot c.beginBlock c.endBlock).perform with
    | .error e => return .error (.source e)
    | .ok root =>
      submitWithQuorum setup ⟨.dataCommitment, nonce, commitmentDigest nonce root⟩ current
        fun signatures => .dataRoot nonce root current signatures

/-- Relaying a nonce: finding what is to be committed and by whom it is signed, and committing
it. -/
def relay (setup : RelayerSetup) (nonce : UInt64) : Routine (Except RelayerError RelayOutcome) := do
  match ← History.attestation setup.config.history nonce with
  | .error e => return .error e
  | .ok attestation =>
    match ← History.valsetBefore setup.config.history nonce with
    | .error e => return .error e
    | .ok current =>
      match ← commit setup nonce attestation current with
      | .error e => return .error e
      | .ok transaction =>
        (Request.note (.relayed attestation.kind)).perform
        return .ok (.relayed nonce attestation.kind transaction)

/-- Relaying the attestation behind the contract's last one, if the source has it. The contract
takes attestations in order, so the next one is the only one that can be relayed. -/
def relayNext (setup : RelayerSetup) : Routine (Except RelayerError RelayOutcome) := do
  match ← Request.lastRelayed.perform with
  | .error e => return .error (.submitter e)
  | .ok lastRelayed =>
    (Request.note (.lastRelayed lastRelayed)).perform
    match ← SourceQuery.latestNonce.perform with
    | .error e => return .error (.source e)
    | .ok latest =>
      -- The source has nothing that the contract does not have.
      if latest ≤ lastRelayed then return .ok (.upToDate lastRelayed)
      else relay setup (lastRelayed + 1)

/-- The wait of a backup relayer before its first turn, so that another relayer may go ahead. -/
def gracePeriod (setup : RelayerSetup) : Routine Wait :=
  if setup.config.backup then (Request.pause setup.config.backupGracePeriod).perform
  else return .elapsed

/-- What a turn came to: whether the relayer has nothing to do for now, or must stop. A failure is
noted, and then it is as if there were nothing to do. -/
def settle (result : Except RelayerError RelayOutcome) : Routine (Option Bool) :=
  match result with
  | .ok (.relayed ..) => return some false
  | .ok (.upToDate _) => return some true
  -- The one failure that is none: the task was cancelled while waiting for a quorum.
  | .error (.store .cancelled) => return none
  | .error _ => do
    (Request.note .relayFailed).perform
    return some true

/-- The end of a turn, once it is known what its call came to. The token is looked at again before
the pause, so that no turn begins once the task is cancelled. -/
def conclude (setup : RelayerSetup) : Option Bool → Routine (Turn Unit Unit)
  | none => return .finish ()
  | some idle => do
    if ← Request.isCancelled.perform then return .finish ()
    if idle then
      match ← (Request.pause setup.config.pollInterval).perform with
      | .cancelled => return .finish ()
      | .elapsed => return .again ()
    else return .again ()

/-- One turn of the service: a call, a note if it failed, and the end. -/
def turn (setup : RelayerSetup) : Routine (Turn Unit Unit) := do
  conclude setup (← settle (← relayNext setup))

end Relayer

end Countersign
