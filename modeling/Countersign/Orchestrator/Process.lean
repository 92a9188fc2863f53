import Countersign.Orchestrator.Config
import Countersign.Retry
import Countersign.Store.Access

/-!
# Signing one attestation

`Orchestrator.process` signs and publishes the confirm for one nonce, if there is anything to sign:
not for the bootstrap nonce, not if the identity is no member of the valset before the nonce, not if
a confirm of the identity is already stored. On the way it publishes that valset as the latest one;
whether that succeeds makes no difference.

A nonce that failed for too long may be put back (`Orchestrator.requeueOrDrop`) as long as it is not
too far behind the latest one.
-/

namespace Countersign

/-- **What came of a nonce** that did not fail. To skip one is a success, as nothing is left to
do. -/
inductive ProcessOutcome where
  | skipped (reason : SkipReason)
  | published (kind : AttestationKind)
deriving DecidableEq

/-- **What became of a nonce that failed for too long.** -/
inductive RequeueDecision where
  | requeued
  | dropped
deriving DecidableEq

/-- **What an orchestrator knows of its surroundings**: the address it signs for, and settings. -/
structure OrchestratorSetup where
  address : Address
  store : StoreConfig
  retry : RetryPolicy
  config : OrchestratorConfig

namespace Orchestrator

/-- A nonce that needs no signature. The reason is noted. -/
def skip (reason : SkipReason) : Routine (Except OrchestratorError ProcessOutcome) := do
  (Request.note (.skipped reason)).perform
  return .ok (.skipped reason)

/-- The confirm of an identity for an attestation: of the valset itself, or of the given root of a
data commitment. The root is what tells the two kinds apart. -/
def confirmOf (address : Address) (signature : Vrs) (root : Option Word) : Confirm :=
  match root with
  | none => .valset ⟨address, signature.render⟩
  | some root => .commitment ⟨signature.render, address, root⟩

/-- Signing a digest and publishing the confirm, of which either may fail. A confirm that was signed
and could not be published is signed again by the next attempt. -/
def publish (setup : OrchestratorSetup) (nonce : UInt64) (digest : Word) (root : Option Word) :
    Routine (Except OrchestratorError ProcessOutcome) := do
  match ← (Request.sign digest).perform with
  | .error e => return .error (.signature e)
  | .ok signature =>
    let confirm := confirmOf setup.address signature root
    match ← Store.putConfirm setup.store nonce confirm with
    | .error e => return .error (.store e)
    | .ok () =>
      (Request.note (.published confirm.kind)).perform
      return .ok (.published confirm.kind)

/-- Signing an attestation unless a confirm of the identity is already stored. The digest of a
commitment needs its root, which the source is asked for. -/
def signUnlessStored (setup : OrchestratorSetup) (nonce : UInt64) (attestation : Attestation) :
    Routine (Except OrchestratorError ProcessOutcome) := do
  match ← Store.queryOne setup.store attestation.kind nonce setup.address with
  | .error e => return .error (.store e)
  | .ok (some _) => skip .alreadySigned
  | .ok none =>
    match attestation with
    | .valset v => publish setup nonce v.digest none
    | .dataCommitment c =>
      match ← (SourceQuery.dataRoot c.beginBlock c.endBlock).perform with
      | .error e => return .error (.source e)
      | .ok root => publish setup nonce (commitmentDigest nonce root) (some root)

/-- **Signing and publishing the confirm for a nonce**, if it needs one. -/
def process (setup : OrchestratorSetup) (nonce : UInt64) :
    Routine (Except OrchestratorError ProcessOutcome) := do
  match ← (SourceQuery.attestation nonce).perform with
  | .error e => return .error (.source e)
  | .ok none => return .error (.attestationNotFound nonce)
  | .ok (some attestation) =>
    -- The contract is started with the first valset, which nobody signs.
    if nonce = bootstrapNonce then skip .bootstrap
    else
      match ← (SourceQuery.valsetBefore nonce).perform with
      | .error e => return .error (.source e)
      | .ok prior =>
        if !prior.contains setup.address then skip .notSigner
        else
          -- Relayers look there for the members; a failure only delays them.
          let _ ← Store.putLatestValset setup.store prior
          signUnlessStored setup nonce attestation

/-- Whether a failed nonce is recent enough to be worth another try. One ahead of the latest nonce
is. -/
def isRecent (nonce latest : UInt64) (window : Nat) : Bool :=
  latest.toNat - nonce.toNat ≤ window

/-- Giving a nonce up, which is counted. -/
def drop : Routine RequeueDecision := do
  (Request.note .dropped).perform
  return .dropped

/-- Putting a failed nonce back, if it is recent enough and the queue has room. If the latest nonce
cannot be read, it counts as recent. -/
def requeueOrDrop (config : OrchestratorConfig) (nonce : UInt64) (queue : QueueId) :
    Routine RequeueDecision := do
  let latest := match ← SourceQuery.latestNonce.perform with
    | .ok latest => latest
    | .error _ => nonce
  -- A nonce that is too old to be worth it is not put back.
  if !isRecent nonce latest config.requeueWindow then drop
  else if ← (Request.trySend queue nonce).perform then
    (Request.note .requeued).perform
    return .requeued
  else drop

end Orchestrator

end Countersign
