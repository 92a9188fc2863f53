import Countersign.Attestation

/-!
# Counting what happens

What the services do is told to a set of counters and gauges (`Metrics`), one event at a time
(`Metrics.note`). Counters that are split by a label are shown only for the labels that have been
touched; the others are always shown. `Metrics.render` writes them line by line, sorted by name and
label, each family behind a line with its meaning and a line with its type.
-/

namespace Countersign

/-- **Why a nonce needs no signature.** -/
inductive SkipReason where
  /-- The first nonce is trusted as it is. -/
  | bootstrap
  /-- The identity is not in the valset that signs. -/
  | notSigner
  /-- The store already holds a confirm of the identity. -/
  | alreadySigned
deriving DecidableEq

/-- The label of a reason. -/
def SkipReason.name : SkipReason → String
  | .bootstrap => "bootstrap"
  | .notSigner => "not_signer"
  | .alreadySigned => "already_signed"

/-- **Something worth counting.** -/
inductive Event where
  | published (kind : AttestationKind)
  | skipped (reason : SkipReason)
  | requeued
  | dropped
  | processed (nonce : UInt64)
  | relayed (kind : AttestationKind)
  | relayFailed
  | lastRelayed (nonce : UInt64)
  /-- A wait for a quorum ended after the given number of milliseconds. -/
  | quorumWaited (ms : Nat)
deriving DecidableEq

/-- **The counters and gauges.** A split counter that was never touched has no number, and is not
shown. -/
structure Metrics where
  publishedValset : Option Nat
  publishedCommitment : Option Nat
  skippedBootstrap : Option Nat
  skippedNotSigner : Option Nat
  skippedAlreadySigned : Option Nat
  requeued : Nat
  dropped : Nat
  lastProcessed : Nat
  relayedValset : Option Nat
  relayedCommitment : Option Nat
  relayFailures : Nat
  lastRelayed : Nat
  quorumWaits : Nat
deriving DecidableEq

namespace Metrics

/-- Nothing has happened yet. -/
def zero : Metrics :=
  ⟨none, none, none, none, none, 0, 0, 0, none, none, 0, 0, 0⟩

/-- One more, of a split counter. -/
def increment (n : Option Nat) : Option Nat :=
  some (n.getD 0 + 1)

/-- Touching without counting, which makes a counter appear with the number zero. -/
def touch (n : Option Nat) : Option Nat :=
  some (n.getD 0)

/-- A nonce as a gauge shows it: at most the greatest signed number of 64 bits. -/
def gauge (nonce : UInt64) : Nat :=
  min nonce.toNat (UInt64.size / 2 - 1)

/-- **Counting an event.** -/
def note (m : Metrics) : Event → Metrics
  | .published .valset => { m with publishedValset := increment m.publishedValset }
  | .published .dataCommitment => { m with publishedCommitment := increment m.publishedCommitment }
  | .skipped .bootstrap => { m with skippedBootstrap := increment m.skippedBootstrap }
  | .skipped .notSigner => { m with skippedNotSigner := increment m.skippedNotSigner }
  | .skipped .alreadySigned => { m with skippedAlreadySigned := increment m.skippedAlreadySigned }
  | .requeued => { m with requeued := m.requeued + 1 }
  | .dropped => { m with dropped := m.dropped + 1 }
  | .processed nonce => { m with lastProcessed := gauge nonce }
  | .relayed .valset => { m with relayedValset := increment m.relayedValset }
  | .relayed .dataCommitment => { m with relayedCommitment := increment m.relayedCommitment }
  | .relayFailed => { m with relayFailures := m.relayFailures + 1 }
  | .lastRelayed nonce => { m with lastRelayed := gauge nonce }
  | .quorumWaited _ => { m with quorumWaits := m.quorumWaits + 1 }

/-- Touching every split counter, as looking at all of them does. What is shown afterwards has the
same lines whatever has happened. -/
def touchAll (m : Metrics) : Metrics :=
  { m with
    publishedValset := touch m.publishedValset
    publishedCommitment := touch m.publishedCommitment
    skippedBootstrap := touch m.skippedBootstrap
    skippedNotSigner := touch m.skippedNotSigner
    skippedAlreadySigned := touch m.skippedAlreadySigned
    relayedValset := touch m.relayedValset
    relayedCommitment := touch m.relayedCommitment }

/-- **A family of values**: name, meaning, type, and each value with its label, if it has one. -/
structure Family where
  name : String
  help : String
  kind : String
  values : List (Option (String × String) × Nat)

/-- The lines of a family, none if it has no values. -/
def Family.render (f : Family) : List String :=
  if f.values.isEmpty then []
  else
    ("# HELP " ++ f.name ++ " " ++ f.help) :: ("# TYPE " ++ f.name ++ " " ++ f.kind) ::
      f.values.map fun (label, value) =>
        match label with
        | none => f.name ++ " " ++ toString value
        | some (key, text) =>
          f.name ++ "\x7b" ++ key ++ "=\"" ++ text ++ "\"\x7d " ++ toString value

/-- The touched values among labelled ones. -/
def labelled (key : String) (values : List (String × Option Nat)) :
    List (Option (String × String) × Nat) :=
  values.filterMap fun (text, value) => value.map fun n => (some (key, text), n)

/-- **All families**, sorted by name, their values by label. -/
def families (m : Metrics) : List Family :=
  [⟨"blobstream_orchestrator_confirms_published_total",
    "Confirms signed and published to the store", "counter",
    labelled "attestation_type"
      [("data_commitment", m.publishedCommitment), ("valset", m.publishedValset)]⟩,
   ⟨"blobstream_orchestrator_last_processed_nonce",
    "Nonce most recently processed successfully", "gauge", [(none, m.lastProcessed)]⟩,
   ⟨"blobstream_orchestrator_nonces_dropped_total", "Nonces given up on", "counter",
    [(none, m.dropped)]⟩,
   ⟨"blobstream_orchestrator_nonces_requeued_total",
    "Nonces put back on the requeue queue after exhausting retries", "counter",
    [(none, m.requeued)]⟩,
   ⟨"blobstream_orchestrator_nonces_skipped_total", "Nonces that did not need a signature",
    "counter",
    labelled "reason" [("already_signed", m.skippedAlreadySigned),
      ("bootstrap", m.skippedBootstrap), ("not_signer", m.skippedNotSigner)]⟩,
   ⟨"blobstream_relayer_failures_total", "Relay iterations that ended in an error", "counter",
    [(none, m.relayFailures)]⟩,
   ⟨"blobstream_relayer_last_relayed_nonce", "Last nonce the bridge contract accepted", "gauge",
    [(none, m.lastRelayed)]⟩,
   ⟨"blobstream_relayer_relayed_total", "Attestations committed to the bridge contract", "counter",
    labelled "attestation_type"
      [("data_commitment", m.relayedCommitment), ("valset", m.relayedValset)]⟩]

/-- The counters and gauges line by line. -/
def render (m : Metrics) : List String :=
  m.families.flatMap Family.render

end Metrics

end Countersign
