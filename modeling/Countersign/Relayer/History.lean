import Countersign.Relayer.Config
import Countersign.Relayer.Error
import Countersign.Routine.Basic

/-!
# Attestations of the past

The source keeps only recent attestations live. An older one can still be asked for at a height of
the past, and this module searches for it: from a greatest height down in equal steps
(`History.resolve`). A height at which the attestation is not found, or that cannot be asked, does
not end the search.

`History.valsetBefore` uses such searches to find the last valset before a nonce when the source no
longer knows it, trying one nonce after the other downwards.
-/

namespace Countersign.History

/-- Asking at `depth` heights from `height` down. It stops before a height would come below zero. -/
def resolveFrom (step : Nat) (nonce : UInt64) :
    (depth : Nat) → (height : UInt64) → Routine (Except RelayerError Attestation)
  | 0, _ => return .error (.attestationNotFound nonce)
  | depth + 1, height => do
    match ← (SourceQuery.attestationAt nonce height).perform with
    | .ok (some attestation) => return .ok attestation
    -- Not there, or not to be asked at this height: the next one is tried in either case.
    | _ =>
      if height.toNat < step then return .error (.attestationNotFound nonce)
      else resolveFrom step nonce depth (UInt64.ofNat (height.toNat - step))

/-- An attestation at the greatest of the heights `height`, `height - step`, … at which it is found,
of which there are at most `maxDepth`. -/
def resolve (config : HistoryConfig) (nonce height : UInt64) :
    Routine (Except RelayerError Attestation) :=
  resolveFrom config.step nonce config.maxDepth height

/-- An attestation, live or of the past. The past is asked only for what the source says it does not
have; a question that fails is a failure. -/
def attestation (config : HistoryConfig) (nonce : UInt64) :
    Routine (Except RelayerError Attestation) := do
  match ← (SourceQuery.attestation nonce).perform with
  | .error e => return .error (.source e)
  | .ok (some found) => return .ok found
  | .ok none =>
    match ← SourceQuery.latestHeight.perform with
    | .error e => return .error (.source e)
    | .ok height => resolve config nonce height

/-- The first valset among `count` nonces from `candidate` down, searched from a height. A nonce at
which no attestation is found at any height is passed over like a data commitment. -/
def searchValset (config : HistoryConfig) (nonce height : UInt64) :
    (count : Nat) → (candidate : UInt64) → Routine (Except RelayerError Valset)
  | 0, _ => return .error (.source (.valsetNotFound nonce))
  | count + 1, candidate => do
    match ← resolve config candidate height with
    | .ok (.valset v) => return .ok v
    | .ok (.dataCommitment _) | .error (.attestationNotFound _) =>
      searchValset config nonce height count (candidate - 1)
    | .error e => return .error e

/-- The lowest nonce that is tried for a valset before a nonce. It bounds the search where the
source keeps few valsets. -/
def lowestCandidate (config : HistoryConfig) (nonce : UInt64) : Nat :=
  max 1 (nonce.toNat - config.valsetSearchLimit)

/-- The last valset before a nonce, live or of the past. Its members are those who sign the
attestation at the nonce. -/
def valsetBefore (config : HistoryConfig) (nonce : UInt64) :
    Routine (Except RelayerError Valset) := do
  match ← (SourceQuery.valsetBefore nonce).perform with
  | .ok v => return .ok v
  | .error (.valsetNotFound _) =>
    match ← SourceQuery.latestHeight.perform with
    | .error e => return .error (.source e)
    | .ok height =>
      searchValset config nonce height (nonce.toNat - lowestCandidate config nonce) (nonce - 1)
  | .error e => return .error (.source e)

end Countersign.History
