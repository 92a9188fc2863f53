import Countersign.Store.Overlay

/-!
# When the store does not do what is asked

The failures of typed reads and writes: a record that is refused before it is sent, an overlay that
fails, and the ways in which waiting for a quorum ends without one.
-/

namespace Countersign

/-- **Why the store failed.** A quorum that was not reached is told with the power that there was
and the power that was needed. -/
inductive StoreError where
  /-- The record was refused before it was sent. -/
  | invalid (error : ValidationError)
  | overlay (error : OverlayError)
  /-- The record has no written form. -/
  | encode
  /-- Too little power had signed when the time was over. -/
  | quorumTimeout (nonce power threshold : UInt64)
  /-- A valset without power has no quorum. -/
  | emptyValset (nonce : UInt64)
  | cancelled
deriving DecidableEq

namespace StoreError

/-- The error in words. Errors of the layers below keep theirs. -/
def message : StoreError → String
  | .invalid e => e.message
  | .overlay e => e.message
  | .encode => "failed to encode record"
  | .quorumTimeout nonce power threshold =>
    "quorum not reached for nonce " ++ toString nonce.toNat ++ ": " ++ toString power.toNat ++
      " of " ++ toString threshold.toNat ++ " required power signed"
  | .emptyValset nonce => "valset " ++ toString nonce.toNat ++ " has no voting power"
  | .cancelled => "confirm store query cancelled"

/-- The error's class, by which callers decide whether to try again. A quorum that was not reached
counts as not found, for there may be one later. -/
def failureClass : StoreError → FailureClass
  | .invalid _ | .encode | .emptyValset _ => .invalid
  | .overlay e => e.failureClass
  | .quorumTimeout .. => .notFound
  | .cancelled => .fatal

end StoreError

end Countersign
