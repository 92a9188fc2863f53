import Countersign.Source.Error

/-!
# Following a source by asking again and again

A source that cannot tell of new attestations is asked for its latest nonce from time to time. A
`Subscription` turns the answers into a stream of nonces, one after the other: an answer that is
ahead makes room for all nonces up to it, one that is behind changes nothing, and a failed one is
passed on.
-/

namespace Countersign

/-- **How far a stream has come**: the last nonce that was handed out, and the greatest one known.
The nonces between the two are still to come. -/
structure Subscription where
  emitted : UInt64
  known : UInt64
deriving DecidableEq

namespace Subscription

/-- A stream of the nonces behind one, of which none is known yet. -/
def start (latest : UInt64) : Subscription := ⟨latest, latest⟩

/-- The next nonce, if one is known that was not handed out. Nonces are counted up, so none is left
out. -/
def next? (s : Subscription) : Option (UInt64 × Subscription) :=
  if s.emitted < s.known then some (s.emitted + 1, { s with emitted := s.emitted + 1 }) else none

/-- Hearing of a latest nonce. A source that has gone back is not followed back. -/
def hear (s : Subscription) (latest : UInt64) : Subscription :=
  { s with known := max s.known latest }

/-- Hearing an answer; a failure is an item of the stream, and does not change how far it has
come. -/
def hearAnswer (s : Subscription) : Except SourceError UInt64 → Option SourceError × Subscription
  | .ok latest => (none, s.hear latest)
  | .error e => (some e, s)

end Subscription

end Countersign
