import Countersign.Routine.Basic
import Countersign.Source.Subscription

/-!
# Waiting for the next item of a stream

Whoever reads a stream of nonces that is kept up by asking waits for its items one after the other.
Waiting is a loop: what is known and was not handed out yet comes without asking; else the source is
asked for its latest nonce after a while, and the loop goes on with what it answered. A failed
answer ends the wait as well, and the stream can be read on from where it was.
-/

namespace Countersign.Subscription

/-- An item of a stream: a nonce, or why one could not be asked for. A failure does not end the
stream. -/
abbrev Item := Except SourceError UInt64

/-- One turn of waiting for the next item, which comes with what is left of the stream. The time
between two questions runs on when nobody waits, and nothing breaks it off. -/
def awaitItem (interval : Nat) (s : Subscription) :
    Routine (Turn Subscription (Item × Subscription)) :=
  match s.next? with
  | some (nonce, rest) => return .finish (.ok nonce, rest)
  | none => do
    (Request.labour interval).perform
    let answer ← SourceQuery.latestNonce.perform
    match s.hearAnswer answer with
    | (none, heard) => return .again heard
    | (some error, kept) => return .finish (.error error, kept)

end Countersign.Subscription
