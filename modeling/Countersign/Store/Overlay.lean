import Countersign.Store.Replica
import Countersign.Text.Duration

/-!
# Replicas together

An overlay is a list of replicas that are written and read together. A write reaches all of them and
succeeds if one accepts it; a read brings the record of every replica that has one, in order
(`Overlay.put`, `Overlay.get`).

`OverlayError` also covers overlays whose replicas are reached over a network.
-/

namespace Countersign

/-- **Why an overlay did not do what was asked.** A record that was refused will be refused again;
the others may be tried later. -/
inductive OverlayError where
  /-- Every replica refused the record, one for the given reason. -/
  | rejected (reason : String)
  /-- No replica could be reached. -/
  | unavailable (reason : String)
  /-- No answer within the given number of milliseconds. -/
  | timeout (limit : Nat)
deriving DecidableEq

namespace OverlayError

/-- The error in words. -/
def message : OverlayError → String
  | .rejected reason => "record rejected: " ++ reason
  | .unavailable reason => "overlay unavailable: " ++ reason
  | .timeout limit => "overlay request timed out after " ++ Text.duration limit

/-- The error's class, by which callers decide whether to try again. -/
def failureClass : OverlayError → FailureClass
  | .rejected _ => .invalid
  | .unavailable _ | .timeout _ => .transient

end OverlayError

/-- Replicas that are written and read together. They need not hold the same records. -/
abbrev Overlay := List Replica

namespace Overlay

/-- A write's effect on one replica: the replica afterwards, and the reason of a refusal. A refusal
leaves the replica as it was. -/
def putOne (key : String) (value : Bytes) (replica : Replica) : Replica × Option ValidationError :=
  match replica.put key value with
  | .ok next => (next, none)
  | .error e => (replica, some e)

/-- What a write comes to, given each replica's answer: it succeeds if one accepted it, and is
otherwise refused for the last reason. -/
def verdict (answers : List (Option ValidationError)) : Except OverlayError Unit :=
  if answers.any Option.isNone then .ok ()
  else
    match answers.getLast? with
    | some (some e) => .error (.rejected e.message)
    | _ => .error (.unavailable "no replicas")

/-- Writing a record to every replica, also to those behind one that refused it. -/
def put (overlay : Overlay) (key : String) (value : Bytes) : Overlay × Except OverlayError Unit :=
  let answers := overlay.map (putOne key value)
  (answers.map Prod.fst, verdict (answers.map Prod.snd))

/-- The records under a key, one of each replica that has one, in order. Replicas that agree bring
the same record several times. -/
def get (overlay : Overlay) (key : String) : List Bytes :=
  overlay.filterMap (·.get? key)

end Overlay

end Countersign
