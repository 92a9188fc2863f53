import Countersign.Net.Endpoint
import Countersign.Net.Status
import Countersign.Store.Overlay

/-!
# Replicas behind a network

The overlay of `Countersign.Store.Overlay` when each replica is somewhere else: a call to a peer may
be answered by its replica, fail with a status, or take too long. A write succeeds if one peer
accepts it; otherwise a refusal by one peer counts more than any number of peers that could not be
reached. A read succeeds if one peer answers, and brings the records of those that do.
-/

namespace Countersign

/-- **What is at the other end**: a replica that answers, a failure that does, or nothing. -/
inductive Peer where
  | serving (replica : Replica)
  | failing (status : Status)
  /-- Nothing ever comes back. -/
  | silent

/-- **What came of a write to one peer.** A refusal is an answer of its replica; everything else
that is no acceptance is a peer that was not reached. -/
inductive PeerWrite where
  | accepted
  | refused (reason : String)
  | unreached (reason : String)
deriving DecidableEq

namespace OverlayError

/-- An endpoint that cannot be used, which is found before anything is sent. -/
def invalidEndpoint (endpoint : String) : OverlayError :=
  .unavailable ("invalid endpoint " ++ endpoint ++ ": invalid URI")

end OverlayError

namespace Peer

/-- No answer within a time, in words. -/
def lateness (limit : Nat) : String :=
  "timed out after " ++ Text.duration limit

/-- How a replica refuses a record to a caller: by the status for arguments that are not valid. -/
def refusal (e : ValidationError) : Status := ⟨.invalidArgument, e.message⟩

/-- What a failed write means. Only the status of a refusal is a refusal; any other one may have
come from anywhere on the way. -/
def readFailure (s : Status) : PeerWrite :=
  if s.code = .invalidArgument then .refused s.message else .unreached s.describe

/-- Writing a record to a peer, within a time. -/
def put (key : String) (value : Bytes) (limit : Nat) : Peer → Peer × PeerWrite
  | .serving replica =>
    match replica.put key value with
    | .ok next => (.serving next, .accepted)
    | .error e => (.serving replica, readFailure (refusal e))
  | .failing s => (.failing s, readFailure s)
  | .silent => (.silent, .unreached (lateness limit))

/-- Reading the record of a peer, within a time. -/
def get (key : String) (limit : Nat) : Peer → Except String (Option Bytes)
  | .serving replica => .ok (replica.get? key)
  | .failing s => .error s.describe
  | .silent => .error (lateness limit)

end Peer

/-- Peers that are written and read together, as the replicas of an overlay are. -/
abbrev Peers := List Peer

namespace Peers

/-- Why a peer refused, if it did. -/
def refusal? : PeerWrite → Option String
  | .refused reason => some reason
  | _ => none

/-- Why a peer was not reached, if it was not. -/
def unreached? : PeerWrite → Option String
  | .unreached reason => some reason
  | _ => none

/-- The failure of a call to no peers at all. -/
def nobody : OverlayError := .unavailable "no peers configured"

/-- What a write comes to, given each peer's part: the last refusal, and else the last failure, is
reported. One refusal outweighs all peers that were not reached. -/
def writeVerdict (writes : List PeerWrite) : Except OverlayError Unit :=
  if writes.contains .accepted then .ok ()
  else
    match (writes.filterMap refusal?).getLast?, (writes.filterMap unreached?).getLast? with
    | some reason, _ => .error (.rejected reason)
    | none, some reason => .error (.unavailable reason)
    | none, none => .error nobody

/-- The record a peer has, if it answered and has one. -/
def found? : Except String (Option Bytes) → Option Bytes
  | .ok value => value
  | .error _ => none

/-- Why a read failed, if it did. -/
def failure? : Except String (Option Bytes) → Option String
  | .ok _ => none
  | .error reason => some reason

/-- What a read comes to, given each peer's part. One answer is enough, also one without a record;
the failures of the other peers are then not told. -/
def readVerdict (reads : List (Except String (Option Bytes))) : Except OverlayError (List Bytes) :=
  if reads.any fun r => (failure? r).isNone then .ok (reads.filterMap found?)
  else
    match (reads.filterMap failure?).getLast? with
    | some reason => .error (.unavailable reason)
    | none => .error nobody

/-- Writing a record to every peer. -/
def put (peers : Peers) (key : String) (value : Bytes) (limit : Nat) :
    Peers × Except OverlayError Unit :=
  let writes := peers.map (Peer.put key value limit)
  (writes.map Prod.fst, writeVerdict (writes.map Prod.snd))

/-- The records under a key, one of each peer that answers and has one, in order. -/
def get (peers : Peers) (key : String) (limit : Nat) : Except OverlayError (List Bytes) :=
  readVerdict (peers.map (Peer.get key limit))

/-- Peers at endpoints, of which nothing is known yet; the first endpoint that cannot be used is
named. Nothing is sent by this, so every peer counts as not reachable at first. -/
def connect (endpoints : List String) : Except OverlayError Peers :=
  match endpoints.find? fun e => !Endpoint.isValid e with
  | some e => .error (.invalidEndpoint e)
  | none => .ok (endpoints.map fun _ => .failing .unreachable)

end Peers

end Countersign
