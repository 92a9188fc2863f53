import Countersign.Net.Endpoint
import Countersign.Net.Status
import Countersign.Routine.Request
import Countersign.Source.Message
import Countersign.Source.Subscription

/-!
# Asking a node of the source chain

A question to the source chain becomes one call to a node (`SourceQuery.call`), and what the node
replies becomes the answer (`NodeClient.receive`). A missing attestation or valset may be reported
in two ways, by an empty reply or by a status that says so; both count alike. An attestation of the
past is asked for like any other, with the height beside the nonce.

A stream of new nonces begins with a call for the latest one; it goes on as a `Subscription` that is
fed by further calls of that kind.
-/

namespace Countersign

/-- **A call to a node.** There are fewer calls than questions, as several questions are asked by
the same call. -/
inductive NodeCall where
  /-- The attestation of a nonce, as it stood at a height of the past if one is given. -/
  | attestation (nonce : UInt64) (height : Option UInt64)
  | latestNonce
  | earliestNonce
  | valsetBefore (nonce : UInt64)
  | dataRoot (beginBlock endBlock : UInt64)
  | latestHeight
deriving DecidableEq

/-- **What a node replies**, each kind of reply in its own form. A field that is not set is not
there. -/
inductive NodeReply where
  | attestation (message : Option Message.Attestation)
  | valset (message : Option Message.Valset)
  | number (n : UInt64)
  | bytes (root : Bytes)
deriving DecidableEq

namespace SourceError

/-- A call that failed is a request that did not get through. -/
def ofStatus (s : Status) : SourceError := .transport s.describe

/-- An endpoint that cannot be used. -/
def invalidEndpoint (endpoint : String) : SourceError :=
  .transport ("invalid endpoint " ++ endpoint ++ ": invalid URI")

end SourceError

namespace NodeReply

/-- An attestation from a reply, none if the node has none, in whichever way it says so. -/
def readAttestation : Except Status NodeReply → Except SourceError (Option Attestation)
  | .ok (.attestation (some message)) =>
    match message.read with
    | .ok a => .ok (some a)
    | .error e => .error e
  | .ok _ => .ok none
  | .error s => if s.code = .notFound then .ok none else .error (.ofStatus s)

/-- The valset before a nonce from a reply. Here having none is a failure, as there should be
one. -/
def readValset (nonce : UInt64) : Except Status NodeReply → Except SourceError Valset
  | .ok (.valset (some message)) => message.read
  | .ok _ => .error (.valsetNotFound nonce)
  | .error s => if s.code = .notFound then .error (.valsetNotFound nonce) else .error (.ofStatus s)

/-- A nonce or height from a reply; an empty one stands for zero. -/
def readNumber : Except Status NodeReply → Except SourceError UInt64
  | .ok (.number n) => .ok n
  | .ok _ => .ok 0
  | .error s => .error (.ofStatus s)

/-- A data root from a reply; an empty one is no root. -/
def readRoot : Except Status NodeReply → Except SourceError Word
  | .ok (.bytes root) => Message.readRoot root
  | .ok _ => Message.readRoot []
  | .error s => .error (.ofStatus s)

end NodeReply

/-- The call for a question. -/
def SourceQuery.call : SourceQuery → NodeCall
  | .attestation nonce => .attestation nonce none
  | .latestNonce | .subscribe => .latestNonce
  | .earliestNonce => .earliestNonce
  | .valsetBefore nonce => .valsetBefore nonce
  | .dataRoot beginBlock endBlock => .dataRoot beginBlock endBlock
  | .health | .latestHeight => .latestHeight
  | .attestationAt nonce height => .attestation nonce (some height)

/-- What is kept between calls: the streams of nonces, by their numbers. Everything else is asked
for each time. -/
structure NodeClient where
  streams : List Subscription
deriving DecidableEq

namespace NodeClient

/-- No streams yet. -/
def empty : NodeClient := ⟨[]⟩

/-- A client of the node at an endpoint, if the endpoint can be used. Nothing is sent by this. -/
def connect (endpoint : String) : Except SourceError NodeClient :=
  if Endpoint.isValid endpoint then .ok empty else .error (.invalidEndpoint endpoint)

/-- **The answer to a question** from the reply to its call. -/
def receive (c : NodeClient) (reply : Except Status NodeReply) :
    (q : SourceQuery) → q.Answer × NodeClient
  | .attestation _ => (NodeReply.readAttestation reply, c)
  | .latestNonce => (NodeReply.readNumber reply, c)
  | .earliestNonce => (NodeReply.readNumber reply, c)
  | .valsetBefore nonce => (NodeReply.readValset nonce reply, c)
  | .dataRoot _ _ => (NodeReply.readRoot reply, c)
  -- A node has no streams: one is made here out of polling for its latest nonce.
  | .subscribe =>
    match NodeReply.readNumber reply with
    | .ok latest => (.ok c.streams.length, ⟨c.streams ++ [.start latest]⟩)
    | .error e => (.error e, c)
  | .health =>
    (match NodeReply.readNumber reply with
      | .ok _ => .ok ()
      | .error e => .error e, c)
  | .latestHeight => (NodeReply.readNumber reply, c)
  | .attestationAt _ _ => (NodeReply.readAttestation reply, c)

end NodeClient

end Countersign
