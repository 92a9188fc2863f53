import Countersign.Routine.Request

/-!
# A source chain made up

A source for rehearsals: live attestations, an archive of those that were pruned, data roots, a
height, a state of health, and streams of new nonces. Failures can be armed for each kind of
question; an armed failure is used up instead of the answer, and nothing else happens.
-/

namespace Countersign.Simulation

/-- **The kinds of questions** for which failures can be armed. -/
inductive SourceMethod where
  | attestation
  | latestNonce
  | earliestNonce
  | valsetBefore
  | dataRoot
  | subscribe
  | health
  | height
  | archival
deriving DecidableEq

/-- The kind of a question. -/
def methodOf : SourceQuery → SourceMethod
  | .attestation _ => .attestation
  | .latestNonce => .latestNonce
  | .earliestNonce => .earliestNonce
  | .valsetBefore _ => .valsetBefore
  | .dataRoot _ _ => .dataRoot
  | .subscribe => .subscribe
  | .health => .health
  | .latestHeight => .height
  | .attestationAt _ _ => .archival

/-- A stream of nonces: what was not taken yet, and whether more can come. -/
structure Stream where
  buffer : List UInt64
  isOpen : Bool

/-- **A pruned attestation** and the heights at which it can still be seen, both ends included. -/
structure Archived where
  first : UInt64
  last : UInt64
  attestation : Attestation

/-- **The state of the source.** Besides what it can be asked for, it counts the look-ups and the
subscriptions, so that a rehearsal can say how often it was asked. -/
structure Source where
  live : List (UInt64 × Attestation)
  archive : List (UInt64 × Archived)
  roots : List ((UInt64 × UInt64) × Word)
  height : UInt64
  healthy : Bool
  streams : List Stream
  lookups : Nat
  subscriptions : Nat
  faults : List (SourceMethod × Nat × SourceError)

/-- A list with the value of a key replaced or added. The place of a key that was there already is
kept. -/
def assign {κ α : Type} [BEq κ] (key : κ) (value : α) (l : List (κ × α)) : List (κ × α) :=
  if l.any (·.1 == key) then l.map fun x => if x.1 == key then (key, value) else x
  else l ++ [(key, value)]

namespace Source

/-- A source that holds nothing. -/
def empty : Source := ⟨[], [], [], 0, true, [], 0, 0, []⟩

/-! ### Changes -/

/-- A new attestation, told to every open stream. Whether it is new is not looked at: one of the
same nonce takes the other's place. -/
def push (s : Source) (attestation : Attestation) : Source :=
  { s with
    live := assign attestation.nonce attestation s.live
    streams := s.streams.map fun t =>
      if t.isOpen then { t with buffer := t.buffer ++ [attestation.nonce] } else t }

/-- The data root of a range of blocks. -/
def setRoot (s : Source) (beginBlock endBlock : UInt64) (root : Word) : Source :=
  { s with roots := assign (beginBlock, endBlock) root s.roots }

/-- Moving a live attestation to the archive, to be seen at given heights. One that is not live
cannot be moved, and the source stays as it is. -/
def prune (s : Source) (nonce first last : UInt64) : Source :=
  match s.live.lookup nonce with
  | none => s
  | some attestation =>
    { s with
      live := s.live.filter (·.1 != nonce)
      archive := assign nonce ⟨first, last, attestation⟩ s.archive }

/-- Ending every stream; what was told before can still be taken. -/
def dropStreams (s : Source) : Source :=
  { s with streams := s.streams.map fun t => { t with isOpen := false } }

/-- Arming failures for the next `times` questions of a kind. -/
def arm (s : Source) (method : SourceMethod) (times : Nat) (error : SourceError) : Source :=
  { s with faults := assign method (times, error) s.faults }

/-! ### Answers -/

/-- The greatest nonce of all attestations, zero if there are none. -/
def latest (s : Source) : UInt64 :=
  (s.live.map Prod.fst ++ s.archive.map fun a => a.2.attestation.nonce).foldl max 0

/-- The smallest live nonce, zero if there is none. -/
def earliest (s : Source) : UInt64 :=
  match s.live.map Prod.fst with
  | [] => 0
  | n :: rest => rest.foldl min n

/-- The live valset of greatest nonce before a nonce. What is in the archive does not count, because
a source without its history cannot answer for it. -/
def valsetBefore? (s : Source) (nonce : UInt64) : Option Valset :=
  s.live.foldl (fun best x =>
    match x.2 with
    | .dataCommitment _ => best
    | .valset v =>
      if v.nonce < nonce then
        match best with
        | some b => if b.nonce < v.nonce then some v else best
        | none => some v
      else best) none

/-- An attestation as seen at a height. A live one is seen at every height, an archived one only
from its first to its last. -/
def attestationAt? (s : Source) (nonce height : UInt64) : Option Attestation :=
  match s.live.lookup nonce with
  | some a => some a
  | none =>
    match s.archive.lookup nonce with
    | some a => if a.first ≤ height ∧ height ≤ a.last then some a.attestation else none
    | none => none

/-- The failure that is armed for a kind of question, used up. What comes of it is another state of
the source, so a failure is met as often as it was armed and no more. -/
def takeFault (s : Source) (method : SourceMethod) : Option (SourceError × Source) :=
  match s.faults.lookup method with
  | some (times + 1, error) =>
    some (error, { s with faults := assign method (times, error) s.faults })
  | _ => none

/-- A failure as the answer to a question. The cases are written out since the type of the answer
depends on the question. -/
def refuse : (q : SourceQuery) → SourceError → q.Answer
  | .attestation _, e => .error e
  | .latestNonce, e => .error e
  | .earliestNonce, e => .error e
  | .valsetBefore _, e => .error e
  | .dataRoot _ _, e => .error e
  | .subscribe, e => .error e
  | .health, e => .error e
  | .latestHeight, e => .error e
  | .attestationAt _ _, e => .error e

/-- **The answer to a question** for which no failure is armed. -/
def reply (s : Source) : (q : SourceQuery) → q.Answer × Source
  | .attestation nonce => (.ok (s.live.lookup nonce), { s with lookups := s.lookups + 1 })
  | .latestNonce => (.ok s.latest, s)
  | .earliestNonce => (.ok s.earliest, s)
  | .valsetBefore nonce =>
    match s.valsetBefore? nonce with
    | some v => (.ok v, s)
    | none => (.error (.valsetNotFound nonce), s)
  | .dataRoot beginBlock endBlock =>
    match s.roots.lookup (beginBlock, endBlock) with
    | some root => (.ok root, s)
    | none =>
      (.error (.transport ("no data root for [" ++ toString beginBlock.toNat ++ ", " ++
        toString endBlock.toNat ++ ")")), s)
  | .subscribe =>
    (.ok s.streams.length,
      { s with streams := s.streams ++ [⟨[], true⟩], subscriptions := s.subscriptions + 1 })
  | .health => (if s.healthy then .ok () else .error (.transport "source unreachable"), s)
  | .latestHeight => (.ok s.height, s)
  | .attestationAt nonce height => (.ok (s.attestationAt? nonce height), s)

/-- The answer to a question. -/
def respond (s : Source) (q : SourceQuery) : q.Answer × Source :=
  match s.takeFault (methodOf q) with
  | some (error, s) => (refuse q error, s)
  | none => s.reply q

/-- The next item of a stream: a nonce, or nothing for ever; no answer if it must be waited for. A
stream that was ended is still read to its end. -/
def takeNonce (s : Source) (stream : StreamId) : Option (Option UInt64 × Source) :=
  match s.streams[stream]? with
  | none => some (none, s)
  | some t =>
    match t.buffer with
    | nonce :: rest =>
      some (some nonce, { s with streams := s.streams.set stream { t with buffer := rest } })
    | [] => if t.isOpen then none else some (none, s)

end Source

end Countersign.Simulation
