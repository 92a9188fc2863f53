import Countersign.Store.Access

/-!
# Waiting for a quorum

A quorum is a set of confirms, one for each of some members of a valset, that verify against a
digest and whose signers hold two thirds of the power. `Store.queryQuorum` asks the replicas again
and again until there is one, the time is over, or the task is cancelled.

* `collect` is the pure part: from the candidates for each member it keeps the first one that is
  accepted and verifies, in the order of the members. Nothing a replica holds makes it fail.
* A quorum that was reached is remembered by its target and given again without asking the replicas.
* Polls come at equal distances, the last one at the deadline.
-/

namespace Countersign.Store

/-- A member's confirm among candidates: the first one that is accepted under the member's key and
verifies against the digest. -/
def confirmAmong (target : QuorumTarget) (member : Member) (values : List Bytes) :
    Option Confirm :=
  let key := confirmKey target.kind target.nonce member.address
  values.findSome? fun value =>
    match decodeConfirm target.kind key value with
    | .error _ => none
    | .ok (_, confirm) =>
      match verifyText target.digest confirm.signature member.address with
      | .ok () => some confirm
      | .error _ => none

/-- The confirms of members, each with the member's power, in the order of the members, from the
candidates for each. -/
def collect (target : QuorumTarget) (members : List Member) (candidates : List (List Bytes)) :
    List (UInt64 × Confirm) :=
  (members.zip candidates).filterMap fun (member, values) =>
    (confirmAmong target member values).map fun confirm => (member.power, confirm)

/-- The power behind collected confirms, at most `2 ^ 64 - 1`. It is added up as the threshold's
total is. -/
def collectedPower (collected : List (UInt64 × Confirm)) : UInt64 :=
  collected.foldl (fun sum c => saturatingAdd sum c.1) 0

/-- **The candidates of a poll with what they come to**, so that candidates which have not changed
since need not be verified again. -/
structure Collection (target : QuorumTarget) (members : List Member) where
  candidates : List (List Bytes)
  confirms : List (UInt64 × Confirm)
  confirms_eq : confirms = collect target members candidates

namespace Collection

variable {target : QuorumTarget} {members : List Member}

/-- What candidates come to, verified one by one. -/
def ofCandidates (candidates : List (List Bytes)) : Collection target members :=
  ⟨candidates, collect target members candidates, rfl⟩

/-- The next candidates. If they are those of the poll before, nothing is verified again. -/
def renew (c : Collection target members) (candidates : List (List Bytes)) :
    Collection target members :=
  if candidates = c.candidates then c else ofCandidates candidates

/-- Nothing is lost by not verifying again: the confirms are those of the candidates, in either
case. -/
@[simp] theorem confirms_renew (c : Collection target members) (candidates : List (List Bytes)) :
    (c.renew candidates).confirms = collect target members candidates := by
  unfold renew
  split
  · next same => rw [same, c.confirms_eq]
  · rfl

end Collection

/-- The candidates that replicas hold now for each member, all asked for at once. What could not be
fetched counts as no candidates, so a member whose replicas are silent is one who has not signed. -/
def fetchCandidates (config : StoreConfig) (target : QuorumTarget) (valset : Valset) :
    Routine (List (List Bytes)) := do
  let keys := valset.members.map fun m => confirmKey target.kind target.nonce m.address
  let answers ← (Request.getAll keys config.requestTimeout).perform
  return answers.map fun
    | .ok values => values
    | .error _ => []

/-- **Polling until a quorum is there**, for `polls` polls at most. The bound makes this a routine,
which must end; `pollBound` is chosen so that it is not what ends the polling. -/
def poll (config : StoreConfig) (target : QuorumTarget) (valset : Valset) (deadline started : Nat) :
    (polls : Nat) → Collection target valset.members → Routine (Except StoreError (List Confirm))
  | 0, _ => return .error .cancelled
  | polls + 1, known => do
    if ← Request.isCancelled.perform then return .error .cancelled
    -- A poll that has begun is finished, whatever happens to the task meanwhile.
    let known := known.renew (← fetchCandidates config target valset)
    let power := collectedPower known.confirms
    if valset.threshold ≤ power then
      let confirms := known.confirms.map Prod.snd
      (Request.remember target (confirms.map fun c => Bytes.ofText c.encode)).perform
      return .ok confirms
    -- The last poll comes at the deadline, so there is one after all the others.
    let elapsed := (← Request.now.perform) - started
    if deadline ≤ elapsed then
      return .error (.quorumTimeout target.nonce power valset.threshold)
    match ← (Request.pause (min config.pollInterval (deadline - elapsed))).perform with
    | .cancelled => return .error .cancelled
    | .elapsed => poll config target valset deadline started polls known

/-- A number of polls that is never used up while time goes on: one for each interval that begins
before the deadline, one at the deadline, one to spare. -/
def pollBound (config : StoreConfig) (deadline : Nat) : Nat :=
  deadline / max 1 config.pollInterval + 3

/-- The confirms of a remembered quorum. They were verified before they were remembered, and are not
verified again. -/
def decodeQuorum (kind : AttestationKind) (records : List Bytes) :
    Except StoreError (List Confirm) :=
  match records.mapM (Confirm.decode? kind) with
  | some confirms => .ok confirms
  | none => .error (.invalid .undecodable)

/-- A quorum for a target among the members of a valset, within `deadline` milliseconds. A valset
without power has none, and is refused before anything is asked. -/
def queryQuorum (config : StoreConfig) (target : QuorumTarget) (valset : Valset)
    (deadline : Nat) : Routine (Except StoreError (List Confirm)) :=
  if valset.threshold = 0 then return .error (.emptyValset valset.nonce)
  else do
    match ← (Request.recall target).perform with
    | some records => return decodeQuorum target.kind records
    | none =>
      let started ← Request.now.perform
      poll config target valset deadline started (pollBound config deadline) (.ofCandidates [])

end Countersign.Store
