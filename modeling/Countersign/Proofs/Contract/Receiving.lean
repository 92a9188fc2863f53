import Countersign.Contract.Chain
import Countersign.Proofs.Abi.Rows
import Countersign.Proofs.Relayer.Submissions

/-!
# What the contract receives

The contract is on the other side of a chain, and all that it gets of a submission is the bytes of a
call. This module takes its part, as its declarations say it:

* the first four bytes choose a function, and the others are read as the arguments of that function,
  each checked for its type (`Contract.receive?`);
* from the arguments the contract recomputes the digest that the validators must have signed, and
  the hash of the valset they are members of (`Received.digest`, `Received.currentHash`).

Nothing of this refers to how a call is written. What is handed in is received as it was meant, and
what is recomputed from it is what was signed (`Contract.received_is_signed`): the signers, the
relayer and the contract each put the same nonce, threshold and hash together on their own.
-/

namespace Countersign

open Routine

namespace Contract

/-! ### The contract's side -/

/-- **A call that the contract received**, with numbers of up to 256 bits. The contract has no
narrower ones, whatever the relayer counts with. -/
inductive Received where
  | update (newNonce oldNonce newThreshold : Nat) (newHash : Word)
      (current : List (Address × Nat)) (signatures : List Vrs)
  | dataRoot (newNonce valsetNonce : Nat) (root : Word) (current : List (Address × Nat))
      (signatures : List Vrs)
deriving DecidableEq

/-- The declaration of the function that takes a new valset. A declaration is part of the contract's
interface: a change to one word of it changes the function that is called. -/
def updateText : String :=
  "updateValidatorSet(uint256,uint256,uint256,bytes32,(address,uint256)[],(uint8,bytes32,bytes32)[])"

/-- The declaration of the function that takes a data root. -/
def dataRootText : String :=
  "submitDataRootTupleRoot(uint256,uint256,bytes32,(address,uint256)[],(uint8,bytes32,bytes32)[])"

/-- The four bytes that choose a function, from the hash of its declaration. -/
def selectorOf (text : String) : Bytes :=
  (Keccak.hash (Bytes.ofText text)).take 4

/-- The current members and their signatures, from the rows of two tables. A row with a number that
is too great for its type makes the whole call fail. -/
def readTables? (current signatures : List (List Word)) :
    Option (List (Address × Nat) × List Vrs) := do
  let members ← current.mapM readMember?
  let signatures ← signatures.mapM readSignature?
  some (members, signatures)

/-- The arguments of the function that takes a new valset, four words and two tables. -/
def readUpdate? (payload : Bytes) : Option Received :=
  match Abi.decode? [.word, .word, .word, .word, .table 2, .table 3] payload with
  | some [.word newNonce, .word oldNonce, .word newThreshold, .word newHash, .table current,
      .table signatures] =>
    (readTables? current signatures).map fun (members, signatures) =>
      .update newNonce.toNat oldNonce.toNat newThreshold.toNat newHash members signatures
  | _ => none

/-- The arguments of the function that takes a data root, three words and two tables. -/
def readDataRoot? (payload : Bytes) : Option Received :=
  match Abi.decode? [.word, .word, .word, .table 2, .table 3] payload with
  | some [.word newNonce, .word valsetNonce, .word root, .table current, .table signatures] =>
    (readTables? current signatures).map fun (members, signatures) =>
      .dataRoot newNonce.toNat valsetNonce.toNat root members signatures
  | _ => none

/-- Receiving a call: a function is chosen by the first four bytes, and a call to any other is not
for the contract. -/
def receive? (calldata : Bytes) : Option Received :=
  if calldata.take 4 = selectorOf updateText then readUpdate? (calldata.drop 4)
  else if calldata.take 4 = selectorOf dataRootText then readDataRoot? (calldata.drop 4)
  else none

namespace Received

/-- The digest that must have been signed, as the contract recomputes it. It is made of the
arguments alone: nothing that a relayer could say about the digest itself is taken. -/
def digest : Received → Word
  | .update newNonce _ newThreshold newHash _ _ =>
    hashWord (Abi.encode [.word valsetDomain, .word (BitVec.ofNat 256 newNonce),
      .word (BitVec.ofNat 256 newThreshold), .word newHash])
  | .dataRoot newNonce _ root _ _ =>
    hashWord (Abi.encode [.word commitmentDomain, .word (BitVec.ofNat 256 newNonce), .word root])

/-- The members that must have signed, as the call names them. The contract knows only their
hash. -/
def current : Received → List (Address × Nat)
  | .update _ _ _ _ current _ => current
  | .dataRoot _ _ _ current _ => current

/-- The hash of these members, as the contract recomputes it to compare it with the one that it
keeps. -/
def currentHash (received : Received) : Word :=
  hashWord (Abi.encode
    [.table (received.current.map fun m => [m.1.toWord, BitVec.ofNat 256 m.2])])

end Received

/-! ### Submissions that are received -/

/-- What a submission says, in the contract's terms. This is what receiving its bytes is to give. -/
def meaning : Submission → Received
  | .valset new threshold current signatures =>
    .update new.nonce.toNat current.nonce.toNat threshold.toNat new.membersHash
      (current.members.map memberPair) signatures
  | .dataRoot nonce root current signatures =>
    .dataRoot nonce.toNat current.nonce.toNat root (current.members.map memberPair) signatures

/-- A function is chosen by four bytes, so they can be cut off in front. -/
theorem length_selector (call : BridgeCall) : call.selector.length = 4 := by
  rw [BridgeCall.selector, List.length_take, Keccak.length_hash]
  rfl

theorem take_calldata (call : BridgeCall) : call.calldata.take 4 = call.selector :=
  List.take_left' (length_selector call)

theorem drop_calldata (call : BridgeCall) : call.calldata.drop 4 = call.payload :=
  List.drop_left' (length_selector call)

theorem length_calldata (call : BridgeCall) :
    call.calldata.length = 4 + 32 * (Abi.words call.arguments).length := by
  rw [BridgeCall.calldata, List.length_append, length_selector, BridgeCall.payload, Abi.encode,
    Abi.length_wordBytes]

/-- The two functions are told apart by their first bytes. -/
theorem selectorOf_dataRootText_ne : selectorOf dataRootText ≠ selectorOf updateText := by
  have hroot : selectorOf dataRootText = [0xe2, 0x3e, 0xb3, 0x26] := by decide +kernel
  have hupdate : selectorOf updateText = [0x05, 0xd8, 0x5c, 0x13] := by decide +kernel
  rw [hroot, hupdate]
  decide

/-- Rows that were written of members and signatures are read as these. -/
theorem readTables?_rows (current : Valset) (signatures : List Vrs) :
    readTables? (current.members.map Member.toRow) (signatures.map Vrs.toRow) =
      some (current.members.map memberPair, signatures) := by
  unfold readTables?
  rw [mapM_map_of_read memberPair readMember?_toRow, mapM_map_of_read id readSignature?_toRow,
    List.map_id]
  rfl

/-- The last two arguments of both functions have the types that the contract declares. -/
theorem fits_tables (current : Valset) (signatures : List Vrs) :
    List.Forall₂ Abi.Fits
      [.table (current.members.map Member.toRow), .table (signatures.map Vrs.toRow)]
      [.table 2, .table 3] :=
  .cons (.table (by decide) current.rectangular)
    (.cons (.table (by decide) (Vrs.rectangular signatures)) .nil)

/-- **A call that takes a new valset** is read as it was written. The bound is that of the offsets
in the payload, which are words. -/
theorem readUpdate?_payload {newNonce oldNonce threshold : UInt64} {hash : Word} {current : Valset}
    {signatures : List Vrs}
    (hbound : (BridgeCall.updateValidatorSet newNonce oldNonce threshold hash current
      signatures).payload.length < 2 ^ 256) :
    readUpdate? (BridgeCall.updateValidatorSet newNonce oldNonce threshold hash current
        signatures).payload =
      some (.update newNonce.toNat oldNonce.toNat threshold.toNat hash
        (current.members.map memberPair) signatures) := by
  have hfits : List.Forall₂ Abi.Fits
      (BridgeCall.updateValidatorSet newNonce oldNonce threshold hash current signatures).arguments
      [.word, .word, .word, .word, .table 2, .table 3] :=
    .cons (.word _) (.cons (.word _) (.cons (.word _) (.cons (.word _)
      (fits_tables current signatures))))
  rw [readUpdate?, BridgeCall.payload, Abi.decode?_encode hfits hbound]
  show (readTables? (current.members.map Member.toRow) (signatures.map Vrs.toRow)).map _ = _
  rw [readTables?_rows]
  simp only [Option.map_some, Word.toNat_ofUInt64]

/-- **A call that takes a data root** is read as it was written. -/
theorem readDataRoot?_payload {newNonce oldNonce : UInt64} {root : Word} {current : Valset}
    {signatures : List Vrs}
    (hbound : (BridgeCall.submitDataRoot newNonce oldNonce root current
      signatures).payload.length < 2 ^ 256) :
    readDataRoot? (BridgeCall.submitDataRoot newNonce oldNonce root current signatures).payload =
      some (.dataRoot newNonce.toNat oldNonce.toNat root (current.members.map memberPair)
        signatures) := by
  have hfits : List.Forall₂ Abi.Fits
      (BridgeCall.submitDataRoot newNonce oldNonce root current signatures).arguments
      [.word, .word, .word, .table 2, .table 3] :=
    .cons (.word _) (.cons (.word _) (.cons (.word _) (fits_tables current signatures)))
  rw [readDataRoot?, BridgeCall.payload, Abi.decode?_encode hfits hbound]
  show (readTables? (current.members.map Member.toRow) (signatures.map Vrs.toRow)).map _ = _
  rw [readTables?_rows]
  simp only [Option.map_some, Word.toNat_ofUInt64]

/-- **A submission is received** as it was meant, by the function for its kind. -/
theorem receive?_calldata {s : Submission} (hbound : s.bridgeCall.calldata.length < 2 ^ 256) :
    receive? s.bridgeCall.calldata = some (meaning s) := by
  have hpayload : s.bridgeCall.payload.length < 2 ^ 256 := by
    rw [← drop_calldata, List.length_drop]
    omega
  rw [receive?, take_calldata, drop_calldata]
  -- The names of the calls are the declarations of the functions.
  cases s with
  | valset new threshold current signatures =>
    have hselector : (Submission.valset new threshold current signatures).bridgeCall.selector =
        selectorOf updateText := rfl
    rw [hselector, if_pos rfl]
    exact readUpdate?_payload hpayload
  | dataRoot nonce root current signatures =>
    have hselector : (Submission.dataRoot nonce root current signatures).bridgeCall.selector =
        selectorOf dataRootText := rfl
    rw [hselector, if_neg selectorOf_dataRootText_ne, if_pos rfl]
    exact readDataRoot?_payload hpayload

/-- **The members' hash is recomputed** from the members in the call. The contract writes their rows
as the relayer did for the hash. -/
theorem currentHash_meaning (s : Submission) :
    (meaning s).currentHash = s.current.membersHash := by
  have hrows : ∀ members : List Member,
      (members.map memberPair).map (fun m => [m.1.toWord, BitVec.ofNat 256 m.2]) =
        members.map Member.toRow := by
    intro members
    rw [List.map_map]
    rfl
  cases s with
  | valset new threshold current signatures =>
    show hashWord (Abi.encode [.table ((current.members.map memberPair).map _)]) = _
    rw [hrows]
    rfl
  | dataRoot nonce root current signatures =>
    show hashWord (Abi.encode [.table ((current.members.map memberPair).map _)]) = _
    rw [hrows]
    rfl

/-- The digest is recomputed from what a relayer submits for an attestation. The threshold and the
hash of a new valset are among the arguments for this reason. -/
theorem digest_meaning {nonce : UInt64} {current : Valset} {attestation : Attestation}
    {s : Submission} (h : Relayer.SubmittedFor nonce current attestation s) :
    (meaning s).digest = s.digest := by
  cases h with
  | valset new signatures => rfl
  | dataRoot c root signatures => rfl

/-- **What the contract recomputes is what was signed.** The bytes of a submission, as long as they
can be counted by a word, are received as the nonces, the threshold and the hash or the root, the
current members in order and the signatures in order that it was made of. From these the contract
recomputes the hash of the current members; and if the submission is one that a relayer makes, the
digest of the valset or of the data root that it submits. -/
theorem received_is_signed (s : Submission) :
    ((Chain.Question.ofSubmission s).input.length < 2 ^ 256 →
      receive? (Chain.Question.ofSubmission s).input = some (meaning s)) ∧
    (meaning s).currentHash = s.current.membersHash ∧
    ∀ setup t, Asks (Relayer.relayNext setup) t (.submit s) → (meaning s).digest = s.digest := by
  refine ⟨receive?_calldata, currentHash_meaning s, fun setup t hasks => ?_⟩
  obtain ⟨last, latest, attestation, current, mid, -, -, hcommit⟩ :=
    Relayer.relayNext_asks hasks rfl
  exact digest_meaning (Relayer.commit_asks_submit hcommit)

/-- **The data root that a relayer submits** with a quorum of one is received, and its digest is
recomputed. The signature is made with a key. -/
theorem received_is_signed_sole : ∃ s : Submission,
    (Chain.Question.ofSubmission s).input.length < 2 ^ 256 ∧
    (∃ t, Asks (Relayer.relayNext ⟨.standard, .standard⟩) t (.submit s)) ∧
    receive? (Chain.Question.ofSubmission s).input = some (meaning s) ∧
    (meaning s).digest = s.digest := by
  -- A data root with a quorum of one, as the relayer comes to submit it.
  obtain ⟨target, root, confirm, hcommitment, hnonce, hdigest, hkind, hcheck, hverify⟩ :=
    Store.exists_confirm
  obtain ⟨x, hparse, -⟩ := verifyText_eq_ok_iff.mp hverify
  let setup : RelayerSetup := ⟨.standard, .standard⟩
  let s := Relayer.soleSubmission target.nonce root confirm.signer x
  have hbegins : Begins (Relayer.relayNext setup)
      (Relayer.soleCourse setup target root confirm x) :=
    Relayer.begins_soleCourse hcommitment hnonce hdigest hkind hcheck hverify hparse
  obtain ⟨before, hasks⟩ := hbegins.exists_asks (e := ⟨.submit s, .ok 0⟩)
    (by simp [s, Relayer.soleCourse])
  have hbound : (Chain.Question.ofSubmission s).input.length < 2 ^ 256 := by
    have hwords : (Abi.words s.bridgeCall.arguments).length = 12 := rfl
    show s.bridgeCall.calldata.length < 2 ^ 256
    rw [length_calldata, hwords]
    decide
  obtain ⟨hreceived, -, hdigest⟩ := received_is_signed s
  exact ⟨s, hbound, ⟨before, hasks⟩, hreceived hbound, hdigest setup before hasks⟩

end Contract

end Countersign
