import Countersign.Abi.Encoding
import Countersign.Signature.Vrs
import Countersign.Valset

/-!
# The bridge contract's calls

The calls that the contract understands (`BridgeCall`), each with its signature text, whose hash
gives the four bytes in front, and its arguments. Three of them are no entry points: their argument
layouts are what the contract hashes.

A member of a valset is a row of two words, the address and the power; a signature is a row of
three, `v`, `r` and `s`.
-/

namespace Countersign

/-- A member as a row of words, the address first. -/
def Member.toRow (m : Member) : List Word :=
  [m.address.toWord, Word.ofUInt64 m.power]

/-- The members of a valset as a table, in order, as their places matter. -/
def Valset.toTable (v : Valset) : Abi.Argument :=
  .table (v.members.map Member.toRow)

/-- A signature as a row of words, the recovery byte first. -/
def Vrs.toRow (x : Vrs) : List Word :=
  [BitVec.ofNat 256 x.v.toNat, x.r, x.s]

/-- Signatures as a table, in order. -/
def signatureTable (signatures : List Vrs) : Abi.Argument :=
  .table (signatures.map Vrs.toRow)

/-- **A call of the contract**, with its arguments as the library has them. -/
inductive BridgeCall where
  | eventNonce
  | powerThreshold
  | lastCheckpoint
  | updateValidatorSet (newNonce oldNonce threshold : UInt64) (hash : Word) (current : Valset)
      (signatures : List Vrs)
  | submitDataRoot (newNonce oldNonce : UInt64) (root : Word) (current : Valset)
      (signatures : List Vrs)
  | validatorSetHash (valset : Valset)
  | valsetPayload (domain : Word) (nonce threshold : UInt64) (hash : Word)
  | commitmentPayload (domain : Word) (nonce : UInt64) (root : Word)
deriving DecidableEq

namespace BridgeCall

/-- The text that identifies a call: its name and the types of its arguments. -/
def signatureText : BridgeCall → String
  | .eventNonce => "state_eventNonce()"
  | .powerThreshold => "state_powerThreshold()"
  | .lastCheckpoint => "state_lastValidatorSetCheckpoint()"
  | .updateValidatorSet .. =>
    "updateValidatorSet(uint256,uint256,uint256,bytes32,(address,uint256)[]," ++
      "(uint8,bytes32,bytes32)[])"
  | .submitDataRoot .. =>
    "submitDataRootTupleRoot(uint256,uint256,bytes32,(address,uint256)[]," ++
      "(uint8,bytes32,bytes32)[])"
  | .validatorSetHash _ => "computeValidatorSetHash((address,uint256)[])"
  | .valsetPayload .. => "domainSeparateValidatorSetHash(bytes32,uint256,uint256,bytes32)"
  | .commitmentPayload .. => "domainSeparateDataRootTupleRoot(bytes32,uint256,bytes32)"

/-- The first four bytes of a call, by which the contract tells calls apart. -/
def selector (call : BridgeCall) : Bytes :=
  (Keccak.hash (Bytes.ofText call.signatureText)).take 4

/-- The arguments of a call, in the contract's order. -/
def arguments : BridgeCall → List Abi.Argument
  | .eventNonce | .powerThreshold | .lastCheckpoint => []
  | .updateValidatorSet newNonce oldNonce threshold hash current signatures =>
    [.word (.ofUInt64 newNonce), .word (.ofUInt64 oldNonce), .word (.ofUInt64 threshold),
     .word hash, current.toTable, signatureTable signatures]
  | .submitDataRoot newNonce oldNonce root current signatures =>
    [.word (.ofUInt64 newNonce), .word (.ofUInt64 oldNonce), .word root, current.toTable,
     signatureTable signatures]
  | .validatorSetHash valset => [valset.toTable]
  | .valsetPayload domain nonce threshold hash =>
    [.word domain, .word (.ofUInt64 nonce), .word (.ofUInt64 threshold), .word hash]
  | .commitmentPayload domain nonce root =>
    [.word domain, .word (.ofUInt64 nonce), .word root]

/-- The argument bytes of a call. Of three calls these are what is hashed. -/
def payload (call : BridgeCall) : Bytes :=
  Abi.encode call.arguments

/-- The bytes of a call: its selector and its arguments. -/
def calldata (call : BridgeCall) : Bytes :=
  call.selector ++ call.payload

end BridgeCall

end Countersign
