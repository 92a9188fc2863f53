import Countersign.Signature.Identity

/-!
# Checking signatures

From text to signer, in three steps that fail in this order:

1. `decodeSignature`: hexadecimal digits behind one optional `0x`;
2. `Vrs.ofBytes`: 65 bytes, a known recovery byte, a canonical `s`;
3. `recover`: a public key for which the signature holds.

`verify` then compares the signer with the expected one.
-/

namespace Countersign

/-- The parts of a canonical signature. The tests come in the order of the list above, and the first
that fails is told. -/
def Vrs.ofBytes (bytes : Bytes) : Except SignatureError Vrs :=
  if bytes.length ≠ signatureLength then
    .error (.malformed ("expected 65 bytes, got " ++ toString bytes.length))
  else
    let v := bytes.getD 64 0
    match Vrs.normalRecovery? v with
    | none => .error (.invalidRecoveryByte v)
    | some v =>
      let s := Bytes.toNatBE ((bytes.drop 32).take 32)
      if s = 0 ∨ Vrs.malleabilityBound ≤ s then .error .malleable
      else .ok ⟨v, .ofBytes (bytes.take 32), .ofBytes ((bytes.drop 32).take 32)⟩

/-- A fault of a signature's text in words. -/
def signatureFault : Hex.Fault → String
  | .oddLength => "Odd number of digits"
  | .wrongLength => "Invalid string length"
  | .invalidByte byte position =>
    "Invalid character " ++ Text.quoteChar (Char.ofNat byte.toNat) ++ " at position " ++
      toString position

/-- The bytes of a signature's text, as many as there are. -/
def decodeSignature (text : String) : Except SignatureError Bytes :=
  match Hex.decode (Hex.stripPrefix (Bytes.ofText text)) with
  | .ok bytes => .ok bytes
  | .error fault => .error (.malformed (signatureFault fault))

/-- The parts of a signature's text. -/
def Vrs.parse (text : String) : Except SignatureError Vrs :=
  match decodeSignature text with
  | .ok bytes => Vrs.ofBytes bytes
  | .error e => .error e

/-- The signature's text: hexadecimal without a prefix. -/
def Vrs.render (x : Vrs) : String :=
  Hex.encode x.toBytes

/-- The signer for which a hash and the parts of a signature hold. For most parts there is one,
whoever made them. -/
def Vrs.signer? (x : Vrs) (hash : Bytes) : Option Address :=
  (Ecdsa.recover? hash ⟨x.r.toNat, x.s.toNat, x.v == 28⟩).bind Address.ofPoint?

/-- Who signed a digest, from the bytes of a signature. -/
def recover (digest : Word) (signature : Bytes) : Except SignatureError Address :=
  match Vrs.ofBytes signature with
  | .error e => .error e
  | .ok x =>
    match x.signer? (personalHash digest) with
    | some address => .ok address
    | none => .error (.malformed "signature error")

/-- Whether the expected address signed a digest. The signer is found first and compared then, so
the error can name both. -/
def verify (digest : Word) (signature : Bytes) (expected : Address) : Except SignatureError Unit :=
  match recover digest signature with
  | .error e => .error e
  | .ok recovered =>
    if recovered = expected then .ok () else .error (.mismatch expected recovered)

/-- Whether the expected address signed a digest, from the signature's text. -/
def verifyText (digest : Word) (text : String) (expected : Address) :
    Except SignatureError Unit :=
  match decodeSignature text with
  | .error e => .error e
  | .ok signature => verify digest signature expected

end Countersign
