import Countersign.Address

/-!
# Signatures split for the contract

A signature on the wire is 65 bytes: `r`, `s`, and the recovery byte `v`. The contract takes it
apart (`Vrs`). Only one of the two signatures that hold for a message is accepted: its `s` lies in
the lower half of the group's order, and its `v` is 27 or 28 (0 and 1 are read as these).

`Vrs.zero` stands for a validator who has not signed.
-/

namespace Countersign

/-- **A signature in parts.** Not every one of these is a signature that is accepted. -/
structure Vrs where
  v : UInt8
  r : Word
  s : Word
deriving DecidableEq

/-- The number of bytes of a signature. -/
def signatureLength : Nat := 65

namespace Vrs

/-- The place of a validator who has not signed. It is no signature, as its recovery byte is
none. -/
def zero : Vrs := ⟨0, 0, 0⟩

/-- The bytes of a signature: `r`, `s`, `v`. The contract takes them in another order. -/
def toBytes (x : Vrs) : Bytes :=
  x.r.toBytes ++ (x.s.toBytes ++ [x.v])

/-- The least `s` that is refused: half the order of the group, rounded down, plus one. -/
def malleabilityBound : Nat :=
  0x7fffffffffffffffffffffffffffffff5d576e7357a4501ddfe92f46681b20a1

/-- The recovery byte in its normal form, 27 or 28. -/
def normalRecovery? (v : UInt8) : Option UInt8 :=
  if v = 0 then some 27
  else if v = 1 then some 28
  else if v = 27 ∨ v = 28 then some v
  else none

@[simp] theorem length_toBytes (x : Vrs) : x.toBytes.length = signatureLength := by
  simp [toBytes, signatureLength]

end Vrs

end Countersign
