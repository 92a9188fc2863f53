import Countersign.Address

/-!
# Arguments of contract calls

The arguments that the bridge contract takes are words and *tables*: lists of rows of a fixed number
of words. A call's arguments are written as one word each, the *heads*, followed by the *tails* of
the tables in order. The head of a word is the word; the head of a table is the distance in bytes
from the first head to the table's tail, which is the number of its rows and then their words.

`Abi.encode` writes arguments and `Abi.decode?` reads them again, given their shape.
-/

namespace Countersign.Abi

/-- **An argument of a call.** Everything else that a contract could take is left out. -/
inductive Argument where
  | word (value : Word)
  | table (rows : List (List Word))
deriving DecidableEq

/-- **The shape of an argument**: a word, or a table whose rows have `width` words. A reader must be
told it, as the bytes do not say it. -/
inductive Shape where
  | word
  | table (width : Nat)
deriving DecidableEq

/-- The words of a list, one after the other. -/
def wordBytes (words : List Word) : Bytes :=
  words.flatMap Word.toBytes

/-- The words behind the heads that an argument needs: none for a word, and for a table the number
of its rows and then these. -/
def Argument.tail : Argument → List Word
  | .word _ => []
  | .table rows => BitVec.ofNat 256 rows.length :: rows.flatten

/-- The head words of arguments, when the next tail starts `offset` bytes from the first head. -/
def heads (offset : Nat) : List Argument → List Word
  | [] => []
  | .word w :: rest => w :: heads offset rest
  | .table rows :: rest =>
    BitVec.ofNat 256 offset :: heads (offset + 32 * (Argument.table rows).tail.length) rest

/-- The words of a call's arguments: heads, then tails. -/
def words (arguments : List Argument) : List Word :=
  heads (32 * arguments.length) arguments ++ arguments.flatMap Argument.tail

/-- The bytes of a call's arguments. Their number is a multiple of 32. -/
def encode (arguments : List Argument) : Bytes :=
  wordBytes (words arguments)

/-! ### Reading -/

/-- The word at a distance in bytes, if it is there as a whole. -/
def wordAt? (bytes : Bytes) (offset : Nat) : Option Word :=
  Word.ofBytes? ((bytes.drop offset).take 32)

/-- `count` words from a distance in bytes on. -/
def wordsAt? (bytes : Bytes) : (count offset : Nat) → Option (List Word)
  | 0, _ => some []
  | count + 1, offset => do
    let w ← wordAt? bytes offset
    let rest ← wordsAt? bytes count (offset + 32)
    some (w :: rest)

/-- `count` rows of `width` words from a distance in bytes on. -/
def rowsAt? (bytes : Bytes) (width : Nat) : (count offset : Nat) → Option (List (List Word))
  | 0, _ => some []
  | count + 1, offset => do
    let row ← wordsAt? bytes width offset
    let rest ← rowsAt? bytes width count (offset + 32 * width)
    some (row :: rest)

/-- An argument of a shape, whose head is at a distance in bytes. -/
def Shape.read? (bytes : Bytes) (head : Nat) : Shape → Option Argument
  | .word => (wordAt? bytes head).map .word
  | .table width => do
    let offset ← wordAt? bytes head
    let count ← wordAt? bytes offset.toNat
    -- A count beyond the bytes cannot be true, and is not counted out.
    let rows ← if count.toNat ≤ bytes.length then
        rowsAt? bytes width count.toNat (offset.toNat + 32)
      else none
    some (.table rows)

/-- The arguments of given shapes, the first head at a distance in bytes. -/
def decodeFrom? (bytes : Bytes) : (head : Nat) → List Shape → Option (List Argument)
  | _, [] => some []
  | head, shape :: shapes => do
    let argument ← shape.read? bytes head
    let rest ← decodeFrom? bytes (head + 32) shapes
    some (argument :: rest)

/-- The arguments that a byte string holds, given their shapes. Bytes that no head leads to are
passed over. -/
def decode? (shapes : List Shape) (bytes : Bytes) : Option (List Argument) :=
  decodeFrom? bytes 0 shapes

@[simp] theorem length_wordBytes (ws : List Word) : (wordBytes ws).length = 32 * ws.length := by
  induction ws with
  | nil => rfl
  | cons w ws ih =>
    have : wordBytes (w :: ws) = w.toBytes ++ wordBytes ws := rfl
    simp [this, ih]; omega

end Countersign.Abi
