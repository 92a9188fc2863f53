import Countersign.Crypto.Aes
import Countersign.Crypto.Ecdsa
import Countersign.Crypto.Stretching
import Countersign.Json.Fields
import Countersign.Json.Printer
import Countersign.Signature.Error
import Countersign.Signature.Identity
import Countersign.Text.Hex

/-!
# Secret keys behind a password

A key file holds a secret key encrypted under a password. The password is stretched to 32 bytes or
more: the first half of these encrypts the key, and the second half, hashed together with the
result, tells a right password from a wrong one.

`Keystore.encrypt` encrypts a key, `Keystore.decrypt?` gets it back, and `Keystore.encode` and
`Keystore.decode?` are the layout of the file. `Keystore.unlock` goes from the text of a file to an
identity in one step.
-/

namespace Countersign

/-- **How a password is stretched**, and to how many bytes. -/
inductive Stretch where
  | repeated (iterations length : Nat) (salt : Bytes)
  | memoryHard (length n p r : Nat) (salt : Bytes)
deriving DecidableEq

namespace Stretch

/-- The stretched password. The size of the memory is rounded down to a power of two. -/
def derive? (stretch : Stretch) (password : String) : Option Bytes :=
  match stretch with
  | .repeated iterations length salt =>
    some (Stretching.pbkdf2 (Bytes.ofText password) salt iterations length)
  | .memoryHard length n p r salt =>
    if r = 0 ∨ p = 0 ∨ length = 0 ∨ 16 * r ≤ n.log2 ∨ 1 <<< 30 ≤ r * p then none
    else some (Stretching.scrypt (Bytes.ofText password) salt (1 <<< n.log2) r p length)

end Stretch

/-- **An encrypted secret key.** -/
structure Keystore where
  iv : Bytes
  ciphertext : Bytes
  stretch : Stretch
  mac : Bytes
deriving DecidableEq

namespace Keystore

/-- What tells a right password from a wrong one. It is made of the half of the stretched password
that does not encrypt, and of what was encrypted. -/
def macOf (stretched ciphertext : Bytes) : Bytes :=
  Keccak.hash ((stretched.drop 16).take 16 ++ ciphertext)

/-- The secret key that decrypted bytes spell. Leading zeros may be missing, but no more than eight
bytes of them. -/
def secretOf? (bytes : Bytes) : Option Ecdsa.SecretKey :=
  if 24 ≤ bytes.length then
    Ecdsa.SecretKey.ofBytes? (List.replicate (32 - bytes.length) 0 ++ bytes)
  else none

/-- The secret key in a key file, if the password is right. This is decided before anything is
decrypted. -/
def decrypt? (k : Keystore) (password : String) : Option Ecdsa.SecretKey := do
  let stretched ← k.stretch.derive? password
  if stretched.length < 32 ∨ k.iv.length < 16 then none
  else if macOf stretched k.ciphertext ≠ k.mac then none
  else secretOf? (Aes.counterMode (stretched.take 16) (k.iv.take 16) k.ciphertext)

/-- The stretching of new key files. -/
def newStretch (salt : Bytes) : Stretch := .memoryHard 32 8192 1 8 salt

/-- A secret key encrypted under a password. The salt and the start of the cipher are chosen at
random for each file. -/
def encrypt (key : Ecdsa.SecretKey) (password : String) (salt iv : Bytes) : Keystore :=
  let stretch := newStretch salt
  let stretched := (stretch.derive? password).getD []
  let ciphertext := Aes.counterMode (stretched.take 16) iv key.toBytes
  ⟨iv, ciphertext, stretch, macOf stretched ciphertext⟩

/-! ### The layout of the file -/

/-- Bytes as text. -/
def hexJson (bytes : Bytes) : Json := .ofString (Hex.encode bytes)

/-- The name of a way to stretch. -/
def stretchName : Stretch → String
  | .repeated .. => "pbkdf2"
  | .memoryHard .. => "scrypt"

/-- The parameters of a way to stretch. -/
def stretchJson : Stretch → Json
  | .repeated iterations length salt =>
    .ofMembers [("c", .ofNat iterations), ("dklen", .ofNat length),
      ("prf", .ofString "hmac-sha256"), ("salt", hexJson salt)]
  | .memoryHard length n p r salt =>
    .ofMembers [("dklen", .ofNat length), ("n", .ofNat n), ("p", .ofNat p), ("r", .ofNat r),
      ("salt", hexJson salt)]

/-- The text of a key file with an identifier. The fields of each part stand in the order of their
names. -/
def encode (k : Keystore) (id : String) : String :=
  (Json.ofMembers
    [("crypto", .ofMembers
      [("cipher", .ofString "aes-128-ctr"),
       ("cipherparams", .ofMembers [("iv", hexJson k.iv)]),
       ("ciphertext", hexJson k.ciphertext),
       ("kdf", .ofString (stretchName k.stretch)),
       ("kdfparams", stretchJson k.stretch),
       ("mac", hexJson k.mac)]),
     ("id", .ofString id),
     ("version", .ofNat 3)]).render

/-- An identifier from 16 bytes, in groups of digits. Two of the groups begin with bits that say
that the identifier is a random one. -/
def identifier (bytes : Bytes) : String :=
  let marked := (bytes.modify 6 fun b => b &&& 0x0f ||| 0x40).modify 8 fun b => b &&& 0x3f ||| 0x80
  let group (start count : Nat) : String := Hex.encode ((marked.drop start).take count)
  "-".intercalate [group 0 4, group 4 2, group 6 2, group 8 2, group 10 6]

/-- Whether a text is an identifier: digits in a row or in groups, perhaps behind a name. -/
def isIdentifier (text : String) : Bool :=
  let isDigits (count : Nat) (bytes : Bytes) : Bool :=
    bytes.length == count && bytes.all fun b => (Hex.value? b).isSome
  let isGrouped (bytes : Bytes) : Bool :=
    bytes.length == 36 && [8, 13, 18, 23].all (fun i => bytes[i]? == some 0x2d) &&
      isDigits 32 (bytes.take 8 ++ (bytes.drop 9).take 4 ++ (bytes.drop 14).take 4 ++
        (bytes.drop 19).take 4 ++ bytes.drop 24)
  let bytes := Bytes.ofText text
  let name := Bytes.ofText "urn:uuid:"
  isDigits 32 bytes || isGrouped bytes ||
    (name.isPrefixOf bytes && isGrouped (bytes.drop name.length))

/-- Bytes from hexadecimal text. -/
def hex? (j : Json) : Option Bytes :=
  j.text?.bind fun text => (Hex.decode (Bytes.ofText text)).toOption

/-- A count below a bound. -/
def below? (bound : Nat) (j : Json) : Option Nat :=
  (j.uint64?.map (·.toNat)).filter (· < bound)

/-- Whether a value names a known way to stretch. The parameters alone say which one it is, so the
name is only checked and not used. -/
def isStretchName : Json → Bool
  | .string (some text) => ["pbkdf2", "scrypt"].contains text
  | .object [(text, .null)] true => ["pbkdf2", "scrypt"].contains text
  | _ => false

/-- The parameters for repeated hashing. -/
def repeated? (j : Json) : Option Stretch :=
  match j.fields? ["c", "dklen", "prf", "salt"] with
  | some [iterations, length, name, salt] => do
    let iterations ← below? UInt32.size iterations
    let length ← below? 256 length
    let _ ← name.text?
    let salt ← hex? salt
    some (.repeated iterations length salt)
  | _ => none

/-- The parameters for memory-hard stretching. -/
def memoryHard? (j : Json) : Option Stretch :=
  match j.fields? ["dklen", "n", "p", "r", "salt"] with
  | some [length, n, p, r, salt] => do
    let length ← below? 256 length
    let n ← below? UInt32.size n
    let p ← below? UInt32.size p
    let r ← below? UInt32.size r
    let salt ← hex? salt
    some (.memoryHard length n p r salt)
  | _ => none

/-- The parameters for stretching, of the first kind that they fit. -/
def stretch? (j : Json) : Option Stretch :=
  if j.isKeepable 125 then (repeated? j).or (memoryHard? j) else none

/-- The inner part of a key file. -/
def cipher? (j : Json) : Option Keystore :=
  match j.fields? ["cipher", "cipherparams", "ciphertext", "kdf", "kdfparams", "mac"] with
  | some [cipher, start, ciphertext, name, stretch, mac] => do
    let _ ← cipher.text?
    let [iv] ← start.fields? ["iv"] | none
    let iv ← hex? iv
    let ciphertext ← hex? ciphertext
    if isStretchName name then
      let stretch ← stretch? stretch
      let mac ← hex? mac
      some ⟨iv, ciphertext, stretch, mac⟩
    else none
  | _ => none

/-- The key file that a text spells. -/
def decode? (text : Bytes) : Option Keystore := do
  let j ← Json.parse? text
  match j.fields? ["crypto", "id", "version"] with
  | some [crypto, id, version] => do
    let k ← cipher? crypto
    let id ← id.text?
    let _ ← version.byte?
    if isIdentifier id then some k else none
  | _ => none

/-! ### Unlocking -/

/-- The identity in the text of a key file, if there is a file and the password is right. The error
does not tell which of these was wrong. -/
def unlock (text : Option Bytes) (password : String) : Except SignatureError Identity :=
  match text.bind decode? |>.bind (·.decrypt? password) with
  | some key => .ok (.ofKey key)
  | none => .error .keystore

end Keystore

end Countersign
