import Countersign.Program.Startup

/-!
# A shelf of key files

Key files by their paths, for rehearsals of what the key commands and the services do with them. The
shelf also remembers which address was reported for each file that it made itself. Bytes that should
be random are taken from a number, so that equal rehearsals have equal ends.
-/

namespace Countersign.Simulation

/-- Bytes that stand for random ones, up to 32 of them. They are determined by a number, so that a
rehearsal can be repeated. -/
def arbitrary (seed count : Nat) : Bytes :=
  (Keccak.hash (Bytes.ofNatBE 8 seed)).take count

/-- Key files by their paths, and the addresses of those that the shelf made. -/
structure Shelf where
  files : List (String × Bytes)
  made : List (String × Address)

namespace Shelf

/-- A shelf without files. -/
def empty : Shelf := ⟨[], []⟩

/-- The files of a shelf. -/
def read (shelf : Shelf) : KeyFiles := fun path => shelf.files.lookup path

/-- Putting a text where a file is or may be. -/
def write (shelf : Shelf) (path : String) (content : Bytes) : Shelf :=
  { shelf with files := (path, content) :: shelf.files.filter (·.1 != path) }

/-- Putting a given key into a file, in the way in which new key files are made. -/
def store (shelf : Shelf) (path : String) (key : Ecdsa.SecretKey) (password : String) : Shelf :=
  let text := (Keystore.encrypt key password (arbitrary 1 32) (arbitrary 2 16)).encode
    (Keystore.identifier (arbitrary 3 16))
  shelf.write path (Bytes.ofText text)

/-- Making a key, the one of a number, in a new file. It is refused where making a key is refused,
and the shelf is then left alone. -/
def add (shelf : Shelf) (seed : Nat) (path password : String) : Except StartupError Shelf :=
  match Ecdsa.SecretKey.ofBytes? (arbitrary (4 * seed) 32) with
  | none => .error (.keystore path)
  | some key =>
    match Startup.addKey shelf.read path password key (arbitrary (4 * seed + 1) 32)
      (arbitrary (4 * seed + 2) 16) (arbitrary (4 * seed + 3) 16) with
    | .error e => .error e
    | .ok (text, address) =>
      let shelf := shelf.write path (Bytes.ofText text)
      .ok { shelf with made := (path, address) :: shelf.made }

end Shelf

end Countersign.Simulation
