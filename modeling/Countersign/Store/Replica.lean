import Countersign.Store.Validation

/-!
# One replica of the store

A replica holds at most one accepted record under each key. Confirms are written once: the same
bytes may come again, others are refused. The latest valset gives way only to one of a greater
nonce. Both follow from asking which of the old and the new record is chosen (`Replica.put`).

A refused record leaves the replica as it was; so `put` answers a new replica or an error.
-/

namespace Countersign

/-- A replica: keys with their records, the key written last in front. The keys are texts, and two
texts are two keys. -/
structure Replica where
  records : List (String × Bytes)
deriving DecidableEq

namespace Replica

/-- A replica without records, as every replica is at first. -/
def empty : Replica := ⟨[]⟩

/-- The record under a key, if there is one. -/
def get? (replica : Replica) (key : String) : Option Bytes :=
  replica.records.lookup key

/-- The record under a key, replaced or added. Nothing is checked here; that is `put`'s business. -/
def set (replica : Replica) (key : String) (value : Bytes) : Replica :=
  ⟨(key, value) :: replica.records.filter (·.1 != key)⟩

@[simp] theorem get?_empty (key : String) : empty.get? key = none := rfl

/-- Taking out one key hides nothing else, so replacing a record leaves the others. -/
theorem lookup_filter_ne (records : List (String × Bytes)) {key other : String}
    (h : other ≠ key) : (records.filter (·.1 != key)).lookup other = records.lookup other := by
  induction records with
  | nil => rfl
  | cons r rest ih =>
    obtain ⟨held, value⟩ := r
    by_cases hk : held = key
    · subst hk
      have hb : (other == held) = false := by simpa using h
      simp [List.lookup_cons, hb, ih]
    · simp [List.lookup_cons, hk, ih]

/-- What is set is found again, and nothing else changes. -/
theorem get?_set (replica : Replica) (key other : String) (value : Bytes) :
    (replica.set key value).get? other =
      if other = key then some value else replica.get? other := by
  by_cases h : other = key
  · simp [set, get?, h]
  · have hb : (other == key) = false := by simpa using h
    simp [set, get?, List.lookup_cons, h, hb, lookup_filter_ne _ h]

/-- The number of records, one for each key. -/
def size (replica : Replica) : Nat :=
  replica.records.length

/-- **Storing a record**, if it is accepted and the key does not hold another confirm. A latest
valset that is older than the one held is taken without an error, and changes nothing. -/
def put (replica : Replica) (key : String) (value : Bytes) : Except ValidationError Replica :=
  match validate key value with
  | .error e => .error e
  | .ok () =>
    match replica.get? key with
    | none => .ok (replica.set key value)
    | some existing =>
      -- Writing the same bytes again is a success, whatever the record is.
      if existing = value then .ok replica
      else
        -- Of two different records the rules for the key choose one, the held one coming first.
        match select key [existing, value] with
        | .error e => .error e
        | .ok 1 => .ok (replica.set key value)
        | .ok _ =>
          match Namespace.ofKey key with
          | .error e => .error (.key e)
          | .ok space => if space.isConfirm then .error (.conflict key) else .ok replica

end Replica

end Countersign
