import Countersign.Json.Place

/-!
# Sections

A section is a structure most of whose fields need not be given: what is not given keeps its
standard value (`Looker.ofSlots`). It is written as an object, in any order, or as a list of its
fields. A fault is placed where it stands in the text: at a field, at the whole section if a field
is missing or given twice, and at an unknown member's name if the text goes wrong where a name
should be.
-/

namespace Countersign.Json

/-- **A field of a section**: its name, whether it must be there, and what it sets. A section is the
list of its slots, and one reader reads all of them. -/
structure Slot (σ : Type) where
  name : String
  required : Bool
  fill : Place → Json → σ → Look σ

/-- A field that sets a part of a section, once it was looked at. -/
def Slot.setting {α σ : Type} (name : String) (look : Looker α) (set : σ → α → σ) : Slot σ :=
  ⟨name, false, fun place j s => return set s (← look place j)⟩

/-- A field that must be there. -/
def Slot.must {σ : Type} (slot : Slot σ) : Slot σ := { slot with required := true }

/-- Whether the text of a value is intact, up to its outermost brackets. -/
def isIntact : Json → Bool
  | .broken | .array _ false | .object _ false => false
  | _ => true

namespace Looker

variable {σ : Type}

/-- The members of a section in their order: each field at most once; other members are passed over
if their text is intact, unless the section is `strict`. Also the names that were seen. -/
def members (strict : Bool) (slots : List (Slot σ)) (place : Place) :
    (seen : List String) → List (String × Json) → σ → Look (List String × σ)
  | seen, [], s => pure (seen, s)
  | seen, (name, j) :: rest, s =>
    match slots.find? (·.name == name) with
    | some slot => do
      -- A field that is given twice is a fault of the section, not of the field.
      if seen.contains name then Look.fail place
      members strict slots place (name :: seen) rest (← slot.fill (place.member name) j s)
    | none => do
      if strict || !j.isIntact then Look.fail (place.member name)
      members strict slots place seen rest s

/-- The fields of a section given as a list, in their order, from a given number on. -/
def positions (place : Place) : Nat → List (Slot σ) → List Json → σ → Look σ
  | _, [], [], s => pure s
  | _, [], _ :: _, _ => Look.fail place
  | _, slot :: rest, [], s =>
    if (slot :: rest).any (·.required) then Look.fail place else pure s
  | i, slot :: slots, j :: rest, s => do
    positions place (i + 1) slots rest (← slot.fill (place.element i) j s)

/-- A section: an object, or a list of its fields of which some may be missing at the end. What is
not given stays as it is in `standard`. -/
def ofSlots (strict : Bool) (slots : List (Slot σ)) (standard : σ) : Looker σ
  | place, .object given closed => do
    let (seen, s) ← members strict slots place [] given standard
    if !closed then Look.fail place.unknown
    if slots.any fun slot => slot.required && !seen.contains slot.name then Look.fail place
    return s
  | place, .array given closed => do
    let s ← positions place 0 slots given standard
    if closed then return s else Look.fail place
  | place, _ => Look.fail place

end Looker

end Countersign.Json
