import Countersign.Json.Basic

/-!
# Places in a value, and looking with a fault in mind

A `Place` is the way from the outside of a value to one of its parts. A `Look` at a value either
finds what it looks for or ends at a place; the *first* fault that was met is the one reported, also
when it was passed over at first and something else ended the look (`Look.fail`, `Look.noteFault`).
-/

namespace Countersign.Json

/-- **A step inwards**: to a member, to an element, or to where a member's name should be. -/
inductive Segment where
  | member (name : String)
  | element (index : Nat)
  | unknown
deriving DecidableEq, Repr

/-- A way to a part, from the outside. The outside itself is the empty way. -/
abbrev Place := List Segment

namespace Place

/-- The segments as text, with points between them but none before an element's number. -/
def renderFrom (first : Bool) : Place → String
  | [] => ""
  | .element index :: rest => "[" ++ toString index ++ "]" ++ renderFrom false rest
  | .member name :: rest => (if first then "" else ".") ++ name ++ renderFrom false rest
  | .unknown :: rest => (if first then "" else ".") ++ "?" ++ renderFrom false rest

/-- A place as text; the outside is a point. -/
def render (place : Place) : String :=
  if place.isEmpty then "." else place.renderFrom true

/-- A member of what is at a place. -/
def member (place : Place) (name : String) : Place := place ++ [.member name]

/-- An element of what is at a place. -/
def element (place : Place) (index : Nat) : Place := place ++ [.element index]

/-- Where a member's name should be. -/
def unknown (place : Place) : Place := place ++ [.unknown]

end Place

/-- A look at a value, which remembers the first fault and may end at a place. -/
abbrev Look := StateT (Option Place) (Except Place)

namespace Look

/-- Taking note of a fault that is passed over. -/
def noteFault (place : Place) : Look Unit :=
  modify fun first => some (first.getD place)

/-- Ending with a fault: the first one that was met. -/
def fail {α : Type} (place : Place) : Look α := do
  throw ((← get).getD place)

/-- The result of a look that begins without faults: what was found, or the place of the fault. -/
def result {α : Type} (look : Look α) : Except Place α :=
  match StateT.run look none with
  | .ok (a, _) => .ok a
  | .error place => .error place

end Look

/-- How a part is looked at, given its place. The place is handed down, so that faults can be told
by it. -/
abbrev Looker (α : Type) := Place → Json → Look α

namespace Looker

variable {α σ : Type}

/-- A look that only the part itself decides. -/
def ofOption (f : Json → Option α) : Looker α := fun place j =>
  match f j with
  | some a => pure a
  | none => Look.fail place

/-- Something that may be absent, written as `null`. -/
def orNull (look : Looker α) : Looker (Option α)
  | _, .null => pure none
  | place, j => some <$> look place j

/-- The elements of a list, from a given number on. -/
def elementsFrom (look : Looker α) (place : Place) : Nat → List Json → Look (List α)
  | _, [] => pure []
  | i, j :: rest => do
    let a ← look (place.element i) j
    return a :: (← elementsFrom look place (i + 1) rest)

/-- A list, each element looked at in the same way. One that is not closed is at fault as a
whole. -/
def list (look : Looker α) : Looker (List α)
  | place, .array elements closed => do
    let found ← elementsFrom look place 0 elements
    if closed then return found else Look.fail place
  | place, _ => Look.fail place

end Looker

end Countersign.Json
