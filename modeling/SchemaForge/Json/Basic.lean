import SchemaForge.Fields
import SchemaForge.Number.Binary64

/-!
# `SchemaForge.Json.Basic` — JSON values

Integers of any size and doubles are told apart, and an object keeps its members in their order.

## Contents
- **Values.** `Json`, and `isVacant` for the values that say nothing.
- **Equality.** `agrees`: numbers compare by value whatever their kind, truth values count as the
  numbers zero and one, and the order of members does not matter.
-/

namespace SchemaForge

/-- A JSON value. -/
inductive Json where
  | null
  | bool (b : Bool)
  | int (n : Int)
  | float (x : Binary64)
  | str (s : String)
  | arr (items : List Json)
  | obj (members : List (String × Json))

namespace Json

instance : Inhabited Json := ⟨.null⟩

/-- Whether a value says nothing: null, false, zero, and whatever is empty. -/
def isVacant : Json → Bool
  | .null => true
  | .bool b => !b
  | .int n => n == 0
  | .float (.finite _ units) => units == 0
  | .float _ => false
  | .str s => s.isEmpty
  | .arr items => items.isEmpty
  | .obj members => members.isEmpty

/-- Whether a value is null. -/
def isNull : Json → Bool
  | .null => true
  | _ => false

/-! ## Equality -/

/-- A number as a count of the least positive double, when it is finite. -/
def units? : Json → Option Int
  | .bool b => some (if b then Binary64.one else 0)
  | .int n => some (n * Binary64.one)
  | .float (.finite negative units) => some (Binary64.signed negative units)
  | _ => none

mutual

/-- Whether two values are equal. -/
def agrees : Json → Json → Bool
  | .null, .null => true
  | .str s, .str t => s = t
  | .arr items, .arr items' => agreesAll items items'
  | .obj members, .obj members' =>
    members.length = members'.length && agreesMembers members members'
  | .float (.infinity negative), .float (.infinity negative') => negative = negative'
  | v, w => match units? v, units? w with
    | some m, some n => m = n
    | _, _ => false

/-- Whether two lists are equal item by item. -/
def agreesAll : List Json → List Json → Bool
  | [], [] => true
  | v :: rest, w :: rest' => agrees v w && agreesAll rest rest'
  | _, _ => false

/-- Whether every member on the left is bound to an equal value on the right. -/
def agreesMembers : List (String × Json) → List (String × Json) → Bool
  | [], _ => true
  | (key, v) :: rest, members' =>
    (match Fields.get? key members' with
      | some w => agrees v w
      | none => false) && agreesMembers rest members'

end

end Json

end SchemaForge
