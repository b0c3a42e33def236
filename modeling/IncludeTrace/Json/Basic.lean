import IncludeTrace.Decimal.Number
import IncludeTrace.Json.Letter
import IncludeTrace.Table

/-!
# JSON values

Documents are read into values that keep the order of the members of an object, tell whole numbers
from doubles, and hold any sequence of letters.
-/

namespace IncludeTrace

/-- A JSON value. -/
inductive Json
  | null
  | bool (b : Bool)
  | number (n : Number)
  | string (letters : Letters)
  | list (elements : List Json)
  | object (members : List (Letters × Json))

namespace Json

instance : Inhabited Json := ⟨null⟩

/-- A text. -/
def text (t : Text) : Json := .string t

/-- A whole number. -/
def int (n : Int) : Json := .number (.whole n)

/-- A natural number. -/
def nat (n : Nat) : Json := .number (.whole n)

/-- The member of an object, if the value is an object that has it. -/
def member? (name : Text) : Json → Option Json
  | object members => Table.get? members (name : Letters)
  | _ => none

/-- Whether a value is **hollow**: nothing, no, zero, or without contents. -/
def isHollow : Json → Bool
  | null => true
  | bool b => !b
  | number n => n.isZero
  | string letters => letters.isEmpty
  | list elements => elements.isEmpty
  | object members => members.isEmpty

end Json

end IncludeTrace
