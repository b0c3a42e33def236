import IncludeTrace.Text.Basic

/-!
# Values of options

The **value** of an option is a text, or it is **void**: the separator between options and arguments was
all that was attached to the option, and it was taken away. A void value is not an empty text. It is
noticed only where it is made use of, and what goes wrong then depends on the use.
-/

namespace IncludeTrace.CommandLine

/-- The value given to an option: a text, or `none` where it is **void**. -/
abbrev Value := Option Text

/-- The word that separates options from arguments. -/
def separator : Text := "--"

namespace Value

/-- The value that a text in the same word as an option gives it. -/
def ofAttached (t : Text) : Value := if t = separator then none else some t

/-- What is shown in place of a void value. -/
def voidText : Text := "[]"

/-- The texts in front of the first void value. -/
def beforeVoid : List Value → List Text
  | some t :: rest => t :: beforeVoid rest
  | _ => []

/-- Whether one of the values is void. -/
def anyVoid (values : List Value) : Bool := values.any Option.isNone

end Value

/-- A use that can be made of a text, or of a number, but not of a void value. -/
inductive Use
  | compare
  | divide
  | lowerCase
  | search
  | list (place : Nat)
  deriving DecidableEq

/-- What goes wrong when a void value is put to the use. -/
def Use.message : Use → Text
  | compare => "'<' not supported between instances of 'list' and 'int'"
  | divide => "'list' object has no attribute 'partition'"
  | lowerCase => "'list' object has no attribute 'lower'"
  | search => "expected str, bytes or os.PathLike object, not list"
  | list place =>
    "sequence item " ++ Text.ofNat place ++ ": expected str instance, list found"

end IncludeTrace.CommandLine
