import IncludeTrace.Json.Basic

/-!
# Values in messages

Messages and command words show a JSON value in words: a text as it stands, everything else in a
notation of its own, in which texts inside lists and objects are quoted.
-/

namespace IncludeTrace.Json

mutual

/-- A value inside another one. -/
def inner : Json → Text
  | null => "None"
  | bool b => if b then "True" else "False"
  | number n => n.text
  | string letters => letters.quoted
  | list [] => "[]"
  | list (v :: vs) => '[' :: inner v ++ innerRest vs
  | object [] => "\x7b\x7d"
  | object ((name, v) :: ms) => '\x7b' :: name.quoted ++ ':' :: ' ' :: inner v ++ innerMembers ms

/-- The further elements of a list and its end. -/
def innerRest : List Json → Text
  | [] => [']']
  | v :: vs => ',' :: ' ' :: inner v ++ innerRest vs

/-- The further members of an object and its end. -/
def innerMembers : List (Letters × Json) → Text
  | [] => ['\x7d']
  | (name, v) :: ms => ',' :: ' ' :: name.quoted ++ ':' :: ' ' :: inner v ++ innerMembers ms

end

/-- The value as messages show it. -/
def display : Json → Text
  | string letters => letters.toText
  | v => inner v

/-- The name of the kind a value is of. -/
def kindName : Json → Text
  | null => "NoneType"
  | bool _ => "bool"
  | number (.whole _) => "int"
  | number (.double _) => "float"
  | string _ => "str"
  | list _ => "list"
  | object _ => "dict"

end IncludeTrace.Json
