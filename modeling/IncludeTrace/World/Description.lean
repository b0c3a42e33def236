import IncludeTrace.Json.Reader
import IncludeTrace.Package.Requirement
import IncludeTrace.World.Basic
import IncludeTrace.World.Standard

/-!
# Describing worlds

A world is described by a JSON object. Each member can be left out: the current directory is `/work`
then, the packages are installed in the versions that are required, and everything else is empty. The
contents of files and the outputs of compilers are texts, or bytes in hexadecimal digits. The host is
the standard one.
-/

namespace IncludeTrace.World

/-- The bytes that hexadecimal digits write, two digits each. -/
def hexBytes : Text → List UInt8
  | a :: b :: rest =>
    UInt8.ofNat ((Json.hexValue? a).getD 0 * 16 + (Json.hexValue? b).getD 0) :: hexBytes rest
  | _ => []

/-- The bytes that a value describes. -/
def bytesOf : Json → List UInt8
  | .string t => Utf8.encode t.toText
  | v =>
    match v.member? "hex" with
    | some (.string digits) => hexBytes digits.toText
    | _ => []

/-- A text, if the value is one. -/
def text? : Json → Option Text
  | .string t => some t.toText
  | _ => none

/-- A whole number, if the value is one. -/
def int? : Json → Option Int
  | .number (.whole n) => some n
  | _ => none

/-- The elements of a list; none if the value is no list. -/
def elements : Json → List Json
  | .list vs => vs
  | _ => []

/-- The members of an object; none if the value is no object. -/
def members : Json → List (Text × Json)
  | .object ms => ms.map fun m => (m.1.toText, m.2)
  | _ => []

/-- The texts in a list. -/
def texts (v : Json) : List Text := (elements v).filterMap text?

/-- The texts in an object, under their names. -/
def namedTexts (v : Json) : List (Text × Text) :=
  (members v).filterMap fun m => (text? m.2).map fun t => (m.1, t)

/-- A member of an object; `null` if it is not there. -/
def field (name : Text) (v : Json) : Json := (v.member? name).getD .null

/-- Whether a member is there and says yes. -/
def isSet (name : Text) (v : Json) : Bool :=
  match field name v with
  | .bool b => b
  | _ => false

/-- The compiler run that a value describes. -/
def runOf (v : Json) : Run :=
  if isSet "timeout" v then .timedOut
  else if isSet "interrupt" v then .interrupted
  else match elements (field "oserror" v) with
    | [number, reason, file] =>
      .refused ⟨(int? number).getD 0, (text? reason).getD [], text? file⟩
    | _ =>
      .exited (bytesOf (field "stdout" v)) (bytesOf (field "stderr" v))
        ((int? (field "code" v)).getD 0)

/-- The **world** that a value describes. -/
def ofDescription (v : Json) : World :=
  let cwd := (text? (field "cwd" v)).getD "/work"
  { cwd := cwd
    files := Table.ofPairs ((members (field "files" v)).map fun m => (Host.lexically cwd m.1, bytesOf m.2))
    directories := (texts (field "dirs" v)).map (Host.lexically cwd)
    programs := texts (field "programs" v)
    runs := (elements (field "runs" v)).map runOf
    installed := match v.member? "installed" with
      | some packages => namedTexts packages
      | none => Requirement.standard
    today := (text? (field "today" v)).getD "DATE"
    invocations := []
    written := []
    host := .standard }

end IncludeTrace.World
