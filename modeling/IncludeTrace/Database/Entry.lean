import IncludeTrace.Command.Driver
import IncludeTrace.Command.Words
import IncludeTrace.Json.Display

/-!
# Entries of a compilation database

An entry is a JSON object. It gives its command as a list of words or as one text to be split; the
convention for splitting is that of the driver which the text begins with. A list wins over a text
unless it is hollow, and its elements are taken in words, whatever they are.
-/

namespace IncludeTrace.Database

/-- Why the words of an entry cannot be told. -/
inductive EntryFault
  | split (f : Command.SplitFault)
  | notIterable (v : Json)
  | notText (v : Json)

/-- The fault in words. -/
def EntryFault.message : EntryFault → Text
  | .split f => "Failed to parse compile command: " ++ f.message
  | .notIterable v => "'" ++ v.kindName ++ "' object is not iterable"
  | .notText v => "'" ++ v.kindName ++ "' object has no attribute 'split'"

/-- The words of a command, split by the convention of its driver. -/
def splitCommand (command : Text) : Except Command.SplitFault (List Text) :=
  if Command.isMsvcDriver (command.takeWhile (· ≠ ' ')) then Command.driverWords command
  else Command.shellWords command

/-- The words that a value lists. -/
def listedWords? : Json → Option (List Text)
  | .list elements => some (elements.map Json.display)
  | .string letters => some (letters.toText.map fun c => [c])
  | .object members => some (members.map fun m => m.1.toText)
  | _ => none

/-- The words that the text of a command splits into. -/
def commandWords : Json → Except EntryFault (List Text)
  | .string command => (splitCommand command.toText).mapError .split
  | v => .error (.notText v)

/-- The **words** of the command of an entry. -/
def entryWords (fields : Table Json Letters) : Except EntryFault (List Text) :=
  let command := commandWords ((fields.get? "command").getD (.text []))
  match fields.get? "arguments" with
  | none => command
  | some v =>
    if v.isHollow then command
    else match listedWords? v with
      | some words => .ok words
      | none => .error (.notIterable v)

end IncludeTrace.Database
