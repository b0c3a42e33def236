import IncludeTrace.Export.Library
import IncludeTrace.Text.Quoted

/-!
# Hosts

A **host** is what the program runs on: how the system looks paths up, which requests it does not take,
and what is installed. Nothing about it changes while the program runs. There are four ways in which a
host can be in the way.

* A text may be **unfit** to be handed to the system as the name of a file or as a word of a command,
  whatever is there: because it has a NUL, for one. Asking whether there is such a file is answered with no.
* Opening a file may be denied although the file, or the directory for it, is there.
* What is written to a file may not all be stored: the disk is full, or a character cannot be encoded.
* A text may be unprintable: standard output has an encoding of its own.

Standard error takes every text, since it shows by its number what it cannot encode.
-/

namespace IncludeTrace

/-- Why the system refused a request. -/
structure SystemError where
  number : Int
  reason : Text
  file : Option Text
  deriving DecidableEq

/-- The sentence that reports the refusal. -/
def SystemError.message (e : SystemError) : Text :=
  "[Errno " ++ Text.ofInt e.number ++ "] " ++ e.reason ++
    match e.file with
    | some p => ": " ++ p.quoted
    | none => []

/-- What is stored of a text if not all of it is: a number of bytes, and why there are no more. -/
structure Spill where
  kept : Nat
  reason : Text

/-- A **host**. -/
structure Host where
  /-- The path under which a path is found, seen from a directory; empty where it leads nowhere. -/
  locate : (cwd path : Text) → Text
  /-- Why a text is unfit to be a name or a word, if it is. -/
  unfit? : Text → Option Text
  /-- Why a file is not opened although it is there, or could be, if it is not. -/
  denial? : (writing : Bool) → (path : Text) → Option SystemError
  /-- What becomes of a text that is written to a file, if it is not stored as it is. -/
  spill? : (path text : Text) → Option Spill
  /-- Why a text cannot be printed, if it cannot. -/
  unprintable? : Text → Option Text
  /-- Whether the writer for DOT is installed. -/
  dotWriter : Bool
  /-- The library of formats. -/
  library : Library

end IncludeTrace
