import IncludeTrace.Command.Driver

/-!
# Search directories

`searchDirectories` lists the directories that a compile command searches for includes, in the order
of the command line. A directory follows its flag as a word of its own or in the same word. Relative
directories are taken from the working directory of the command, and of several spellings of one
directory only the first is kept.
-/

namespace IncludeTrace.Command

/-- The flags that add a search directory, for a command with the given words. The flag `/I` belongs to
drivers of the MSVC style only; for others it may begin a path. -/
def searchFlags (arguments : List Text) : List Text :=
  let msvc := match arguments with
    | program :: _ => isMsvcDriver program
    | [] => false
  if msvc then ["-I", "-isystem", "-iquote", "/I"] else ["-I", "-isystem", "-iquote"]

/-- What follows a flag in the same word; a flag alone is followed by nothing. -/
def joined? (flags : List Text) (word : Text) : Option Text :=
  (flags.find? fun f => f.isPrefixOf word && f.length < word.length).map fun f =>
    word.drop f.length

/-- The directories that words name, as they stand there. -/
def directives (flags : List Text) : List Text → List Text
  | [] => []
  | [word] => (joined? flags word).toList
  | word :: next :: rest =>
    if flags.contains word then next :: directives flags rest
    else (joined? flags word).toList ++ directives flags (next :: rest)

/-- A directory as seen from the working directory. -/
def fromWorking (working directory : Text) : Text :=
  if Path.isAbsolute directory then directory else Path.normal (Path.join working directory)

/-- The directories whose key no earlier one has; the keys in `seen` count as earlier. -/
def distinctBy (cwd : Text) (seen : List Text) : List Text → List Text
  | [] => []
  | d :: rest =>
    let key := Path.key cwd d
    if seen.contains key then distinctBy cwd seen rest
    else d :: distinctBy cwd (key :: seen) rest

/-- The **search directories** of a compile command. -/
def searchDirectories (cwd : Text) (arguments : List Text) (working : Text) : List Text :=
  let named : List Text := (directives (searchFlags arguments) arguments).filter (· ≠ [])
  distinctBy cwd [] (named.map (fromWorking working))

end IncludeTrace.Command
