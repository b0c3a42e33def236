import IncludeTrace.Text.Basic

/-!
# Splitting commands into words

A command is a text of words separated by blanks. Two conventions say how a word can hold a blank.

* `shellWords`: quotes of both kinds may open anywhere in a word and are removed; a backslash takes the
  next character literally, between double quotes only a double quote or a backslash.
* `driverWords`: a quote opens only at the beginning of a word, which then goes up to the same quote,
  both quotes included. Elsewhere quotes and backslashes are ordinary characters.
-/

namespace IncludeTrace.Command

/-- Why a command cannot be split. -/
inductive SplitFault
  | openQuote
  | danglingEscape
  deriving DecidableEq

/-- The fault in words. -/
def SplitFault.message : SplitFault → Text
  | .openQuote => "No closing quotation"
  | .danglingEscape => "No escaped character"

/-- Whether a character separates words. -/
def isSeparator (c : Char) : Bool := c = ' ' || c = '\t' || c = '\r' || c = '\n'

/-- Where in a command the shell convention stands. -/
inductive ShellPlace
  | between
  | word
  | single
  | double
  | escape
  | doubleEscape
  deriving DecidableEq

/-- The words of a text by the shell convention, from a place on; `word` is what was read of the word
under way. -/
def shellWordsFrom : ShellPlace → Text → Text → Except SplitFault (List Text)
  | .between, _, [] => .ok []
  | .word, word, [] => .ok [word]
  | .single, _, [] => .error .openQuote
  | .double, _, [] => .error .openQuote
  | .escape, _, [] => .error .danglingEscape
  | .doubleEscape, _, [] => .error .danglingEscape
  | .between, _, c :: t =>
    if isSeparator c then shellWordsFrom .between [] t
    else if c = '\\' then shellWordsFrom .escape [] t
    else if c = '\'' then shellWordsFrom .single [] t
    else if c = '"' then shellWordsFrom .double [] t
    else shellWordsFrom .word [c] t
  | .word, word, c :: t =>
    if isSeparator c then (shellWordsFrom .between [] t).map (word :: ·)
    else if c = '\\' then shellWordsFrom .escape word t
    else if c = '\'' then shellWordsFrom .single word t
    else if c = '"' then shellWordsFrom .double word t
    else shellWordsFrom .word (word ++ [c]) t
  | .single, word, c :: t =>
    if c = '\'' then shellWordsFrom .word word t else shellWordsFrom .single (word ++ [c]) t
  | .double, word, c :: t =>
    if c = '"' then shellWordsFrom .word word t
    else if c = '\\' then shellWordsFrom .doubleEscape word t
    else shellWordsFrom .double (word ++ [c]) t
  | .escape, word, c :: t => shellWordsFrom .word (word ++ [c]) t
  | .doubleEscape, word, c :: t =>
    if c = '"' ∨ c = '\\' then shellWordsFrom .double (word ++ [c]) t
    else shellWordsFrom .double (word ++ ['\\', c]) t

/-- The words of a command by the **shell convention**. -/
def shellWords (command : Text) : Except SplitFault (List Text) :=
  shellWordsFrom .between [] command

/-- Where in a command the driver convention stands. -/
inductive DriverPlace
  | between
  | word
  | quoted (mark : Char)
  deriving DecidableEq

/-- The words of a text by the driver convention, from a place on. -/
def driverWordsFrom : DriverPlace → Text → Text → Except SplitFault (List Text)
  | .between, _, [] => .ok []
  | .word, word, [] => .ok [word]
  | .quoted _, _, [] => .error .openQuote
  | .between, _, c :: t =>
    if isSeparator c then driverWordsFrom .between [] t
    else if c = '\'' ∨ c = '"' then driverWordsFrom (.quoted c) [c] t
    else driverWordsFrom .word [c] t
  | .word, word, c :: t =>
    if isSeparator c then (driverWordsFrom .between [] t).map (word :: ·)
    else driverWordsFrom .word (word ++ [c]) t
  | .quoted mark, word, c :: t =>
    if c = mark then (driverWordsFrom .between [] t).map ((word ++ [c]) :: ·)
    else driverWordsFrom (.quoted mark) (word ++ [c]) t

/-- The words of a command by the **driver convention**. -/
def driverWords (command : Text) : Except SplitFault (List Text) :=
  driverWordsFrom .between [] command

end IncludeTrace.Command
