import IncludeTrace.CommandLine.Value
import IncludeTrace.Text.Numeral
import IncludeTrace.Text.Quoted

/-!
# Options

A **grammar** lists the options of a program, each with its names and whether it takes a value, and says
whether one further argument is allowed. `Grammar.scan` reads the words of a command line.

First every word is classified on its own. A word that begins with a dash is an option if it is the
name of one, the beginning of the long name of exactly one, or a short name with something behind it;
a value may follow a name after an equals sign, and behind a short name directly. Negative numerals,
words with a space and everything behind the separator `--` are arguments.

Then the words are read from the left. What was read up to a fault still counts, because an option may
end the program before the fault is met.
-/

namespace IncludeTrace.CommandLine

/-- An option a program knows: what it is, its names and whether it takes a value. -/
structure Switch (ι : Type) where
  id : ι
  names : List Text
  takesValue : Bool

/-- The options of a program, and whether it takes one argument besides. -/
structure Grammar (ι : Type) where
  switches : List (Switch ι)
  takesArgument : Bool

/-- What is wrong with a command line. -/
inductive Fault
  | ambiguous (word : Text) (names : List Text)
  | missingValue (names : List Text)
  | unwantedValue (names : List Text) (value : Text)
  | notInteger (names : List Text) (value : Text)
  | unrecognized (words : List Text)
  deriving DecidableEq

/-- The fault in words. -/
def Fault.message : Fault → Text
  | .ambiguous word names =>
    "ambiguous option: " ++ word ++ " could match " ++ Text.join ", " names
  | .missingValue names => "argument " ++ Text.join "/" names ++ ": expected one argument"
  | .unwantedValue names value =>
    "argument " ++ Text.join "/" names ++ ": ignored explicit argument " ++ value.quoted
  | .notInteger names value =>
    "argument " ++ Text.join "/" names ++ ": invalid int value: " ++ value.quoted
  | .unrecognized words => "unrecognized arguments: " ++ Text.join " " words

/-! ### Classifying words -/

/-- What a word is. An option may have something attached to it in the same word. -/
inductive Word (ι : Type)
  | separator
  | argument (t : Text)
  | switch (s : Switch ι) (short : Bool) (attached : Option Text)
  | unknown (t : Text)

/-- Whether a name is a dash and one more character. -/
def isShort (name : Text) : Bool :=
  match name with
  | [_, c] => c ≠ '-'
  | _ => false

/-- Whether a word is a negative number in decimal digits, with at most one point. -/
def isNegativeNumeral : Text → Bool
  | '-' :: t =>
    let t : Text := if Text.endsWith t ['\n'] then t.dropLast else t
    let isDigit : Char → Bool := fun c => (digitValue? c).isSome
    match Text.pieces '.' t with
    | [whole] => !whole.isEmpty && whole.all isDigit
    | [whole, fraction] => !fraction.isEmpty && whole.all isDigit && fraction.all isDigit
    | _ => false
  | _ => false

namespace Grammar

variable {ι : Type}

/-- All names with their options, in the order of the grammar. -/
def named (g : Grammar ι) : List (Text × Switch ι) :=
  g.switches.flatMap fun s => s.names.map fun n => (n, s)

/-- The option with a name. -/
def switch? (g : Grammar ι) (name : Text) : Option (Switch ι) :=
  (g.named.find? fun n => n.1 = name).map Prod.snd

/-- A word up to its first equals sign, and what follows that. -/
def splitValue (word : Text) : Text × Option Text :=
  match Text.cut? ['='] word with
  | some (name, value) => (name, some value)
  | none => (word, none)

/-- The options that a word which begins with a dash can stand for without being a name. -/
def candidates (g : Grammar ι) (word : Text) : List (Text × Word ι) :=
  match word with
  | '-' :: '-' :: _ =>
    let (beginning, attached) := splitValue word
    (g.named.filter fun n => beginning.isPrefixOf n.1).map fun n =>
      (n.1, .switch n.2 (isShort n.1) attached)
  | dash :: c :: rest =>
    g.named.filterMap fun n =>
      if n.1 = [dash, c] then some (n.1, .switch n.2 true (some rest))
      else if word.isPrefixOf n.1 then some (n.1, .switch n.2 (isShort n.1) none)
      else none
  | _ => []

/-- What a word in front of `--` is. -/
def classify (g : Grammar ι) (word : Text) : Except Fault (Word ι) :=
  if !word.startsWith ['-'] then .ok (.argument word)
  else match g.switch? word with
    | some s => .ok (.switch s (isShort word) none)
    | none =>
      if word.length = 1 then .ok (.argument word)
      else
        let (name, attached) := splitValue word
        match attached, g.switch? name with
        | some a, some s => .ok (.switch s (isShort name) (some a))
        | _, _ =>
          match g.candidates word with
          | [(_, w)] => .ok w
          | [] =>
            if isNegativeNumeral word || word.contains ' ' then .ok (.argument word)
            else .ok (.unknown word)
          | several => .error (.ambiguous word (several.map Prod.fst))

/-- What the words of a command line are. -/
def classifyAll (g : Grammar ι) : List Text → Except Fault (List (Word ι))
  | [] => .ok []
  | word :: rest =>
    if word = separator then .ok (.separator :: rest.map .argument)
    else do
      let w ← g.classify word
      return w :: (← classifyAll g rest)

end Grammar

/-! ### Reading words -/

/-- Something read from a command line. -/
inductive Event (ι : Type)
  | flag (id : ι)
  | value (id : ι) (v : Value)
  | argument (t : Text)

/-- What a word with options says: events, and an option that takes its value from the next word. -/
structure Cluster (ι : Type) where
  events : List (Event ι)
  awaiting : Option (Switch ι)

namespace Grammar

variable {ι : Type}

/-- What an option alone in its word, or at its end, says. -/
def single (s : Switch ι) : Cluster ι := if s.takesValue then ⟨[], some s⟩ else ⟨[.flag s.id], none⟩

/-- The options in a word, from one with something attached on. An option takes it as its value; a
short option that takes no value leaves it to be read as further short options. -/
def cluster (g : Grammar ι) (s : Switch ι) (short : Bool) : Text → Except Fault (Cluster ι)
  | [] =>
    if s.takesValue then .ok ⟨[.value s.id (some [])], none⟩ else .error (.unwantedValue s.names [])
  | c :: rest =>
    if s.takesValue then .ok ⟨[.value s.id (.ofAttached (c :: rest))], none⟩
    else match (if short then g.switch? ['-', c] else none) with
      | none => .error (.unwantedValue s.names (c :: rest))
      | some next =>
        (if rest.isEmpty then .ok (single next) else cluster g next true rest).map fun others =>
          ⟨.flag s.id :: others.events, others.awaiting⟩

/-- What a word that is an option says. -/
def clusterOf (g : Grammar ι) (s : Switch ι) (short : Bool) :
    Option Text → Except Fault (Cluster ι)
  | some attached => g.cluster s short attached
  | none => .ok (single s)

end Grammar

/-- What reading a command line gives: the events up to its end or the first fault. -/
structure Scan (ι : Type) where
  events : List (Event ι)
  extras : List Text
  fault : Option Fault

/-- Whether the argument can still be taken. The separator right before or right behind it is taken with
it. -/
inductive Slot
  | vacant
  | separated
  | justFilled
  | closed
  deriving DecidableEq

/-- The slot after an option. -/
def Slot.pass : Slot → Slot
  | vacant => vacant
  | _ => closed

/-- A scan with events and words that are not understood before it. -/
def Scan.behind {ι : Type} (events : List (Event ι)) (extras : List Text) (s : Scan ι) : Scan ι :=
  ⟨events ++ s.events, extras ++ s.extras, s.fault⟩

/-- A scan that ends with a fault at once. -/
def Scan.stop {ι : Type} (f : Fault) : Scan ι := ⟨[], [], some f⟩

namespace Grammar

variable {ι : Type}

/-- Reads words. An option that waits for its value keeps back the events of its word. -/
def scanFrom (g : Grammar ι) (slot : Slot) :
    Option (List (Event ι) × Switch ι) → List (Word ι) → Scan ι
  | none, [] => ⟨[], [], none⟩
  | some (_, s), [] => .stop (.missingValue s.names)
  | some (events, s), .argument t :: rest =>
    (scanFrom g slot none rest).behind (events ++ [.value s.id (some t)]) []
  | some (_, s), _ :: _ => .stop (.missingValue s.names)
  | none, .switch s short attached :: rest =>
    match g.clusterOf s short attached with
    | .error f => .stop f
    | .ok c =>
      match c.awaiting with
      | some s' => scanFrom g slot.pass (some (c.events, s')) rest
      | none => (scanFrom g slot.pass none rest).behind c.events []
  | none, .unknown t :: rest => (scanFrom g slot.pass none rest).behind [] [t]
  | none, .argument t :: rest =>
    match slot with
    | .vacant => (scanFrom g .justFilled none rest).behind [.argument t] []
    | .separated => (scanFrom g .closed none rest).behind [.argument t] []
    | _ => (scanFrom g .closed none rest).behind [] [t]
  | none, .separator :: rest =>
    match slot with
    | .vacant => scanFrom g .separated none rest
    | .justFilled => scanFrom g .closed none rest
    | _ => (scanFrom g .closed none rest).behind [] [separator]

/-- **Reads** a command line. Words that are not understood are a fault, after everything else. -/
def scan (g : Grammar ι) (words : List Text) : Scan ι :=
  match g.classifyAll words with
  | .error f => .stop f
  | .ok ws =>
    let s := g.scanFrom (if g.takesArgument then .vacant else .closed) none ws
    if s.fault.isNone && !s.extras.isEmpty then { s with fault := some (.unrecognized s.extras) }
    else s

end Grammar

end IncludeTrace.CommandLine
