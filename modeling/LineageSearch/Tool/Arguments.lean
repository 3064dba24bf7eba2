import LineageSearch.Text.Basic

/-!
# The arguments of the search tool

The tool takes two options with a value each, `--graph` and `--config`, the flags for help
and version, and the words of a search.  Options may stand among the words; behind `--`
everything is a word, and so is a lone hyphen.

An option that waits for its value is settled as soon as something else than its value
follows, and the first fault from the left is reported.  An unknown argument, and a flag
with a value, are reported at once, even while an option waits.
-/

namespace LineageSearch

/-- What the tool is asked to do. -/
structure Arguments where
  graph : Option Text := none
  config : Option Text := none
  words : List Text := []
deriving Repr, DecidableEq

/-- The options that take a value. -/
inductive ValueOption where
  | graph
  | config
deriving Repr, DecidableEq

/-- The flags that ask about the tool itself. -/
inductive InfoFlag where
  | help
  | version
deriving Repr, DecidableEq

/-- Why the tool does not search. -/
inductive ArgumentError where
  | unknownArgument (argument : Text)
  | missingValue (name : ValueOption)
  | emptyValue (name : ValueOption)
  | repeatedOption (name : ValueOption)
  | needlessValue (flag : InfoFlag)
  | askedFor (flag : InfoFlag)
deriving Repr, DecidableEq

namespace Arguments

/-- The words of a search joined to one text, if there are any. -/
def query? (arguments : Arguments) : Option Text :=
  if arguments.words.isEmpty then none else some (Text.unwords arguments.words)

def get? (arguments : Arguments) : ValueOption → Option Text
  | .graph => arguments.graph
  | .config => arguments.config

def set (arguments : Arguments) (value : Text) : ValueOption → Arguments
  | .graph => { arguments with graph := some value }
  | .config => { arguments with config := some value }

/-- An option that is not settled yet, with its value if that has come. -/
abbrev Pending := Option (ValueOption × Option Text)

def settle (arguments : Arguments) : Pending → Except ArgumentError Arguments
  | none => .ok arguments
  | some (name, none) => .error (.missingValue name)
  | some (name, some value) =>
    if (arguments.get? name).isSome then .error (.repeatedOption name)
    else if value.isEmpty then .error (.emptyValue name)
    else .ok (arguments.set value name)

def longName? (name : Text) : Option (ValueOption ⊕ InfoFlag) :=
  if name = "graph".toList then some (.inl .graph)
  else if name = "config".toList then some (.inl .config)
  else if name = "help".toList then some (.inr .help)
  else if name = "version".toList then some (.inr .version)
  else none

/-- A name and the value that an equals sign puts behind it. -/
def splitValue (t : Text) : Text × Option Text :=
  let name := t.takeWhile (· != '=')
  match t.drop name.length with
  | _ :: value => (name, some value)
  | [] => (name, none)

def addWord (arguments : Arguments) (pending : Pending) (word : Text) :
    Except ArgumentError (Arguments × Pending) := do
  let settled ← arguments.settle pending
  return ({ settled with words := settled.words ++ [word] }, none)

def addLong (arguments : Arguments) (pending : Pending) (argument : Text) :
    Except ArgumentError (Arguments × Pending) :=
  let (name, value) := splitValue (argument.drop 2)
  match longName? name, value with
  | none, _ => .error (.unknownArgument argument)
  | some (.inr flag), some _ => .error (.needlessValue flag)
  | some (.inr flag), none => do
    -- a fault of the waiting option lies further to the left than the flag
    let _ ← arguments.settle pending
    .error (.askedFor flag)
  | some (.inl option), none => do
    let settled ← arguments.settle pending
    return (settled, some (option, none))
  | some (.inl option), some value => do
    let settled ← arguments.settle pending
    return (← settled.settle (some (option, some value)), none)

/-- Reads letters behind one hyphen; the first of them decides. -/
def addShort (arguments : Arguments) (pending : Pending) (letter : Char) (argument : Text) :
    Except ArgumentError (Arguments × Pending) := do
  let flag ← match letter with
    | 'h' => .ok InfoFlag.help
    | 'V' => .ok InfoFlag.version
    | _ => .error (.unknownArgument argument)
  let _ ← arguments.settle pending
  .error (.askedFor flag)

/-- Reads an argument that stands before any `--`. -/
def add (arguments : Arguments) (pending : Pending) (argument : Text) :
    Except ArgumentError (Arguments × Pending) :=
  match argument with
  | '-' :: '-' :: _ => arguments.addLong pending argument
  | '-' :: letter :: _ => arguments.addShort pending letter argument
  | _ =>
    match pending with
    | some (option, none) => .ok (arguments, some (option, some argument))
    | _ => arguments.addWord pending argument

/-- Reads the words behind a `--`. -/
def readWords (arguments : Arguments) (pending : Pending) :
    List Text → Except ArgumentError Arguments
  | [] => arguments.settle pending
  | word :: rest => do
    let (grown, left) ← arguments.addWord pending word
    readWords grown left rest

def read (arguments : Arguments) (pending : Pending) :
    List Text → Except ArgumentError Arguments
  | [] => arguments.settle pending
  | argument :: rest =>
    if argument = ['-', '-'] then readWords arguments pending rest
    else do
      let (grown, left) ← arguments.add pending argument
      read grown left rest

def ofList (list : List Text) : Except ArgumentError Arguments := read {} none list

end Arguments

end LineageSearch
