import LineageSearch.Lineage.Document
import LineageSearch.Settings.Basic
import LineageSearch.Tool.Arguments
import LineageSearch.Tool.Report

/-!
# The search tool

The tool loads its settings, then the graph, then searches: for the words on its command
line, or for every line of its input.  A search that is refused reports nothing and does
not stop the tool; settings, a graph or keywords that cannot be used do, and so does a
line that is no text.

The tool touches the world in two ways only: it reads files and it reads its input.  Both
are given to it, so that a run is a function of what they hold.
-/

namespace LineageSearch

/-- The world as the tool sees it; `none` stands for a file that cannot be read. -/
structure Host (m : Type → Type) where
  fileBytes : Text → m (Option (List UInt8))
  inputBytes : m (List UInt8)

/-- How a run ends. -/
structure Outcome where
  code : Nat := 0
  output : Text := []
  errors : Text := []
deriving Repr, DecidableEq

/-- Why a run stops. -/
inductive ToolError where
  | settings (reason : Text)
  | graph (reason : Text)
  | registry (reason : RegistryError)
deriving Repr, DecidableEq

def ToolError.message : ToolError → Text
  | settings reason => "Config error: ".toList ++ reason
  | graph reason => "Graph error: ".toList ++ reason
  | registry reason => reason.message

namespace Tool

/-- The extension of a path: what stands behind the last point of its last part, unless
nothing stands before that point. -/
def extensionOf (path : Text) : Text :=
  let part := (path.reverse.takeWhile (· != '/')).reverse
  let behind := (part.reverse.takeWhile (· != '.')).reverse
  if behind.length + 1 < part.length then behind else []

/-- A path, written backwards, without what only says that it leads to a directory: the
separators at its end, and the points there that stand for the directory itself. -/
def dropDirectoryMarks : Text → Text
  | '/' :: rest => dropDirectoryMarks rest
  | '.' :: '/' :: rest => dropDirectoryMarks rest
  | path => path

/-- The path to which an extension may be added: it ends in a name. -/
def extensible? (path : Text) : Option Text :=
  let backwards := dropDirectoryMarks path.reverse
  let name := backwards.takeWhile (· != '/')
  if name.isEmpty || name = ['.'] || name = ['.', '.'] then none else some backwards.reverse

/-- What was reported for the lines of the input, and whether all of them were texts. -/
structure Answers where
  output : Text := []
  complete : Bool := true
deriving Repr, DecidableEq

/-- Searches in an environment that is reset first, and reports what was found. -/
def answer (engine : Engine) (env : Environment) (query : Text) : Text × Environment :=
  match engine.searchIn query env.reset with
  | (.ok found, left) => ((report found left).pretty ++ ['\n'], left)
  | (.error _, left) => ([], left)

/-- Searches for every line that is not blank, up to the first one that is no text. -/
def answerLines (engine : Engine) (env : Environment) : List (List UInt8) → Answers
  | [] => {}
  | line :: rest =>
    match Text.ofUtf8? line with
    | none => { complete := false }
    | some text =>
      if Text.isBlankText text then answerLines engine env rest
      else
        let (reported, left) := answer engine env text
        let behind := answerLines engine left rest
        { behind with output := reported ++ behind.output }

def answerInput (engine : Engine) (input : List UInt8) : Outcome :=
  let answers := answerLines engine .fresh (byteLines input)
  if answers.complete then { output := answers.output }
  else
    { code := 1
      output := answers.output
      errors := (ToolError.graph "the input is not valid UTF-8".toList).message ++ ['\n'] }

/-- The settings file of a run with its notation.  A path without a readable file may lack
its extension.  The file that is looked for by default may be missing. -/
def findSettings {m : Type → Type} [Monad m] (host : Host m) (config : Option Text) :
    m (Except ToolError (Option (SettingsFormat × List UInt8))) := do
  let path := config.getD "pandaquery".toList
  let absent (reason : String) : Except ToolError (Option (SettingsFormat × List UInt8)) :=
    if config.isNone then .ok none else .error (.settings (reason.toList ++ path))
  match ← host.fileBytes path with
  | some bytes =>
    match SettingsFormat.ofExtension? (extensionOf path) with
    | some format => return .ok (some (format, bytes))
    | none => return absent "unknown notation of settings file "
  | none =>
    let extended (extension : String) : m (Option (List UInt8)) :=
      match extensible? path with
      | some base => host.fileBytes (base ++ extension.toList)
      | none => return none
    match ← extended ".toml" with
    | some bytes => return .ok (some (.toml, bytes))
    | none =>
      match ← extended ".json" with
      | some bytes => return .ok (some (.json, bytes))
      | none => return absent "no settings file "

/-- The settings of a file, if there is one, and of the environment variables. -/
def settingsOf (file : Option (SettingsFormat × List UInt8)) (environ : List (Text × Text)) :
    Except ToolError Settings := do
  let text ← match file with
    | none => .ok none
    | some (format, bytes) =>
      match Text.ofUtf8? bytes with
      | some text => .ok (some (format, text))
      | none => .error (.settings "the settings file is not valid UTF-8".toList)
  match Settings.load? text environ with
  | some settings => .ok settings
  | none => .error (.settings "the settings cannot be read".toList)

/-- The graph of a file, if a path is given, and the empty graph otherwise. -/
def loadGraph {m : Type → Type} [Monad m] (host : Host m) :
    Option Text → m (Except ToolError Graph)
  | none => return .ok .empty
  | some path => do
    match ← host.fileBytes path with
    | none => return .error (.graph ("no readable file ".toList ++ path))
    | some bytes =>
      match (Text.ofUtf8? bytes).bind Export.ofText? with
      | some records => return .ok (.ofExport records)
      | none => return .error (.graph ("no export in ".toList ++ path))

/-- The engine of a run: its settings first, then its graph, then its keywords. -/
def loadEngine {m : Type → Type} [Monad m] (host : Host m) (environ : List (Text × Text))
    (arguments : Arguments) : m (Except ToolError Engine) := do
  match (← findSettings host arguments.config).bind (settingsOf · environ) with
  | .error reason => return .error reason
  | .ok settings =>
    match ← loadGraph host (arguments.graph <|> settings.graph) with
    | .error reason => return .error reason
    | .ok graph =>
      let built := Engine.build graph settings.operators settings.tags settings.strictKeywords
        settings.language
      return built.mapError .registry

def search {m : Type → Type} [Monad m] (host : Host m) (environ : List (Text × Text))
    (arguments : Arguments) : m Outcome := do
  match ← loadEngine host environ arguments with
  | .error reason => return { code := 1, errors := reason.message ++ ['\n'] }
  | .ok engine =>
    match arguments.query? with
    | some query => return { output := (answer engine .fresh query).1 }
    | none => return answerInput engine (← host.inputBytes)

def versionText : Text := "pandaquery 0.1.0\n".toList

def helpText : Text :=
  Text.joinWith ['\n'] (
    ["Search the red panda lineage from the command line",
      "",
      "Usage: pandaquery [OPTIONS] [QUERY]...",
      "",
      "Arguments:",
      "  [QUERY]...  Search words; without any, queries are read from stdin one per line",
      "",
      "Options:",
      "      --graph <FILE>   Dataset export to search, overriding the configured graph",
      "      --config <FILE>  Settings file layered over the built-in defaults",
      "  -h, --help           Print help",
      "  -V, --version        Print version",
      ""].map String.toList)

def optionName : ValueOption → Text
  | .graph => "--graph".toList
  | .config => "--config".toList

def argumentFault : ArgumentError → Text
  | .unknownArgument argument => "unexpected argument ".toList ++ argument
  | .missingValue name => "a value is required for ".toList ++ optionName name
  | .emptyValue name => "a value is required for ".toList ++ optionName name
  | .repeatedOption name => "the argument cannot be used multiple times: ".toList ++ optionName name
  | .needlessValue .help => "no value is expected for --help".toList
  | .needlessValue .version => "no value is expected for --version".toList
  | .askedFor .help => helpText
  | .askedFor .version => versionText

/-- A run that does not search: it answers a question about the tool, or it reports a
fault of its command line. -/
def decline (reason : ArgumentError) : Outcome :=
  match reason with
  | .askedFor _ => { output := argumentFault reason }
  | _ => { code := 2, errors := "error: ".toList ++ argumentFault reason ++ ['\n'] }

def run {m : Type → Type} [Monad m] (host : Host m) (environ : List (Text × Text))
    (commandLine : List Text) : m Outcome :=
  match Arguments.ofList commandLine with
  | .ok arguments => search host environ arguments
  | .error reason => return decline reason

end Tool

end LineageSearch
