import FilterSql.Journal

/-!
# The command line

`Command.ofArguments?` reads the arguments of the program, from left to right; the first thing that
cannot stand there makes the whole line bad, and a request for help or the version ends it.
`Command.run` carries a command out on the texts of files and the variables of the process, and says
what to print and how to exit.
-/

namespace FilterSql

open Json

/-! ## arguments -/

structure Sources where
  settings : Option String := none
  envFile : Option String := none
  deriving DecidableEq

inductive Command where
  | compile (request : String) (bindStyle : Option String) (sources : Sources) (json : Bool)
  | settings (sources : Sources)
  | version
  | help
  deriving DecidableEq

/-- the words that start a command with options -/
inductive Verb where
  | compile
  | settings
  deriving DecidableEq

def Verb.ofWord? (s : String) : Option Verb :=
  if s = "compile" then some .compile
  else if s = "settings" then some .settings
  else none

/-- what has been read behind a verb -/
structure Arguments where
  request : Option String := none
  bindStyle : Option String := none
  sources : Sources := {}
  json : Bool := false

/-- sets what is not set yet -/
def setOnce (old : Option String) (value : String) : Option (Option String) :=
  if old.isSome then none else some (some value)

/-- a file name; it cannot be empty -/
def fileName? (s : String) : Option String := if s = "" then none else some s

/-- the file to compile; only compiling takes one, and only one -/
def Arguments.addFile (a : Arguments) (verb : Verb) (s : String) : Option Arguments := do
  guard (verb = .compile)
  return { a with request := ← setOnce a.request (← fileName? s) }

def Arguments.addOption (a : Arguments) (verb : Verb) (name value : String) : Option Arguments :=
  if name = "--bind-style" && verb = .compile then do
    return { a with bindStyle := ← setOnce a.bindStyle value }
  else if name = "--settings" then do
    let file ← setOnce a.sources.settings (← fileName? value)
    return { a with sources := { a.sources with settings := file } }
  else if name = "--env-file" then do
    let file ← setOnce a.sources.envFile (← fileName? value)
    return { a with sources := { a.sources with envFile := file } }
  else none

/-- the word looks like an option; a single dash does not -/
def isOption (s : String) : Bool := s.startsWith "-" && s ≠ "-"

/-- the word asks for something that one letter behind a dash stands for -/
def asks (letter : Char) (word s : String) : Bool :=
  s = word || ['-', letter].isPrefixOf s.toList

/-- an option and its value in one word, with an equals sign between them -/
def splitOption? (s : String) : Option (String × String) :=
  match s.toList.span (· ≠ '=') with
  | (name, _ :: value) => some (String.ofList name, String.ofList value)
  | (_, []) => none

inductive Reading where
  | done (a : Arguments)
  | help
  | bad

/-- all that remains are files -/
def Arguments.readFiles (verb : Verb) (a : Arguments) : List String → Reading
  | [] => .done a
  | file :: rest =>
    match a.addFile verb file with
    | some a => a.readFiles verb rest
    | none => .bad

def Arguments.read (verb : Verb) (a : Arguments) : List String → Reading
  | [] => .done a
  | word :: rest =>
    if word = "--" then a.readFiles verb rest
    else if asks 'h' "--help" word then .help
    else if word = "--json" then
      if verb = .compile && !a.json then Arguments.read verb { a with json := true } rest else .bad
    else if !isOption word then
      match a.addFile verb word with
      | some a => a.read verb rest
      | none => .bad
    else match splitOption? word with
      | some (name, value) =>
        match a.addOption verb name value with
        | some a => a.read verb rest
        | none => .bad
      | none =>
        match rest with
        | [] => .bad
        | value :: rest =>
          if isOption value then .bad
          else match a.addOption verb word value with
            | some a => a.read verb rest
            | none => .bad

def Verb.command? : Verb → Arguments → Option Command
  | .compile, a => a.request.map fun request => .compile request a.bindStyle a.sources a.json
  | .settings, a => some (.settings a.sources)

def Command.ofArguments? : List String → Option Command
  | [] => none
  | word :: rest =>
    if asks 'V' "--version" word then some .version
    else if asks 'h' "--help" word then some .help
    else if word = "help" then
      match rest with
      | [] => some .help
      | topic :: _ => if (Verb.ofWord? topic).isSome || topic = "help" then some .help else none
    else match Verb.ofWord? word with
      | none => none
      | some verb =>
        match Arguments.read verb {} rest with
        | .done a => verb.command? a
        | .help => some .help
        | .bad => none

/-! ## running -/

inductive CommandError where
  | requestRead
  | requestParse (e : DecodeError)
  | invalidBindStyle (style : String)
  | settings (e : SettingsError)
  | compile (e : CompileError)

def CommandError.message : CommandError → String
  | .requestRead => "Failed to read the request file"
  | .requestParse e => "Failed to parse the request file as JSON: " ++ faultMessage e
  | .invalidBindStyle style => "Invalid bind style provided: " ++ style
  | .settings e => "Invalid settings: " ++ e.message
  | .compile e => "Failed to compile the request: " ++ e.message

def Sources.limits (files : Files) (env : Environment) (s : Sources) :
    Except CommandError Limits :=
  ((Settings.loadAll files s.settings s.envFile env).bind Settings.validate).mapError .settings

/-- the request of a file, in the style that is asked for -/
def loadRequest (files : Files) (path : String) (bindStyle : Option String) :
    Except CommandError Request := do
  let some content := files path | .error .requestRead
  let request ← (Request.ofText content).mapError .requestParse
  match bindStyle with
  | none => return request
  | some s =>
    match BindStyle.ofText? s with
    | some style => return { request with bindStyle := style }
    | none => .error (.invalidBindStyle s)

def versionText : String := "sieve 0.1.0\n"

def helpText : String :=
  "Compile structured filters into parameterized SQL\n\n" ++
  "Usage: sieve <COMMAND>\n\n" ++
  "Commands:\n" ++
  "  compile   Compile a JSON request into a SQL fragment and its bindings\n" ++
  "  settings  Print the effective compiler settings\n" ++
  "  help      Print this message or the help of the given subcommand(s)\n\n" ++
  "Options:\n" ++
  "  -h, --help     Print help\n" ++
  "  -V, --version  Print version\n"

/-- carries a command out: the text to print, or why it fails -/
def Command.run (files : Files) (env : Environment) : Command → Except CommandError String
  | .version => .ok versionText
  | .help => .ok helpText
  | .settings sources => do
    return (← sources.limits files env).json.pretty ++ "\n"
  | .compile path bindStyle sources json => do
    let limits ← sources.limits files env
    let request ← loadRequest files path bindStyle
    let query ← (request.compile limits).mapError .compile
    return if json then query.pretty ++ "\n" else query.report

def Sources.events (files : Files) (env : Environment) (s : Sources) : List Event :=
  match env.loadFile files s.envFile with
  | (_, some _) => []
  | (env', none) =>
    Settings.events files s.settings env' ++
      match s.limits files env with
      | .ok limits => [.using limits]
      | .error _ => []

def Command.events (files : Files) (env : Environment) : Command → List Event
  | .version => []
  | .help => []
  | .settings sources => sources.events files env
  | .compile path bindStyle sources _ =>
    sources.events files env ++
      match sources.limits files env, loadRequest files path bindStyle with
      | .ok limits, .ok request => request.events limits
      | _, _ => []

structure Outcome where
  exit : Nat
  output : String
  error : Option CommandError
  events : List Event

/-- runs the program: a bad command line exits with two, a failure with one -/
def runProgram (files : Files) (env : Environment) (arguments : List String) : Outcome :=
  match Command.ofArguments? arguments with
  | none => ⟨2, "", none, []⟩
  | some command =>
    let events := command.events files env
    match command.run files env with
    | .ok output => ⟨0, output, none, events⟩
    | .error e => ⟨1, "", some e, events⟩

/-- the files that a command line names; the settings file of a variable apart -/
def Command.files : Command → List String
  | .compile path _ sources _ => path :: sources.settings.toList ++ sources.envFile.toList
  | .settings sources => sources.settings.toList ++ sources.envFile.toList
  | .version => []
  | .help => []

end FilterSql
