import FilterSql.Limits
import FilterSql.Settings.Environment

/-!
# Settings

Settings are layered: built-in defaults, then a settings file, then environment variables, each
field on its own.  `Settings.validate` accepts those that a compiler can work with and turns them
into limits.
-/

namespace FilterSql

open Json

/-- limits that nobody has checked -/
structure Settings where
  defaultPageSize : UInt32
  maxPageSize : UInt32
  maxFilterDepth : UInt64
  deriving DecidableEq

namespace Settings

def ofLimits (l : Limits) : Settings := ⟨l.defaultPageSize, l.maxPageSize, l.maxFilterDepth⟩

def toLimits (s : Settings) : Limits := ⟨s.defaultPageSize, s.maxPageSize, s.maxFilterDepth⟩

def standard : Settings := ofLimits .standard

def json (s : Settings) : Json := s.toLimits.json

/-- settings in a document; what is missing keeps its default -/
def record : Record Limits where
  name := "CompilerSettings"
  start := .standard
  fields := Limits.fields
  required := false

def ofDoc (d : Doc) : Decoded Settings := (record.decode d).map ofLimits

def ofText (s : String) : Decoded Settings := decodeText ofDoc s

end Settings

/-! ## errors -/

inductive Violation where
  | defaultPageSizeZero
  | maxPageSizeZero
  | defaultAboveMax (default max : UInt32)
  | maxFilterDepthZero
  deriving DecidableEq

def Violation.message : Violation → String
  | .defaultPageSizeZero => "defaultPageSize must be at least 1"
  | .maxPageSizeZero => "maxPageSize must be at least 1"
  | .defaultAboveMax default max =>
    "defaultPageSize (" ++ toString default.toNat ++ ") must not exceed maxPageSize (" ++
      toString max.toNat ++ ")"
  | .maxFilterDepthZero => "maxFilterDepth must be at least 1"

inductive SettingsError where
  /-- a file is missing or is no text -/
  | read (path : String)
  | parse (path : String) (e : DecodeError)
  | envFile (e : EnvFileError)
  | badNumber (key value : String)
  | invalid (violations : List Violation)

def faultMessage : DecodeError → String
  | .fault .malformed => "malformed JSON"
  | .fault .truncated => "unexpected end of JSON"
  | .mismatch m => m.message

def SettingsError.message : SettingsError → String
  | .read path => "Failed to read settings file " ++ path
  | .parse path e => "Failed to parse settings file " ++ path ++ ": " ++ faultMessage e
  | .envFile e => e.message
  | .badNumber key value =>
    "Invalid value for " ++ key ++ ": '" ++ value ++ "' is not a valid number"
  | .invalid violations =>
    "Settings validation failed: " ++ "; ".intercalate (violations.map Violation.message)

/-! ## environment variables -/

def defaultPageSizeKey : String := "SIEVE_DEFAULT_PAGE_SIZE"

def maxPageSizeKey : String := "SIEVE_MAX_PAGE_SIZE"

def maxFilterDepthKey : String := "SIEVE_MAX_FILTER_DEPTH"

def settingsFileKey : String := "SIEVE_SETTINGS_FILE"

/-- the number that ASCII digits write; at least one digit has to be there -/
def digitsValue? (cs : List Char) : Option Nat :=
  if cs.isEmpty then none
  else cs.foldlM (fun n c => if c.isDigit then some (10 * n + (c.toNat - 48)) else none) 0

/-- a number below `bound`: blanks around it, perhaps a plus sign, and digits -/
def boundedNumber? (bound : Nat) (raw : String) : Option Nat := do
  let n ← digitsValue? (match Text.trimChars raw.toList with
    | '+' :: cs => cs
    | cs => cs)
  if n < bound then some n else none

def numberOf? (env : Environment) (key : String) (bound : Nat) :
    Except SettingsError (Option Nat) :=
  match env.get? key with
  | none => .ok none
  | some raw =>
    match boundedNumber? bound raw with
    | some n => .ok (some n)
    | none => .error (.badNumber key raw)

/-- the settings with those fields replaced for which there are variables -/
def Settings.override (s : Settings) (env : Environment) : Except SettingsError Settings := do
  let default ← numberOf? env defaultPageSizeKey UInt32.size
  let max ← numberOf? env maxPageSizeKey UInt32.size
  let depth ← numberOf? env maxFilterDepthKey UInt64.size
  return {
    defaultPageSize := (default.map Nat.toUInt32).getD s.defaultPageSize
    maxPageSize := (max.map Nat.toUInt32).getD s.maxPageSize
    maxFilterDepth := (depth.map Nat.toUInt64).getD s.maxFilterDepth }

/-! ## layers -/

/-- the texts of the files that can be read -/
abbrev Files := String → Option String

/-- the settings file: the one that is given, or the one that a variable names -/
def Settings.path? (given : Option String) (env : Environment) : Option String :=
  given.or (env.get? settingsFileKey)

/-- the settings of a file, or the defaults if there is none -/
def Settings.ofFile (files : Files) : Option String → Except SettingsError Settings
  | none => .ok .standard
  | some path =>
    match files path with
    | none => .error (.read path)
    | some content => (Settings.ofText content).mapError (.parse path)

/-- the layers below the process: defaults, settings file, variables -/
def Settings.load (files : Files) (given : Option String) (env : Environment) :
    Except SettingsError Settings := do
  (← Settings.ofFile files (Settings.path? given env)).override env

/-- the variables of a process and, below them, those of an env file -/
def Environment.loadFile (files : Files) (env : Environment) :
    Option String → Environment × Option SettingsError
  | none => (env, none)
  | some path =>
    match files path with
    | none => (env, some (.read path))
    | some content =>
      let (env, error) := env.load content
      (env, error.map .envFile)

def Settings.loadAll (files : Files) (given envFile : Option String) (env : Environment) :
    Except SettingsError Settings :=
  match env.loadFile files envFile with
  | (_, some e) => .error e
  | (env, none) => Settings.load files given env

/-! ## validation -/

def Settings.violations (s : Settings) : List Violation :=
  (if s.defaultPageSize = 0 then [.defaultPageSizeZero] else []) ++
  (if s.maxPageSize = 0 then [.maxPageSizeZero] else []) ++
  (if s.maxPageSize < s.defaultPageSize then [.defaultAboveMax s.defaultPageSize s.maxPageSize]
    else []) ++
  (if s.maxFilterDepth = 0 then [.maxFilterDepthZero] else [])

def Settings.validate (s : Settings) : Except SettingsError Limits :=
  if s.violations.isEmpty then .ok s.toLimits else .error (.invalid s.violations)

/-- the limits of a whole process: those of its environment, or the standard ones if that gives no
valid limits -/
def Limits.ofProcess (files : Files) (env : Environment) : Limits :=
  match (Settings.loadAll files none none env).bind Settings.validate with
  | .ok limits => limits
  | .error _ => .standard

end FilterSql
