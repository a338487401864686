import FilterSql.Text.Basic

/-!
# Environment variables

An `Environment` holds variables by name.  `Environment.load` adds those of an env file: a line of
it is blank, a comment, or `KEY=VALUE` with an optional `export` in front.  A variable that is there
already is kept, so the first assignment counts.
-/

namespace FilterSql

/-- variables with their values; the first one of a name counts -/
abbrev Environment := List (String × String)

namespace Environment

def get? (env : Environment) (key : String) : Option String := env.lookup key

def set (env : Environment) (key value : String) : Environment := (key, value) :: env

/-- adds a variable that is not there yet -/
def add (env : Environment) (key value : String) : Environment :=
  if (env.get? key).isSome then env else env ++ [(key, value)]

end Environment

/-! ## lines of an env file -/

inductive LineError where
  | noEquals
  | emptyKey
  deriving DecidableEq

inductive EnvLine where
  /-- blank, or a comment -/
  | ignored
  | assignment (key value : String)
  | bad (e : LineError)
  deriving DecidableEq

/-- the text without one pair of equal quotes around it -/
def unquote (cs : List Char) : List Char :=
  match cs with
  | q :: rest =>
    if (q = '"' || q = '\x27') && rest.getLast? = some q then rest.dropLast else cs
  | [] => []

def dropExport (cs : List Char) : List Char :=
  let word := "export ".toList
  if word.isPrefixOf cs then cs.drop word.length else cs

def EnvLine.ofText (line : String) : EnvLine :=
  let trimmed := Text.trimChars line.toList
  if trimmed.isEmpty || trimmed.head? = some '#' then .ignored
  else
    let (key, rest) := (dropExport trimmed).span (· ≠ '=')
    match rest with
    | [] => .bad .noEquals
    | _ :: value =>
      let key := Text.trimChars key
      if key.isEmpty then .bad .emptyKey
      else .assignment (String.ofList key) (String.ofList (unquote (Text.trimChars value)))

/-! ## env files -/

/-- a bad line with its number, counted from one -/
structure EnvFileError where
  line : Nat
  cause : LineError
  deriving DecidableEq

def EnvFileError.message (e : EnvFileError) : String :=
  "Invalid env file: " ++ match e.cause with
    | .noEquals => "malformed line " ++ toString e.line ++ " (expected KEY=VALUE)"
    | .emptyKey => "empty key at line " ++ toString e.line

/-- adds the variables of lines up to the first bad one, which is the error -/
def Environment.loadLines (env : Environment) (number : Nat) :
    List String → Environment × Option EnvFileError
  | [] => (env, none)
  | line :: rest =>
    match EnvLine.ofText line with
    | .ignored => env.loadLines (number + 1) rest
    | .assignment key value => (env.add key value).loadLines (number + 1) rest
    | .bad cause => (env, some ⟨number, cause⟩)

def Environment.load (env : Environment) (content : String) :
    Environment × Option EnvFileError :=
  env.loadLines 1 (Text.lines content)

end FilterSql
