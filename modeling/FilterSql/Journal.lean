import FilterSql.Query
import FilterSql.Settings.Basic

/-!
# The journal

What the compiler tells about its work while it runs, as a list of `Event`s with a level and a
message each.  `Request.events` walks a request in the order in which it is compiled and stops where
compiling stops.
-/

namespace FilterSql

inductive Level where
  | trace
  | debug
  | info
  | warn
  deriving DecidableEq

def Level.name : Level → String
  | .trace => "TRACE"
  | .debug => "DEBUG"
  | .info => "INFO"
  | .warn => "WARN"

inductive Event where
  | unsetField (name : String)
  | noOperator (name : String)
  | shape (name form : String)
  | notText (column typeName : String)
  | compiled (query : Query) (style : BindStyle)
  | loading (path : String)
  | largePages (size : UInt32)
  | deepFilters (depth : UInt64)
  | validated (limits : Limits)
  | using (limits : Limits)
  | fallback (e : SettingsError)

namespace Event

def level : Event → Level
  | .unsetField _ => .trace
  | .noOperator _ => .warn
  | .shape _ _ => .trace
  | .notText _ _ => .warn
  | .compiled _ _ => .debug
  | .loading _ => .info
  | .largePages _ => .warn
  | .deepFilters _ => .warn
  | .validated _ => .debug
  | .using _ => .info
  | .fallback _ => .warn

def message : Event → String
  | .unsetField name => "Field `" ++ name ++ "` is unset, skipping"
  | .noOperator name => "Skipping filter on `" ++ name ++ "`: no recognized operator"
  | .shape name form => "Field `" ++ name ++ "` uses the " ++ form ++ " strategy"
  | .notText column typeName =>
    "Skipping pattern filter on `" ++ column ++ "`: " ++ typeName ++
      " value cannot be matched as text"
  | .compiled query style =>
    "Compiled query with " ++ toString query.params.length ++ " parameter(s) using " ++
      style.name ++ " placeholders: " ++ query.sql
  | .loading path => "Loading compiler settings from " ++ path
  | .largePages size =>
    "maxPageSize " ++ toString size.toNat ++ " is very large, pages may be slow to fetch"
  | .deepFilters depth =>
    "maxFilterDepth " ++ toString depth.toNat ++
      " is very large, deep filters are expensive to compile"
  | .validated limits =>
    "Validated compile limits: CompileLimits \x7b default_page_size: " ++
      toString limits.defaultPageSize.toNat ++ ", max_page_size: " ++
      toString limits.maxPageSize.toNat ++ ", max_filter_depth: " ++
      toString limits.maxFilterDepth.toNat ++ " \x7d"
  | .using limits =>
    "Using limits: default page size " ++ toString limits.defaultPageSize.toNat ++
      ", max page size " ++ toString limits.maxPageSize.toNat ++ ", max filter depth " ++
      toString limits.maxFilterDepth.toNat
  | .fallback e => "Falling back to default compile limits: " ++ e.message

end Event

/-! ## compiling -/

/-- events, and whether the work went on to its end -/
structure Story where
  events : List Event
  finished : Bool

/-- one piece of work after another; the second starts only if the first was finished -/
def Story.followedBy (s t : Story) : Story :=
  if s.finished then ⟨s.events ++ t.events, t.finished⟩ else s

def Clause.events : Clause → List Event
  | .pattern column _ value _ =>
    if value.text?.isNone then [.notText column.text value.typeName] else []
  | _ => []

def Constraint.events (name : String) (c : Constraint) : List Event :=
  match Clause.ofConstraint? name c with
  | none => [.noOperator name]
  | some clause => .shape name clause.name :: clause.events

mutual

def Entry.story (max depth : Nat) : Entry → Story
  | .field name none => ⟨[.unsetField name], true⟩
  | .field name (some c) => ⟨c.events name, true⟩
  | .group _ [] => ⟨[], true⟩
  | .group _ (f :: fs) =>
    if max < depth + 1 then ⟨[], false⟩ else Filter.childrenStory max (depth + 1) (f :: fs)

def Filter.story (max depth : Nat) : List Entry → Story
  | [] => ⟨[], true⟩
  | entry :: entries => (entry.story max depth).followedBy (Filter.story max depth entries)

def Filter.childrenStory (max depth : Nat) : List (List Entry) → Story
  | [] => ⟨[], true⟩
  | f :: fs => (Filter.story max depth f).followedBy (Filter.childrenStory max depth fs)

end

def Filter.events (max : Nat) (f : Filter) : List Event := (Filter.story max 1 f).events

def Request.events (limits : Limits) (r : Request) : List Event :=
  (r.filter.getD []).events limits.maxFilterDepth.toNat ++
    match r.compile limits with
    | .ok query => [.compiled query r.bindStyle]
    | .error _ => []

/-! ## settings -/

/-- the events of looking for a settings file -/
def Settings.loadEvents (given : Option String) (env : Environment) : List Event :=
  ((Settings.path? given env).map Event.loading).toList

/-- page sizes above this are usually a mistake -/
def largePageSize : UInt32 := 10000

/-- depths above this weaken the bound -/
def largeFilterDepth : UInt64 := 64

def Settings.validateEvents (s : Settings) : List Event :=
  (if largePageSize < s.maxPageSize then [.largePages s.maxPageSize] else []) ++
  (if largeFilterDepth < s.maxFilterDepth then [.deepFilters s.maxFilterDepth] else []) ++
  match s.validate with
  | .ok limits => [.validated limits]
  | .error _ => []

/-- the events of loading and validating settings below an environment -/
def Settings.events (files : Files) (given : Option String) (env : Environment) : List Event :=
  Settings.loadEvents given env ++
    match Settings.load files given env with
    | .ok s => s.validateEvents
    | .error _ => []

def Limits.processEvents (files : Files) (env : Environment) : List Event :=
  Settings.events files none env ++
    match (Settings.loadAll files none none env).bind Settings.validate with
    | .ok _ => []
    | .error e => [.fallback e]

end FilterSql
