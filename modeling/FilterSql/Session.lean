import FilterSql.Journal

/-!
# Sessions

A process finds its limits when it first needs them and keeps them from then on: `limits_settled`
says that finding them does not change them.
-/

namespace FilterSql

/-- a running process: its files and variables, and its limits once they are found -/
structure Session where
  files : Files
  env : Environment
  found : Option Limits

/-- a process that has not needed its limits yet -/
def Session.start (files : Files) (env : Environment) : Session := ⟨files, env, none⟩

def Session.limits (s : Session) : Limits := s.found.getD (Limits.ofProcess s.files s.env)

/-- the events of needing the limits now -/
def Session.events (s : Session) : List Event :=
  if s.found.isSome then [] else Limits.processEvents s.files s.env

def Session.settled (s : Session) : Session := { s with found := some s.limits }

/-- once found, limits stay -/
theorem Session.limits_settled (s : Session) : s.settled.limits = s.limits := rfl

end FilterSql
