import FilterSql.Sql.Binding

/-!
# Predicates

`Filter.compile` walks a filter, binds its values and writes it as one predicate.  The clauses of a
filter are joined by `AND`; groups put the clauses of their filters together, each connective with
the brackets that it needs, and a group inside too many others is refused.  Entries that constrain
nothing leave no trace.  The whole predicate stands in one pair of brackets, or is empty.
-/

namespace FilterSql

/-! ## texts of groups -/

/-- texts joined, in brackets if there are several -/
def joinBracketed (separator : String) (texts : List String) : String :=
  let joined := separator.intercalate texts
  if 1 < texts.length then "(" ++ joined ++ ")" else joined

/-- the text of a group, from the clauses of each of its filters that has any -/
def Connective.write (op : Connective) (children : List (List String)) : String :=
  match op with
  | .and => joinBracketed " AND " children.flatten
  | .or => joinBracketed " OR " (children.map (joinBracketed " AND "))
  | .not => "NOT (" ++ " AND ".intercalate children.flatten ++ ")"

/-- the clauses of a whole filter as one text in brackets; no text without clauses -/
def wrapClauses (clauses : List String) : String :=
  if clauses.isEmpty then ""
  else
    let joined := " AND ".intercalate clauses
    if clauses.length = 1 && isSingleGroup joined then joined else "(" ++ joined ++ ")"

/-! ## the walk -/

mutual

def Entry.bind (style : BindStyle) (max depth : Nat) : Entry → Binding (Option String)
  | .field _ none => return none
  | .field name (some c) => c.bind style name
  | .group _ [] => return none
  | .group op (f :: fs) =>
    if max < depth + 1 then throw ⟨max, op⟩
    else do
      let children ← Filter.bindChildren style max (depth + 1) (f :: fs)
      return if children.isEmpty then none else some (op.write children)

/-- writes the clauses of a filter at `depth`, in order -/
def Filter.bindClauses (style : BindStyle) (max depth : Nat) : List Entry → Binding (List String)
  | [] => return []
  | entry :: entries => do
    let clause ← entry.bind style max depth
    let clauses ← Filter.bindClauses style max depth entries
    return clause.toList ++ clauses

/-- writes the clauses of each of some filters at `depth`, without those that have none -/
def Filter.bindChildren (style : BindStyle) (max depth : Nat) :
    List (List Entry) → Binding (List (List String))
  | [] => return []
  | f :: fs => do
    let clauses ← Filter.bindClauses style max depth f
    let children ← Filter.bindChildren style max depth fs
    return if clauses.isEmpty then children else clauses :: children

end

structure Predicate where
  sql : String
  params : List Param

/-- compiles a filter whose groups nest at most `max` deep -/
def Filter.compile (style : BindStyle) (max : Nat) (f : Filter) : Except DepthError Predicate := do
  let (clauses, params) ← (Filter.bindClauses style max 1 f).run []
  return ⟨wrapClauses clauses, params⟩

end FilterSql
