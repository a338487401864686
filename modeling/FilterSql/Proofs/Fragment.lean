import FilterSql.Sql.Predicate

/-!
# Fragments

A `Fragment` is SQL text with holes for values.  A hole knows its value and the field for which it
is bound, but no number: holes are numbered when the text is written (`Fragment.textFrom`).  Clauses
and groups are given as fragments here, independently of a style and of the parameters bound before;
`Fragment.bindings` lists what the holes bind.  Whatever a connective puts around the clauses of a
group, it binds nothing of its own (`Fragment.bindings_ofGroup`).
-/

namespace FilterSql

/-! ## numbered parameters -/

/-- parameters for values of fields, the first one numbered `next` -/
def Param.number (next : Nat) : List (String × Value) → List Param
  | [] => []
  | (field, value) :: rest => ⟨paramName next field, value⟩ :: Param.number (next + 1) rest

theorem Param.length_number (next : Nat) (bs : List (String × Value)) :
    (Param.number next bs).length = bs.length := by
  induction bs generalizing next with
  | nil => rfl
  | cons b bs ih => simp [Param.number, ih]

theorem Param.number_append (next : Nat) (bs cs : List (String × Value)) :
    Param.number next (bs ++ cs) = Param.number next bs ++ Param.number (next + bs.length) cs := by
  induction bs generalizing next with
  | nil => rfl
  | cons b bs ih =>
    show _ :: Param.number (next + 1) (bs ++ cs) = _
    rw [ih, List.length_cons, Nat.add_comm bs.length, ← Nat.add_assoc]
    rfl

/-! ## fragments -/

inductive Piece where
  | text (s : String)
  | hole (field : String) (value : Value)

/-- SQL text with holes -/
abbrev Fragment := List Piece

namespace Fragment

def join (separator : String) : List Fragment → Fragment
  | [] => []
  | [f] => f
  | f :: g :: fs => f ++ .text separator :: join separator (g :: fs)

def bracket (f : Fragment) : Fragment := .text "(" :: f ++ [.text ")"]

/-- what the holes of a fragment bind, in order: a value for a field each -/
def bindings : Fragment → List (String × Value)
  | [] => []
  | .text _ :: f => bindings f
  | .hole field value :: f => (field, value) :: bindings f

/-- the fragment with its first hole numbered `next` -/
def textFrom (style : BindStyle) (next : Nat) : Fragment → String
  | [] => ""
  | .text s :: f => s ++ textFrom style next f
  | .hole field _ :: f =>
    style.placeholder next (paramName next field) ++ textFrom style (next + 1) f

/-- the texts of fragments whose holes are numbered one after the other -/
def textsFrom (style : BindStyle) (next : Nat) : List Fragment → List String
  | [] => []
  | f :: fs => textFrom style next f :: textsFrom style (next + f.bindings.length) fs

/-- the fragment is one group in brackets; no placeholder has a bracket in it, so it does not matter
how the holes are written -/
def isSingleGroup (f : Fragment) : Bool := FilterSql.isSingleGroup (f.textFrom .question 1)

/-! ### groups -/

def joinBracketed (separator : String) (fs : List Fragment) : Fragment :=
  let joined := join separator fs
  if 1 < fs.length then joined.bracket else joined

/-- the clause of a group, from the clauses of each of its filters that has any -/
def ofGroup (op : Connective) (children : List (List Fragment)) : Fragment :=
  match op with
  | .and => joinBracketed " AND " children.flatten
  | .or => joinBracketed " OR " (children.map (joinBracketed " AND "))
  | .not => .text "NOT " :: (join " AND " children.flatten).bracket

/-- the clauses of a whole filter as one predicate in brackets -/
def ofClauses (clauses : List Fragment) : Fragment :=
  if clauses.isEmpty then []
  else
    let joined := join " AND " clauses
    if clauses.length = 1 && joined.isSingleGroup then joined else joined.bracket

end Fragment

/-! ### clauses -/

namespace Clause

/-- the place of an operand, in lower case if it is a string that is to be folded -/
def operand (column : Column) (fold : Bool) (value : Value) : Fragment :=
  if fold && value.isTextual then [.text "LOWER(", .hole column.field value, .text ")"]
  else [.hole column.field value]

/-- the clause as a fragment; none if it constrains nothing -/
def fragment? : Clause → Option Fragment
  | .null column negated =>
    some [.text (column.text ++ if negated then " IS NOT NULL" else " IS NULL")]
  | .array _ [] negated _ => if negated then none else some [.text "1 = 0"]
  | .array column values negated caseInsensitive =>
    let fold := caseInsensitive && values.any Value.isTextual
    some (.text (opening column fold (if negated then "NOT IN" else "IN")) ::
      Fragment.bracket (Fragment.join ", " (values.map (operand column fold))))
  | .primitive column value => some (.text (opening column false "=") :: operand column false value)
  | .comparison column op value caseInsensitive =>
    let fold := caseInsensitive && value.isTextual
    some (.text (opening column fold op.keyword) :: operand column fold value)
  | .pattern column position value caseInsensitive =>
    value.text?.map fun text =>
      let fold := caseInsensitive && value.isTextual
      .text (opening column fold "LIKE") :: operand column fold (.string (position.around text))
  | .range column lo hi caseInsensitive =>
    let fold := caseInsensitive && (lo.isTextual || hi.isTextual)
    some (.text (opening column fold "BETWEEN") :: operand column fold lo ++
      .text " AND " :: operand column fold hi)

end Clause

theorem Clause.ofOperator_compare {value : Value} (h : value ≠ .null) (column : Column)
    (fold : Bool) (op : Comparison) :
    ofOperator column fold (.compare op value) = .comparison column op value fold := by
  cases op <;> cases value <;> first | rfl | exact absurd rfl h

def Constraint.fragment? (field : String) (c : Constraint) : Option Fragment :=
  (Clause.ofConstraint? field c).bind Clause.fragment?

/-! ## what a fragment binds -/

namespace Fragment

@[simp] theorem bindings_nil : bindings [] = [] := rfl

@[simp] theorem bindings_text (s : String) (f : Fragment) :
    bindings (.text s :: f) = bindings f := rfl

@[simp] theorem bindings_hole (field : String) (value : Value) (f : Fragment) :
    bindings (.hole field value :: f) = (field, value) :: bindings f := rfl

@[simp] theorem bindings_append (f g : Fragment) : bindings (f ++ g) = bindings f ++ bindings g := by
  induction f with
  | nil => rfl
  | cons piece f ih => cases piece <;> simp [ih]

@[simp] theorem bindings_join (separator : String) (fs : List Fragment) :
    bindings (join separator fs) = fs.flatMap bindings := by
  fun_induction join separator fs with
  | case1 => rfl
  | case2 f => simp
  | case3 f g fs ih => simp [ih]

@[simp] theorem bindings_bracket (f : Fragment) : f.bracket.bindings = f.bindings := by
  simp [bracket]

@[simp] theorem bindings_joinBracketed (separator : String) (fs : List Fragment) :
    bindings (joinBracketed separator fs) = fs.flatMap bindings := by
  unfold joinBracketed
  split <;> simp

/-- a group binds what its clauses bind, in their order -/
theorem bindings_ofGroup (op : Connective) (children : List (List Fragment)) :
    bindings (ofGroup op children) = children.flatMap fun fs => fs.flatMap bindings := by
  have h : children.flatten.flatMap bindings =
      children.flatMap fun fs => fs.flatMap bindings := by
    rw [List.flatMap_def, List.map_flatten, List.flatten_flatten, List.map_map]
    rfl
  cases op with
  | and => simp [ofGroup, h]
  | or => simp [ofGroup, List.flatMap_map]
  | not => simp [ofGroup, h]

theorem bindings_ofClauses (fs : List Fragment) : bindings (ofClauses fs) = fs.flatMap bindings := by
  cases fs with
  | nil => rfl
  | cons f fs =>
    simp only [ofClauses, List.isEmpty_cons, Bool.false_eq_true, if_false]
    split <;> simp

/-! ## the text of a fragment -/

section
variable (style : BindStyle)

theorem textFrom_append (next : Nat) (f g : Fragment) : textFrom style next (f ++ g) =
    textFrom style next f ++ textFrom style (next + f.bindings.length) g := by
  induction f generalizing next with
  | nil => simp [textFrom]
  | cons piece f ih =>
    cases piece with
    | text s => simp only [List.cons_append, textFrom, bindings_text, ih, String.append_assoc]
    | hole field value =>
      simp only [List.cons_append, textFrom, bindings_hole, List.length_cons, ih,
        String.append_assoc]
      rw [Nat.add_comm (bindings f).length, ← Nat.add_assoc]

theorem length_textsFrom (next : Nat) (fs : List Fragment) :
    (textsFrom style next fs).length = fs.length := by
  induction fs generalizing next with
  | nil => rfl
  | cons f fs ih => simp [textsFrom, ih]

theorem textsFrom_append (next : Nat) (fs gs : List Fragment) :
    textsFrom style next (fs ++ gs) =
      textsFrom style next fs ++ textsFrom style (next + (fs.flatMap bindings).length) gs := by
  induction fs generalizing next with
  | nil => simp [textsFrom]
  | cons f fs ih =>
    rw [List.cons_append, textsFrom, ih, List.flatMap_cons, List.length_append, ← Nat.add_assoc]
    rfl

theorem textFrom_join (separator : String) (next : Nat) (fs : List Fragment) :
    textFrom style next (join separator fs) = separator.intercalate (textsFrom style next fs) := by
  fun_induction join separator fs generalizing next with
  | case1 => rfl
  | case2 f => simp [textsFrom]
  | case3 f g fs ih =>
    rw [textFrom_append, textFrom, ih]
    simp only [textsFrom, String.intercalate_cons_cons, String.append_assoc]

theorem textFrom_bracket (next : Nat) (f : Fragment) :
    textFrom style next f.bracket = "(" ++ textFrom style next f ++ ")" := by
  simp [bracket, textFrom, textFrom_append, String.append_assoc]

end

end Fragment

end FilterSql
