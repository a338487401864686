import FilterSql.Proofs.Meaning
import FilterSql.Sql.Binding

/-!
# Reading a predicate

`readFormula?` reads the text of a predicate as SQL does and gives a formula.  It works in three
passes.  `lexemes` cuts the text into words, marks and signs; `tokens?` puts the bound values in the
place of the marks, in any of the four styles; and `readFrames` goes over the tokens with one `Frame`
for each open bracket.  There the precedence is fixed: a test is read as a whole (`Atom.read?`), so
the `AND` of a `BETWEEN` is part of it, then `NOT` binds, then `AND`, then `OR`.
-/

namespace FilterSql

/-! ## words and signs -/

inductive Keyword where
  | and
  | or
  | not
  | member
  | is
  | null
  | between
  | like
  | lower
  deriving DecidableEq

namespace Keyword

def text : Keyword → String
  | .and => "AND"
  | .or => "OR"
  | .not => "NOT"
  | .member => "IN"
  | .is => "IS"
  | .null => "NULL"
  | .between => "BETWEEN"
  | .like => "LIKE"
  | .lower => "LOWER"

def all : List Keyword := [.and, .or, .not, .member, .is, .null, .between, .like, .lower]

def ofWord? (w : List Char) : Option Keyword := all.find? (·.text.toList = w)

end Keyword

inductive Lexeme where
  | blank
  | word (w : List Char)
  /-- the place of a value: its sign and the word behind it -/
  | mark (sign : Char) (body : List Char)
  | comparison (c : Comparison)
  | open
  | close
  | comma
  | dot
  | other (c : Char)

/-- puts a name character before a text that has been cut already; a word grows to the left -/
def Lexeme.pushName (c : Char) : List Lexeme → List Lexeme
  | .word w :: ls => .word (c :: w) :: ls
  | ls => .word [c] :: ls

/-- puts a sign before a text; a comparison grows to the left, and a mark takes the word behind its
sign -/
def Lexeme.pushSign : Char → List Lexeme → List Lexeme
  | ' ', ls => .blank :: ls
  | '(', ls => .open :: ls
  | ')', ls => .close :: ls
  | ',', ls => .comma :: ls
  | '.', ls => .dot :: ls
  | '=', ls => .comparison .eq :: ls
  | '<', .comparison .eq :: ls => .comparison .lte :: ls
  | '<', .comparison .gt :: ls => .comparison .neq :: ls
  | '<', ls => .comparison .lt :: ls
  | '>', .comparison .eq :: ls => .comparison .gte :: ls
  | '>', ls => .comparison .gt :: ls
  | '?', ls => .mark '?' [] :: ls
  | '$', .word w :: ls => .mark '$' w :: ls
  | ':', .word w :: ls => .mark ':' w :: ls
  | '@', .word w :: ls => .mark '@' w :: ls
  | c, ls => .other c :: ls

def Lexeme.push (c : Char) (ls : List Lexeme) : List Lexeme :=
  if isNameChar c then pushName c ls else pushSign c ls

def lexemes (cs : List Char) : List Lexeme := cs.foldr Lexeme.push []

/-! ## tokens -/

/-- a part of a statement; values stand in it instead of their marks -/
inductive Token where
  | name (s : String)
  | keyword (k : Keyword)
  | value (v : Value)
  | comparison (c : Comparison)
  | open
  | close
  | comma
  | dot

def Token.ofWord (w : List Char) : Token :=
  match Keyword.ofWord? w with
  | some k => .keyword k
  | none => .name (String.ofList w)

/-- the value of a mark, the mark with the number `next` in the text: by its place, by the number
that it has, or by its name -/
def Param.ofMark? (params : List Param) (next : Nat) (sign : Char) (body : List Char) :
    Option Value :=
  match sign with
  | '?' => params[next - 1]?.map Param.value
  | '$' =>
    match body.all Char.isDigit, Nat.ofDigitChars 10 body 0 with
    | true, n + 1 => params[n]?.map Param.value
    | _, _ => none
  | _ => Param.find? params (String.ofList body)

/-- the tokens of a text whose first mark has the number `next`; none if a mark has no value or a
sign no meaning -/
def tokens? (params : List Param) (next : Nat) : List Lexeme → Option (List Token)
  | [] => some []
  | .blank :: ls => tokens? params next ls
  | .word w :: ls => (tokens? params next ls).map (.ofWord w :: ·)
  | .mark sign body :: ls => do
    let v ← Param.ofMark? params next sign body
    (tokens? params (next + 1) ls).map (.value v :: ·)
  | .comparison c :: ls => (tokens? params next ls).map (.comparison c :: ·)
  | .open :: ls => (tokens? params next ls).map (.open :: ·)
  | .close :: ls => (tokens? params next ls).map (.close :: ·)
  | .comma :: ls => (tokens? params next ls).map (.comma :: ·)
  | .dot :: ls => (tokens? params next ls).map (.dot :: ·)
  | .other _ :: _ => none

/-! ## tests -/

/-- reads a column at the start, and whether it is folded -/
def Column.read? : List Token → Option (Column × Bool × List Token)
  | .keyword .lower :: .open :: .name c :: .dot :: .name s :: .close :: ts =>
    some (⟨s, some c⟩, true, ts)
  | .keyword .lower :: .open :: .name s :: .close :: ts => some (⟨s, none⟩, true, ts)
  | .name c :: .dot :: .name s :: ts => some (⟨s, some c⟩, false, ts)
  | .name s :: ts => some (⟨s, none⟩, false, ts)
  | _ => none

def Operand.read? : List Token → Option (Operand × List Token)
  | .value v :: ts => some (⟨v, false⟩, ts)
  | .keyword .lower :: .open :: .value v :: .close :: ts => some (⟨v, true⟩, ts)
  | _ => none

/-- reads operands and the bracket that closes their list -/
def Operand.readList? : List Token → Option (List Operand × List Token)
  | .value v :: .comma :: ts => (readList? ts).map fun (os, ts) => (⟨v, false⟩ :: os, ts)
  | .value v :: .close :: ts => some ([⟨v, false⟩], ts)
  | .keyword .lower :: .open :: .value v :: .close :: .comma :: ts =>
    (readList? ts).map fun (os, ts) => (⟨v, true⟩ :: os, ts)
  | .keyword .lower :: .open :: .value v :: .close :: .close :: ts => some ([⟨v, true⟩], ts)
  | _ => none

def Test.read? : List Token → Option (Test × List Token)
  | .keyword .is :: .keyword .null :: ts => some (.isNull false, ts)
  | .keyword .is :: .keyword .not :: .keyword .null :: ts => some (.isNull true, ts)
  | .keyword .member :: .open :: ts =>
    (Operand.readList? ts).map fun (os, ts) => (.member false os, ts)
  | .keyword .not :: .keyword .member :: .open :: ts =>
    (Operand.readList? ts).map fun (os, ts) => (.member true os, ts)
  | .keyword .like :: ts => (Operand.read? ts).map fun (o, ts) => (.like o, ts)
  | .keyword .between :: ts =>
    match Operand.read? ts with
    | some (lo, .keyword .and :: ts) => (Operand.read? ts).map fun (hi, ts) => (.between lo hi, ts)
    | _ => none
  | .comparison c :: ts => (Operand.read? ts).map fun (o, ts) => (.compare c o, ts)
  | _ => none

/-- reads a test at the start; `1 = 0` never holds -/
def Atom.read? (ts : List Token) : Option (Atom × List Token) :=
  match Column.read? ts with
  | none => none
  | some (column, folded, .comparison .eq :: .name s :: ts) =>
    if column = ⟨"1", none⟩ ∧ folded = false ∧ s = "0" then some (.never, ts) else none
  | some (column, folded, ts) => (Test.read? ts).map fun (what, ts) => (.test column folded what, ts)

/-! ## connectives and brackets -/

/-- the inside of a bracket while it is read: what stands before its last `OR`, behind that before the
last `AND`, how many `NOT` behind that, and what they negate -/
structure Frame where
  disjunction : Option (Formula Atom)
  conjunction : Option (Formula Atom)
  negations : Nat
  operand : Option (Formula Atom)

namespace Frame

def fresh : Frame := ⟨none, none, 0, none⟩

/-- a formula with a number of negations before it -/
def negate : Nat → Formula Atom → Formula Atom
  | 0, φ => φ
  | n + 1, φ => negate n φ.not

/-- a formula behind another one, if there is one -/
def behind (op : Formula Atom → Formula Atom → Formula Atom) (before : Option (Formula Atom))
    (φ : Formula Atom) : Formula Atom :=
  match before with
  | none => φ
  | some ψ => op ψ φ

/-- what the last `AND` of the frame would have on its left now -/
def conjoined? (l : Frame) : Option (Formula Atom) := l.operand.map (behind .and l.conjunction)

/-- what the frame reads if it ends now -/
def formula? (l : Frame) : Option (Formula Atom) := l.conjoined?.map (behind .or l.disjunction)

/-- a formula put in the place of an operand, if one is missing, with the negations before it -/
def place? (l : Frame) (φ : Formula Atom) : Option Frame :=
  match l.operand with
  | none => some { l with negations := 0, operand := some (negate l.negations φ) }
  | some _ => none

end Frame

/-- tokens that build formulas from tests -/
def Token.isConnective : Token → Bool
  | .keyword .and | .keyword .or | .keyword .not | .open | .close => true
  | _ => false

/-- what a connective does to the open frames, the innermost first -/
def Frame.step : Token → List Frame → Option (List Frame)
  | .keyword .and, l :: ls => l.conjoined?.map fun φ => ⟨l.disjunction, some φ, 0, none⟩ :: ls
  | .keyword .or, l :: ls => l.formula?.map fun φ => ⟨some φ, none, 0, none⟩ :: ls
  | .keyword .not, l :: ls =>
    if l.operand.isNone then some ({ l with negations := l.negations + 1 } :: ls) else none
  | .open, l :: ls => if l.operand.isNone then some (.fresh :: l :: ls) else none
  | .close, l :: m :: ls => do
    let φ ← l.formula?
    let m ← m.place? φ
    return m :: ls
  | _, _ => none

/-- a test is an operand of the innermost frame -/
def Frame.test (a : Atom) : List Frame → Option (List Frame)
  | [] => none
  | l :: ls => (l.place? (.atom a)).map (· :: ls)

/-- goes over tokens of which the first `skip` belong to a test that has been read already -/
def readFrames : Nat → List Token → List Frame → Option (List Frame)
  | _, [], ls => some ls
  | skip + 1, _ :: ts, ls => readFrames skip ts ls
  | 0, t :: ts, ls =>
    if t.isConnective then (Frame.step t ls).bind (readFrames 0 ts)
    else
      match Atom.read? (t :: ts) with
      | none => none
      | some (a, rest) => (Frame.test a ls).bind (readFrames (ts.length - rest.length) ts)

def readFormula? (params : List Param) (sql : String) : Option (Formula Atom) := do
  let ts ← tokens? params 1 (lexemes sql.toList)
  match ← readFrames 0 ts [.fresh] with
  | [l] => l.formula?
  | _ => none

example : readFormula? [⟨"_1_a", .int 1⟩, ⟨"_2_a", .int 2⟩, ⟨"_3_c", .null⟩]
    "NOT a BETWEEN $1 AND $2 AND b IS NULL OR c = $3" = some
      (.or (.and (.not (.atom (.test ⟨"a", none⟩ false (.between ⟨.int 1, false⟩ ⟨.int 2, false⟩))))
          (.atom (.test ⟨"b", none⟩ false (.isNull false))))
        (.atom (.test ⟨"c", none⟩ false (.compare .eq ⟨.null, false⟩)))) := by
  rfl

end FilterSql
