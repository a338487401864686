import FilterSql.Proofs.Atom

/-!
# Tokens as formulas

Tokens are a `Factor` of a formula if they are read as one operand, whatever stands around them, and
`Whole` if they are read as the whole inside of a bracket.  Tests are factors (`Atom.factor`), so are
negated factors and brackets around a whole (`Factor.not`, `Whole.bracket`); factors with `AND`
between them are a whole, and so are factors with `OR` between them (`whole_all`, `whole_any`).
-/

namespace FilterSql

/-! ## single steps -/

theorem readFrames_skip (ts rest : List Token) (fs : List Frame) :
    readFrames ts.length (ts ++ rest) fs = readFrames 0 rest fs := by
  induction ts with
  | nil => rfl
  | cons t ts ih => exact ih

theorem readFrames_connective {t : Token} (ht : t.isConnective = true) (rest : List Token)
    (fs : List Frame) :
    readFrames 0 (t :: rest) fs = (Frame.step t fs).bind (readFrames 0 rest) := by
  rw [readFrames, if_pos ht]

theorem Atom.tokens_eq_cons (a : Atom) : ∃ t ts, a.tokens = t :: ts ∧ t.isConnective = false := by
  cases a with
  | never => exact ⟨_, _, rfl, rfl⟩
  | test c fold what =>
    obtain ⟨field, collection⟩ := c
    cases fold <;> cases collection <;> exact ⟨_, _, rfl, rfl⟩

theorem readFrames_atom {a : Atom} (ha : a.Proper) (rest : List Token) (fs : List Frame) :
    readFrames 0 (a.tokens ++ rest) fs = (Frame.test a fs).bind (readFrames 0 rest) := by
  obtain ⟨t, ts, hts, ht⟩ := a.tokens_eq_cons
  have hread := Atom.read?_tokens ha rest
  rw [hts, List.cons_append] at hread ⊢
  have hskip : (ts ++ rest).length - rest.length = ts.length := by
    rw [List.length_append]
    omega
  rw [readFrames, if_neg (by rw [ht]; decide), hread]
  show (Frame.test a fs).bind (readFrames ((ts ++ rest).length - rest.length) (ts ++ rest)) = _
  rw [hskip]
  exact congrArg _ (funext (readFrames_skip ts rest))

/-! ## factors -/

/-- the tokens are read as one operand, in any frame that misses one -/
def Factor (ts : List Token) (φ : Formula Atom) : Prop :=
  ∀ (d c : Option (Formula Atom)) (n : Nat) (fs : List Frame) (rest : List Token),
    readFrames 0 (ts ++ rest) (⟨d, c, n, none⟩ :: fs) =
      readFrames 0 rest (⟨d, c, 0, some (Frame.negate n φ)⟩ :: fs)

/-- the tokens are read as all that stands inside a bracket -/
def Whole (ts : List Token) (φ : Formula Atom) : Prop :=
  ∀ (fs : List Frame) (rest : List Token), ∃ frame : Frame,
    readFrames 0 (ts ++ rest) (.fresh :: fs) = readFrames 0 rest (frame :: fs) ∧
      frame.formula? = some φ

theorem Atom.factor {a : Atom} (ha : a.Proper) : Factor a.tokens (.atom a) := by
  intro d c n fs rest
  rw [readFrames_atom ha]
  rfl

theorem Factor.not {ts : List Token} {φ : Formula Atom} (h : Factor ts φ) :
    Factor (.keyword .not :: ts) φ.not := by
  intro d c n fs rest
  rw [List.cons_append, readFrames_connective rfl]
  show readFrames 0 (ts ++ rest) (⟨d, c, n + 1, none⟩ :: fs) = _
  rw [h]
  rfl

theorem Factor.whole {ts : List Token} {φ : Formula Atom} (h : Factor ts φ) : Whole ts φ :=
  fun fs rest => ⟨⟨none, none, 0, some φ⟩, h none none 0 fs rest, rfl⟩

theorem Whole.bracket {ts : List Token} {φ : Formula Atom} (h : Whole ts φ) :
    Factor (.open :: (ts ++ [.close])) φ := by
  intro d c n fs rest
  -- what is inside is read in a frame of its own, on top of those that are open
  obtain ⟨frame, hread, hformula⟩ := h (⟨d, c, n, none⟩ :: fs) (.close :: rest)
  rw [List.cons_append, List.append_assoc, readFrames_connective rfl]
  show readFrames 0 (ts ++ .close :: rest) (.fresh :: ⟨d, c, n, none⟩ :: fs) = _
  rw [hread, readFrames_connective rfl, Frame.step, hformula]
  rfl

theorem Whole.read {ts : List Token} {φ : Formula Atom} (h : Whole ts φ) :
    ∃ frame : Frame, readFrames 0 ts [.fresh] = some [frame] ∧ frame.formula? = some φ := by
  obtain ⟨frame, hread, hformula⟩ := h [] []
  rw [List.append_nil] at hread
  exact ⟨frame, hread, hformula⟩

/-! ## chains -/

/-- factors with one connective between them.  `frame` is what the connective makes of the formula
before it and an operand behind it; the induction moves that formula along. -/
theorem readFrames_join (t : Token) (op : Formula Atom → Formula Atom → Formula Atom)
    (frame : Option (Formula Atom) → Option (Formula Atom) → Frame)
    (hfactor : ∀ before ts φ fs rest, Factor ts φ →
      readFrames 0 (ts ++ rest) (frame before none :: fs) =
        readFrames 0 rest (frame before (some φ) :: fs))
    (hstep : ∀ before φ fs rest, readFrames 0 (t :: rest) (frame before (some φ) :: fs) =
      readFrames 0 rest (frame (some (Frame.behind op before φ)) none :: fs))
    {ts : List Token} {tss : List (List Token)} {φ : Formula Atom} {φs : List (Formula Atom)}
    (hfirst : Factor ts φ) (h : List.Forall₂ Factor tss φs) (before : Option (Formula Atom))
    (fs : List Frame) (rest : List Token) : ∃ before' ψ,
      readFrames 0 (Token.join t (ts :: tss) ++ rest) (frame before none :: fs) =
        readFrames 0 rest (frame before' (some ψ) :: fs) ∧
          Frame.behind op before' ψ = φs.foldl op (Frame.behind op before φ) := by
  induction h generalizing before ts φ with
  | nil => exact ⟨before, φ, hfactor before ts φ fs rest hfirst, rfl⟩
  | @cons us ψ tss φs hsecond _ ih =>
    obtain ⟨before', χ, hread, hformula⟩ := ih hsecond (some (Frame.behind op before φ))
    refine ⟨before', χ, ?_, hformula⟩
    show readFrames 0 (ts ++ t :: Token.join t (us :: tss) ++ rest) _ = _
    rw [List.append_assoc, hfactor before ts φ fs _ hfirst, List.cons_append, hstep, hread]

theorem whole_all {tss : List (List Token)} {φs : List (Formula Atom)} {φ : Formula Atom}
    (h : List.Forall₂ Factor tss φs) (hφ : Formula.all? φs = some φ) :
    Whole (Token.join (.keyword .and) tss) φ := by
  intro fs rest
  cases h with
  | nil => cases hφ
  | cons hfirst hrest =>
    obtain ⟨before, ψ, hread, hformula⟩ := readFrames_join (.keyword .and) .and
      (fun c o => ⟨none, c, 0, o⟩) (fun c _ _ fs rest h => h none c 0 fs rest)
      (fun _ _ _ _ => readFrames_connective rfl _ _) hfirst hrest none fs rest
    refine ⟨⟨none, before, 0, some ψ⟩, hread, ?_⟩
    show some (Frame.behind .and before ψ) = some φ
    rw [hformula]
    exact hφ

theorem whole_any {tss : List (List Token)} {φs : List (Formula Atom)} {φ : Formula Atom}
    (h : List.Forall₂ Factor tss φs) (hφ : Formula.any? φs = some φ) :
    Whole (Token.join (.keyword .or) tss) φ := by
  intro fs rest
  cases h with
  | nil => cases hφ
  | cons hfirst hrest =>
    obtain ⟨before, ψ, hread, hformula⟩ := readFrames_join (.keyword .or) .or
      (fun d o => ⟨d, none, 0, o⟩) (fun d _ _ fs rest h => h d none 0 fs rest)
      (fun _ _ _ _ => readFrames_connective rfl _ _) hfirst hrest none fs rest
    refine ⟨⟨before, none, 0, some ψ⟩, hread, ?_⟩
    show some (Frame.behind .or before ψ) = some φ
    rw [hformula]
    exact hφ

end FilterSql
