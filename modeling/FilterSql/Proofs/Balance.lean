import FilterSql.Proofs.Atom

/-!
# Balanced fragments

The clauses of a filter whose names have no brackets are balanced in every style
(`Filter.balanced_fragments_of_bare`), so brackets around all of them are one group
(`Fragment.isSingleGroup_ofClauses`).
-/

namespace FilterSql

/-- the text of the fragment is balanced in every style -/
def Fragment.IsBalanced (F : Fragment) : Prop :=
  ∀ (style : BindStyle) (next : Nat), Balanced (F.textFrom style next).toList

namespace Fragment.IsBalanced

theorem nil : IsBalanced [] := fun _ _ _ _ => rfl

theorem text_cons {s : String} {F : Fragment} (hs : Balanced s.toList) (hF : IsBalanced F) :
    IsBalanced (.text s :: F) := by
  intro style next
  rw [textFrom, String.toList_append]
  exact hs.append (hF style next)

theorem hole (field : String) (value : Value) : IsBalanced [.hole field value] := by
  intro style next
  rw [textFrom, String.toList_append]
  exact (style.bare_placeholder next field).balanced.append (nil style (next + 1))

theorem append {F G : Fragment} (hF : IsBalanced F) (hG : IsBalanced G) : IsBalanced (F ++ G) := by
  intro style next
  rw [textFrom_append, String.toList_append]
  exact (hF style next).append (hG style _)

theorem bracket {F : Fragment} (hF : IsBalanced F) : IsBalanced F.bracket := by
  intro style next
  rw [textFrom_bracket, String.toList_append, String.toList_append]
  exact (hF style next).bracket

theorem join {separator : String} (hs : Bare separator.toList) {fs : List Fragment}
    (h : ∀ F ∈ fs, IsBalanced F) : IsBalanced (join separator fs) := by
  fun_induction Fragment.join separator fs with
  | case1 => exact nil
  | case2 F => exact h F (List.mem_singleton.mpr rfl)
  | case3 F G fs ih =>
    have hrest := ih fun D hD => h D (List.mem_cons_of_mem F hD)
    exact (h F List.mem_cons_self).append (text_cons hs.balanced hrest)

end Fragment.IsBalanced

theorem bare_and : Bare " AND ".toList := bare_of_all (by decide)

theorem Fragment.IsBalanced.stable : Stable IsBalanced where
  nil := nil
  joinAnd := join bare_and
  joinOr := join (bare_of_all (by decide))
  bracket := bracket
  not := text_cons (bare_of_all (by decide)).balanced

/-! ## clauses -/

theorem balanced_lower {s : String} (h : Balanced s.toList) :
    Balanced ("LOWER(" ++ s ++ ")").toList := by
  have hword : Bare "LOWER".toList := bare_of_all (by decide)
  have htext : ("LOWER(" ++ s ++ ")").toList = "LOWER".toList ++ '(' :: (s.toList ++ [')']) := by
    rw [String.toList_append, String.toList_append]
    rfl
  rw [htext]
  exact hword.balanced.append h.bracket

theorem Clause.balanced_opening {c : Column} (hc : Bare c.text.toList) (fold : Bool)
    {keyword : String} (hkeyword : Bare keyword.toList) : Balanced (opening c fold keyword).toList := by
  have hblank : Bare " ".toList := bare_of_all (by decide)
  have hexpression : Balanced (c.expression fold).toList := by
    cases fold with
    | false => exact hc.balanced
    | true =>
      show Balanced (lower c.text).toList
      rw [lower_of_bare hc]
      exact balanced_lower hc.balanced
  rw [opening, String.toList_append, String.toList_append, String.toList_append]
  exact ((hexpression.append hblank.balanced).append hkeyword.balanced).append hblank.balanced

theorem Clause.balanced_operand (column : Column) (fold : Bool) (value : Value) :
    (operand column fold value).IsBalanced := by
  unfold operand
  split
  · intro style next
    simp only [Fragment.textFrom, String.append_empty, ← String.append_assoc]
    exact balanced_lower (style.bare_placeholder next column.field).balanced
  · exact .hole column.field value

def Clause.column : Clause → Column
  | .null c _ => c
  | .array c .. => c
  | .primitive c _ => c
  | .comparison c .. => c
  | .pattern c .. => c
  | .range c .. => c

theorem Clause.column_ofConstraint? {name : String} {c : Constraint} {clause : Clause}
    (h : ofConstraint? name c = some clause) : clause.column = ⟨name, c.collection?⟩ := by
  cases c with
  | scalar value => cases value <;> cases h <;> rfl
  | list values => cases h; rfl
  | field f =>
    obtain ⟨op, -, rfl⟩ := Option.map_eq_some_iff.mp h
    cases op with
    | compare op value => cases op <;> cases value <;> rfl
    | _ => rfl

theorem Clause.balanced_fragment? {clause : Clause} (hc : Bare clause.column.text.toList)
    {F : Fragment} (h : clause.fragment? = some F) : F.IsBalanced := by
  cases clause with
  | null c negated =>
    cases h
    have hword : Bare (if negated then " IS NOT NULL" else " IS NULL").toList := by
      refine bare_of_all ?_
      cases negated <;> decide
    refine .text_cons ?_ .nil
    rw [String.toList_append]
    exact hc.balanced.append hword.balanced
  | array c values negated fold =>
    cases values with
    | nil =>
      have hnever : Bare "1 = 0".toList := bare_of_all (by decide)
      cases negated with
      | false => cases h; exact .text_cons hnever.balanced .nil
      | true => cases h
    | cons value values =>
      cases h
      have hword : Bare (if negated then "NOT IN" else "IN").toList := by
        refine bare_of_all ?_
        cases negated <;> decide
      have hcomma : Bare ", ".toList := bare_of_all (by decide)
      refine .text_cons (balanced_opening hc _ hword) (Fragment.IsBalanced.bracket ?_)
      refine .join hcomma fun F hF => ?_
      obtain ⟨v, -, rfl⟩ := List.mem_map.mp hF
      exact balanced_operand c _ v
  | primitive c value =>
    cases h
    exact .text_cons (balanced_opening hc false (bare_of_all (by decide))) (balanced_operand c _ _)
  | comparison c op value fold =>
    cases h
    have hword : Bare op.keyword.toList := by
      refine bare_of_all ?_
      cases op <;> decide
    exact .text_cons (balanced_opening hc _ hword) (balanced_operand c _ _)
  | pattern c position value fold =>
    obtain ⟨s, -, rfl⟩ := Option.map_eq_some_iff.mp h
    exact .text_cons (balanced_opening hc _ (bare_of_all (by decide))) (balanced_operand c _ _)
  | range c lo hi fold =>
    cases h
    have hbetween := balanced_opening hc (fold && (lo.isTextual || hi.isTextual))
      (bare_of_all (by decide) : Bare "BETWEEN".toList)
    exact (Fragment.IsBalanced.text_cons hbetween (balanced_operand c _ lo)).append
      (.text_cons bare_and.balanced (balanced_operand c _ hi))

/-- the clauses of a filter are balanced if no name of a column in it has a bracket -/
theorem Filter.balanced_fragments_of_bare {f : Filter}
    (hf : ∀ x ∈ Filter.fields f, Bare (Column.text ⟨x.1, x.2.collection?⟩).toList) :
    ∀ F ∈ Filter.fragments f, F.IsBalanced := by
  refine Fragment.IsBalanced.stable.fragments fun name c hmem F hF => ?_
  obtain ⟨clause, hclause, hF⟩ := Option.bind_eq_some_iff.mp hF
  have hbare := hf (name, c) hmem
  rw [← Clause.column_ofConstraint? hclause] at hbare
  exact Clause.balanced_fragment? hbare hF

theorem Filter.balanced_fragments {f : Filter} (hf : f.Plain) :
    ∀ F ∈ Filter.fragments f, F.IsBalanced :=
  balanced_fragments_of_bare fun x hx => (hf x hx).bare

/-- brackets around a balanced fragment are one group -/
theorem Fragment.IsBalanced.isSingleGroup_bracket {F : Fragment} (h : F.IsBalanced)
    (style : BindStyle) (next : Nat) :
    FilterSql.isSingleGroup (F.bracket.textFrom style next) = true := by
  rw [textFrom_bracket, FilterSql.isSingleGroup, String.toList_append, String.toList_append]
  exact isGroup_bracket (h style next)

/-- balanced clauses make one group, however many they are -/
theorem Fragment.isSingleGroup_ofClauses {fs : List Fragment} (hne : fs ≠ [])
    (h : ∀ F ∈ fs, F.IsBalanced) (style : BindStyle) (next : Nat) :
    FilterSql.isSingleGroup ((ofClauses fs).textFrom style next) = true := by
  have hempty : fs.isEmpty = false := List.isEmpty_eq_false_iff.mpr hne
  simp only [ofClauses, hempty, Bool.false_eq_true, if_false]
  by_cases hsingle : (fs.length = 1 && (join " AND " fs).isSingleGroup) = true
  · rw [if_pos hsingle, isSingleGroup_textFrom]
    exact (Bool.and_eq_true_iff.mp hsingle).2
  · rw [if_neg hsingle]
    exact (IsBalanced.join bare_and h).isSingleGroup_bracket style next

end FilterSql
