import FilterSql.Proofs.Binding

/-!
# Placeholders and parameters

A fragment is a text before its first hole (`Fragment.lead`) and one text behind each hole
(`Fragment.tails`), whatever the style; so in all four styles a predicate is one list of texts with
the placeholders of its parameters between them (`Filter.compile_placeholders`).  The text behind a
hole never goes on with a name character: it is the end, a bracket, a comma or a blank.  This is the
invariant `Fragment.Apart`, and it makes a placeholder readable where it stands.
-/

namespace FilterSql

/-! ## texts behind a placeholder -/

/-- no name character comes next -/
def Stops (cs : List Char) : Prop := ∀ c, cs.head? = some c → ¬ isNameChar c

theorem Stops.append {cs ds : List Char} (hc : Stops cs) (hd : Stops ds) : Stops (cs ++ ds) := by
  cases cs with
  | nil => exact hd
  | cons c cs => exact hc

theorem stops_nil : Stops [] := by
  intro c h
  cases h

theorem stops_cons {c : Char} {cs : List Char} (h : ¬ isNameChar c) : Stops (c :: cs) := by
  intro d hd
  obtain rfl : c = d := Option.some.inj hd
  exact h

/-- the longest text at the start that can be a placeholder: a sign and all name characters behind
it -/
def longestMark : List Char → List Char
  | [] => []
  | sign :: cs => sign :: cs.takeWhile isNameChar

theorem longestMark_cons_append {sign : Char} {body rest : List Char}
    (hbody : ∀ c ∈ body, isNameChar c) (hrest : Stops rest) :
    longestMark (sign :: (body ++ rest)) = sign :: body := by
  have hnone : rest.takeWhile isNameChar = [] := by
    cases rest with
    | nil => rfl
    | cons c rest => exact List.takeWhile_cons_of_neg (hrest c rfl)
  rw [longestMark, List.takeWhile_append_of_pos hbody, hnone, List.append_nil]

/-! ## parameters with the texts behind them -/

/-- parameters as their placeholders, the first one numbered `next`, each with the text behind it -/
def spell (style : BindStyle) (next : Nat) : List (Param × String) → String
  | [] => ""
  | (p, tail) :: rest => style.placeholder next p.name ++ (tail ++ spell style (next + 1) rest)

theorem stops_spell (style : BindStyle) (next : Nat) (marked : List (Param × String)) :
    Stops (spell style next marked).toList := by
  cases marked with
  | nil => exact stops_nil
  | cons m marked =>
    rw [spell, String.toList_append, style.toList_placeholder]
    refine stops_cons ?_
    cases style <;> decide

theorem Param.getElem_number (next : Nat) (bs : List (String × Value)) (k : Nat)
    (hk : k < bs.length) (hk' : k < (Param.number next bs).length) :
    (Param.number next bs)[k] = ⟨paramName (next + k) bs[k].1, bs[k].2⟩ := by
  induction bs generalizing next k with
  | nil => exact absurd hk (Nat.not_lt_zero k)
  | cons b bs ih =>
    cases k with
    | zero => rfl
    | succ k =>
      have hlt : k < bs.length := Nat.lt_of_succ_lt_succ hk
      have hrest := ih (next + 1) k hlt (by rwa [length_number])
      rw [Nat.add_right_comm] at hrest
      exact hrest

/-! ## the texts of a fragment -/

namespace Fragment

def lead : Fragment → String
  | [] => ""
  | .text s :: f => s ++ lead f
  | .hole _ _ :: _ => ""

/-- the texts behind the holes, each up to the next one -/
def tails : Fragment → List String
  | [] => []
  | .text _ :: f => tails f
  | .hole _ _ :: f => lead f :: tails f

theorem length_tails (f : Fragment) : f.tails.length = f.bindings.length := by
  induction f with
  | nil => rfl
  | cons piece f ih => cases piece <;> simp [tails, ih]

theorem textFrom_eq_spell (style : BindStyle) (next : Nat) (f : Fragment) :
    textFrom style next f =
      f.lead ++ spell style next ((Param.number next f.bindings).zip f.tails) := by
  induction f generalizing next with
  | nil => rfl
  | cons piece f ih =>
    cases piece with
    | text s =>
      rw [textFrom, ih, lead, String.append_assoc]
      rfl
    | hole field value =>
      rw [textFrom, ih]
      simp only [lead, tails, bindings_hole, Param.number, List.zip_cons_cons, spell,
        String.empty_append]

/-! ## placeholders stand apart -/

/-- no text behind a hole starts with a name character -/
def Apart : Fragment → Prop
  | [] => True
  | .text _ :: f => Apart f
  | .hole _ _ :: f => Stops (lead f).toList ∧ Apart f

theorem Apart.stops_of_mem_tails {f : Fragment} (h : f.Apart) {tail : String} (ht : tail ∈ f.tails) :
    Stops tail.toList := by
  induction f with
  | nil => cases ht
  | cons piece f ih =>
    cases piece with
    | text s => exact ih h ht
    | hole field value =>
      rcases List.mem_cons.mp ht with rfl | ht
      · exact h.1
      · exact ih h.2 ht

theorem stops_lead_append {f g : Fragment} (hf : Stops f.lead.toList) (hg : Stops g.lead.toList) :
    Stops (f ++ g).lead.toList := by
  induction f with
  | nil => exact hg
  | cons piece f ih =>
    cases piece with
    | text s =>
      rw [List.cons_append, lead, String.toList_append]
      rw [lead, String.toList_append] at hf
      cases hs : s.toList with
      | nil =>
        rw [hs] at hf
        exact ih hf
      | cons c cs =>
        rw [hs] at hf
        exact stops_cons (hf c rfl)
    | hole field value => exact stops_nil

theorem Apart.append {f g : Fragment} (hf : f.Apart) (hg : g.Apart) (hlead : Stops g.lead.toList) :
    Apart (f ++ g) := by
  induction f with
  | nil => exact hg
  | cons piece f ih =>
    cases piece with
    | text s => exact ih hf
    | hole field value => exact ⟨stops_lead_append hf.1 hlead, ih hf.2⟩

/-- a text that starts with a sign may stand behind a hole -/
theorem Apart.append_text {f g : Fragment} (hf : f.Apart) (hg : g.Apart) {s : String}
    (hs : ∃ c cs, s.toList = c :: cs ∧ ¬ isNameChar c) : Apart (f ++ .text s :: g) := by
  refine hf.append (g := .text s :: g) hg ?_
  obtain ⟨c, cs, hcs, hc⟩ := hs
  rw [lead, String.toList_append, hcs]
  exact stops_cons hc

theorem Apart.join {separator : String} (hs : ∃ c cs, separator.toList = c :: cs ∧ ¬ isNameChar c)
    {fs : List Fragment} (h : ∀ f ∈ fs, Apart f) : Apart (join separator fs) := by
  fun_induction Fragment.join separator fs with
  | case1 => trivial
  | case2 f => exact h f (List.mem_singleton.mpr rfl)
  | case3 f g fs ih =>
    exact (h f List.mem_cons_self).append_text
      (ih fun d hd => h d (List.mem_cons_of_mem f hd)) hs

theorem Apart.bracket {f : Fragment} (h : f.Apart) : f.bracket.Apart :=
  h.append_text (g := []) trivial ⟨')', [], rfl, by decide⟩

theorem Apart.stable : Stable Apart where
  nil := trivial
  joinAnd := Apart.join ⟨' ', _, rfl, by decide⟩
  joinOr := Apart.join ⟨' ', _, rfl, by decide⟩
  bracket := Apart.bracket
  not h := h

end Fragment

/-! ## clauses -/

theorem Clause.apart_operand (column : Column) (fold : Bool) (value : Value) :
    (operand column fold value).Apart := by
  unfold operand
  split
  · have hclose : Stops [')'] := stops_cons (by decide)
    exact ⟨hclose, trivial⟩
  · exact ⟨stops_nil, trivial⟩

theorem Clause.apart_fragment? {clause : Clause} {F : Fragment} (h : clause.fragment? = some F) :
    F.Apart := by
  cases clause with
  | null column negated => cases h; trivial
  | array column values negated fold =>
    cases values with
    | nil => cases negated <;> cases h; trivial
    | cons value values =>
      cases h
      refine Fragment.Apart.bracket (Fragment.Apart.join ⟨',', _, rfl, by decide⟩ fun f hf => ?_)
      obtain ⟨v, -, rfl⟩ := List.mem_map.mp hf
      exact apart_operand ..
  | primitive column value => cases h; exact apart_operand ..
  | comparison column op value fold => cases h; exact apart_operand ..
  | pattern column position value fold =>
    obtain ⟨text, -, rfl⟩ := Option.map_eq_some_iff.mp h
    exact apart_operand ..
  | range column lo hi fold =>
    cases h
    exact Fragment.Apart.append_text (apart_operand ..) (apart_operand ..)
      ⟨' ', _, rfl, by decide⟩

theorem Filter.apart_fragment (f : Filter) : f.fragment.Apart := by
  refine Fragment.Apart.stable.ofClauses (Fragment.Apart.stable.fragments fun name c _ F hF => ?_)
  obtain ⟨clause, -, hclause⟩ := Option.bind_eq_some_iff.mp hF
  exact Clause.apart_fragment? hclause

/-! ## predicates -/

/-- at the place of the parameter with index `k` its placeholder is read, no more and no less -/
theorem Fragment.Apart.longestMark_spell {F : Fragment} (hapart : F.Apart) (style : BindStyle)
    {k : Nat} (hk : k < (Param.number 1 F.bindings).length) :
    longestMark (spell style (k + 1) (((Param.number 1 F.bindings).zip F.tails).drop k)).toList =
      (style.placeholder (k + 1) (Param.number 1 F.bindings)[k].name).toList := by
  have hlt : k < F.bindings.length := by rwa [Param.length_number] at hk
  have htail : k < F.tails.length := by rwa [length_tails]
  have hzip : k < ((Param.number 1 F.bindings).zip F.tails).length := by
    rw [List.length_zip]
    omega
  have hname : ((Param.number 1 F.bindings)[k]).name = paramName (k + 1) F.bindings[k].1 := by
    rw [Param.getElem_number 1 F.bindings k hlt hk, Nat.add_comm]
  have hbehind : Stops (F.tails[k].toList ++ (spell style (k + 1 + 1)
      (((Param.number 1 F.bindings).zip F.tails).drop (k + 1))).toList) :=
    (hapart.stops_of_mem_tails (List.getElem_mem htail)).append (stops_spell _ _ _)
  rw [List.drop_eq_getElem_cons hzip, List.getElem_zip, spell, String.toList_append,
    style.toList_placeholder, String.toList_append, hname]
  exact longestMark_cons_append (fun _ => BindStyle.isNameChar_of_mem_body) hbehind

/-- **Placeholders and parameters match one to one and in order.**  A filter is refused with the same
error in all styles, or has one list of parameters and one list of texts: in every style its
predicate is the first text and then, for each parameter, its placeholder and a text.  These texts do
not start with a name character, so the longest mark at the place of a parameter is its
placeholder. -/
theorem Filter.compile_placeholders (max : Nat) (f : Filter) :
    (∃ e, ∀ style, f.compile style max = .error e) ∨
      ∃ (params : List Param) (first : String) (tails : List String),
        tails.length = params.length ∧ (∀ tail ∈ tails, Stops tail.toList) ∧
          ∀ style, f.compile style max = .ok ⟨first ++ spell style 1 (params.zip tails), params⟩ ∧
            ∀ k (hk : k < params.length),
              longestMark (spell style (k + 1) ((params.zip tails).drop k)).toList =
                (style.placeholder (k + 1) params[k].name).toList := by
  cases hguard : Filter.guard max 1 f with
  | error e =>
    refine Or.inl ⟨e, fun style => ?_⟩
    rw [compile_eq, hguard]
    rfl
  | ok _ =>
    have hapart := f.apart_fragment
    refine Or.inr ⟨Param.number 1 f.fragment.bindings, f.fragment.lead, f.fragment.tails, ?_,
      fun _ => hapart.stops_of_mem_tails, fun style => ⟨?_, fun k hk => ?_⟩⟩
    · rw [Fragment.length_tails, Param.length_number]
    · rw [compile_eq, hguard, Fragment.textFrom_eq_spell]
      rfl
    · exact hapart.longestMark_spell style hk

end FilterSql
