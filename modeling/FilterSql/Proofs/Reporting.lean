import FilterSql.Proofs.Counter
import FilterSql.Proofs.Display
import FilterSql.Proofs.Lossless

/-!
# The lines of a report

A report has one line for the text of the query and one for each parameter, with all values in one
column (`Query.toList_report`), and no value adds a line (`Param.not_mem_row`).  What stands in a line can
be read off it: the name ends at the first blank (`Param.name_of_row`), and the type is what the last
bracket opens (`Value.display_of_typed`).
-/

namespace FilterSql

/-! ## lines -/

/-- lines that each end with a line feed are what a text is split into -/
theorem splitOn_lines {ls : List (List Char)} (h : ∀ l ∈ ls, '\n' ∉ l) :
    (ls.flatMap (· ++ ['\n'])).splitOn '\n' = ls ++ [[]] := by
  have hjoin : ls.flatMap (· ++ ['\n']) = ['\n'].intercalate (ls ++ [[]]) := by
    clear h
    induction ls with
    | nil => rfl
    | cons l ls ih =>
      rw [List.flatMap_cons, List.cons_append, List.intercalate_cons_of_ne_nil (by simp), ih]
  have hlast : ∀ l ∈ ls ++ [[]], '\n' ∉ l :=
    List.forall_mem_append.mpr ⟨h, List.forall_mem_singleton.mpr List.not_mem_nil⟩
  rw [hjoin, List.splitOn_intercalate '\n' hlast (by simp)]

/-- what a text holds up to the first character of another kind -/
theorem append_cons_inj {kind : Char → Bool} {xs ys s t : List Char} {a b : Char}
    (hxs : ∀ c ∈ xs, kind c = true) (hys : ∀ c ∈ ys, kind c = true) (ha : kind a = false)
    (hb : kind b = false) (h : xs ++ a :: s = ys ++ b :: t) : xs = ys ∧ a :: s = b :: t := by
  have htake := congrArg (List.takeWhile kind) h
  have hdrop := congrArg (List.dropWhile kind) h
  rw [List.takeWhile_append_of_pos hxs, List.takeWhile_append_of_pos hys] at htake
  rw [List.dropWhile_append_of_pos hxs, List.dropWhile_append_of_pos hys] at hdrop
  simpa [ha, hb] using And.intro htake hdrop

/-! ## columns -/

theorem le_foldl_max (ns : List Nat) (a : Nat) :
    a ≤ ns.foldl max a ∧ ∀ n ∈ ns, n ≤ ns.foldl max a := by
  induction ns generalizing a with
  | nil => exact ⟨Nat.le_refl a, List.forall_mem_nil _⟩
  | cons n ns ih =>
    obtain ⟨hmax, hrest⟩ := ih (max a n)
    rw [List.foldl_cons]
    exact ⟨by omega, List.forall_mem_cons.mpr ⟨by omega, hrest⟩⟩

/-- a name has as many bytes as characters -/
theorem utf8ByteSize_of_isNameChar {cs : List Char} (h : ∀ c ∈ cs, isNameChar c = true) :
    (String.ofList cs).utf8ByteSize = cs.length := by
  induction cs with
  | nil => rfl
  | cons c cs ih =>
    obtain ⟨hc, hcs⟩ := List.forall_mem_cons.mp h
    have hsize : c.utf8Size = 1 := by
      rw [Char.utf8Size_eq_one_iff, UInt32.le_iff_toNat_le]
      exact Nat.le_trans (toNat_of_isNameChar hc).2 (by decide)
    rw [utf8ByteSize_ofList_cons, hsize, ih hcs, List.length_cons, Nat.add_comm]

def Param.IsNamed (p : Param) : Prop := ∀ c ∈ p.name.toList, isNameChar c = true

theorem Request.isNamed_of_mem {limits : Limits} {r : Request} {q : Query}
    (h : r.compile limits = .ok q) : ∀ p ∈ q.params, p.IsNamed := by
  intro p hp c hc
  obtain ⟨predicate, hpredicate, -, hparams⟩ := exists_predicate h
  rw [hparams, Filter.eq_of_compile hpredicate] at hp
  obtain ⟨n, field, -, hname⟩ := Param.exists_number_of_mem hp
  rw [hname] at hc
  exact isNameChar_of_mem_paramName hc

theorem Param.length_le_nameWidth {params : List Param} {p : Param} (hp : p ∈ params)
    (hnamed : p.IsNamed) : p.name.length ≤ nameWidth params := by
  have hbytes : p.name.utf8ByteSize = p.name.length := by
    rw [← String.length_toList, ← utf8ByteSize_of_isNameChar hnamed, String.ofList_toList]
  rw [← hbytes]
  exact (le_foldl_max _ 0).2 _ (List.mem_map.mpr ⟨p, hp, rfl⟩)

/-! ## rows -/

/-- a parameter in one line: two blanks and its name, blanks up to a column, and from there on its value,
and its type in brackets -/
def Param.row (column : Nat) (p : Param) : List Char :=
  ("  " ++ p.name).toList ++ List.replicate (column - ("  " ++ p.name).length) ' ' ++
    (p.value.display ++ "  (" ++ p.value.typeName ++ ")").toList

/-- the lines of a report with its values in a column -/
def Query.rows (column : Nat) (q : Query) : List (List Char) :=
  ("SQL: " ++ q.sql).toList ::
    if q.params.isEmpty then ["Params: (none)".toList]
    else "Params:".toList :: q.params.map (Param.row column)

theorem Param.toList_line {width : Nat} {p : Param} (h : p.name.length ≤ width) :
    (p.line width).toList = p.row (width + 4) ++ ['\n'] := by
  have hblanks : List.replicate (width - p.name.length) ' ' ++ "  ".toList =
      List.replicate (width + 4 - ("  " ++ p.name).length) ' ' := by
    rw [show "  ".toList = List.replicate 2 ' ' from rfl, List.replicate_append_replicate,
      String.length_append]
    congr 1
    show width - p.name.length + 2 = width + 4 - (2 + p.name.length)
    omega
  unfold Param.line Param.row padRight
  rw [← hblanks]
  simp [String.toList_append]

theorem Query.toList_report {q : Query} (hnamed : ∀ p ∈ q.params, p.IsNamed) :
    q.report.toList = (q.rows (nameWidth q.params + 4)).flatMap (· ++ ['\n']) := by
  unfold Query.report Query.rows
  split
  · simp [String.toList_append]
  · have hlines : (q.params.map (Param.line (nameWidth q.params))).flatMap String.toList =
        (q.params.map (Param.row (nameWidth q.params + 4))).flatMap (· ++ ['\n']) := by
      rw [List.flatMap_map, List.flatMap_map]
      exact List.flatMap_congr fun p hp =>
        Param.toList_line (Param.length_le_nameWidth hp (hnamed p hp))
    simp [String.toList_append, String.toList_join, hlines]

/-- a row stays on its line -/
theorem Param.not_mem_row {column : Nat} {p : Param} (h : p.IsNamed) : '\n' ∉ p.row column := by
  have hname : '\n' ∉ p.name.toList := fun hmem => absurd (h _ hmem) (by decide)
  have hvalue : '\n' ∉ p.value.display.toList := by
    intro hmem
    have hprintable := Value.isPrintable_of_mem_display hmem
    rw [Text.isPrintable_lineFeed] at hprintable
    cases hprintable
  have htype : '\n' ∉ p.value.typeName.toList :=
    fun hmem => absurd (Value.isLower_of_mem_typeName hmem) (by decide)
  unfold Param.row
  simp [String.toList_append, hname, hvalue, htype]

theorem Query.not_mem_rows {column : Nat} {q : Query} (hsql : '\n' ∉ q.sql.toList)
    (hnamed : ∀ p ∈ q.params, p.IsNamed) : ∀ l ∈ q.rows column, '\n' ∉ l := by
  unfold Query.rows
  refine List.forall_mem_cons.mpr ⟨?_, ?_⟩
  · simp [String.toList_append, hsql]
  · split
    · exact List.forall_mem_singleton.mpr (by decide)
    · refine List.forall_mem_cons.mpr ⟨by decide, List.forall_mem_map.mpr fun p hp => ?_⟩
      exact Param.not_mem_row (hnamed p hp)

/-! ## what a row tells -/

theorem Param.exists_row_eq {column : Nat} {p : Param} (h : p.name.length + 4 ≤ column) :
    ∃ rest, p.row column = "  ".toList ++ (p.name.toList ++ ' ' :: rest) := by
  have hlength : ("  " ++ p.name).length = 2 + p.name.length := String.length_append _ _
  obtain ⟨n, hn⟩ := Nat.exists_eq_add_of_le h
  have hblanks : column - ("  " ++ p.name).length = n + 1 + 1 := by omega
  unfold Param.row
  rw [hblanks, List.replicate_succ, String.toList_append, List.append_assoc, List.append_assoc]
  exact ⟨_, rfl⟩

/-- the name ends at the first blank -/
theorem Param.name_of_row {column column' : Nat} {p p' : Param} (h : p.IsNamed) (h' : p'.IsNamed)
    (hcolumn : p.name.length + 4 ≤ column) (hcolumn' : p'.name.length + 4 ≤ column')
    (hrow : p.row column = p'.row column') : p.name = p'.name := by
  obtain ⟨rest, hp⟩ := exists_row_eq hcolumn
  obtain ⟨rest', hp'⟩ := exists_row_eq hcolumn'
  rw [hp, hp'] at hrow
  have hnames := List.append_cancel_left hrow
  exact String.toList_inj.mp (append_cons_inj h h' (by decide) (by decide) hnames).1

/-- the type is what the last bracket opens -/
theorem Value.display_of_typed {v w : Value}
    (h : (v.display ++ "  (" ++ v.typeName ++ ")").toList =
      (w.display ++ "  (" ++ w.typeName ++ ")").toList) :
    v.display = w.display ∧ v.typeName = w.typeName := by
  have hlower : ∀ u : Value, ∀ c ∈ u.typeName.toList.reverse, c.isLower = true :=
    fun u c hc => isLower_of_mem_typeName (List.mem_reverse.mp hc)
  have hreverse : v.typeName.toList.reverse ++ '(' :: ("  ".toList ++ v.display.toList.reverse) =
      w.typeName.toList.reverse ++ '(' :: ("  ".toList ++ w.display.toList.reverse) := by
    simpa [String.toList_append] using congrArg List.reverse h
  obtain ⟨htype, hdisplay⟩ := append_cons_inj (hlower v) (hlower w) rfl rfl hreverse
  have hdisplay := List.append_cancel_left (List.cons.inj hdisplay).2
  exact ⟨String.toList_inj.mp (List.reverse_inj.mp hdisplay),
    String.toList_inj.mp (List.reverse_inj.mp htype)⟩

/-- rows with one column are equal only if the parameters are -/
theorem Param.eq_of_row {column : Nat} {p p' : Param} (hname : p.name = p'.name)
    (hshown : p.value.isShown = true) (hrow : p.row column = p'.row column) : p = p' := by
  unfold Param.row at hrow
  rw [hname] at hrow
  obtain ⟨hdisplay, htype⟩ := Value.display_of_typed (List.append_cancel_left hrow)
  obtain ⟨name, value⟩ := p
  obtain ⟨name', value'⟩ := p'
  rw [Param.mk.injEq]
  exact ⟨hname, Value.eq_of_display_eq hshown htype hdisplay⟩

/-- what two items share because of what is equal -/
theorem map_eq_map_of {α β γ : Type} {f g : α → β} {h k : α → γ} {xs ys : List α}
    (himp : ∀ x ∈ xs, ∀ y ∈ ys, f x = g y → h x = k y) (heq : xs.map f = ys.map g) :
    xs.map h = ys.map k := by
  rw [← List.forall₂_eq_eq_eq, List.forall₂_map_left_iff, List.forall₂_map_right_iff] at heq ⊢
  induction heq with
  | nil => exact .nil
  | cons hxy _ ih =>
    refine .cons (himp _ List.mem_cons_self _ List.mem_cons_self hxy) (ih fun x hx y hy => ?_)
    exact himp x (List.mem_cons_of_mem _ hx) y (List.mem_cons_of_mem _ hy)

theorem Param.params_of_rows {params params' : List Param} (hnamed : ∀ p ∈ params, p.IsNamed)
    (hnamed' : ∀ p ∈ params', p.IsNamed) (hshown : ∀ p ∈ params, p.value.isShown = true)
    (h : params.map (Param.row (nameWidth params + 4)) =
      params'.map (Param.row (nameWidth params' + 4))) : params = params' := by
  have hname : ∀ p ∈ params, ∀ p' ∈ params',
      p.row (nameWidth params + 4) = p'.row (nameWidth params' + 4) → p.name = p'.name :=
    fun p hp p' hp' => name_of_row (hnamed p hp) (hnamed' p' hp')
      (Nat.add_le_add_right (length_le_nameWidth hp (hnamed p hp)) 4)
      (Nat.add_le_add_right (length_le_nameWidth hp' (hnamed' p' hp')) 4)
  -- with the names the widths are equal, so the rows have the same column
  have hwidth : nameWidth params = nameWidth params' := by
    have hsizes := congrArg (fun names => (names.map String.utf8ByteSize).foldl max 0)
      (map_eq_map_of hname h)
    simpa [nameWidth, Function.comp_def] using hsizes
  rw [← hwidth] at h hname
  have heq : params.map id = params'.map id :=
    map_eq_map_of (fun p hp p' hp' hrow =>
      eq_of_row (hname p hp p' hp' hrow) (hshown p hp) hrow) h
  rwa [List.map_id, List.map_id] at heq

theorem Query.eq_of_rows {q q' : Query} (hnamed : ∀ p ∈ q.params, p.IsNamed)
    (hnamed' : ∀ p ∈ q'.params, p.IsNamed) (hshown : ∀ p ∈ q.params, p.value.isShown = true)
    (h : q.rows (nameWidth q.params + 4) = q'.rows (nameWidth q'.params + 4)) :
    q.sql = q'.sql ∧ q.params = q'.params := by
  obtain ⟨hsql, hlist⟩ := List.cons.inj h
  refine ⟨(String.append_right_inj _).mp (String.toList_inj.mp hsql), ?_⟩
  -- the line that stands for no parameters is not the one that stands before some
  have hhead : "Params: (none)".toList ≠ "Params:".toList := by decide
  by_cases hempty : q.params.isEmpty <;> by_cases hempty' : q'.params.isEmpty
  · rw [List.isEmpty_iff.mp hempty, List.isEmpty_iff.mp hempty']
  · rw [if_pos hempty, if_neg hempty'] at hlist
    exact absurd (List.cons.inj hlist).1 hhead
  · rw [if_neg hempty, if_pos hempty'] at hlist
    exact absurd (List.cons.inj hlist).1.symm hhead
  · rw [if_neg hempty, if_neg hempty'] at hlist
    exact Param.params_of_rows hnamed hnamed' hshown (List.cons.inj hlist).2

/-- **The plain text of a query is not broken by values, and loses nothing.**  If the query's text has no
line feed, the report has a line for it and one for each parameter in binding order, each with the name
behind two blanks and with the value in a column that is the same for all; what is shown of a value has
printable characters only.  If the parameters are whole numbers, booleans, strings, bytes and nulls, no
report of another text or of other parameters is equal. -/
theorem Request.report_lines {limits : Limits} {r : Request} {q : Query}
    (h : r.compile limits = .ok q) (hsql : '\n' ∉ q.sql.toList) :
    (∃ column, q.report.toList.splitOn '\n' = q.rows column ++ [[]] ∧
      ∀ p ∈ q.params, p.name.length + 4 ≤ column) ∧
    (∀ p ∈ q.params, ∀ c ∈ p.value.display.toList, Text.isPrintable c = true) ∧
    ∀ limits' r' q', Request.compile limits' r' = .ok q' → '\n' ∉ q'.sql.toList →
      (∀ p ∈ q.params, p.value.isShown = true) → q.report = q'.report →
        q.sql = q'.sql ∧ q.params = q'.params := by
  have hlines : ∀ {limits r} {q : Query}, Request.compile limits r = .ok q →
      '\n' ∉ q.sql.toList →
        q.report.toList.splitOn '\n' = q.rows (nameWidth q.params + 4) ++ [[]] := by
    intro limits r q h hsql
    rw [Query.toList_report (isNamed_of_mem h)]
    exact splitOn_lines (Query.not_mem_rows hsql (isNamed_of_mem h))
  refine ⟨⟨_, hlines h hsql, fun p hp => ?_⟩, fun p _ c => Value.isPrintable_of_mem_display, ?_⟩
  · exact Nat.add_le_add_right (Param.length_le_nameWidth hp (isNamed_of_mem h p hp)) 4
  · intro limits' r' q' h' hsql' hshown hreport
    have hrows := hlines h hsql
    rw [hreport, hlines h' hsql'] at hrows
    exact Query.eq_of_rows (isNamed_of_mem h) (isNamed_of_mem h') hshown
      (List.append_cancel_right hrows).symm

/-- a text that looks like the end of its own line and the line of a second value -/
def Value.forged : Value := .string "x\"  (string)\n  _2_a  7  (int)"

def Query.binding (v w : Value) : Query where
  predicate := "(a IN (?, ?))"
  orderBy := ""
  window := ⟨0, 20⟩
  params := [⟨"_1_a", v⟩, ⟨"_2_a", w⟩]

def Request.binding (v w : Value) : Request where
  filter := some [.field "a" (some (.list [v, w]))]

theorem Request.report_lines_forged :
    (binding .forged .null).compile .standard = .ok (Query.binding .forged .null) ∧
    (∃ column, (Query.binding .forged .null).report.toList.splitOn '\n' =
      (Query.binding .forged .null).rows column ++ [[]]) ∧
    (Query.binding .forged .null).report ≠ (Query.binding (.string "x") (.int 7)).report := by
  have hforged : (binding .forged .null).compile .standard = .ok (Query.binding .forged .null) := rfl
  have hother : (binding (.string "x") (.int 7)).compile .standard =
      .ok (Query.binding (.string "x") (.int 7)) := rfl
  have hsql : '\n' ∉ (Query.binding .forged .null).sql.toList := by decide +kernel
  have hsql' : '\n' ∉ (Query.binding (.string "x") (.int 7)).sql.toList := by decide +kernel
  obtain ⟨⟨column, hlines, -⟩, -, hinj⟩ := report_lines hforged hsql
  refine ⟨hforged, ⟨column, hlines⟩, fun heq => ?_⟩
  have hshown : ∀ p ∈ (Query.binding .forged .null).params, p.value.isShown = true := by
    simp [Query.binding, Value.forged, Value.isShown]
  have hparams := (hinj _ _ _ hother hsql' hshown heq).2
  simp [Query.binding, Value.forged] at hparams

end FilterSql
