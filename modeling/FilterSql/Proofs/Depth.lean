import FilterSql.Proofs.Binding

/-!
# The depth limit

Two recursions measure how deep groups nest.  `Filter.depth` takes a maximum over the whole tree, from
the leaves up; the compiler counts from the top down and stops at the first group that it refuses.
They meet in the list of all groups (`Filter.groups`), in document order and each with the number of
groups around it: the compiler looks there for the first group with filters on the outermost forbidden
level (`Filter.guard_eq_verdict`), and there is one exactly if the filter is too deep
(`Filter.exists_isAt_iff`).
-/

namespace FilterSql

/-! ## the groups of a filter -/

structure Group where
  /-- how many groups are around it -/
  around : Nat
  op : Connective
  filters : List Filter

/-- the group has filters and stands inside exactly `n` groups -/
def Group.isAt (n : Nat) (g : Group) : Bool := g.around = n && !g.filters.isEmpty

mutual

/-- the groups of an entry that is inside `around` groups, each before those inside it -/
def Entry.groups (around : Nat) : Entry → List Group
  | .field _ _ => []
  | .group op filters => ⟨around, op, filters⟩ :: Filter.childGroups (around + 1) filters

/-- the groups of a filter that is inside `around` groups, in document order -/
def Filter.groups (around : Nat) : List Entry → List Group
  | [] => []
  | entry :: entries => entry.groups around ++ Filter.groups around entries

def Filter.childGroups (around : Nat) : List (List Entry) → List Group
  | [] => []
  | f :: fs => Filter.groups around f ++ Filter.childGroups around fs

end

theorem Group.not_isAt_nil (n around : Nat) (op : Connective) :
    (⟨around, op, []⟩ : Group).isAt n = false := by
  simp [isAt]

theorem Group.isAt_cons (n around : Nat) (op : Connective) (f : Filter) (fs : List Filter) :
    (⟨around, op, f :: fs⟩ : Group).isAt n = decide (around = n) := by
  simp [isAt]

/-! ## the first refused group -/

/-- what the guard says if this is the first group that nests too deep -/
def DepthError.verdict (limit : Nat) : Option Group → Except DepthError Unit
  | none => .ok ()
  | some g => .error ⟨limit, g.op⟩

theorem DepthError.verdict_or (limit : Nat) (a b : Option Group) :
    verdict limit (a.or b) = (verdict limit a >>= fun _ => verdict limit b) := by
  cases a <;> rfl

section
variable {limit : Nat}

-- `n < max 1 limit` is what the compiler has checked of all groups around; each step inwards keeps it
-- or stops.
mutual

theorem Entry.guard_eq_verdict : ∀ (e : Entry) {n : Nat}, n < max 1 limit →
    e.guard limit (n + 1) =
      DepthError.verdict limit ((e.groups n).find? (Group.isAt (max 1 limit - 1)))
  | .field _ _, _, _ => rfl
  | .group op [], n, _ => by
    rw [Entry.guard, Entry.groups, List.find?_cons_of_neg (by simp [Group.not_isAt_nil])]
    rfl
  | .group op (f :: fs), n, hn => by
    rw [Entry.guard, Entry.groups]
    split
    · -- the entry is on the outermost forbidden level, as nothing around it was refused
      rename_i hdeep
      have hlevel : n = max 1 limit - 1 := by omega
      rw [List.find?_cons_of_pos (by simp [Group.isAt_cons, ← hlevel])]
      rfl
    · have hlevel : n ≠ max 1 limit - 1 := by omega
      rw [List.find?_cons_of_neg (by simp [Group.isAt_cons, hlevel])]
      exact Filter.childGuard_eq_verdict (f :: fs) (by omega)

/-- the compiler refuses the first group with filters on the outermost forbidden level -/
theorem Filter.guard_eq_verdict : ∀ (f : List Entry) {n : Nat}, n < max 1 limit →
    Filter.guard limit (n + 1) f =
      DepthError.verdict limit ((Filter.groups n f).find? (Group.isAt (max 1 limit - 1)))
  | [], _, _ => rfl
  | e :: es, n, hn => by
    rw [Filter.guard, Filter.groups, List.find?_append, DepthError.verdict_or,
      Entry.guard_eq_verdict e hn, Filter.guard_eq_verdict es hn]

theorem Filter.childGuard_eq_verdict : ∀ (fs : List (List Entry)) {n : Nat}, n < max 1 limit →
    Filter.childGuard limit (n + 1) fs =
      DepthError.verdict limit ((Filter.childGroups n fs).find? (Group.isAt (max 1 limit - 1)))
  | [], _, _ => rfl
  | f :: fs, n, hn => by
    rw [Filter.childGuard, Filter.childGroups, List.find?_append, DepthError.verdict_or,
      Filter.guard_eq_verdict f hn, Filter.childGuard_eq_verdict fs hn]

end

end

/-! ## levels and depth -/

theorem Filter.one_le_depth : ∀ f : List Entry, 1 ≤ Filter.depth f
  | [] => Nat.le_refl 1
  | e :: es => by
    have hrest := Filter.one_le_depth es
    rw [Filter.depth]
    omega

theorem Filter.depth_append (f g : List Entry) :
    Filter.depth (f ++ g) = max (Filter.depth f) (Filter.depth g) := by
  induction f with
  | nil => exact (Nat.max_eq_right (Filter.one_le_depth g)).symm
  | cons e f ih => rw [List.cons_append, Filter.depth, ih, Filter.depth, Nat.max_assoc]

theorem Filter.childDepth_append (fs gs : List (List Entry)) :
    Filter.childDepth (fs ++ gs) = max (Filter.childDepth fs) (Filter.childDepth gs) := by
  induction fs with
  | nil => exact (Nat.zero_max _).symm
  | cons f fs ih =>
    rw [List.cons_append, Filter.childDepth, ih, Filter.childDepth, Nat.max_assoc]

-- Stated for all levels `k` from `n` inwards: the entry itself is on level `n`, its parts further in.
mutual

theorem Entry.exists_isAt_iff : ∀ (e : Entry) {n k : Nat}, n ≤ k →
    ((∃ g ∈ e.groups n, g.isAt k = true) ↔ k < n + e.depth)
  | .field _ _, n, k, hk => by
    simp only [Entry.groups, Entry.depth, List.not_mem_nil, false_and, exists_false, false_iff]
    omega
  | .group op [], n, k, hk => by
    simp only [Entry.groups, Filter.childGroups, List.exists_mem_cons_iff, Group.not_isAt_nil,
      List.not_mem_nil, Entry.depth, Filter.childDepth, Bool.false_eq_true, false_and, exists_false,
      false_or, false_iff]
    omega
  | .group op (f :: fs), n, k, hk => by
    rw [Entry.groups, Entry.depth, List.exists_mem_cons_iff, Group.isAt_cons, decide_eq_true_iff]
    rcases Nat.eq_or_lt_of_le hk with rfl | hlt
    · have hpos : 1 ≤ Filter.childDepth (f :: fs) :=
        Nat.le_trans (Filter.one_le_depth f) (Nat.le_max_left _ _)
      exact iff_of_true (.inl rfl) (by omega)
    · rw [Filter.exists_isAt_iff_child (f :: fs) hlt]
      omega

/-- a level of a filter has a group with filters exactly if the filter reaches below it -/
theorem Filter.exists_isAt_iff : ∀ (f : List Entry) {n k : Nat}, n ≤ k →
    ((∃ g ∈ Filter.groups n f, g.isAt k = true) ↔ k + 1 < n + Filter.depth f)
  | [], n, k, hk => by
    simp only [Filter.groups, Filter.depth, List.not_mem_nil, false_and, exists_false, false_iff]
    omega
  | e :: es, n, k, hk => by
    simp only [Filter.groups, Filter.depth, List.mem_append, or_and_right, exists_or]
    rw [Entry.exists_isAt_iff e hk, Filter.exists_isAt_iff es hk]
    omega

theorem Filter.exists_isAt_iff_child : ∀ (fs : List (List Entry)) {n k : Nat}, n ≤ k →
    ((∃ g ∈ Filter.childGroups n fs, g.isAt k = true) ↔ k + 1 < n + Filter.childDepth fs)
  | [], n, k, hk => by
    simp only [Filter.childGroups, Filter.childDepth, List.not_mem_nil, false_and, exists_false,
      false_iff]
    omega
  | f :: fs, n, k, hk => by
    simp only [Filter.childGroups, Filter.childDepth, List.mem_append, or_and_right, exists_or]
    rw [Filter.exists_isAt_iff f hk, Filter.exists_isAt_iff_child fs hk]
    omega

end

theorem Filter.find?_groups_eq_none_iff (f : Filter) (limit : Nat) :
    (Filter.groups 0 f).find? (Group.isAt (max 1 limit - 1)) = none ↔ Filter.depth f ≤ max 1 limit := by
  have hexists := Filter.exists_isAt_iff f (Nat.zero_le (max 1 limit - 1))
  rw [List.find?_eq_none, ← not_iff_not, Nat.not_le]
  push Not
  rw [hexists]
  omega

/-! ## compiling under a limit -/

/-- a filter compiles exactly if it is not deeper than the limit, and then to its numbered fragment -/
theorem Filter.compile_eq_ok {style : BindStyle} {limit : Nat} {f : Filter} {p : Predicate} :
    f.compile style limit = .ok p ↔ Filter.depth f ≤ max 1 limit ∧
      p = ⟨f.fragment.textFrom style 1, Param.number 1 f.fragment.bindings⟩ := by
  have hguard : Filter.guard limit 1 f =
      DepthError.verdict limit ((Filter.groups 0 f).find? (Group.isAt (max 1 limit - 1))) :=
    Filter.guard_eq_verdict f (by omega)
  rw [Filter.compile_eq, hguard, ← Filter.find?_groups_eq_none_iff]
  cases (Filter.groups 0 f).find? (Group.isAt (max 1 limit - 1)) with
  | none =>
    rw [and_iff_right rfl]
    exact ⟨fun h => (Except.ok.inj h).symm, fun h => congrArg _ h.symm⟩
  | some g => exact iff_of_false (fun h => nomatch h) (fun h => nomatch h.1)

/-- **The limit and the depth of a filter decide together whether it compiles.**  A filter is refused
exactly if it is deeper than the limit, where a limit of zero counts as one.  The error tells the limit
as it is set and the connective of the first group, in document order, that has filters and stands on the
outermost forbidden level.  A filter that is not refused compiles to the same predicate under every
limit. -/
theorem Filter.compile_within_limit (style : BindStyle) (f : Filter) :
    ∃ p, ∀ limit,
      ((∃ e, f.compile style limit = .error e) ↔ max 1 limit < Filter.depth f) ∧
      (∀ e, f.compile style limit = .error e ↔
        ∃ g, (Filter.groups 0 f).find? (Group.isAt (max 1 limit - 1)) = some g ∧
          e = ⟨limit, g.op⟩) ∧
      (Filter.depth f ≤ max 1 limit → f.compile style limit = .ok p) := by
  refine ⟨⟨f.fragment.textFrom style 1, Param.number 1 f.fragment.bindings⟩, fun limit => ?_⟩
  have hguard : Filter.guard limit 1 f =
      DepthError.verdict limit ((Filter.groups 0 f).find? (Group.isAt (max 1 limit - 1))) :=
    Filter.guard_eq_verdict f (by omega)
  have hnone := Filter.find?_groups_eq_none_iff f limit
  rw [Filter.compile_eq, hguard]
  cases hfound : (Filter.groups 0 f).find? (Group.isAt (max 1 limit - 1)) with
  | none =>
    have hdepth := hnone.mp hfound
    refine ⟨⟨?_, fun h => absurd h (by omega)⟩, fun e => ⟨?_, ?_⟩, fun _ => rfl⟩
    · rintro ⟨e, he⟩
      cases he
    · intro he
      cases he
    · rintro ⟨g, hg, _⟩
      cases hg
  | some g =>
    have hdepth : max 1 limit < Filter.depth f := by
      by_contra hle
      rw [hnone.mpr (by omega)] at hfound
      cases hfound
    refine ⟨⟨fun _ => hdepth, fun _ => ⟨_, rfl⟩⟩, fun e => ⟨?_, ?_⟩, fun h => ?_⟩
    · intro he
      cases he
      exact ⟨g, rfl, rfl⟩
    · rintro ⟨_, hg, rfl⟩
      cases hg
      rfl
    · exact absurd h (by omega)

end FilterSql
