import FilterSql.Page
import Mathlib.Logic.ExistsUnique
import Mathlib.Tactic.Ring

/-!
# Pages tile the rows

`PageRequest.window` computes with words of 64 bits.  Here it is compared with the whole numbers: it
gives the window of the page exactly if the page and its size break no bound (`PageRequest.Fits`), and
tells the first bound that is broken otherwise (`PageError.TellsFirst`).  As the windows are exact, the
pages of one size lie end to end and cover every row that can be counted
(`PageRequest.window_tiles`).
-/

namespace FilterSql

/-! ## words as whole numbers -/

theorem toInt_toInt64 (n : UInt32) : n.toUInt64.toInt64.toInt = n.toNat := by
  have hlt : n.toNat < 2 ^ 32 := n.toNat_lt
  have hnat : n.toUInt64.toInt64.toBitVec.toNat = n.toNat := UInt32.toNat_toUInt64 n
  show n.toUInt64.toInt64.toBitVec.toInt = n.toNat
  rw [BitVec.toInt_eq_toNat_of_lt (by omega), hnat]

theorem toNat_toUInt64 {a : Int64} (h : 0 ≤ a.toInt) : (a.toUInt64.toNat : Int) = a.toInt := by
  have hle : 0 ≤ a := Int64.le_iff_toInt_le.mpr h
  have hnat : a.toUInt64.toNat = a.toInt.toNat := Int64.toNat_toUInt64_of_le hle
  omega

/-- one may be taken off the number of a page -/
theorem toInt_sub_one {a : Int64} (h : 1 ≤ a.toInt) : (a - 1).toInt = a.toInt - 1 := by
  have hlt := a.toInt_lt
  rw [Int64.toInt_sub, Int64.toInt_one, Int.bmod_eq_of_le]
  · omega
  · omega

/-- the checked product is the exact one -/
theorem product?_eq_some {a b c : Int64} :
    product? a b = some c ↔ c.toInt = a.toInt * b.toInt := by
  have hmin := Int64.toInt_minValue
  have hmax := Int64.toInt_maxValue
  have hexact : ∀ {x : Int}, Int64.minValue.toInt ≤ x → x ≤ Int64.maxValue.toInt →
      x.bmod (2 ^ 64) = x := fun hle hge => Int.bmod_eq_of_le (by omega) (by omega)
  constructor
  · intro h
    obtain ⟨⟨hle, hge⟩, hsome⟩ := Option.ite_none_right_eq_some.mp h
    rw [← Option.some.inj hsome, Int64.toInt_mul, hexact hle hge]
  · intro h
    have hle : Int64.minValue.toInt ≤ a.toInt * b.toInt := by
      have := c.le_toInt
      omega
    have hge : a.toInt * b.toInt ≤ Int64.maxValue.toInt := by
      have := c.toInt_lt
      omega
    have hprod : a * b = c := Int64.toInt_inj.mp (by rw [Int64.toInt_mul, hexact hle hge, h])
    exact (if_pos ⟨hle, hge⟩).trans (congrArg some hprod)

theorem product?_eq_none {a b : Int64} : product? a b = none ↔
    ¬ (Int64.minValue.toInt ≤ a.toInt * b.toInt ∧ a.toInt * b.toInt ≤ Int64.maxValue.toInt) :=
  ite_eq_right_iff.trans ⟨fun h hfit => (nomatch h hfit), fun h hfit => absurd hfit h⟩

/-! ## what is asked for -/

namespace PageRequest

/-- the page that a request names, or the first -/
def pageNumber (request : Option PageRequest) : Int :=
  ((request.bind (·.page)).map Int64.toInt).getD 1

/-- the size of a page that a request names, or the default size -/
def pageSize (limits : Limits) (request : Option PageRequest) : Int :=
  ((request.bind (·.perPage)).map Int64.toInt).getD limits.defaultPageSize.toNat

/-- a page of a size breaks no bound -/
structure Fits (limits : Limits) (page size : Int) : Prop where
  one_le_page : 1 ≤ page
  one_le_size : 1 ≤ size
  size_le : size ≤ limits.maxPageSize.toNat
  offset_le : (page - 1) * size ≤ Int64.maxValue.toInt

/-- the steps from a page and a size to their window are those of whole numbers: no word wraps
around -/
structure ExactSteps (limits : Limits) (page size : Int64) : Prop where
  default_eq : limits.defaultPageSize.toUInt64.toInt64.toInt = limits.defaultPageSize.toNat
  maximum_eq : limits.maxPageSize.toUInt64.toInt64.toInt = limits.maxPageSize.toNat
  before_eq : (page - 1).toInt = page.toInt - 1
  product_eq : ∀ offset, product? (page - 1) size = some offset →
    (offset.toUInt64.toNat : Int) = (page.toInt - 1) * size.toInt
  limit_eq : (size.toUInt64.toNat : Int) = size.toInt

end PageRequest

/-- an error tells the first bound that a page of a size breaks, with the values that break it -/
def PageError.TellsFirst (limits : Limits) (page size : Int) : PageError → Prop
  | .pageBelowMinimum p => p.toInt = page ∧ page < 1
  | .perPageBelowMinimum n => n.toInt = size ∧ 1 ≤ page ∧ size < 1
  | .perPageAboveMaximum n max =>
    n.toInt = size ∧ max = limits.maxPageSize ∧ 1 ≤ page ∧ 1 ≤ size ∧
      (limits.maxPageSize.toNat : Int) < size
  | .offsetOverflow p n =>
    p.toInt = page ∧ n.toInt = size ∧ 1 ≤ page ∧ 1 ≤ size ∧ size ≤ limits.maxPageSize.toNat ∧
      Int64.maxValue.toInt < (page - 1) * size

namespace Window

/-- the window skips the pages before a page and returns as many rows as a page has -/
structure IsPage (w : Window) (page size : Int) : Prop where
  offset_eq : (w.offset.toNat : Int) = (page - 1) * size
  limit_eq : (w.limit.toNat : Int) = size

/-- the window returns the row with an index, counted from zero -/
def Holds (w : Window) (row : Nat) : Prop :=
  w.offset.toNat ≤ row ∧ row < w.offset.toNat + w.limit.toNat

theorem IsPage.unique {v w : Window} {page size : Int} (hv : v.IsPage page size)
    (hw : w.IsPage page size) : v = w := by
  obtain ⟨voffset, vlimit⟩ := v
  obtain ⟨woffset, wlimit⟩ := w
  have hoffset : voffset = woffset :=
    UInt64.toNat_inj.mp (Int.ofNat_inj.mp (hv.offset_eq.trans hw.offset_eq.symm))
  have hlimit : vlimit = wlimit :=
    UInt64.toNat_inj.mp (Int.ofNat_inj.mp (hv.limit_eq.trans hw.limit_eq.symm))
  rw [hoffset, hlimit]

end Window

theorem PageError.TellsFirst.not_fits {limits : Limits} {page size : Int} {e : PageError}
    (h : e.TellsFirst limits page size) : ¬ PageRequest.Fits limits page size := by
  rintro ⟨hpage, hsize, hmaximum, hoffset⟩
  cases e with
  | pageBelowMinimum p => exact absurd h.2 (by omega)
  | perPageBelowMinimum n => exact absurd h.2.2 (by omega)
  | perPageAboveMaximum n max =>
    obtain ⟨-, -, -, -, habove⟩ := h
    omega
  | offsetOverflow p n =>
    obtain ⟨-, -, -, -, -, habove⟩ := h
    omega

-- Of two errors of different kinds one denies a bound that the other has found kept.
theorem PageError.TellsFirst.unique {limits : Limits} {page size : Int} {e e' : PageError}
    (h : e.TellsFirst limits page size) (h' : e'.TellsFirst limits page size) : e = e' := by
  cases e <;> cases e' <;> simp only [TellsFirst] at h h' <;> first | omega | skip
  case pageBelowMinimum.pageBelowMinimum p p' =>
    rw [Int64.toInt_inj.mp (h.1.trans h'.1.symm)]
  case perPageBelowMinimum.perPageBelowMinimum n n' =>
    rw [Int64.toInt_inj.mp (h.1.trans h'.1.symm)]
  case perPageAboveMaximum.perPageAboveMaximum n max n' max' =>
    rw [Int64.toInt_inj.mp (h.1.trans h'.1.symm), h.2.1, h'.2.1]
  case offsetOverflow.offsetOverflow p n p' n' =>
    rw [Int64.toInt_inj.mp (h.1.trans h'.1.symm), Int64.toInt_inj.mp (h.2.1.trans h'.2.1.symm)]

/-! ## the window of a page -/

namespace PageRequest

theorem exactSteps {page size : Int64} (hpage : 1 ≤ page.toInt) (hsize : 1 ≤ size.toInt)
    (limits : Limits) : ExactSteps limits page size where
  default_eq := toInt_toInt64 limits.defaultPageSize
  maximum_eq := toInt_toInt64 limits.maxPageSize
  before_eq := toInt_sub_one hpage
  product_eq := by
    intro offset h
    have hexact : offset.toInt = (page.toInt - 1) * size.toInt := by
      rw [← toInt_sub_one hpage]
      exact product?_eq_some.mp h
    have hnonneg : 0 ≤ (page.toInt - 1) * size.toInt := Int.mul_nonneg (by omega) (by omega)
    rw [← hexact]
    exact toNat_toUInt64 (by rwa [hexact])
  limit_eq := toNat_toUInt64 (by omega)

theorem windowOf_cases (limits : Limits) (page size : Int64) :
    (Fits limits page.toInt size.toInt ∧
      ∃ w, windowOf limits page size = .ok w ∧ w.IsPage page.toInt size.toInt) ∨
    ∃ e, windowOf limits page size = .error e ∧ e.TellsFirst limits page.toInt size.toInt := by
  have hone : (1 : Int64).toInt = 1 := Int64.toInt_one
  unfold windowOf
  simp only [Int64.lt_iff_toInt_lt, hone, toInt_toInt64]
  by_cases hpage : page.toInt < 1
  · exact .inr ⟨.pageBelowMinimum page, if_pos hpage, rfl, hpage⟩
  by_cases hsize : size.toInt < 1
  · refine .inr ⟨.perPageBelowMinimum size, ?_, rfl, by omega, hsize⟩
    rw [if_neg hpage, if_pos hsize]
  by_cases hmaximum : (limits.maxPageSize.toNat : Int) < size.toInt
  · refine .inr ⟨.perPageAboveMaximum size limits.maxPageSize, ?_, rfl, rfl, by omega, by omega,
      hmaximum⟩
    rw [if_neg hpage, if_neg hsize, if_pos hmaximum]
  have hsteps : ExactSteps limits page size := exactSteps (by omega) (by omega) limits
  have hnonneg : 0 ≤ (page.toInt - 1) * size.toInt := Int.mul_nonneg (by omega) (by omega)
  have hmin := Int64.toInt_minValue
  rw [if_neg hpage, if_neg hsize, if_neg hmaximum]
  cases hproduct : product? (page - 1) size with
  | none =>
    have hover := product?_eq_none.mp hproduct
    rw [hsteps.before_eq] at hover
    exact .inr ⟨.offsetOverflow page size, rfl, rfl, rfl, by omega, by omega, by omega, by omega⟩
  | some offset =>
    have hexact := product?_eq_some.mp hproduct
    rw [hsteps.before_eq] at hexact
    have hrange := offset.toInt_lt
    have hmax := Int64.toInt_maxValue
    exact .inl ⟨⟨by omega, by omega, by omega, by omega⟩, ⟨offset.toUInt64, size.toUInt64⟩, rfl,
      hsteps.product_eq offset hproduct, hsteps.limit_eq⟩

/-- a request has the window of its page, or the error of the first bound that it breaks -/
theorem window_cases (limits : Limits) (request : Option PageRequest) :
    (Fits limits (pageNumber request) (pageSize limits request) ∧
      ∃ w, window limits request = .ok w ∧
        w.IsPage (pageNumber request) (pageSize limits request)) ∨
    ∃ e, window limits request = .error e ∧
      e.TellsFirst limits (pageNumber request) (pageSize limits request) := by
  have hpage : ((request.bind (·.page)).getD 1).toInt = pageNumber request := by
    unfold pageNumber
    cases request.bind (·.page) with
    | none => exact Int64.toInt_one
    | some page => rfl
  have hsize : ((request.bind (·.perPage)).getD limits.defaultPageSize.toUInt64.toInt64).toInt =
      pageSize limits request := by
    unfold pageSize
    cases request.bind (·.perPage) with
    | none => exact toInt_toInt64 limits.defaultPageSize
    | some size => rfl
  unfold window
  rw [← hpage, ← hsize]
  exact windowOf_cases limits _ _

theorem window_eq_ok {limits : Limits} {request : Option PageRequest} {w : Window} :
    window limits request = .ok w ↔ Fits limits (pageNumber request) (pageSize limits request) ∧
      w.IsPage (pageNumber request) (pageSize limits request) := by
  rcases window_cases limits request with ⟨hfits, v, hv, hpage⟩ | ⟨e, he, htells⟩
  · rw [hv, Except.ok.injEq]
    constructor
    · rintro rfl
      exact ⟨hfits, hpage⟩
    · rintro ⟨-, hw⟩
      exact hpage.unique hw
  · rw [he]
    constructor
    · intro h
      cases h
    · rintro ⟨hfits, -⟩
      exact absurd hfits htells.not_fits

theorem window_eq_error {limits : Limits} {request : Option PageRequest} {e : PageError} :
    window limits request = .error e ↔
      e.TellsFirst limits (pageNumber request) (pageSize limits request) := by
  rcases window_cases limits request with ⟨hfits, v, hv, -⟩ | ⟨e', he, htells⟩
  · rw [hv]
    constructor
    · intro h
      cases h
    · intro h
      exact absurd hfits h.not_fits
  · rw [he, Except.error.injEq]
    constructor
    · rintro rfl
      exact htells
    · intro h
      exact htells.unique h

theorem exists_window_iff (limits : Limits) (request : Option PageRequest) :
    (∃ w, window limits request = .ok w) ↔
      Fits limits (pageNumber request) (pageSize limits request) := by
  constructor
  · rintro ⟨w, hw⟩
    exact (window_eq_ok.mp hw).1
  · intro hfits
    rcases window_cases limits request with ⟨-, w, hw, -⟩ | ⟨e, -, htells⟩
    · exact ⟨w, hw⟩
    · exact absurd hfits htells.not_fits

end PageRequest

/-! ## pages end to end -/

/-- a page returns a row exactly if as many whole pages lie before the row as before the page -/
theorem Window.IsPage.holds_iff {w : Window} {page size : Int} (h : w.IsPage page size)
    (hsize : 1 ≤ size) (row : Nat) : w.Holds row ↔ page - 1 = row / size := by
  have hlow : page - 1 ≤ row / size ↔ (page - 1) * size ≤ row :=
    Int.le_ediv_iff_mul_le (by omega)
  have hhigh : (row : Int) / size < page ↔ (row : Int) < page * size :=
    Int.ediv_lt_iff_lt_mul (by omega)
  have hend : page * size = (page - 1) * size + size := by ring
  have hoffset := h.offset_eq
  have hlimit := h.limit_eq
  unfold Holds
  constructor
  · rintro ⟨hfirst, hlast⟩
    have := hlow.mpr (by omega)
    have := hhigh.mpr (by omega)
    omega
  · intro heq
    have := hlow.mp (by omega)
    have := hhigh.mp (by omega)
    omega

namespace PageRequest

/-- the row `row` is on the page behind as many whole pages as lie before it, and on no other -/
theorem existsUnique_page {limits : Limits} {size : Option Int64}
    (hone : 1 ≤ pageSize limits (some ⟨none, size⟩))
    (hmax : pageSize limits (some ⟨none, size⟩) ≤ limits.maxPageSize.toNat) {row : Nat}
    (hrow : (row : Int) < Int64.maxValue.toInt) :
    ∃! page : Int64, ∃ w, window limits (some ⟨some page, size⟩) = .ok w ∧ w.Holds row := by
  generalize hn : pageSize limits (some ⟨none, size⟩) = n at hone hmax
  have hsize : ∀ page : Int64, pageSize limits (some ⟨some page, size⟩) = n := fun _ => hn
  have hbefore : 0 ≤ (row : Int) / n := Int.ediv_nonneg (by omega) (by omega)
  have hrows : (row : Int) / n * n ≤ row := Int.ediv_mul_le _ (by omega)
  have hpages : (row : Int) / n ≤ row := Int.ediv_le_self _ (by omega)
  have hword := Int64.toInt_maxValue
  have hfound : (Int64.ofInt (row / n + 1)).toInt = row / n + 1 :=
    Int64.toInt_ofInt_of_le (by omega) (by omega)
  refine ⟨Int64.ofInt (row / n + 1), ?_, ?_⟩
  · have hfits : Fits limits (row / n + 1) n := by
      refine ⟨by omega, hone, hmax, ?_⟩
      rw [Int.add_sub_cancel]
      omega
    rcases window_cases limits (some ⟨some (Int64.ofInt (row / n + 1)), size⟩) with
      ⟨-, w, hw, hpage⟩ | ⟨e, -, htells⟩
    · rw [hsize] at hpage
      refine ⟨w, hw, (hpage.holds_iff hone row).mpr ?_⟩
      show (Int64.ofInt (row / n + 1)).toInt - 1 = row / n
      omega
    · rw [hsize] at htells
      replace htells : e.TellsFirst limits (Int64.ofInt (row / n + 1)).toInt n := htells
      rw [hfound] at htells
      exact absurd hfits htells.not_fits
  · rintro page ⟨w, hw, hholds⟩
    have hpage := (window_eq_ok.mp hw).2
    rw [hsize] at hpage
    have heq : page.toInt - 1 = row / n := (hpage.holds_iff hone row).mp hholds
    exact Int64.toInt_inj.mp (by omega)

/-- the window of a page starts where that of the page before it ends -/
theorem adjacent_windows {limits : Limits} {size : Option Int64} {page next : Int64}
    (hnext : next.toInt = page.toInt + 1) {v w : Window}
    (hv : window limits (some ⟨some page, size⟩) = .ok v)
    (hw : window limits (some ⟨some next, size⟩) = .ok w) :
    w.offset.toNat = v.offset.toNat + v.limit.toNat ∧ ∀ row, ¬ (v.Holds row ∧ w.Holds row) := by
  have hv := (window_eq_ok.mp hv).2
  have hw := (window_eq_ok.mp hw).2
  generalize hn : pageSize limits (some ⟨some page, size⟩) = n at hv
  have hsize : pageSize limits (some ⟨some next, size⟩) = n := hn
  rw [hsize] at hw
  have hoffset : (w.offset.toNat : Int) = (next.toInt - 1) * n := hw.offset_eq
  have hbefore : (v.offset.toNat : Int) = (page.toInt - 1) * n := hv.offset_eq
  have hlimit := hv.limit_eq
  have hstep : (page.toInt + 1 - 1) * n = (page.toInt - 1) * n + n := by ring
  rw [hnext, hstep] at hoffset
  have hadjacent : w.offset.toNat = v.offset.toNat + v.limit.toNat := by omega
  refine ⟨hadjacent, ?_⟩
  rintro row ⟨⟨-, hlast⟩, ⟨hfirst, -⟩⟩
  omega

end PageRequest

/-- **Paging is exact and pages tile the rows.**  A request has a window if and only if its page and
size break no bound; it is then exactly that of the page, and no step to it wraps around.  Otherwise the
error is that of the first bound which is broken.  Of the pages of a size within its bounds exactly one
returns a row with a given index, and the window of each page starts where that of the page before it
ends. -/
theorem PageRequest.window_tiles (limits : Limits) :
    (∀ request, (∃ w, window limits request = .ok w) ↔
      Fits limits (pageNumber request) (pageSize limits request)) ∧
    (∀ request w, window limits request = .ok w →
      w.IsPage (pageNumber request) (pageSize limits request)) ∧
    (∀ request e, window limits request = .error e ↔
      e.TellsFirst limits (pageNumber request) (pageSize limits request)) ∧
    (∀ page size : Int64, 1 ≤ page.toInt → 1 ≤ size.toInt → ExactSteps limits page size) ∧
    ∀ size : Option Int64, 1 ≤ pageSize limits (some ⟨none, size⟩) →
      pageSize limits (some ⟨none, size⟩) ≤ limits.maxPageSize.toNat →
      (∀ row : Nat, (row : Int) < Int64.maxValue.toInt →
        ∃! page : Int64, ∃ w, window limits (some ⟨some page, size⟩) = .ok w ∧ w.Holds row) ∧
      ∀ page next : Int64, next.toInt = page.toInt + 1 → ∀ v w,
        window limits (some ⟨some page, size⟩) = .ok v →
        window limits (some ⟨some next, size⟩) = .ok w →
        w.offset.toNat = v.offset.toNat + v.limit.toNat ∧
          ∀ row, ¬ (v.Holds row ∧ w.Holds row) := by
  refine ⟨exists_window_iff limits, fun _ _ h => (window_eq_ok.mp h).2,
    fun _ _ => window_eq_error, fun _ _ hpage hsize => exactSteps hpage hsize limits, ?_⟩
  intro size hone hmax
  refine ⟨fun row hrow => existsUnique_page hone hmax hrow, ?_⟩
  intro page next hnext v w hv hw
  exact adjacent_windows hnext hv hw

/-- pages of one row each unless a size is given -/
def Limits.rowwise : Limits := ⟨1, 4294967295, 1⟩

theorem PageRequest.window_tiles_rowwise :
    (1 ≤ pageSize .rowwise (some ⟨none, none⟩) ∧
      pageSize .rowwise (some ⟨none, none⟩) ≤ Limits.rowwise.maxPageSize.toNat ∧
      ((9223372036854775806 : Nat) : Int) < Int64.maxValue.toInt) ∧
    (∃! page : Int64, ∃ w, window .rowwise (some ⟨some page, none⟩) = .ok w ∧
      w.Holds 9223372036854775806) ∧
    window .rowwise (some ⟨some 9223372036854775806, none⟩) = .ok ⟨9223372036854775805, 1⟩ ∧
    window .rowwise (some ⟨some 9223372036854775807, none⟩) = .ok ⟨9223372036854775806, 1⟩ ∧
    (∀ row, ¬ (Window.Holds ⟨9223372036854775805, 1⟩ row ∧
      Window.Holds ⟨9223372036854775806, 1⟩ row)) ∧
    ExactSteps .rowwise 9223372036854775807 4294967295 := by
  obtain ⟨-, -, -, hsteps, htiles⟩ := window_tiles .rowwise
  have hone : 1 ≤ pageSize .rowwise (some ⟨none, none⟩) := by decide
  have hmax : pageSize .rowwise (some ⟨none, none⟩) ≤ Limits.rowwise.maxPageSize.toNat := by decide
  have hrow : ((9223372036854775806 : Nat) : Int) < Int64.maxValue.toInt := by decide
  have hlast : window .rowwise (some ⟨some 9223372036854775806, none⟩) =
    .ok ⟨9223372036854775805, 1⟩ := rfl
  have hnext : window .rowwise (some ⟨some 9223372036854775807, none⟩) =
    .ok ⟨9223372036854775806, 1⟩ := rfl
  obtain ⟨hunique, hadjacent⟩ := htiles none hone hmax
  exact ⟨⟨hone, hmax, hrow⟩, hunique 9223372036854775806 hrow, hlast, hnext,
    (hadjacent 9223372036854775806 9223372036854775807 (by decide) _ _ hlast hnext).2,
    hsteps 9223372036854775807 4294967295 (by decide) (by decide)⟩

end FilterSql
