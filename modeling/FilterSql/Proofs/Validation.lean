import FilterSql.Proofs.Paging
import FilterSql.Proofs.Record
import FilterSql.Session
import Mathlib.Data.List.Nodup

/-!
# Valid limits

`Settings.validate` and `PageRequest.window` look at page sizes independently of each other.  Both hold
them to the same condition (`Settings.Consistent`): settings are valid exactly if filters may have a depth
and the first page has a window.  What is wrong with other settings is listed once each, in order
(`Settings.Lists`).  The limits of a process come from `Settings.validate` or are the standard ones, so
they are valid whatever its files and variables say (`Settings.validate_limits`).
-/

namespace FilterSql

/-! ## conditions -/

namespace Violation

/-- the condition that it names does not hold of the settings -/
def Of (s : Settings) : Violation → Prop
  | defaultPageSizeZero => s.defaultPageSize.toNat = 0
  | maxPageSizeZero => s.maxPageSize.toNat = 0
  | defaultAboveMax default max =>
    default = s.defaultPageSize ∧ max = s.maxPageSize ∧ max.toNat < default.toNat
  | maxFilterDepthZero => s.maxFilterDepth.toNat = 0

def place : Violation → Nat
  | defaultPageSizeZero => 0
  | maxPageSizeZero => 1
  | defaultAboveMax _ _ => 2
  | maxFilterDepthZero => 3

/-- the first 17 characters of its text, which no other condition shares -/
def opening : Violation → String
  | defaultPageSizeZero => "defaultPageSize m"
  | maxPageSizeZero => "maxPageSize must "
  | defaultAboveMax _ _ => "defaultPageSize ("
  | maxFilterDepthZero => "maxFilterDepth mu"

theorem message_eq (v : Violation) : ∃ text, v.message = v.opening ++ text := by
  cases v with
  | defaultPageSizeZero => exact ⟨"ust be at least 1", by decide +kernel⟩
  | maxPageSizeZero => exact ⟨"be at least 1", by decide +kernel⟩
  | defaultAboveMax default max =>
    refine ⟨toString default.toNat ++ (") must not exceed maxPageSize (" ++
      (toString max.toNat ++ ")")), ?_⟩
    show "defaultPageSize (" ++ toString default.toNat ++ ") must not exceed maxPageSize (" ++
      toString max.toNat ++ ")" = "defaultPageSize (" ++ _
    rw [String.append_assoc, String.append_assoc, String.append_assoc]
  | maxFilterDepthZero => exact ⟨"st be at least 1", by decide +kernel⟩

theorem opening_length (v : Violation) : v.opening.toList.length = 17 := by
  cases v <;> simp only [opening] <;> rfl

theorem place_of_message {v w : Violation} (h : v.message = w.message) : v.place = w.place := by
  obtain ⟨text, hv⟩ := v.message_eq
  obtain ⟨text', hw⟩ := w.message_eq
  have happend : v.opening.toList ++ text.toList = w.opening.toList ++ text'.toList := by
    rw [← String.toList_append, ← String.toList_append, ← hv, ← hw, h]
  have hlist := (List.append_inj happend (v.opening_length.trans w.opening_length.symm)).1
  have hopening : v.opening = w.opening := String.toList_inj.mp hlist
  cases v <;> cases w <;> first | rfl | exact absurd hopening (by simp only [opening]; decide)

end Violation

namespace Settings

/-- what a compiler needs: pages and filters that can be asked for -/
structure Consistent (s : Settings) : Prop where
  one_le_default : 1 ≤ s.defaultPageSize.toNat
  default_le_max : s.defaultPageSize.toNat ≤ s.maxPageSize.toNat
  one_le_depth : 1 ≤ s.maxFilterDepth.toNat

/-- the violations are those of the settings, once each, in order, and their texts differ -/
structure Lists (s : Settings) (vs : List Violation) : Prop where
  mem_iff : ∀ v, v ∈ vs ↔ v.Of s
  in_order : vs.Pairwise (·.place < ·.place)
  texts_nodup : (vs.map Violation.message).Nodup

theorem consistent_iff (s : Settings) : s.Consistent ↔ ∀ v : Violation, ¬ v.Of s := by
  constructor
  · rintro ⟨hdefault, hmax, hdepth⟩ v hv
    cases v with
    | defaultPageSizeZero => exact absurd hv (Nat.ne_of_gt hdefault)
    | maxPageSizeZero => exact absurd hv (Nat.ne_of_gt (Nat.le_trans hdefault hmax))
    | defaultAboveMax d m =>
      obtain ⟨rfl, rfl, hlt⟩ := hv
      exact absurd hlt (Nat.not_lt.mpr hmax)
    | maxFilterDepthZero => exact absurd hv (Nat.ne_of_gt hdepth)
  · intro h
    refine ⟨Nat.one_le_iff_ne_zero.mpr (h .defaultPageSizeZero), ?_,
      Nat.one_le_iff_ne_zero.mpr (h .maxFilterDepthZero)⟩
    by_contra hlt
    exact h (.defaultAboveMax s.defaultPageSize s.maxPageSize) ⟨rfl, rfl, Nat.lt_of_not_le hlt⟩

theorem mem_violations {s : Settings} {v : Violation} : v ∈ s.violations ↔ v.Of s := by
  have hzero : ∀ n : UInt32, n = 0 ↔ n.toNat = 0 := fun n => UInt32.toNat_inj.symm
  have hdepth : s.maxFilterDepth = 0 ↔ s.maxFilterDepth.toNat = 0 := UInt64.toNat_inj.symm
  unfold violations
  simp only [List.mem_append, List.mem_ite_nil_right, List.mem_singleton, hzero, hdepth,
    UInt32.lt_iff_toNat_lt]
  cases v with
  | defaultAboveMax d m =>
    simp only [reduceCtorEq, and_false, false_or, or_false, Violation.defaultAboveMax.injEq,
      Violation.Of]
    constructor
    · rintro ⟨hlt, rfl, rfl⟩
      exact ⟨rfl, rfl, hlt⟩
    · rintro ⟨rfl, rfl, hlt⟩
      exact ⟨hlt, rfl, rfl⟩
  | _ => simp [Violation.Of]

theorem violations_in_order (s : Settings) : s.violations.Pairwise (·.place < ·.place) := by
  unfold violations
  split_ifs <;> simp [Violation.place]

theorem lists_violations (s : Settings) : s.Lists s.violations where
  mem_iff := fun _ => mem_violations
  in_order := s.violations_in_order
  texts_nodup := by
    refine List.pairwise_map.mpr (s.violations_in_order.imp ?_)
    intro v w hlt heq
    exact absurd (Violation.place_of_message heq) (Nat.ne_of_lt hlt)

theorem Lists.unique {s : Settings} {vs ws : List Violation} (hv : s.Lists vs) (hw : s.Lists ws) :
    vs = ws := by
  have hperm : vs.Perm ws := by
    refine (List.perm_ext_iff_of_nodup hv.texts_nodup.of_map hw.texts_nodup.of_map).mpr ?_
    intro v
    rw [hv.mem_iff, hw.mem_iff]
  refine hperm.eq_of_pairwise (fun v w _ _ h h' => ?_) hv.in_order hw.in_order
  exact absurd h (Nat.lt_asymm h')

/-! ## validation -/

theorem validate_eq_ok {s : Settings} {l : Limits} :
    s.validate = .ok l ↔ s.Consistent ∧ l = s.toLimits := by
  have hnil : s.violations.isEmpty = true ↔ s.Consistent := by
    rw [List.isEmpty_iff, List.eq_nil_iff_forall_not_mem, consistent_iff]
    exact forall_congr' fun v => not_congr mem_violations
  unfold validate
  by_cases h : s.violations.isEmpty = true
  · rw [if_pos h]
    constructor
    · intro hok
      cases hok
      exact ⟨hnil.mp h, rfl⟩
    · rintro ⟨-, rfl⟩
      rfl
  · rw [if_neg h]
    constructor
    · intro hok
      cases hok
    · rintro ⟨hs, -⟩
      exact absurd (hnil.mpr hs) h

theorem validate_eq_error {s : Settings} {e : SettingsError} :
    s.validate = .error e ↔ ∃ vs, vs ≠ [] ∧ s.Lists vs ∧ e = .invalid vs := by
  unfold validate
  by_cases h : s.violations.isEmpty = true
  · rw [if_pos h]
    constructor
    · intro herror
      cases herror
    · rintro ⟨vs, hne, hlists, -⟩
      rw [hlists.unique s.lists_violations] at hne
      exact absurd (List.isEmpty_iff.mp h) hne
  · rw [if_neg h]
    constructor
    · intro herror
      cases herror
      exact ⟨s.violations, fun hnil => h (List.isEmpty_iff.mpr hnil), s.lists_violations, rfl⟩
    · rintro ⟨vs, -, hlists, rfl⟩
      rw [hlists.unique s.lists_violations]

end Settings

/-! ## the first page -/

theorem Limits.fits_first_iff (l : Limits) : PageRequest.Fits l 1 l.defaultPageSize.toNat ↔
    1 ≤ l.defaultPageSize.toNat ∧ l.defaultPageSize.toNat ≤ l.maxPageSize.toNat := by
  have hmax := Int64.toInt_maxValue
  constructor
  · rintro ⟨-, hsize, hle, -⟩
    omega
  · rintro ⟨hsize, hle⟩
    exact ⟨by omega, by omega, by omega, by omega⟩

/-- settings are consistent exactly if filters may have a depth and the first page has a window -/
theorem Settings.consistent_iff_window (s : Settings) : s.Consistent ↔
    1 ≤ s.maxFilterDepth.toNat ∧ ∃ w, PageRequest.window s.toLimits none = .ok w := by
  have hwindow : (∃ w, PageRequest.window s.toLimits none = .ok w) ↔
      PageRequest.Fits s.toLimits 1 s.defaultPageSize.toNat :=
    PageRequest.exists_window_iff s.toLimits none
  have hfits : PageRequest.Fits s.toLimits 1 s.defaultPageSize.toNat ↔
      1 ≤ s.defaultPageSize.toNat ∧ s.defaultPageSize.toNat ≤ s.maxPageSize.toNat :=
    s.toLimits.fits_first_iff
  rw [hwindow, hfits]
  constructor
  · rintro ⟨hdefault, hmax, hdepth⟩
    exact ⟨hdepth, hdefault, hmax⟩
  · rintro ⟨hdepth, hdefault, hmax⟩
    exact ⟨hdefault, hmax, hdepth⟩

/-! ## the limits of a process -/

namespace Limits

theorem standard_consistent : (Settings.ofLimits standard).Consistent :=
  ⟨by decide, by decide, by decide⟩

theorem ofProcess_consistent (files : Files) (env : Environment) :
    (Settings.ofLimits (ofProcess files env)).Consistent := by
  unfold ofProcess
  cases h : (Settings.loadAll files none none env).bind Settings.validate with
  | error e => exact standard_consistent
  | ok l =>
    obtain ⟨s, -, hvalid⟩ := Json.bind_eq_ok.mp h
    obtain ⟨hs, rfl⟩ := Settings.validate_eq_ok.mp hvalid
    exact hs

variable {l : Limits}

/-- a page of the default size has a window unless the rows before it cannot be counted -/
theorem exists_window (hl : (Settings.ofLimits l).Consistent) {request : Option PageRequest}
    (hsize : request.bind (·.perPage) = none) (hpage : 1 ≤ PageRequest.pageNumber request)
    (hoffset : (PageRequest.pageNumber request - 1) * l.defaultPageSize.toNat ≤
      Int64.maxValue.toInt) :
    ∃ w, PageRequest.window l request = .ok w ∧
      w.IsPage (PageRequest.pageNumber request) l.defaultPageSize.toNat := by
  have hdefault : PageRequest.pageSize l request = l.defaultPageSize.toNat := by
    unfold PageRequest.pageSize
    rw [hsize]
    rfl
  have hone : 1 ≤ l.defaultPageSize.toNat := hl.one_le_default
  have hmax : l.defaultPageSize.toNat ≤ l.maxPageSize.toNat := hl.default_le_max
  have hfits : PageRequest.Fits l (PageRequest.pageNumber request)
      (PageRequest.pageSize l request) := by
    rw [hdefault]
    exact ⟨hpage, by omega, by omega, hoffset⟩
  obtain ⟨w, hw⟩ := (PageRequest.exists_window_iff l request).mpr hfits
  rw [← hdefault]
  exact ⟨w, hw, (PageRequest.window_eq_ok.mp hw).2⟩

/-- the first page -/
theorem window_none (hl : (Settings.ofLimits l).Consistent) :
    PageRequest.window l none = .ok ⟨0, l.defaultPageSize.toUInt64⟩ := by
  have hfits : PageRequest.Fits l 1 l.defaultPageSize.toNat :=
    l.fits_first_iff.mpr ⟨hl.one_le_default, hl.default_le_max⟩
  refine PageRequest.window_eq_ok.mpr ⟨hfits, ?_, ?_⟩
  · show (0 : Int) = (1 - 1) * l.defaultPageSize.toNat
    omega
  · exact congrArg Nat.cast (UInt32.toNat_toUInt64 l.defaultPageSize)

end Limits

/-- finding the limits, however often, does not change them -/
theorem Session.limits_iterate (s : Session) (n : Nat) : (settled^[n] s).limits = s.limits := by
  induction n with
  | zero => rfl
  | succ n ih => rw [Function.iterate_succ_apply', limits_settled, ih]

/-- **Validation accepts what a compiler can work with.**  Settings are valid if and only if filters may
have a depth and the first page has a window under them; their limits are then the settings themselves.
Otherwise the error lists the violated conditions, once each and in order.  The limits of a process are
valid, whatever its files and variables, and stay what they are.  Under them every page of the default
size has a window unless the rows before it cannot be counted. -/
theorem Settings.validate_limits :
    (∀ s : Settings,
      ((∃ l, s.validate = .ok l) ↔
        1 ≤ s.maxFilterDepth.toNat ∧ ∃ w, PageRequest.window s.toLimits none = .ok w) ∧
      (∀ l, s.validate = .ok l → l.defaultPageSize = s.defaultPageSize ∧
        l.maxPageSize = s.maxPageSize ∧ l.maxFilterDepth = s.maxFilterDepth) ∧
      ∀ e, s.validate = .error e ↔ ∃ vs, vs ≠ [] ∧ s.Lists vs ∧ e = .invalid vs) ∧
    ∀ (files : Files) (env : Environment),
      (∀ n, (Session.settled^[n] (Session.start files env)).limits = Limits.ofProcess files env) ∧
      (ofLimits (Limits.ofProcess files env)).validate = .ok (Limits.ofProcess files env) ∧
      (∀ request : Option PageRequest, request.bind (·.perPage) = none →
        1 ≤ PageRequest.pageNumber request →
        (PageRequest.pageNumber request - 1) * (Limits.ofProcess files env).defaultPageSize.toNat ≤
          Int64.maxValue.toInt →
        ∃ w, PageRequest.window (Limits.ofProcess files env) request = .ok w ∧
          w.IsPage (PageRequest.pageNumber request)
            (Limits.ofProcess files env).defaultPageSize.toNat) ∧
      PageRequest.window (Limits.ofProcess files env) none =
        .ok ⟨0, (Limits.ofProcess files env).defaultPageSize.toUInt64⟩ := by
  constructor
  · intro s
    refine ⟨?_, fun l hl => ?_, fun e => validate_eq_error⟩
    · rw [← consistent_iff_window]
      exact ⟨fun ⟨l, hl⟩ => (validate_eq_ok.mp hl).1, fun hs => ⟨_, validate_eq_ok.mpr ⟨hs, rfl⟩⟩⟩
    · obtain ⟨-, rfl⟩ := validate_eq_ok.mp hl
      exact ⟨rfl, rfl, rfl⟩
  · intro files env
    have hprocess := Limits.ofProcess_consistent files env
    refine ⟨Session.limits_iterate _, validate_eq_ok.mpr ⟨hprocess, rfl⟩, ?_,
      Limits.window_none hprocess⟩
    intro request hsize hpage hoffset
    exact Limits.exists_window hprocess hsize hpage hoffset

/-- three violations at once; a process whose variables are inconsistent, and one whose are not -/
theorem Settings.validate_limits_instances :
    validate ⟨20, 0, 0⟩ =
      .error (.invalid [.maxPageSizeZero, .defaultAboveMax 20 0, .maxFilterDepthZero]) ∧
    Limits.ofProcess (fun _ => none) [(maxPageSizeKey, "7")] = .standard ∧
    validate standard = .ok .standard ∧
    Limits.ofProcess (fun _ => none) [(defaultPageSizeKey, "7")] = ⟨7, 100, 10⟩ ∧
    (∃ w, PageRequest.window ⟨7, 100, 10⟩ (some ⟨some 3, none⟩) = .ok w ∧ w.IsPage 3 7) ∧
    PageRequest.window ⟨7, 100, 10⟩ none = .ok ⟨0, 7⟩ := by
  have hfallback : Limits.ofProcess (fun _ => none) [(maxPageSizeKey, "7")] = .standard := by
    decide +kernel
  have hfound : Limits.ofProcess (fun _ => none) [(defaultPageSizeKey, "7")] = ⟨7, 100, 10⟩ := by
    decide +kernel
  obtain ⟨hvalidate, hprocess⟩ := validate_limits
  have hviolated := (hvalidate ⟨20, 0, 0⟩).2.2
    (.invalid [.maxPageSizeZero, .defaultAboveMax 20 0, .maxFilterDepthZero])
  obtain ⟨-, hstandard, -, -⟩ := hprocess (fun _ => none) [(maxPageSizeKey, "7")]
  obtain ⟨-, -, hpages, hfirst⟩ := hprocess (fun _ => none) [(defaultPageSizeKey, "7")]
  rw [hfallback] at hstandard
  rw [hfound] at hpages hfirst
  refine ⟨?_, hfallback, hstandard, hfound, ?_, hfirst⟩
  · exact hviolated.mpr ⟨_, by decide, lists_violations ⟨20, 0, 0⟩, rfl⟩
  · exact hpages (some ⟨some 3, none⟩) rfl (by decide) (by decide)

end FilterSql
