import FilterSql.Proofs.SettingsFile
import FilterSql.Proofs.Variable

/-!
# Layers of settings

The value of a setting comes from the first layer that has one: its variable, the settings file, the
built-in defaults (`Setting.Effective`).  What is wrong with a layer is a `Settings.Problem`; each
problem stands at a stage, and the problem at the first stage that has one is the error
(`Settings.loadAll_layers`).  Both are stated with what variables hold and what lines of an env file say,
not with the reader of either.
-/

namespace FilterSql

open Json

/-! ## problems and values -/

inductive Stage where
  | envFile
  | settingsFile
  | number (x : Setting)

/-- the stages are passed in the order of their ranks -/
def Stage.rank : Stage → Nat
  | envFile => 0
  | settingsFile => 1
  | number x => 2 + x.place

section
variable (files : Files) (given envFile : Option String) (env : Environment)

/-- the path of the settings file, if there is one: the one that is given, or else the one that a variable
holds -/
inductive Settings.FileIs : Option String → Prop
  | given {path : String} : given = some path → FileIs (some path)
  | held {path? : Option String} : given = none →
      env.Holds (envFile.bind files) "SIEVE_SETTINGS_FILE" path? → FileIs path?

/-- What can be wrong at a stage, with the error that tells it.  Several stages can have a problem at once,
each at most one (`Settings.Problem.unique`). -/
inductive Settings.Problem : Stage → SettingsError → Prop
  | envFileUnread {path : String} : envFile = some path → files path = none →
      Problem .envFile (.read path)
  | envFileBad {path content : String} {lines : List String} {e : EnvFileError} :
      envFile = some path → files path = some content → Text.HasLines content.toList lines →
      Environment.FirstFails lines e → Problem .envFile (.envFile e)
  | fileUnread {path : String} : Settings.FileIs files given envFile env (some path) →
      files path = none → Problem .settingsFile (.read path)
  | fileBad {path content : String} {e : DecodeError} :
      Settings.FileIs files given envFile env (some path) → files path = some content →
      Settings.ofText content = .error e → Problem .settingsFile (.parse path e)
  | badNumber {x : Setting} {text : String} :
      env.Holds (envFile.bind files) x.key (some text) → (∀ n, ¬ Writes x.bound text n) →
      Problem (.number x) (.badNumber x.key text)

/-- the value of a setting: that of its variable, else that of the settings file, else the built-in
one -/
inductive Setting.Effective (x : Setting) : Nat → Prop
  | held {text : String} {n : Nat} : env.Holds (envFile.bind files) x.key (some text) →
      Writes x.bound text n → Effective x n
  | file {path content : String} {d : Doc} {n : Nat} : env.Holds (envFile.bind files) x.key none →
      Settings.FileIs files given envFile env (some path) → files path = some content →
      x.inFile? content = some d → d.IsNumber n → Effective x n
  | builtIn : env.Holds (envFile.bind files) x.key none →
      (∀ path content, Settings.FileIs files given envFile env (some path) →
        files path = some content → x.inFile? content = none) → Effective x (x.of .standard)

variable {files given envFile env}

theorem Settings.FileIs.unique {path? other? : Option String}
    (h : Settings.FileIs files given envFile env path?)
    (h' : Settings.FileIs files given envFile env other?) : path? = other? := by
  cases h with
  | given hpath =>
    cases h' with
    | given hpath' => exact hpath.symm.trans hpath'
    | held hnone _ => cases hpath.symm.trans hnone
  | held hnone hpath =>
    cases h' with
    | given hpath' => cases hnone.symm.trans hpath'
    | held _ hpath' => exact hpath.unique hpath'

theorem Settings.Problem.unique {t : Stage} {e e' : SettingsError}
    (h : Settings.Problem files given envFile env t e)
    (h' : Settings.Problem files given envFile env t e') : e = e' := by
  cases h with
  | envFileUnread hpath hread =>
    cases h' with
    | envFileUnread hpath' _ =>
      cases hpath.symm.trans hpath'
      rfl
    | envFileBad hpath' hread' _ _ =>
      cases hpath.symm.trans hpath'
      cases hread.symm.trans hread'
  | envFileBad hpath hread hlines hfirst =>
    cases h' with
    | envFileUnread hpath' hread' =>
      cases hpath.symm.trans hpath'
      cases hread.symm.trans hread'
    | envFileBad hpath' hread' hlines' hfirst' =>
      cases hpath.symm.trans hpath'
      cases hread.symm.trans hread'
      obtain rfl := hlines.unique hlines'
      rw [hfirst.unique hfirst']
  | fileUnread hpath hread =>
    cases h' with
    | fileUnread hpath' _ =>
      cases hpath.unique hpath'
      rfl
    | fileBad hpath' hread' _ =>
      cases hpath.unique hpath'
      cases hread.symm.trans hread'
  | fileBad hpath hread hbad =>
    cases h' with
    | fileUnread hpath' hread' =>
      cases hpath.unique hpath'
      cases hread.symm.trans hread'
    | fileBad hpath' hread' hbad' =>
      cases hpath.unique hpath'
      cases hread.symm.trans hread'
      cases hbad.symm.trans hbad'
      rfl
  | badNumber htext _ =>
    cases h' with
    | badNumber htext' _ =>
      cases htext.unique htext'
      rfl

/-- a problem of the env file is there whatever the process gives -/
theorem Settings.Problem.of_envFile {given' : Option String} {env' : Environment} {e : SettingsError}
    (h : Settings.Problem files given envFile env .envFile e) :
    Settings.Problem files given' envFile env' .envFile e := by
  cases h with
  | envFileUnread hpath hread => exact .envFileUnread hpath hread
  | envFileBad hpath hread hlines hfirst => exact .envFileBad hpath hread hlines hfirst

/-- a setting has one value -/
theorem Setting.Effective.unique {x : Setting} {m n : Nat}
    (h : x.Effective files given envFile env m) (h' : x.Effective files given envFile env n) :
    m = n := by
  cases h with
  | held htext hwrites =>
    cases h' with
    | held htext' hwrites' =>
      cases htext.unique htext'
      exact hwrites.unique hwrites'
    | file hnone _ _ _ _ => cases htext.unique hnone
    | builtIn hnone _ => cases htext.unique hnone
  | file hnone hpath hread hentry hnumber =>
    cases h' with
    | held htext' _ => cases hnone.unique htext'
    | file _ hpath' hread' hentry' hnumber' =>
      cases hpath.unique hpath'
      cases hread.symm.trans hread'
      cases hentry.symm.trans hentry'
      cases hnumber.symm.trans hnumber'
      rfl
    | builtIn _ habsent => cases hentry.symm.trans (habsent _ _ hpath hread)
  | builtIn hnone habsent =>
    cases h' with
    | held htext' _ => cases hnone.unique htext'
    | file _ hpath' hread' hentry' _ => cases hentry'.symm.trans (habsent _ _ hpath' hread')
    | builtIn _ _ => rfl

/-! ## stage by stage

Each stage meets its problem, or else has none and does what is said of it. -/

theorem Environment.loadFile_cases (files : Files) (given envFile : Option String)
    (env : Environment) :
    (∃ env' e, env.loadFile files envFile = (env', some e) ∧
      Settings.Problem files given envFile env .envFile e) ∨
    ∃ env', env.loadFile files envFile = (env', none) ∧
      (∀ e, ¬ Settings.Problem files given envFile env .envFile e) ∧
      ∀ key, env.Holds (envFile.bind files) key (env'.get? key) := by
  cases hfile : envFile with
  | none =>
    refine .inr ⟨env, rfl, fun e h => ?_, env.holds_get?⟩
    cases h with
    | envFileUnread hpath _ => cases hpath
    | envFileBad hpath _ _ _ => cases hpath
  | some path =>
    cases hcontent : files path with
    | none =>
      refine .inl ⟨env, _, ?_, .envFileUnread rfl hcontent⟩
      rw [loadFile, hcontent]
    | some content =>
      have hlines := Text.lines_eq_iff.mp (rfl : Text.lines content = _)
      cases herror : (env.load content).2 with
      | some e =>
        refine .inl ⟨(env.load content).1, _, ?_,
          .envFileBad rfl hcontent hlines (loadLines_eq_some.mp herror)⟩
        rw [loadFile, hcontent]
        simp only [herror, Option.map_some]
      | none =>
        refine .inr ⟨(env.load content).1, ?_, fun e h => ?_, ?_⟩
        · rw [loadFile, hcontent]
          simp only [herror, Option.map_none]
        · cases h with
          | envFileUnread hpath hread =>
            cases hpath
            cases hcontent.symm.trans hread
          | envFileBad hpath hread hlines' hbad =>
            cases hpath
            cases hcontent.symm.trans hread
            obtain rfl := hlines.unique hlines'
            cases herror.symm.trans (loadLines_eq_some.mpr hbad)
        · rw [Option.bind_some, hcontent]
          exact holds_get?_load herror

theorem Settings.ofFile_cases {path? : Option String}
    (hpath : Settings.FileIs files given envFile env path?) :
    (∃ e, Settings.ofFile files path? = .error e ∧
      Settings.Problem files given envFile env .settingsFile e) ∨
    ∃ s, Settings.ofFile files path? = .ok s ∧
      (∀ e, ¬ Settings.Problem files given envFile env .settingsFile e) ∧
      ∀ x : Setting, Part Doc.IsNumber (x.of .standard) ((path?.bind files).bind x.inFile?)
        (x.of s) := by
  cases path? with
  | none =>
    refine .inr ⟨.standard, rfl, fun e h => ?_, fun x => rfl⟩
    cases h with
    | fileUnread hpath' _ => cases hpath.unique hpath'
    | fileBad hpath' _ _ => cases hpath.unique hpath'
  | some path =>
    cases hcontent : files path with
    | none =>
      refine .inl ⟨_, ?_, .fileUnread hpath hcontent⟩
      rw [ofFile, hcontent]
    | some content =>
      cases hread : Settings.ofText content with
      | error e =>
        refine .inl ⟨_, ?_, .fileBad hpath hcontent hread⟩
        rw [ofFile, hcontent]
        simp only [hread, Except.mapError]
      | ok s =>
        refine .inr ⟨s, ?_, fun e h => ?_, fun x => ?_⟩
        · rw [ofFile, hcontent]
          simp only [hread, Except.mapError]
        · cases h with
          | fileUnread hpath' hnone =>
            cases hpath.unique hpath'
            cases hcontent.symm.trans hnone
          | fileBad hpath' hsome hbad =>
            cases hpath.unique hpath'
            cases hcontent.symm.trans hsome
            cases hread.symm.trans hbad
        · rw [Option.bind_some, hcontent]
          exact Settings.ofText_eq_ok hread x

/-- what a variable gives: nothing if it is absent, else the number that it writes -/
inductive Setting.Given (x : Setting) (env : Environment) : Option Nat → Prop
  | absent : env.get? x.key = none → Given x env none
  | number {text : String} {n : Nat} : env.get? x.key = some text → Writes x.bound text n →
      Given x env (some n)

theorem numberOf?_cases {env' : Environment}
    (henv : ∀ key, env.Holds (envFile.bind files) key (env'.get? key)) (x : Setting) :
    (∃ e, numberOf? env' x.key x.bound = .error e ∧
      Settings.Problem files given envFile env (.number x) e) ∨
    ∃ n?, numberOf? env' x.key x.bound = .ok n? ∧
      (∀ e, ¬ Settings.Problem files given envFile env (.number x) e) ∧ x.Given env' n? := by
  cases htext : env'.get? x.key with
  | none =>
    refine .inr ⟨none, ?_, fun e h => ?_, .absent htext⟩
    · rw [numberOf?, htext]
    · cases h with
      | badNumber hsome _ => cases htext.symm.trans ((henv _).unique hsome)
  | some text =>
    cases hnumber : boundedNumber? x.bound text with
    | none =>
      refine .inl ⟨.badNumber x.key text, ?_, .badNumber (htext ▸ henv _) fun n hn => ?_⟩
      · rw [numberOf?, htext]
        simp only [hnumber]
      · cases hnumber.symm.trans (boundedNumber?_eq_some.mpr hn)
    | some n =>
      have hwrites : Writes x.bound text n := boundedNumber?_eq_some.mp hnumber
      refine .inr ⟨some n, ?_, fun e h => ?_, .number htext hwrites⟩
      · rw [numberOf?, htext]
        simp only [hnumber]
      · cases h with
        | badNumber hsome hbad =>
          cases htext.symm.trans ((henv _).unique hsome)
          exact hbad n hwrites

theorem Setting.Given.lt_bound {x : Setting} {env : Environment} {n : Nat}
    (h : x.Given env (some n)) : n < x.bound := by
  cases h with
  | number _ hwrites => exact hwrites.lt

theorem toNat_getD {ω : Type} {toNat : ω → Nat} {ofNat : Nat → ω} {bound : Nat}
    (hcast : ∀ n < bound, toNat (ofNat n) = n) {n? : Option Nat} {w : ω}
    (hlt : ∀ n, n? = some n → n < bound) :
    toNat ((n?.map ofNat).getD w) = n?.getD (toNat w) := by
  cases n? with
  | none => rfl
  | some n => exact hcast n (hlt n rfl)

/-- once all variables are read, each setting holds what its variable gives, else what it held -/
theorem Settings.override_eq_ok (s : Settings) {n? : Setting → Option Nat}
    (hread : ∀ x : Setting, numberOf? env x.key x.bound = .ok (n? x))
    (hgiven : ∀ x : Setting, x.Given env (n? x)) :
    ∃ t, s.override env = .ok t ∧ ∀ x : Setting, x.of t = (n? x).getD (x.of s) := by
  have hdefault : numberOf? env defaultPageSizeKey UInt32.size = .ok (n? .defaultPageSize) :=
    hread .defaultPageSize
  have hmax : numberOf? env maxPageSizeKey UInt32.size = .ok (n? .maxPageSize) :=
    hread .maxPageSize
  have hdepth : numberOf? env maxFilterDepthKey UInt64.size = .ok (n? .maxFilterDepth) :=
    hread .maxFilterDepth
  refine ⟨{
    defaultPageSize := ((n? .defaultPageSize).map Nat.toUInt32).getD s.defaultPageSize
    maxPageSize := ((n? .maxPageSize).map Nat.toUInt32).getD s.maxPageSize
    maxFilterDepth := ((n? .maxFilterDepth).map Nat.toUInt64).getD s.maxFilterDepth }, ?_, ?_⟩
  · rw [override, hdefault, hmax, hdepth]
    rfl
  · intro x
    have hlt : ∀ n, n? x = some n → n < x.bound := fun n hn => (hn ▸ hgiven x).lt_bound
    cases x with
    | defaultPageSize => exact toNat_getD (fun _ => UInt32.toNat_ofNat_of_lt') hlt
    | maxPageSize => exact toNat_getD (fun _ => UInt32.toNat_ofNat_of_lt') hlt
    | maxFilterDepth => exact toNat_getD (fun _ => UInt64.toNat_ofNat_of_lt') hlt

theorem Settings.override_eq_error {s : Settings} {x : Setting} {e : SettingsError}
    (hread : numberOf? env x.key x.bound = .error e)
    (hbefore : ∀ y : Setting, y.place < x.place → ∃ n?, numberOf? env y.key y.bound = .ok n?) :
    s.override env = .error e := by
  cases x with
  | defaultPageSize =>
    have hdefault : numberOf? env defaultPageSizeKey UInt32.size = .error e := hread
    rw [override, hdefault]
    rfl
  | maxPageSize =>
    obtain ⟨n, hdefault⟩ := hbefore .defaultPageSize (by decide)
    have hdefault : numberOf? env defaultPageSizeKey UInt32.size = .ok n := hdefault
    have hmax : numberOf? env maxPageSizeKey UInt32.size = .error e := hread
    rw [override, hdefault, hmax]
    rfl
  | maxFilterDepth =>
    obtain ⟨n, hdefault⟩ := hbefore .defaultPageSize (by decide)
    obtain ⟨m, hmax⟩ := hbefore .maxPageSize (by decide)
    have hdefault : numberOf? env defaultPageSizeKey UInt32.size = .ok n := hdefault
    have hmax : numberOf? env maxPageSizeKey UInt32.size = .ok m := hmax
    have hdepth : numberOf? env maxFilterDepthKey UInt64.size = .error e := hread
    rw [override, hdefault, hmax, hdepth]
    rfl

/-- what a variable gives, or else the file, is the effective value -/
theorem Setting.Given.effective {env' : Environment} {path? : Option String}
    (henv : ∀ key, env.Holds (envFile.bind files) key (env'.get? key))
    (hpath : Settings.FileIs files given envFile env path?) {x : Setting} {n? : Option Nat} {m : Nat}
    (hgiven : x.Given env' n?)
    (hfile : Part Doc.IsNumber (x.of .standard) ((path?.bind files).bind x.inFile?) m) :
    x.Effective files given envFile env (n?.getD m) := by
  cases hgiven with
  | number htext hwrites => exact .held (htext ▸ henv _) hwrites
  | absent htext =>
    have hnone : env.Holds (envFile.bind files) x.key none := htext ▸ henv _
    cases hin : (path?.bind files).bind x.inFile? with
    | some d =>
      rw [hin] at hfile
      obtain ⟨content, hread, hentry⟩ := Option.bind_eq_some_iff.mp hin
      obtain ⟨path, rfl, hread⟩ := Option.bind_eq_some_iff.mp hread
      exact .file hnone hpath hread hentry hfile
    | none =>
      rw [hin] at hfile
      obtain rfl : m = x.of .standard := hfile
      refine .builtIn hnone fun path content hpath' hread => ?_
      cases hpath.unique hpath'
      rwa [Option.bind_some, hread, Option.bind_some] at hin

def Settings.FirstProblem (files : Files) (given envFile : Option String) (env : Environment)
    (e : SettingsError) : Prop :=
  ∃ t, Settings.Problem files given envFile env t e ∧
    ∀ t' : Stage, t'.rank < t.rank → ∀ e', ¬ Settings.Problem files given envFile env t' e'

theorem Stage.rank_injective {t t' : Stage} (h : t.rank = t'.rank) : t = t' := by
  rcases t with _ | _ | _ | _ | _ <;> rcases t' with _ | _ | _ | _ | _ <;> first | rfl | cases h

theorem Settings.FirstProblem.unique {e e' : SettingsError}
    (h : Settings.FirstProblem files given envFile env e)
    (h' : Settings.FirstProblem files given envFile env e') : e = e' := by
  obtain ⟨t, hproblem, hbefore⟩ := h
  obtain ⟨t', hproblem', hbefore'⟩ := h'
  rcases Nat.lt_trichotomy t.rank t'.rank with hlt | heq | hlt
  · exact absurd hproblem (hbefore' t hlt e)
  · obtain rfl := Stage.rank_injective heq
    exact hproblem.unique hproblem'
  · exact absurd hproblem' (hbefore t' hlt e')

theorem Setting.forall_or_first (P : Setting → Prop) :
    (∀ x, P x) ∨ ∃ x, ¬ P x ∧ ∀ y : Setting, y.place < x.place → P y := by
  by_cases hdefault : P .defaultPageSize
  · by_cases hmax : P .maxPageSize
    · by_cases hdepth : P .maxFilterDepth
      · exact .inl fun x => by cases x <;> assumption
      · refine .inr ⟨_, hdepth, fun y hy => ?_⟩
        cases y with
        | maxFilterDepth => exact absurd hy (Nat.lt_irrefl _)
        | _ => assumption
    · refine .inr ⟨_, hmax, fun y hy => ?_⟩
      cases y with
      | defaultPageSize => exact hdefault
      | _ => exact absurd hy (by decide)
  · refine .inr ⟨_, hdefault, fun y hy => absurd hy (Nat.not_lt_zero _)⟩

theorem Settings.loadAll_cases (files : Files) (given envFile : Option String) (env : Environment) :
    (∃ e, Settings.loadAll files given envFile env = .error e ∧
      Settings.FirstProblem files given envFile env e) ∨
    ∃ s, Settings.loadAll files given envFile env = .ok s ∧
      (∀ t e, ¬ Settings.Problem files given envFile env t e) ∧
      ∀ x : Setting, x.Effective files given envFile env (x.of s) := by
  rcases Environment.loadFile_cases files given envFile env with
    ⟨env', e, hload, hproblem⟩ | ⟨env', hload, henvFile, henv⟩
  · refine .inl ⟨e, ?_, .envFile, hproblem, fun t ht => absurd ht (Nat.not_lt_zero _)⟩
    rw [loadAll, hload]
  have hpath : Settings.FileIs files given envFile env (Settings.path? given env') := by
    cases hgiven : given with
    | some path => exact .given rfl
    | none => exact .held rfl (henv settingsFileKey)
  have hall : Settings.loadAll files given envFile env =
      Settings.ofFile files (Settings.path? given env') >>= (·.override env') := by
    rw [loadAll, hload]
    rfl
  rw [hall]
  rcases Settings.ofFile_cases hpath with
    ⟨e, hfile, hproblem⟩ | ⟨s, hfile, hsettingsFile, hs⟩
  · refine .inl ⟨e, ?_, .settingsFile, hproblem, ?_⟩
    · rw [hfile]
      rfl
    · rintro (_ | _ | x) ht
      · exact henvFile
      · exact absurd ht (Nat.lt_irrefl _)
      · exact absurd ht (by simp only [Stage.rank]; omega)
  rw [hfile]
  show (∃ e, s.override env' = .error e ∧ _) ∨ ∃ t, s.override env' = .ok t ∧ _
  -- `override` stops at the first variable that is no number, so those before it have no problem
  rcases Setting.forall_or_first fun x => ∃ n?, numberOf? env' x.key x.bound = .ok n? with
    hok | ⟨x, hx, hbefore⟩
  · choose n? hread using hok
    have hvariable : ∀ x : Setting,
        (∀ e, ¬ Settings.Problem files given envFile env (.number x) e) ∧ x.Given env' (n? x) := by
      intro x
      rcases numberOf?_cases henv x with ⟨e, herror, _⟩ | ⟨m?, hok, hclear, hgiven⟩
      · cases (hread x).symm.trans herror
      · cases (hread x).symm.trans hok
        exact ⟨hclear, hgiven⟩
    obtain ⟨t, ht, hvalue⟩ := Settings.override_eq_ok s hread fun x => (hvariable x).2
    refine .inr ⟨t, ht, ?_, fun x => ?_⟩
    · rintro (_ | _ | x)
      · exact henvFile
      · exact hsettingsFile
      · exact (hvariable x).1
    · rw [hvalue x]
      exact (hvariable x).2.effective henv hpath (hs x)
  · rcases numberOf?_cases henv x with ⟨e, herror, hproblem⟩ | ⟨n?, hok, _⟩
    · refine .inl ⟨e, Settings.override_eq_error herror hbefore, .number x, hproblem, ?_⟩
      rintro (_ | _ | y) ht
      · exact henvFile
      · exact hsettingsFile
      · obtain ⟨n?, hread⟩ := hbefore y (Nat.lt_of_add_lt_add_left ht)
        rcases numberOf?_cases henv y with ⟨e', herror', _⟩ | ⟨m?, _, hclear, _⟩
        · cases hread.symm.trans herror'
        · exact hclear
    · exact absurd ⟨n?, hok⟩ hx

/-- **What loading gives.**  It fails exactly if some layer has a problem, with the first problem in the
order of the stages.  Otherwise the value of every setting is that of its variable, else that of the
settings file, else the built-in one.  A settings file of well-formed JSON is read exactly if it has the
form of one. -/
theorem Settings.loadAll_layers (files : Files) (given envFile : Option String) (env : Environment) :
    ((∃ e, Settings.loadAll files given envFile env = .error e) ↔
      ∃ t e, Settings.Problem files given envFile env t e) ∧
    (∀ e, Settings.loadAll files given envFile env = .error e ↔
      Settings.FirstProblem files given envFile env e) ∧
    (∀ s, Settings.loadAll files given envFile env = .ok s →
      ∀ (x : Setting) (n : Nat), x.of s = n ↔ x.Effective files given envFile env n) ∧
    ∀ content J, Json.ofText? content = some J →
      ((∃ s, Settings.ofText content = .ok s) ↔ Settings.Decodes J) := by
  have hform : ∀ content J, Json.ofText? content = some J →
      ((∃ s, Settings.ofText content = .ok s) ↔ Settings.Decodes J) :=
    fun _ _ => Settings.exists_ofText_iff
  rcases Settings.loadAll_cases files given envFile env with
    ⟨e, hload, hfirst⟩ | ⟨s, hload, hclear, heffective⟩
  · rw [hload]
    refine ⟨⟨fun _ => ?_, fun _ => ⟨e, rfl⟩⟩, fun e' => ⟨?_, fun hfirst' => ?_⟩, fun s h => ?_,
      hform⟩
    · obtain ⟨t, hproblem, _⟩ := hfirst
      exact ⟨t, e, hproblem⟩
    · rintro ⟨⟩
      exact hfirst
    · rw [hfirst.unique hfirst']
    · cases h
  · rw [hload]
    refine ⟨⟨fun h => ?_, fun h => ?_⟩, fun e => ⟨fun h => ?_, fun h => ?_⟩, fun t h => ?_,
      hform⟩
    · obtain ⟨e, h⟩ := h
      cases h
    · obtain ⟨t, e, hproblem⟩ := h
      exact absurd hproblem (hclear t e)
    · cases h
    · obtain ⟨t, hproblem, _⟩ := h
      exact absurd hproblem (hclear t e)
    · cases h
      exact fun x n => ⟨fun hn => hn ▸ heffective x, (heffective x).unique⟩

end

/-- an env file that names a settings file, and settings files of both forms -/
def Files.stacked : Files
  | ".env" => some ("# limits\nSIEVE_SETTINGS_FILE='limits.json'\r\nSIEVE_DEFAULT_PAGE_SIZE=many\n" ++
      "export SIEVE_MAX_PAGE_SIZE=\" +40\t\"\nSIEVE_MAX_PAGE_SIZE=9")
  | "limits.json" => some "\x7b\"maxPageSize\":1,\"maxFilterDepth\":5,\"note\":null\x7d"
  | "items.json" => some "[7]"
  | _ => none

/-- The process gives one setting, the first of two lines of the env file another, and the settings file
that the env file names the third; with no variable an array gives its first item, and the rest is built
in.  Without the process variable the env file has no number for that setting, but a settings file that
cannot be read is met before. -/
theorem Settings.loadAll_layers_stacked :
    Settings.loadAll Files.stacked none (some ".env") [("SIEVE_DEFAULT_PAGE_SIZE", "12")] =
        .ok ⟨12, 40, 5⟩ ∧
      (∀ (x : Setting) (n : Nat), x.of ⟨12, 40, 5⟩ = n ↔
        x.Effective Files.stacked none (some ".env") [("SIEVE_DEFAULT_PAGE_SIZE", "12")] n) ∧
      (∀ (x : Setting) (n : Nat), x.of ⟨7, 100, 10⟩ = n ↔
        x.Effective Files.stacked (some "items.json") none [] n) ∧
      Settings.loadAll Files.stacked (some "none.json") (some ".env") [] =
        .error (.read "none.json") := by
  have hok : ∀ {x : Except SettingsError Settings} {s : Settings}, x.toOption = some s →
      x = .ok s := by
    intro x s h
    cases x <;> cases h
    rfl
  have hload : Settings.loadAll Files.stacked none (some ".env")
      [("SIEVE_DEFAULT_PAGE_SIZE", "12")] = .ok ⟨12, 40, 5⟩ := hok (by decide +kernel)
  have hitems : Settings.loadAll Files.stacked (some "items.json") none [] = .ok ⟨7, 100, 10⟩ :=
    hok (by decide +kernel)
  obtain ⟨hfails, -, hvalues, -⟩ := loadAll_layers Files.stacked none (some ".env")
    [("SIEVE_DEFAULT_PAGE_SIZE", "12")]
  obtain ⟨-, hfirst, -, -⟩ := loadAll_layers Files.stacked (some "none.json") (some ".env") []
  refine ⟨hload, hvalues _ hload, (loadAll_layers _ _ _ _).2.2.1 _ hitems, ?_⟩
  refine (hfirst _).mpr ⟨.settingsFile, .fileUnread (.given rfl) rfl, ?_⟩
  rintro (_ | _ | x) ht e hproblem
  · -- the same env file has just been loaded
    obtain ⟨e', herror⟩ := hfails.mpr ⟨.envFile, e, hproblem.of_envFile⟩
    rw [hload] at herror
    cases herror
  · exact absurd ht (Nat.lt_irrefl _)
  · exact absurd ht (by simp only [Stage.rank]; omega)

end FilterSql
