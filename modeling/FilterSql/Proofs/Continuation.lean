import FilterSql.Proofs.Printing
import FilterSql.Proofs.Record

/-!
# Tokens when more follows

The tokens of a text stay its first tokens when more follows, unless one of them is broken or what
follows goes on with a last numeral (`lexes_extend`).  The scanners have this property one by one:
those of parts of numerals (`Extends`), and those of whole tokens (`Keeps`).
-/

namespace FilterSql.Json

/-! ## numerals -/

/-- what the scanner reads of a text, it reads too when more follows; what remains is no longer -/
def Extends {α : Type} (scan : List Char → Except Fault (α × List Char)) : Prop :=
  ∀ ⦃cs : List Char⦄ ⦃a : α⦄ ⦃r : List Char⦄, scan cs = .ok (a, r) → r.length ≤ cs.length ∧
    ∀ ⦃rest : List Char⦄, EndsNumeral rest → scan (cs ++ rest) = .ok (a, r ++ rest)

theorem digits_extend (cs : List Char) {rest : List Char} (hrest : EndsNumeral rest) :
    digits (cs ++ rest) = ((digits cs).1, (digits cs).2 ++ rest) := by
  induction cs with
  | nil => exact hrest.digits_eq
  | cons c cs ih =>
    rw [List.cons_append, digits, digits]
    cases digit? c with
    | none => rfl
    | some d =>
      rw [ih]
      rfl

theorem length_digits (cs : List Char) :
    (digits cs).1.length + (digits cs).2.length = cs.length := by
  induction cs with
  | nil => rfl
  | cons c cs ih =>
    rw [digits]
    cases digit? c with
    | none => exact Nat.zero_add _
    | some d =>
      show (digits cs).1.length + 1 + (digits cs).2.length = cs.length + 1
      omega

theorem someDigits_eq_ok {cs r : List Char} {ds : List Nat} :
    someDigits cs = .ok (ds, r) ↔ digits cs = (ds, r) ∧ ds ≠ [] := by
  unfold someDigits
  rcases hdigits : digits cs with ⟨_ | ⟨d, es⟩, t⟩
  · cases t <;> simp +contextual [eq_comm]
  · simp +contextual [eq_comm]

theorem length_lt_of_someDigits {cs r : List Char} {ds : List Nat}
    (h : someDigits cs = .ok (ds, r)) : r.length < cs.length := by
  obtain ⟨hdigits, hne⟩ := someDigits_eq_ok.mp h
  have hlength : ds.length + r.length = cs.length := by
    rw [← length_digits cs, hdigits]
  have hpos : 0 < ds.length := List.length_pos_iff.mpr hne
  omega

theorem extends_someDigits : Extends someDigits := by
  intro cs ds r h
  refine ⟨Nat.le_of_lt (length_lt_of_someDigits h), fun rest hrest => ?_⟩
  obtain ⟨hdigits, hne⟩ := someDigits_eq_ok.mp h
  exact someDigits_eq_ok.mpr ⟨by rw [digits_extend cs hrest, hdigits], hne⟩

theorem scanWhole_eq_ok {cs r : List Char} {ds : List Nat} :
    scanWhole cs = .ok (ds, r) ↔ someDigits cs = .ok (ds, r) ∧ ∀ d es, ds ≠ 0 :: d :: es := by
  unfold scanWhole
  split
  · rename_i d es t heq
    rw [heq]
    refine iff_of_false (fun h => by cases h) ?_
    rintro ⟨h, hzero⟩
    cases h
    exact hzero d es rfl
  · rename_i hzero
    refine (and_iff_left_of_imp fun h => ?_).symm
    rintro d es rfl
    exact hzero d es r h

theorem extends_scanWhole : Extends scanWhole := by
  intro cs ds r h
  obtain ⟨hdigits, hzero⟩ := scanWhole_eq_ok.mp h
  obtain ⟨hle, hmore⟩ := extends_someDigits hdigits
  exact ⟨hle, fun _ hrest => scanWhole_eq_ok.mpr ⟨hmore hrest, hzero⟩⟩

theorem extends_scanFraction : Extends scanFraction := by
  intro cs ds? r h
  by_cases hpoint : ∃ t, cs = '.' :: t
  · obtain ⟨t, rfl⟩ := hpoint
    obtain ⟨⟨ds, r'⟩, hdigits, heq⟩ := map_eq_ok.mp h
    cases heq
    obtain ⟨hle, hmore⟩ := extends_someDigits hdigits
    exact ⟨Nat.le_succ_of_le hle, fun _ hrest => map_eq_ok.mpr ⟨_, hmore hrest, rfl⟩⟩
  · rw [not_exists] at hpoint
    rw [scanFraction_of_ne hpoint] at h
    cases h
    refine ⟨Nat.le_refl _, fun rest hrest => ?_⟩
    cases cs with
    | nil => exact hrest.scanFraction_eq
    | cons c cs =>
      refine scanFraction_of_ne fun t heq => ?_
      cases heq
      exact hpoint _ rfl

theorem scanSign_extend {cs : List Char} (h : cs ≠ []) (rest : List Char) :
    scanSign (cs ++ rest) = ((scanSign cs).1, (scanSign cs).2 ++ rest) := by
  fun_cases scanSign cs with
  | case1 => rfl
  | case2 => rfl
  | case3 _ hminus hplus =>
    obtain ⟨c, t, rfl⟩ := List.exists_cons_of_ne_nil h
    unfold scanSign
    split
    · rename_i heq
      cases heq
      exact (hminus t rfl).elim
    · rename_i heq
      cases heq
      exact (hplus t rfl).elim
    · rfl

theorem length_scanSign (cs : List Char) : (scanSign cs).2.length ≤ cs.length := by
  fun_cases scanSign cs <;> simp

theorem extends_scanExponent : Extends scanExponent := by
  intro cs e? r h
  cases cs with
  | nil =>
    cases h
    exact ⟨Nat.le_refl _, fun _ hrest => hrest.scanExponent_eq⟩
  | cons c cs =>
    rw [scanExponent] at h
    split at h
    · rename_i hc
      obtain ⟨⟨ds, r'⟩, hdigits, heq⟩ := map_eq_ok.mp h
      cases heq
      -- digits stand behind the sign, so the text does not end at it
      have hne : cs ≠ [] := by
        rintro rfl
        cases hdigits
      obtain ⟨hle, hmore⟩ := extends_someDigits hdigits
      refine ⟨Nat.le_succ_of_le (Nat.le_trans hle (length_scanSign cs)), fun rest hrest => ?_⟩
      rw [List.cons_append, scanExponent, if_pos hc, scanSign_extend hne]
      exact map_eq_ok.mpr ⟨_, hmore hrest, rfl⟩
    · rename_i hc
      cases h
      refine ⟨Nat.le_refl _, fun rest hrest => ?_⟩
      rw [List.cons_append, scanExponent, if_neg hc]

theorem Numeral.scan_eq_ok {negative : Bool} {cs r : List Char} {n : Numeral} :
    Numeral.scan negative cs = .ok (n, r) ↔ n.negative = negative ∧
      ∃ t u, scanWhole cs = .ok (n.whole, t) ∧ scanFraction t = .ok (n.fraction, u) ∧
        scanExponent u = .ok (n.exponent, r) := by
  constructor
  · intro h
    obtain ⟨⟨whole, t⟩, hwhole, h⟩ := bind_eq_ok.mp h
    obtain ⟨⟨fraction, u⟩, hfraction, h⟩ := bind_eq_ok.mp h
    obtain ⟨⟨exponent, v⟩, hexponent, h⟩ := bind_eq_ok.mp h
    cases h
    exact ⟨rfl, t, u, hwhole, hfraction, hexponent⟩
  · rintro ⟨rfl, t, u, hwhole, hfraction, hexponent⟩
    refine bind_eq_ok.mpr ⟨_, hwhole, bind_eq_ok.mpr ⟨_, hfraction, ?_⟩⟩
    exact bind_eq_ok.mpr ⟨_, hexponent, rfl⟩

theorem extends_scan (negative : Bool) : Extends (Numeral.scan negative) := by
  intro cs n r h
  obtain ⟨hnegative, t, u, hwhole, hfraction, hexponent⟩ := Numeral.scan_eq_ok.mp h
  obtain ⟨hle, hmore⟩ := extends_scanWhole hwhole
  obtain ⟨hle', hmore'⟩ := extends_scanFraction hfraction
  obtain ⟨hle'', hmore''⟩ := extends_scanExponent hexponent
  refine ⟨by omega, fun rest hrest => Numeral.scan_eq_ok.mpr ⟨hnegative, t ++ rest, u ++ rest, ?_⟩⟩
  exact ⟨hmore hrest, hmore' hrest, hmore'' hrest⟩

theorem length_lt_of_scan {negative : Bool} {cs r : List Char} {n : Numeral}
    (h : Numeral.scan negative cs = .ok (n, r)) : r.length < cs.length := by
  obtain ⟨-, t, u, hwhole, hfraction, hexponent⟩ := Numeral.scan_eq_ok.mp h
  have hlt := length_lt_of_someDigits (scanWhole_eq_ok.mp hwhole).1
  have hle := (extends_scanFraction hfraction).1
  have hle' := (extends_scanExponent hexponent).1
  omega

/-! ## tokens -/

def Token.IsBroken : Token → Prop
  | .broken _ _ _ => True
  | _ => False

/-- a token that is not broken is the same when more follows; what remains is no longer -/
def Keeps (scan : List Char → Token × List Char) : Prop :=
  ∀ ⦃cs : List Char⦄, ¬ (scan cs).1.IsBroken → (scan cs).2.length ≤ cs.length ∧
    ∀ ⦃rest : List Char⦄, EndsNumeral rest →
      scan (cs ++ rest) = ((scan cs).1, (scan cs).2 ++ rest)

theorem Keeps.ite {p : Prop} [Decidable p] {scan scan' : List Char → Token × List Char}
    (h : Keeps scan) (h' : Keeps scan') : Keeps fun cs => if p then scan cs else scan' cs := by
  by_cases hp : p
  · simpa only [if_pos hp] using h
  · simpa only [if_neg hp] using h'

theorem keeps_single (t : Token) : Keeps fun cs => (t, cs) :=
  fun _ _ => ⟨Nat.le_refl _, fun _ _ => rfl⟩

theorem keeps_broken (start : Start) (read skip : Fault) :
    Keeps fun _ => (.broken start read skip, []) :=
  fun _ h => absurd trivial h

theorem keeps_scanWord (t : Token) (word : List Char) : Keeps (scanWord t word) := by
  induction word with
  | nil => exact keeps_single t
  | cons w word ih =>
    intro cs h
    cases cs with
    | nil => exact absurd trivial h
    | cons c cs =>
      have hstep : Keeps fun cs => if c = w then scanWord t word cs else
          (.broken .other .malformed .malformed, []) := .ite ih (keeps_broken _ _ _)
      obtain ⟨hle, hmore⟩ := hstep h
      exact ⟨Nat.le_succ_of_le hle, hmore⟩

theorem numberToken_of_scan {negative : Bool} {cs : List Char}
    (h : ¬ (numberToken negative cs).1.IsBroken) : ∃ n r, Numeral.scan negative cs = .ok (n, r) ∧
      numberToken negative cs = (.number n.value?, r) := by
  unfold numberToken at h ⊢
  cases hscan : Numeral.scan negative cs with
  | error f =>
    rw [hscan] at h
    exact absurd trivial h
  | ok found => exact ⟨found.1, found.2, rfl, rfl⟩

theorem keeps_numberToken (negative : Bool) : Keeps (numberToken negative) := by
  intro cs h
  obtain ⟨n, r, hscan, htoken⟩ := numberToken_of_scan h
  rw [htoken]
  refine ⟨Nat.le_of_lt (length_lt_of_scan hscan), fun rest hrest => ?_⟩
  rw [numberToken, (extends_scan negative hscan).2 hrest]

/-- a numeral whose first digit has been seen -/
theorem keeps_numberToken_cons (c : Char) : Keeps fun cs => numberToken false (c :: cs) := by
  intro cs h
  obtain ⟨n, r, hscan, htoken⟩ := numberToken_of_scan h
  refine ⟨?_, fun _ hrest => (keeps_numberToken false h).2 hrest⟩
  have hlt : r.length < (c :: cs).length := length_lt_of_scan hscan
  show (numberToken false (c :: cs)).2.length ≤ cs.length
  rw [htoken]
  exact Nat.le_of_lt_succ hlt

def Scanned.append (s : Scanned) (rest : List Char) : Scanned := { s with rest := s.rest ++ rest }

theorem scanString_simple {c e : Char} (hu : c ≠ 'u') (h : simpleEscape? c = some e)
    (cs : List Char) : scanString ('\\' :: c :: cs) = (scanString cs).push (.char e) := by
  rw [scanString, if_neg hu, h]
  exact fun _ _ _ _ _ heq _ => hu heq

theorem scanString_extend {cs : List Char} (h : (scanString cs).fault = none) (rest : List Char) :
    scanString (cs ++ rest) = (scanString cs).append rest ∧
      (scanString cs).rest.length ≤ cs.length := by
  fun_induction scanString cs with
  | case2 cs => exact ⟨rfl, Nat.le_succ _⟩
  | case4 a b c d cs n hn ih =>
    obtain ⟨hmore, hle⟩ := ih h
    refine ⟨?_, Nat.le_trans hle (Nat.le_add_right _ 6)⟩
    have hcode : scanString ('\\' :: 'u' :: ([a, b, c, d] ++ (cs ++ rest))) = _ :=
      scanString_code rfl hn (cs ++ rest)
    rw [hmore] at hcode
    exact hcode
  | case7 c cs _ hu e he ih =>
    obtain ⟨hmore, hle⟩ := ih h
    refine ⟨?_, Nat.le_trans hle (Nat.le_add_right _ 2)⟩
    rw [List.cons_append, List.cons_append, scanString_simple hu he, hmore]
    rfl
  | case10 c cs hquote hend _ hslash hlow ih =>
    obtain ⟨hmore, hle⟩ := ih h
    refine ⟨?_, Nat.le_succ_of_le hle⟩
    have hne : c ≠ '\\' := by
      intro heq
      cases cs with
      | nil => exact hend heq rfl
      | cons d cs => exact hslash d cs heq rfl
    rw [List.cons_append, scanString_char hquote hne hlow, hmore]
    rfl
  -- all others break off
  | _ => cases h

theorem keeps_stringToken : Keeps stringToken := by
  intro cs h
  cases hfault : (scanString cs).fault with
  | some f =>
    refine absurd ?_ h
    unfold stringToken
    dsimp only
    rw [hfault]
    cases join (some f) (scanString cs).units <;> exact trivial
  | none =>
    have hle := (scanString_extend hfault []).2
    unfold stringToken
    dsimp only
    refine ⟨?_, fun rest _ => ?_⟩
    · rw [hfault]
      cases join none (scanString cs).units <;> exact hle
    · rw [(scanString_extend hfault rest).1, Scanned.append, hfault]
      cases join none (scanString cs).units <;> rfl

theorem keeps_token (c : Char) : Keeps (token c) := by
  change Keeps fun cs => token c cs
  unfold token
  -- six marks, then strings, words and numerals, as the scanner tells them by their first character
  refine .ite (keeps_single _) (.ite (keeps_single _) (.ite (keeps_single _) ?_))
  refine .ite (keeps_single _) (.ite (keeps_single _) (.ite (keeps_single _) ?_))
  refine .ite keeps_stringToken ?_
  refine .ite (keeps_scanWord _ _) (.ite (keeps_scanWord _ _) (.ite (keeps_scanWord _ _) ?_))
  exact .ite (keeps_numberToken true) (.ite (keeps_numberToken_cons c) (keeps_broken _ _ _))

theorem tokensWithin_extend {fuel : Nat} {cs : List Char} (hfuel : cs.length ≤ fuel)
    (h : ∀ t ∈ tokensWithin fuel cs, ¬ t.IsBroken) {rest : List Char} (hrest : EndsNumeral rest) :
    Lexes (cs ++ rest) (tokensWithin fuel cs) rest := by
  induction fuel generalizing cs with
  | zero =>
    obtain rfl : cs = [] := List.length_eq_zero_iff.mp (Nat.le_zero.mp hfuel)
    exact .refl rest
  | succ fuel ih =>
    cases cs with
    | nil => exact .refl rest
    | cons c cs =>
      have hle : cs.length ≤ fuel := Nat.le_of_succ_le_succ hfuel
      rw [tokensWithin] at h ⊢
      split
      · rename_i hspace
        rw [if_pos hspace] at h
        exact (lexes_space hspace _).trans (ih hle h)
      · rename_i hspace
        rw [if_neg hspace] at h
        obtain ⟨htoken, hmore⟩ := List.forall_mem_cons.mp h
        obtain ⟨hlength, hext⟩ := keeps_token c htoken
        have hfirst : Lexes (c :: (cs ++ rest)) [(token c cs).1] ((token c cs).2 ++ rest) := by
          refine lexes_token (Bool.eq_false_iff.mpr hspace) (hext hrest) ?_
          rw [List.length_append, List.length_append]
          omega
        exact hfirst.trans (ih (Nat.le_trans hlength hle) hmore)

/-- a text without a broken token is cut into its tokens when more follows -/
theorem lexes_extend {cs : List Char} (h : ∀ t ∈ tokens cs, ¬ t.IsBroken) {rest : List Char}
    (hrest : EndsNumeral rest) : Lexes (cs ++ rest) (tokens cs) rest :=
  tokensWithin_extend (Nat.le_refl _) h hrest

end FilterSql.Json
