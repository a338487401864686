import Mathlib
import FilterSql.Value.Basic

/-!
# Equality and hashing of values

Equality of values is that of their contents, but for floats, which are compared as numbers: no NaN is
equal to itself, and the two zeros are equal (`Value.beq_iff`).  Hashing takes a float bit by bit, so
values have one digest only if they are one value (`Value.digest_inj`).  From these two
`Value.beq_laws` tells which laws of equality and hashing hold, and where the others fail.
-/

namespace FilterSql

/-! ## floats as numbers -/

namespace Decimal

open Float.Model.UnpackedFloat

theorem exponentBits_eq (x : Float) :
    exponentBits x = (@unpackExponent .binary64 x.toBits.toBitVec).toNat := by
  rw [unpackExponent_def, BitVec.extractLsb'_toNat]
  exact Nat.and_two_pow_sub_one_eq_mod _ 11

theorem fractionBits_eq (x : Float) :
    fractionBits x = (@unpackMantissa .binary64 x.toBits.toBitVec).toNat := by
  rw [unpackMantissa_def, BitVec.extractLsb'_toNat, Nat.shiftRight_zero]
  exact Nat.and_two_pow_sub_one_eq_mod _ 52

theorem isNaN_iff (x : Float) : isNaN x = true ↔ x = Float.nan := by
  constructor
  · intro h
    obtain ⟨hexponent, hfraction⟩ : exponentBits x = 0x7FF ∧ fractionBits x ≠ 0 := by
      simpa [isNaN] using h
    rw [exponentBits_eq] at hexponent
    rw [fractionBits_eq] at hfraction
    have hbits := x.toModel.valid.eq_packedNaN (BitVec.eq_of_toNat_eq hexponent)
      fun hzero => hfraction (congrArg BitVec.toNat hzero)
    exact Float.toBits_inj.mp (UInt64.toBitVec_inj.mp hbits)
  · rintro rfl
    decide

theorem isZero_iff (x : Float) : isZero x = true ↔ x = 0 ∨ x = -0 := by
  constructor
  · intro h
    obtain ⟨hexponent, hfraction⟩ : exponentBits x = 0 ∧ fractionBits x = 0 := by
      simpa [isZero] using h
    rw [exponentBits_eq] at hexponent
    rw [fractionBits_eq] at hfraction
    have hbits := @packComponents_unpackSign_unpackExponent_unpackMantissa .binary64
      x.toBits.toBitVec
    rw [BitVec.eq_of_toNat_eq (y := 0) hexponent, BitVec.eq_of_toNat_eq (y := 0) hfraction] at hbits
    -- Only the sign is left, and it tells the two zeros apart.
    cases hsign : Sign.ofBitVec (@unpackSign .binary64 x.toBits.toBitVec) with
    | positive =>
      rw [hsign] at hbits
      exact .inl (Float.toBits_inj.mp (UInt64.toBitVec_inj.mp hbits.symm))
    | negative =>
      rw [hsign] at hbits
      exact .inr (Float.toBits_inj.mp (UInt64.toBitVec_inj.mp hbits.symm))
  · rintro (rfl | rfl) <;> decide

theorem not_isNaN_of_isZero {x : Float} (h : isZero x = true) : isNaN x = false := by
  rcases (isZero_iff x).mp h with rfl | rfl <;> decide

theorem sameNumber_iff {x y : Float} : sameNumber x y = true ↔
    (x = y ∧ isNaN x = false) ∨ (isZero x = true ∧ isZero y = true ∧ x ≠ y) := by
  simp only [sameNumber, Bool.and_eq_true, Bool.or_eq_true, Bool.not_eq_true', decide_eq_true_eq,
    Float.toBits_inj]
  constructor
  · rintro ⟨⟨hx, -⟩, rfl | ⟨hzero, hzero'⟩⟩
    · exact .inl ⟨rfl, hx⟩
    · by_cases heq : x = y
      · exact .inl ⟨heq, hx⟩
      · exact .inr ⟨hzero, hzero', heq⟩
  · rintro (⟨rfl, hx⟩ | ⟨hzero, hzero', -⟩)
    · exact ⟨⟨hx, hx⟩, .inl rfl⟩
    · exact ⟨⟨not_isNaN_of_isZero hzero, not_isNaN_of_isZero hzero'⟩, .inr ⟨hzero, hzero'⟩⟩

/-- floats are the same number exactly if they compare as equal -/
theorem sameNumber_eq (x y : Float) : sameNumber x y = (x == y) := by
  rw [Bool.eq_iff_iff, sameNumber_iff, Float.beq_iff_ne_nan_and_eq, isZero_iff, isZero_iff,
    ← Bool.not_eq_true, isNaN_iff]
  have hzeros : (0 : Float) ≠ -0 := by decide
  constructor
  · rintro (⟨rfl, hx⟩ | ⟨rfl | rfl, rfl | rfl, hne⟩)
    · exact ⟨hx, hx, .inl rfl⟩
    · exact absurd rfl hne
    · exact ⟨by decide, by decide, .inr (.inl ⟨rfl, rfl⟩)⟩
    · exact ⟨by decide, by decide, .inr (.inr ⟨rfl, rfl⟩)⟩
    · exact absurd rfl hne
  · rintro ⟨hx, -, rfl | ⟨rfl, rfl⟩ | ⟨rfl, rfl⟩⟩
    · exact .inl ⟨rfl, hx⟩
    · exact .inr ⟨.inl rfl, .inr rfl, hzeros⟩
    · exact .inr ⟨.inr rfl, .inl rfl, hzeros.symm⟩

end Decimal

/-! ## values -/

namespace Value

def isNaN : Value → Bool
  | .float x => Decimal.isNaN x
  | _ => false

/-- the values are the two zeros, which are one number with two signs -/
def OppositeZeros : Value → Value → Prop
  | .float x, .float y => Decimal.isZero x = true ∧ Decimal.isZero y = true ∧ x ≠ y
  | _, _ => False

/-- values are equal if they are one value and no NaN, or zeros of different signs -/
theorem beq_iff {a b : Value} :
    (a == b) = true ↔ (a = b ∧ a.isNaN = false) ∨ OppositeZeros a b := by
  show Value.beq a b = true ↔ _
  cases a <;> cases b <;> simp [Value.beq, isNaN, OppositeZeros, Decimal.sameNumber_iff]

/-- values have one digest only if they are one value -/
theorem digest_inj {a b : Value} : a.digest = b.digest ↔ a = b := by
  cases a <;> cases b
  case boolean.boolean b b' => cases b <;> cases b' <;> simp [digest]
  case uuid.uuid u u' =>
    constructor
    · intro h
      obtain ⟨-, hbits⟩ := Digest.word.inj h
      exact congrArg (Value.uuid ⟨·⟩) (BitVec.eq_of_toNat_eq (Int.ofNat_inj.mp hbits))
    · intro h
      rw [h]
  all_goals simp [digest, Int64.toInt_inj, UInt64.toNat_inj, Float.toBits_inj]

theorem OppositeZeros.symm {a b : Value} (h : OppositeZeros a b) : OppositeZeros b a := by
  cases a <;> cases b <;> try exact h
  obtain ⟨hzero, hzero', hne⟩ := h
  exact ⟨hzero', hzero, hne.symm⟩

theorem OppositeZeros.ne {a b : Value} (h : OppositeZeros a b) : a ≠ b := by
  rintro rfl
  cases a <;> try exact h
  exact h.2.2 rfl

/-- there are only two zeros -/
theorem OppositeZeros.eq_of_opposite {a b c : Value} (h : OppositeZeros a b)
    (h' : OppositeZeros b c) : a = c ∧ a.isNaN = false := by
  cases a <;> cases b <;> try exact h.elim
  cases c <;> try exact h'.elim
  obtain ⟨hx, hy, hxy⟩ := h
  obtain ⟨-, hz, hyz⟩ := h'
  refine ⟨congrArg Value.float ?_, Decimal.not_isNaN_of_isZero hx⟩
  rw [Decimal.isZero_iff] at hx hy hz
  grind

instance : PartialEquivBEq Value where
  symm {a b} h := by
    rcases beq_iff.mp h with ⟨rfl, -⟩ | hzeros
    · exact h
    · exact beq_iff.mpr (.inr hzeros.symm)
  trans {a b c} h h' := by
    rcases beq_iff.mp h with ⟨rfl, -⟩ | hzeros
    · exact h'
    · rcases beq_iff.mp h' with ⟨rfl, -⟩ | hzeros'
      · exact h
      · exact beq_iff.mpr (.inl (hzeros.eq_of_opposite hzeros'))

/-- **The laws of equality and hashing.**  Equality is symmetric and transitive, and it is reflexive
but at NaN; floats are equal as they are for the machine.  Equal values have one digest unless they are
zeros of different signs. -/
theorem beq_laws (a b c : Value) :
    (a == a) = !a.isNaN ∧ ((a == b) = true → (b == a) = true) ∧
    ((a == b) = true → (b == c) = true → (a == c) = true) ∧
    ((a == b) = true → (a.digest = b.digest ↔ ¬ OppositeZeros a b)) ∧
    ∀ x y : Float, (Value.float x == Value.float y) = (x == y) := by
  refine ⟨?_, BEq.symm, BEq.trans, fun h => ?_, Decimal.sameNumber_eq⟩
  · have hself : ¬ OppositeZeros a a := fun h => h.ne rfl
    rw [Bool.eq_iff_iff, beq_iff, Bool.not_eq_true']
    exact ⟨fun h => (h.resolve_right hself).2, fun h => .inl ⟨rfl, h⟩⟩
  · rw [digest_inj]
    constructor
    · rintro rfl hzeros
      exact hzeros.ne rfl
    · intro hzeros
      exact ((beq_iff.mp h).resolve_right hzeros).1

theorem beq_laws_zeros :
    ((Value.float 0 == Value.float (-0)) = true ∧ (Value.float (-0) == Value.float 0) = true) ∧
    (Value.float 0 == Value.float 0) = true ∧
    ((Value.float 0).digest = (Value.float (-0)).digest ↔
      ¬ OppositeZeros (.float 0) (.float (-0))) := by
  obtain ⟨-, hsymm, htrans, hdigest, -⟩ := beq_laws (.float 0) (.float (-0)) (.float 0)
  have h : (Value.float 0 == Value.float (-0)) = true := by decide
  exact ⟨⟨h, hsymm h⟩, htrans h (hsymm h), hdigest h⟩

/-- the laws that the others would complete to those of a key fail: a NaN is not equal to itself, and
equal zeros are hashed apart -/
theorem beq_nan_and_zeros :
    (Value.float Float.nan == Value.float Float.nan) = false ∧
    (Value.float 0 == Value.float (-0)) = true ∧
    (Value.float 0).digest ≠ (Value.float (-0)).digest := by
  decide

end Value

end FilterSql
