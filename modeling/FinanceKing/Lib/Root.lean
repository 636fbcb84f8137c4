import FinanceKing.Lib.DecimalFloat

/-! Square roots in an ordered field: an operation, and how near its square comes to the number it is the
    root of. The reals have the exact one; the rationals have the one a decimal context computes, correctly
    rounded to a number of significant digits. -/

namespace Lib

/-- A field with a square root operation. -/
class Root (K : Type) where
  root : K → K

export Root (root)

/-- A root is positive, and its square is within a tenth of the number. -/
class NearRoot (K : Type) [Field K] [LinearOrder K] [Root K] : Prop where
  root_pos : ∀ {x : K}, 0 < x → 0 < root x
  root_mul_root_le : ∀ {x : K}, 0 < x → 9 * (root x * root x) ≤ 10 * x
  le_root_mul_root : ∀ {x : K}, 0 < x → 9 * x ≤ 10 * (root x * root x)

/-- A root squares to the number. -/
class ExactRoot (K : Type) [Field K] [LinearOrder K] [Root K] : Prop where
  root_nonneg : ∀ x : K, 0 ≤ root x
  root_mul_self : ∀ {x : K}, 0 ≤ x → root x * root x = x

noncomputable instance : Root ℝ := ⟨Real.sqrt⟩

instance : ExactRoot ℝ where
  root_nonneg := Real.sqrt_nonneg
  root_mul_self := Real.mul_self_sqrt

theorem root_real (x : ℝ) : root x = √x := rfl

section

variable {K : Type} [Field K] [LinearOrder K] [IsStrictOrderedRing K] [Root K] [ExactRoot K]

omit [IsStrictOrderedRing K] in
theorem root_pos_of_exact {x : K} (h : 0 < x) : 0 < root x := by
  refine lt_of_le_of_ne (ExactRoot.root_nonneg x) fun hzero => h.ne ?_
  rw [← ExactRoot.root_mul_self h.le, ← hzero, mul_zero]

/-- An exact root is a near one. -/
instance : NearRoot K where
  root_pos := root_pos_of_exact
  root_mul_root_le := fun h => by
    rw [ExactRoot.root_mul_self h.le]
    linarith
  le_root_mul_root := fun h => by
    rw [ExactRoot.root_mul_self h.le]
    linarith

end

/-! ### The root of a decimal context -/

/-- The root to a number of significant digits, half to even. The integer root carries more digits than are
    kept, and half a unit stands for whatever it leaves behind. -/
def decimalRoot (digits : ℕ) (x : ℚ) : ℚ :=
  let scale := digits + DecimalFloat.digitCount x.den
  let scaled := x * 100 ^ scale
  let floorRoot := Nat.sqrt ⌊scaled⌋.toNat
  let dropped := DecimalFloat.digitCount floorRoot - digits
  let sticky : ℚ := if (floorRoot * floorRoot : ℚ) = scaled then 0 else 1 / 2
  roundHalfEven ((floorRoot + sticky) / 10 ^ dropped) * 10 ^ dropped / 10 ^ scale

/-- The number of digits a positive number has, as a bound from below. -/
theorem pow_le_of_digitCount {n k : ℕ} (hn : 0 < n) (h : k < DecimalFloat.digitCount n) : 10 ^ k ≤ n := by
  by_contra hlt
  rcases Nat.eq_zero_or_pos k with rfl | hk
  · exact hlt hn
  · exact absurd ((DecimalFloat.digitCount_le_iff hk).mpr (not_le.mp hlt)) (not_le.mpr h)

theorem lt_pow_digitCount (n : ℕ) : n < 10 ^ DecimalFloat.digitCount n :=
  (DecimalFloat.digitCount_le_iff Nat.length_toDigits_pos).mp le_rfl

/-- A positive rational scaled past its denominator's digits is large. -/
theorem pow_le_scaled {x : ℚ} (hx : 0 < x) (digits : ℕ) :
    (100 : ℚ) ^ digits ≤ x * 100 ^ (digits + DecimalFloat.digitCount x.den) := by
  have hden : (x.den : ℚ) ≤ 100 ^ DecimalFloat.digitCount x.den := by
    have hlt : (x.den : ℚ) < 10 ^ DecimalFloat.digitCount x.den := by exact_mod_cast lt_pow_digitCount x.den
    exact hlt.le.trans (pow_le_pow_left₀ (by norm_num) (by norm_num) _)
  have hone : 1 ≤ x * x.den := by
    rw [Rat.mul_den_eq_num]
    exact_mod_cast Rat.num_pos.mpr hx
  calc (100 : ℚ) ^ digits = 100 ^ digits * 1 := (mul_one _).symm
    _ ≤ 100 ^ digits * (x * 100 ^ DecimalFloat.digitCount x.den) := by
        refine mul_le_mul_of_nonneg_left ?_ (by positivity)
        exact hone.trans (mul_le_mul_of_nonneg_left hden hx.le)
    _ = x * 100 ^ (digits + DecimalFloat.digitCount x.den) := by rw [pow_add]; ring

/-- Rounding moves a number by less than one. -/
theorem abs_roundHalfEven_sub_le (x : ℚ) : |(roundHalfEven x : ℚ) - x| ≤ 1 := by
  have hfloor := Int.floor_le x
  have hlt := Int.lt_floor_add_one x
  rw [abs_le]
  rcases roundHalfEven_cases x with h | h <;> rw [h] <;> push_cast <;> constructor <;> linarith

/-- What is kept of an integer root of more than three digits is within a fiftieth of it. -/
theorem kept_root_near {root dropped digits : ℕ} (hdigits : 3 ≤ digits) (hroot : 10 ^ digits ≤ root)
    (hdropped : dropped = DecimalFloat.digitCount root - digits) {sticky : ℚ} (hsticky : 0 ≤ sticky)
    (hhalf : sticky ≤ 1 / 2) :
    |(roundHalfEven ((root + sticky) / 10 ^ dropped) : ℚ) * 10 ^ dropped - root| ≤ root / 50 := by
  have hlarge : (1000 : ℚ) ≤ root := by
    have hpow : 10 ^ 3 ≤ root := (Nat.pow_le_pow_right (by decide) hdigits).trans hroot
    exact_mod_cast hpow
  have hunit : (10 : ℚ) ^ dropped ≤ root / 100 := by
    have hcount : digits < DecimalFloat.digitCount root := by
      by_contra h
      have hpos : 0 < digits := by omega
      exact absurd ((DecimalFloat.digitCount_le_iff hpos).mp (not_lt.mp h)) (not_lt.mpr hroot)
    have hlead : 10 ^ (DecimalFloat.digitCount root - 1) ≤ root :=
      pow_le_of_digitCount ((Nat.pow_pos (by decide)).trans_le hroot) (by omega)
    have hsplit : 10 ^ dropped * 10 ^ 2 ≤ 10 ^ (DecimalFloat.digitCount root - 1) := by
      rw [← pow_add]
      exact Nat.pow_le_pow_right (by decide) (by omega)
    have hcast : ((10 ^ dropped * 10 ^ 2 : ℕ) : ℚ) ≤ root := by exact_mod_cast hsplit.trans hlead
    push_cast at hcast
    linarith
  have hpos : (0 : ℚ) < 10 ^ dropped := by positivity
  have hround := abs_le.mp (abs_roundHalfEven_sub_le ((root + sticky) / 10 ^ dropped))
  have hlower := mul_le_mul_of_nonneg_right hround.1 hpos.le
  have hupper := mul_le_mul_of_nonneg_right hround.2 hpos.le
  rw [sub_mul, div_mul_cancel₀ _ hpos.ne'] at hlower hupper
  rw [abs_le]
  constructor <;> linarith

/-- The integer root of a number's floor, squared, is just below the number. -/
theorem floor_root_bounds {x : ℚ} (hx : 0 ≤ x) :
    (Nat.sqrt ⌊x⌋.toNat * Nat.sqrt ⌊x⌋.toNat : ℚ) ≤ x ∧
      x < (Nat.sqrt ⌊x⌋.toNat + 1) * (Nat.sqrt ⌊x⌋.toNat + 1) := by
  have hfloor : ((⌊x⌋.toNat : ℕ) : ℚ) = ⌊x⌋ := by
    exact_mod_cast congrArg (Int.cast : ℤ → ℚ) (Int.toNat_of_nonneg (Int.floor_nonneg.mpr hx))
  constructor
  · have hsq : ((Nat.sqrt ⌊x⌋.toNat * Nat.sqrt ⌊x⌋.toNat : ℕ) : ℚ) ≤ (⌊x⌋.toNat : ℕ) := by
      exact_mod_cast Nat.sqrt_le _
    push_cast at hsq
    exact hsq.trans (hfloor.le.trans (Int.floor_le _))
  · have hsq : ((⌊x⌋.toNat + 1 : ℕ) : ℚ) ≤
        ((Nat.sqrt ⌊x⌋.toNat + 1) * (Nat.sqrt ⌊x⌋.toNat + 1) : ℕ) := by
      exact_mod_cast Nat.succ_le_of_lt (Nat.sqrt_lt.mp (Nat.lt_succ_self _))
    push_cast at hsq
    rw [hfloor] at hsq
    exact (Int.lt_floor_add_one _).trans_le hsq

/-- A number within a fiftieth of a large integer root, squared, is within a tenth of the number. -/
theorem near_of_kept {kept root x : ℚ} (hlarge : 1000 ≤ root) (hkept : |kept - root| ≤ root / 50)
    (hbelow : root * root ≤ x) (habove : x < (root + 1) * (root + 1)) :
    0 < kept ∧ 9 * (kept * kept) ≤ 10 * x ∧ 9 * x ≤ 10 * (kept * kept) := by
  have hbounds := abs_le.mp hkept
  have hlower : 49 / 50 * root ≤ kept := by linarith [hbounds.1]
  have hupper : kept ≤ 51 / 50 * root := by linarith [hbounds.2]
  exact ⟨by linarith, by nlinarith, by nlinarith⟩

/-- The square of a decimal root is within a tenth of the number, at any precision of three digits or
    more. -/
theorem decimalRoot_near {digits : ℕ} (hdigits : 3 ≤ digits) {x : ℚ} (hx : 0 < x) :
    0 < decimalRoot digits x ∧ 9 * (decimalRoot digits x * decimalRoot digits x) ≤ 10 * x ∧
      9 * x ≤ 10 * (decimalRoot digits x * decimalRoot digits x) := by
  rw [decimalRoot]
  set scale := digits + DecimalFloat.digitCount x.den
  set scaled := x * 100 ^ scale with hscaled
  set floorRoot := Nat.sqrt ⌊scaled⌋.toNat with hfloorRoot
  set sticky : ℚ := if (floorRoot * floorRoot : ℚ) = scaled then 0 else 1 / 2 with hsticky
  have hscaledpos : 0 ≤ scaled := by positivity
  have hlarge : 10 ^ digits ≤ floorRoot := by
    have hscale := pow_le_scaled hx digits
    rw [hfloorRoot, Nat.le_sqrt, ← mul_pow, Int.le_toNat (Int.floor_nonneg.mpr hscaledpos), Int.le_floor]
    push_cast
    exact hscale
  have hbig : (1000 : ℚ) ≤ floorRoot := by
    have hpow : 10 ^ 3 ≤ floorRoot := (Nat.pow_le_pow_right (by decide) hdigits).trans hlarge
    exact_mod_cast hpow
  have hstickynonneg : 0 ≤ sticky := by rw [hsticky]; split <;> norm_num
  have hstickyle : sticky ≤ 1 / 2 := by rw [hsticky]; split <;> norm_num
  have hkept := kept_root_near hdigits hlarge rfl hstickynonneg hstickyle
  obtain ⟨hbelow, habove⟩ := floor_root_bounds hscaledpos
  obtain ⟨hpos, hle, hge⟩ := near_of_kept hbig hkept hbelow habove
  set kept := (roundHalfEven ((floorRoot + sticky) / 10 ^ (DecimalFloat.digitCount floorRoot - digits)) : ℚ) *
    10 ^ (DecimalFloat.digitCount floorRoot - digits)
  have hunit : (0 : ℚ) < 10 ^ scale * 10 ^ scale := by positivity
  have hroot : x = scaled / (10 ^ scale * 10 ^ scale) := by
    rw [hscaled, ← mul_pow, eq_div_iff (by positivity)]
    norm_num
  rw [div_mul_div_comm, hroot]
  simp only [mul_div_assoc']
  exact ⟨div_pos hpos (by positivity), div_le_div_of_nonneg_right hle hunit.le,
    div_le_div_of_nonneg_right hge hunit.le⟩

example : decimalRoot 5 2 = 14142 / 10000 := by decide +kernel

example : decimalRoot 50 (9 / 10000) = 3 / 100 := by decide +kernel

end Lib
