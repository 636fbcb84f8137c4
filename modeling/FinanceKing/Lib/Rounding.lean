import Mathlib

/-! Rounding to an integer in a floor field, toward zero, away from it and half to even, and snapping
    a value onto the multiples of a step. Snapping toward zero never grows a magnitude and never
    changes a sign, which is what makes it the safe direction for a quantity. -/

namespace Lib

variable {K : Type} [Field K] [LinearOrder K] [IsStrictOrderedRing K] [FloorRing K]

/-- The integer part: rounding toward zero. -/
def roundTowardZero (x : K) : ℤ := if 0 ≤ x then ⌊x⌋ else ⌈x⌉

/-- Rounding away from zero. -/
def roundAwayFromZero (x : K) : ℤ := if 0 ≤ x then ⌈x⌉ else ⌊x⌋

omit [IsStrictOrderedRing K] in
theorem roundTowardZero_of_nonneg {x : K} (h : 0 ≤ x) : roundTowardZero x = ⌊x⌋ := if_pos h

theorem roundTowardZero_neg (x : K) : roundTowardZero (-x) = -roundTowardZero x := by
  rw [roundTowardZero, roundTowardZero]
  rcases lt_trichotomy x 0 with h | h | h
  · rw [if_pos (by linarith), if_neg (by linarith), Int.floor_neg]
  · simp [h]
  · rw [if_neg (by linarith), if_pos h.le, Int.ceil_neg]

/-- The multiple of `step` that `round` gives for `x`. -/
def snapWith (round : K → ℤ) (step x : K) : K := (round (x / step) : K) * step

/-- The multiple of `step` nearest `x` on the side of zero. -/
def snapTowardZero (step x : K) : K := snapWith roundTowardZero step x

theorem snapTowardZero_neg (step x : K) : snapTowardZero step (-x) = -snapTowardZero step x := by
  rw [snapTowardZero, snapWith, neg_div, roundTowardZero_neg, snapTowardZero, snapWith]
  push_cast
  ring

@[simp] theorem snapTowardZero_zero (step : K) : snapTowardZero step 0 = 0 := by
  simp [snapTowardZero, snapWith, roundTowardZero]

theorem snapTowardZero_nonneg {step x : K} (hs : 0 < step) (hx : 0 ≤ x) :
    0 ≤ snapTowardZero step x := by
  rw [snapTowardZero, snapWith, roundTowardZero_of_nonneg (div_nonneg hx hs.le)]
  exact mul_nonneg (Int.cast_nonneg (Int.floor_nonneg.mpr (div_nonneg hx hs.le))) hs.le

theorem snapTowardZero_le {step x : K} (hs : 0 < step) (hx : 0 ≤ x) :
    snapTowardZero step x ≤ x := by
  rw [snapTowardZero, snapWith, roundTowardZero_of_nonneg (div_nonneg hx hs.le)]
  calc (⌊x / step⌋ : K) * step ≤ x / step * step :=
        mul_le_mul_of_nonneg_right (Int.floor_le _) hs.le
    _ = x := div_mul_cancel₀ x hs.ne'

/-- A value that is not negative snaps to a whole number of steps. -/
theorem snapTowardZero_eq_lots {step x : K} (hs : 0 < step) (hx : 0 ≤ x) :
    ∃ lots : ℕ, snapTowardZero step x = lots * step := by
  have hratio : 0 ≤ x / step := div_nonneg hx hs.le
  refine ⟨⌊x / step⌋.toNat, ?_⟩
  have hcast : ((⌊x / step⌋.toNat : ℤ) : K) = ⌊x / step⌋ := by
    rw [Int.toNat_of_nonneg (Int.floor_nonneg.mpr hratio)]
  rw [Int.cast_natCast] at hcast
  rw [snapTowardZero, snapWith, roundTowardZero_of_nonneg hratio, hcast]

/-- No whole number of steps within the value is above its snap. -/
theorem lots_le_snapTowardZero {step x : K} (hs : 0 < step) {lots : ℕ} (h : lots * step ≤ x) :
    lots * step ≤ snapTowardZero step x := by
  have hlots : (lots : K) ≤ x / step := (le_div_iff₀ hs).mpr h
  have hfloor : (lots : ℤ) ≤ ⌊x / step⌋ := Int.le_floor.mpr (by exact_mod_cast hlots)
  rw [snapTowardZero, snapWith, roundTowardZero_of_nonneg ((Nat.cast_nonneg lots).trans hlots)]
  exact mul_le_mul_of_nonneg_right (by exact_mod_cast hfloor) hs.le

/-- A multiple of the step is its own snap. -/
theorem snapTowardZero_mul {step : K} (hs : 0 < step) (n : ℤ) :
    snapTowardZero step ((n : K) * step) = (n : K) * step := by
  rw [snapTowardZero, snapWith, mul_div_cancel_right₀ _ hs.ne']
  congr 2
  rw [roundTowardZero]
  split <;> simp

/-- Snapping toward zero lands between zero and the value. -/
theorem snapTowardZero_between {step : K} (hs : 0 < step) (x : K) :
    (0 ≤ snapTowardZero step x ∧ snapTowardZero step x ≤ x) ∨
      (x ≤ snapTowardZero step x ∧ snapTowardZero step x ≤ 0) := by
  rcases le_total 0 x with h | h
  · exact Or.inl ⟨snapTowardZero_nonneg hs h, snapTowardZero_le hs h⟩
  · right
    have hx : 0 ≤ -x := by linarith
    have hnonneg := snapTowardZero_nonneg hs hx
    have hle := snapTowardZero_le hs hx
    rw [snapTowardZero_neg] at hnonneg hle
    exact ⟨by linarith, by linarith⟩

theorem abs_snapTowardZero_le {step : K} (hs : 0 < step) (x : K) :
    |snapTowardZero step x| ≤ |x| := by
  rcases snapTowardZero_between hs x with ⟨h₀, h₁⟩ | ⟨h₀, h₁⟩
  · exact abs_le_abs h₁ (by linarith)
  · rw [abs_of_nonpos h₁, abs_of_nonpos (h₀.trans h₁)]
    linarith

/-! ### Rounding half to even -/

/-- The nearest integer, the even one of two equally near. -/
def roundHalfEven (x : K) : ℤ :=
  if 2 * Int.fract x < 1 then ⌊x⌋
  else if 1 < 2 * Int.fract x then ⌊x⌋ + 1
  else if Even ⌊x⌋ then ⌊x⌋
  else ⌊x⌋ + 1

omit [IsStrictOrderedRing K] in
/-- Half-even rounding gives the floor or the integer above it. -/
theorem roundHalfEven_cases (x : K) : roundHalfEven x = ⌊x⌋ ∨ roundHalfEven x = ⌊x⌋ + 1 := by
  rw [roundHalfEven]
  split
  · exact Or.inl rfl
  split
  · exact Or.inr rfl
  split
  · exact Or.inl rfl
  · exact Or.inr rfl

omit [IsStrictOrderedRing K] in
theorem roundHalfEven_nonneg {x : K} (h : 0 ≤ x) : 0 ≤ roundHalfEven x := by
  have hfloor := Int.floor_nonneg.mpr h
  rcases roundHalfEven_cases x with hx | hx <;> omega

theorem snapHalfEven_nonneg {step x : K} (hs : 0 < step) (hx : 0 ≤ x) :
    0 ≤ snapWith roundHalfEven step x :=
  mul_nonneg (Int.cast_nonneg (roundHalfEven_nonneg (div_nonneg hx hs.le))) hs.le

end Lib

/-! Rounding half to even as a map: it keeps the order, and it fixes the lattice it rounds to. -/

namespace Lib

variable {K : Type} [Field K] [LinearOrder K] [IsStrictOrderedRing K] [FloorRing K]

/-- Half-even rounding is monotone. -/
theorem roundHalfEven_mono {x y : K} (h : x ≤ y) : roundHalfEven x ≤ roundHalfEven y := by
  rcases (Int.floor_mono h).lt_or_eq with hlt | heq
  · rcases roundHalfEven_cases x with hx | hx <;> rcases roundHalfEven_cases y with hy | hy <;> omega
  · have hfract : Int.fract x ≤ Int.fract y := by
      rw [Int.fract, Int.fract, heq]
      exact sub_le_sub_right h _
    rw [roundHalfEven, roundHalfEven, heq]
    -- the floors agree, so only the two fractions decide
    split_ifs <;> first | omega | linarith

theorem roundHalfEven_intCast (n : ℤ) : roundHalfEven (n : K) = n := by
  rw [roundHalfEven, Int.fract_intCast, mul_zero, if_pos one_pos, Int.floor_intCast]

/-- What rounds to nothing above zero is at most a half. -/
theorem roundHalfEven_nonpos_iff {x : K} : roundHalfEven x ≤ 0 ↔ x ≤ 1 / 2 := by
  have hfract := Int.floor_add_fract x
  constructor
  · intro h
    have hfloor : ⌊x⌋ ≤ 0 := by rcases roundHalfEven_cases x with hx | hx <;> omega
    rcases hfloor.lt_or_eq with hneg | hzero
    · have hx := Int.floor_lt.mp hneg
      push_cast at hx
      linarith
    · rw [roundHalfEven, hzero] at h
      rw [hzero, Int.cast_zero, zero_add] at hfract
      split_ifs at h <;> linarith
  · intro h
    have hhalf : roundHalfEven x ≤ roundHalfEven (1 / 2 : K) := roundHalfEven_mono h
    have hfloor : ⌊(1 / 2 : K)⌋ = 0 := by
      rw [Int.floor_eq_iff]
      norm_num
    have hzero : roundHalfEven (1 / 2 : K) = 0 := by
      rw [roundHalfEven, Int.fract, hfloor]
      norm_num
    exact hhalf.trans hzero.le

/-- The nearest integer is no more than a half away. -/
theorem abs_roundHalfEven_sub_le_half (x : K) : |(roundHalfEven x : K) - x| ≤ 1 / 2 := by
  have hfract := Int.floor_add_fract x
  rw [abs_le, roundHalfEven]
  split_ifs <;> push_cast <;> constructor <;> linarith [Int.fract_nonneg x, Int.fract_lt_one x]

/-- Values more than one apart do not round alike. -/
theorem roundHalfEven_lt {x y : K} (h : x + 1 < y) : roundHalfEven x < roundHalfEven y := by
  have hx := abs_le.mp (abs_roundHalfEven_sub_le_half x)
  have hy := abs_le.mp (abs_roundHalfEven_sub_le_half y)
  have hlt : (roundHalfEven x : K) < roundHalfEven y := by linarith [hx.2, hy.1]
  exact_mod_cast hlt

theorem snapHalfEven_mono {step : K} (hs : 0 < step) {x y : K} (h : x ≤ y) :
    snapWith roundHalfEven step x ≤ snapWith roundHalfEven step y := by
  refine mul_le_mul_of_nonneg_right ?_ hs.le
  exact_mod_cast roundHalfEven_mono (div_le_div_of_nonneg_right h hs.le)

/-- A point of the lattice rounds to itself. -/
theorem snapHalfEven_multiple {step : K} (hs : 0 < step) (n : ℤ) :
    snapWith roundHalfEven step (n * step) = n * step := by
  rw [snapWith, mul_div_cancel_right₀ _ hs.ne', roundHalfEven_intCast]

/-- Rounding twice is rounding once. -/
theorem snapHalfEven_idem {step : K} (hs : 0 < step) (x : K) :
    snapWith roundHalfEven step (snapWith roundHalfEven step x) = snapWith roundHalfEven step x :=
  snapHalfEven_multiple hs (roundHalfEven (x / step))

end Lib
