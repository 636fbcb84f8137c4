import FinanceKing.Lib.Rounding

/-! A decimal number as sign, coefficient and power of ten: rounding it to a precision, dropping its
    trailing zeros, and writing it out in full. A rounded value is a function of the value, and its text
    determines it. -/

namespace Lib

structure DecimalFloat where
  negative : Bool
  coefficient : ℕ
  exponent : ℤ
  deriving DecidableEq

namespace DecimalFloat

/-- The number of decimal digits; zero has one. -/
def digitCount (n : ℕ) : ℕ := (Nat.toDigits 10 n).length

variable (d : DecimalFloat)

def magnitude : ℚ := d.coefficient * 10 ^ d.exponent

def value : ℚ := if d.negative then -d.magnitude else d.magnitude

def isZero : Bool := d.coefficient = 0

/-- The digits past the precision. -/
def excessDigits (precision : ℕ) : ℕ := digitCount d.coefficient - precision

/-- Rounded half to even to at most so many significant digits. -/
def rounded (precision : ℕ) : DecimalFloat where
  negative := d.negative
  coefficient := (roundHalfEven ((d.coefficient : ℚ) / 10 ^ d.excessDigits precision)).toNat
  exponent := d.exponent + d.excessDigits precision

/-- Moves up to so many trailing zeros of a coefficient into its exponent. -/
def stripZeros : ℕ → ℕ → ℤ → ℕ × ℤ
  | 0, coefficient, exponent => (coefficient, exponent)
  | zeros + 1, coefficient, exponent =>
    if coefficient % 10 = 0 then stripZeros zeros (coefficient / 10) (exponent + 1)
    else (coefficient, exponent)

/-- Without trailing zeros; a zero keeps its sign only. -/
def stripped : DecimalFloat :=
  if d.isZero then ⟨d.negative, 0, 0⟩
  else
    let (coefficient, exponent) := stripZeros (digitCount d.coefficient) d.coefficient d.exponent
    ⟨d.negative, coefficient, exponent⟩

/-- Rounded to the precision, then stripped of trailing zeros. -/
def normalize (precision : ℕ) : DecimalFloat := (d.rounded precision).stripped

/-- The digits of `n`, padded with zeros on the left to the width. -/
def paddedDigits (width n : ℕ) : List Char :=
  List.replicate (width - digitCount n) '0' ++ Nat.toDigits 10 n

/-- The digits of the magnitude without a power of ten. -/
def positionalDigits : List Char :=
  if 0 ≤ d.exponent then Nat.toDigits 10 (d.coefficient * 10 ^ d.exponent.toNat)
  else
    let places := (-d.exponent).toNat
    Nat.toDigits 10 (d.coefficient / 10 ^ places) ++
      '.' :: paddedDigits places (d.coefficient % 10 ^ places)

/-- The number written out in full, its sign first. -/
def positional : String :=
  String.ofList (if d.negative then '-' :: d.positionalDigits else d.positionalDigits)

/-! ### A text determines the value it spells -/

theorem digitCount_le_iff {n k : ℕ} (hk : 0 < k) : digitCount n ≤ k ↔ n < 10 ^ k :=
  Nat.length_toDigits_le_iff (by decide) hk

theorem length_paddedDigits {width n : ℕ} (hwidth : 0 < width) (hn : n < 10 ^ width) :
    (paddedDigits width n).length = width := by
  have hle := (digitCount_le_iff hwidth).mpr hn
  rw [paddedDigits, List.length_append, List.length_replicate]
  exact Nat.sub_add_cancel hle

theorem ofDigitChars_paddedDigits (width n init : ℕ) :
    Nat.ofDigitChars 10 (paddedDigits width n) init =
      10 ^ (paddedDigits width n).length * init + n := by
  rw [Nat.ofDigitChars_eq_ofDigitChars_zero, paddedDigits, Nat.ofDigitChars_append]
  simp

theorem isDigit_of_mem_paddedDigits {width n : ℕ} {c : Char} (h : c ∈ paddedDigits width n) :
    c.isDigit := by
  rcases List.mem_append.mp h with hzero | hdigit
  · rw [List.eq_of_mem_replicate hzero]
    decide
  · exact Nat.isDigit_of_mem_toDigits (by decide) (by decide) hdigit

/-- The number a run of digits with at most one point in it spells. -/
def readDigits (text : List Char) : ℚ :=
  (Nat.ofDigitChars 10 (text.filter (· ≠ '.')) 0 : ℚ) / 10 ^ ((text.dropWhile (· ≠ '.')).length - 1)

theorem ne_point_of_isDigit {c : Char} (h : c.isDigit) : c ≠ '.' := by
  rintro rfl
  exact absurd h (by decide)

theorem readDigits_positionalDigits : readDigits d.positionalDigits = d.magnitude := by
  rw [positionalDigits, magnitude]
  split
  · next hexponent =>
    have hpoint : ∀ c ∈ Nat.toDigits 10 (d.coefficient * 10 ^ d.exponent.toNat), c ≠ '.' := fun c hc =>
      ne_point_of_isDigit (Nat.isDigit_of_mem_toDigits (by decide) (by decide) hc)
    have hpower : (10 : ℚ) ^ d.exponent = 10 ^ d.exponent.toNat := by
      rw [← zpow_natCast, Int.toNat_of_nonneg hexponent]
    rw [readDigits, List.filter_eq_self.mpr (by simpa using hpoint),
      List.dropWhile_eq_nil_iff.mpr (by simpa using hpoint), Nat.ofDigitChars_ten_toDigits, hpower]
    simp
  · next hexponent =>
    have hplaces : 0 < (-d.exponent).toNat := by omega
    have hpower : (10 : ℚ) ^ d.exponent = (10 ^ (-d.exponent).toNat)⁻¹ := by
      rw [← zpow_natCast, Int.toNat_of_nonneg (by omega), zpow_neg, inv_inv]
    generalize (-d.exponent).toNat = places at hplaces hpower
    have hwhole : ∀ c ∈ Nat.toDigits 10 (d.coefficient / 10 ^ places), c ≠ '.' := fun c hc =>
      ne_point_of_isDigit (Nat.isDigit_of_mem_toDigits (by decide) (by decide) hc)
    have hpart : ∀ c ∈ paddedDigits places (d.coefficient % 10 ^ places), c ≠ '.' := fun c hc =>
      ne_point_of_isDigit (isDigit_of_mem_paddedDigits hc)
    have hlength := length_paddedDigits hplaces
      (Nat.mod_lt d.coefficient (pow_pos (by decide : 0 < 10) places))
    rw [readDigits, List.filter_append, List.filter_cons_of_neg (by simp),
      List.filter_eq_self.mpr (by simpa using hwhole), List.filter_eq_self.mpr (by simpa using hpart),
      List.dropWhile_append_of_pos (by simpa using hwhole), List.dropWhile_cons_of_neg (by simp),
      Nat.ofDigitChars_append, Nat.ofDigitChars_ten_toDigits, ofDigitChars_paddedDigits, hlength,
      Nat.div_add_mod, List.length_cons, hlength, Nat.add_sub_cancel, hpower, div_eq_mul_inv]

def readPositional (text : String) : ℚ :=
  if text.toList.head? = some '-' then -readDigits text.toList.tail else readDigits text.toList

theorem head?_positionalDigits : d.positionalDigits.head? ≠ some '-' := by
  intro h
  have hdigit : ∀ n, (Nat.toDigits 10 n).head? ≠ some '-' := fun n hn => by
    have hisDigit := Nat.isDigit_of_mem_toDigits (by decide) (by decide) (List.mem_of_mem_head? hn)
    exact absurd hisDigit (by decide)
  rw [positionalDigits] at h
  split at h
  · exact hdigit _ h
  · rw [List.head?_append_of_ne_nil _ Nat.toDigits_ne_nil] at h
    exact hdigit _ h

theorem readPositional_positional : readPositional d.positional = d.value := by
  rw [readPositional, positional, String.toList_ofList, value]
  cases d.negative with
  | true => simp [readDigits_positionalDigits]
  | false => simp [head?_positionalDigits, readDigits_positionalDigits]

theorem value_eq_of_positional_eq {a b : DecimalFloat} (h : a.positional = b.positional) :
    a.value = b.value := by
  rw [← readPositional_positional a, h, readPositional_positional]

/-! ### Two floats of one value -/

theorem magnitude_nonneg : 0 ≤ d.magnitude :=
  mul_nonneg (Nat.cast_nonneg _) (zpow_nonneg (by norm_num) _)

theorem magnitude_eq_zero_iff : d.magnitude = 0 ↔ d.coefficient = 0 := by
  simp [magnitude, zpow_ne_zero]

theorem abs_value : |d.value| = d.magnitude := by
  rw [value]
  split
  · rw [abs_neg, abs_of_nonneg d.magnitude_nonneg]
  · exact abs_of_nonneg d.magnitude_nonneg

theorem value_eq_zero_iff : d.value = 0 ↔ d.coefficient = 0 := by
  rw [← abs_eq_zero, abs_value, magnitude_eq_zero_iff]

theorem magnitude_eq_of_value_eq {a b : DecimalFloat} (h : a.value = b.value) :
    a.magnitude = b.magnitude := by
  rw [← abs_value, h, abs_value]

theorem negative_eq_of_value_eq {a b : DecimalFloat} (h : a.value = b.value) (ha : a.coefficient ≠ 0) :
    a.negative = b.negative := by
  have hmagnitude := magnitude_eq_of_value_eq h
  have hpositive : a.magnitude ≠ 0 := fun hzero => ha (a.magnitude_eq_zero_iff.mp hzero)
  rw [value, value, ← hmagnitude] at h
  by_contra hne
  cases hnegative : a.negative with
  | true =>
    rw [if_pos hnegative, if_neg (by simpa [hnegative] using Ne.symm hne)] at h
    exact hpositive (neg_eq_self.mp h)
  | false =>
    rw [if_neg (by simp [hnegative]), if_pos (by simpa [hnegative] using Ne.symm hne)] at h
    exact hpositive (self_eq_neg.mp h)

/-- Of two floats of one magnitude, the one with the smaller exponent has that many more zeros. -/
theorem coefficient_eq_of_magnitude_eq {a b : DecimalFloat} (h : a.magnitude = b.magnitude)
    (hle : b.exponent ≤ a.exponent) :
    b.coefficient = a.coefficient * 10 ^ (a.exponent - b.exponent).toNat := by
  have hpower : (10 : ℚ) ^ a.exponent = 10 ^ (a.exponent - b.exponent).toNat * 10 ^ b.exponent := by
    rw [← zpow_natCast, Int.toNat_of_nonneg (by omega), ← zpow_add₀ (by norm_num)]
    congr 1
    omega
  rw [magnitude, magnitude, hpower, ← mul_assoc] at h
  exact_mod_cast (mul_right_cancel₀ (zpow_ne_zero _ (by norm_num)) h).symm

/-! ### Rounding is a function of the value -/

theorem digitCount_mul_pow {n : ℕ} (hn : 0 < n) (k : ℕ) : digitCount (n * 10 ^ k) = digitCount n + k := by
  induction k with
  | zero => rw [pow_zero, mul_one, Nat.add_zero]
  | succ k ih =>
    have hpositive : 0 < n * 10 ^ k := Nat.mul_pos hn (pow_pos (by decide) k)
    have hsplit : n * 10 ^ (k + 1) = 10 * (n * 10 ^ k) + 0 := by ring
    rw [digitCount, hsplit, ← Nat.toDigits_append_toDigits (by decide) hpositive (by decide),
      List.length_append, ← digitCount, ih, Nat.toDigits_zero]
    rfl

theorem magnitude_rounded (precision : ℕ) : (d.rounded precision).magnitude =
    (roundHalfEven ((d.coefficient : ℚ) / 10 ^ d.excessDigits precision) : ℚ) *
      10 ^ (d.exponent + d.excessDigits precision) := by
  have hnonneg : 0 ≤ roundHalfEven ((d.coefficient : ℚ) / 10 ^ d.excessDigits precision) :=
    roundHalfEven_nonneg (by positivity)
  rw [magnitude, rounded]
  congr 1
  exact_mod_cast congrArg (Int.cast : ℤ → ℚ) (Int.toNat_of_nonneg hnonneg)

theorem magnitude_rounded_of_exact {precision : ℕ} {n : ℕ}
    (h : (d.coefficient : ℚ) / 10 ^ d.excessDigits precision = n) :
    (d.rounded precision).magnitude = d.magnitude := by
  have hround : roundHalfEven (n : ℚ) = n := by simp [roundHalfEven]
  rw [magnitude_rounded, h, hround, magnitude, zpow_add₀ (by norm_num), zpow_natCast, Int.cast_natCast,
    ← h]
  field_simp

/-- Zeros after the last digit leave the rounded magnitude as it is. -/
theorem magnitude_rounded_congr {a b : DecimalFloat} (h : a.magnitude = b.magnitude)
    (hle : b.exponent ≤ a.exponent) (precision : ℕ) :
    (a.rounded precision).magnitude = (b.rounded precision).magnitude := by
  have hcoefficient := coefficient_eq_of_magnitude_eq h hle
  generalize hzeros : (a.exponent - b.exponent).toNat = zeros at hcoefficient
  rcases Nat.eq_zero_or_pos a.coefficient with hzero | hpositive
  · have hzero' : b.coefficient = 0 := by rw [hcoefficient, hzero, zero_mul]
    rw [a.magnitude_rounded_of_exact (n := 0) (by simp [hzero]),
      b.magnitude_rounded_of_exact (n := 0) (by simp [hzero']), h]
  · have hcount : digitCount b.coefficient = digitCount a.coefficient + zeros := by
      rw [hcoefficient, digitCount_mul_pow hpositive]
    by_cases hfits : digitCount a.coefficient ≤ precision
    · have hexact : b.excessDigits precision ≤ zeros := by
        rw [excessDigits]
        omega
      have ha : (a.coefficient : ℚ) / 10 ^ a.excessDigits precision = a.coefficient := by
        rw [excessDigits, Nat.sub_eq_zero_of_le hfits, pow_zero, div_one]
      have hb : (b.coefficient : ℚ) / 10 ^ b.excessDigits precision =
          ((a.coefficient * 10 ^ (zeros - b.excessDigits precision) : ℕ) : ℚ) := by
        rw [hcoefficient]
        push_cast
        rw [pow_sub₀ _ (by norm_num) hexact]
        ring
      rw [a.magnitude_rounded_of_exact ha, b.magnitude_rounded_of_exact hb, h]
    · have hexcess : b.excessDigits precision = a.excessDigits precision + zeros := by
        rw [excessDigits, excessDigits]
        omega
      have hratio : (b.coefficient : ℚ) / 10 ^ b.excessDigits precision =
          (a.coefficient : ℚ) / 10 ^ a.excessDigits precision := by
        rw [hcoefficient, hexcess, pow_add]
        push_cast
        rw [mul_div_mul_right _ _ (pow_ne_zero _ (by norm_num))]
      have hexponent : b.exponent + (b.excessDigits precision : ℤ) =
          a.exponent + a.excessDigits precision := by omega
      rw [magnitude_rounded, magnitude_rounded, hratio, hexponent]

/-- Equal numbers round to equal numbers. -/
theorem value_rounded_congr {a b : DecimalFloat} (h : a.value = b.value) (precision : ℕ) :
    (a.rounded precision).value = (b.rounded precision).value := by
  have hmagnitude : (a.rounded precision).magnitude = (b.rounded precision).magnitude := by
    have heq := magnitude_eq_of_value_eq h
    rcases le_total b.exponent a.exponent with hle | hle
    · exact magnitude_rounded_congr heq hle precision
    · exact (magnitude_rounded_congr heq.symm hle precision).symm
  by_cases hzero : a.coefficient = 0
  · have hzero' : b.coefficient = 0 := by
      rw [← value_eq_zero_iff, ← h, value_eq_zero_iff, hzero]
    have hrounded : ∀ x : DecimalFloat, x.coefficient = 0 → (x.rounded precision).value = 0 := by
      intro x hx
      rw [value_eq_zero_iff, rounded]
      simp [hx, roundHalfEven]
    rw [hrounded a hzero, hrounded b hzero']
  · have hnegative : a.negative = b.negative := negative_eq_of_value_eq h hzero
    have hsign : (a.rounded precision).negative = (b.rounded precision).negative := hnegative
    rw [value, value, hmagnitude, hsign]

/-! ### One spelling for each value -/

theorem stripZeros_magnitude (zeros coefficient : ℕ) (exponent : ℤ) :
    ((stripZeros zeros coefficient exponent).1 : ℚ) * 10 ^ (stripZeros zeros coefficient exponent).2 =
      coefficient * 10 ^ exponent := by
  induction zeros generalizing coefficient exponent with
  | zero => rfl
  | succ zeros ih =>
    rw [stripZeros]
    split
    · next hzero =>
      have hcoefficient : (coefficient : ℚ) = (coefficient / 10 : ℕ) * 10 := by
        exact_mod_cast (Nat.div_mul_cancel (Nat.dvd_of_mod_eq_zero hzero)).symm
      rw [ih, zpow_add_one₀ (by norm_num), hcoefficient]
      ring
    · rfl

theorem stripZeros_mod {zeros coefficient : ℕ} (exponent : ℤ) (hpositive : 0 < coefficient)
    (hzeros : coefficient < 10 ^ zeros) : (stripZeros zeros coefficient exponent).1 % 10 ≠ 0 := by
  induction zeros generalizing coefficient exponent with
  | zero => omega
  | succ zeros ih =>
    rw [stripZeros]
    split
    · refine ih (exponent + 1) (by omega) ?_
      rw [pow_succ] at hzeros
      omega
    · assumption

/-- No trailing zero can move into the exponent. -/
def IsStripped : Prop := d.coefficient % 10 ≠ 0

theorem stripped_of_ne_zero (h : d.coefficient ≠ 0) :
    d.stripped.IsStripped ∧ d.stripped.value = d.value := by
  have hstripped : d.stripped =
      ⟨d.negative, (stripZeros (digitCount d.coefficient) d.coefficient d.exponent).1,
        (stripZeros (digitCount d.coefficient) d.coefficient d.exponent).2⟩ := by
    rw [stripped, isZero, if_neg (by simpa using h)]
  have hcount : d.coefficient < 10 ^ digitCount d.coefficient :=
    (digitCount_le_iff Nat.length_toDigits_pos).mp le_rfl
  rw [hstripped]
  refine ⟨stripZeros_mod d.exponent (Nat.pos_of_ne_zero h) hcount, ?_⟩
  rw [value, value, magnitude, stripZeros_magnitude, magnitude]

theorem isZero_stripped : d.stripped.isZero = d.isZero := by
  by_cases h : d.coefficient = 0
  · simp [stripped, isZero, h]
  · have hmod := (d.stripped_of_ne_zero h).1
    have hne : d.stripped.coefficient ≠ 0 := fun hzero => hmod (by rw [hzero])
    simp [isZero, h, hne]

/-- Stripped floats of one value are one float. -/
theorem IsStripped.eq_of_value_eq {a b : DecimalFloat} (ha : a.IsStripped) (hb : b.IsStripped)
    (h : a.value = b.value) : a = b := by
  have hexponent : ∀ {x y : DecimalFloat}, y.IsStripped → x.magnitude = y.magnitude →
      y.exponent ≤ x.exponent → x.exponent = y.exponent := by
    intro x y hy hmagnitude hle
    have hcoefficient := coefficient_eq_of_magnitude_eq hmagnitude hle
    by_contra hne
    obtain ⟨zeros, hzeros⟩ : ∃ zeros, (x.exponent - y.exponent).toNat = zeros + 1 :=
      ⟨(x.exponent - y.exponent).toNat - 1, by omega⟩
    refine hy ?_
    rw [hcoefficient, hzeros, pow_succ, ← mul_assoc, Nat.mul_mod_left]
  have hmagnitude := magnitude_eq_of_value_eq h
  have hne : a.coefficient ≠ 0 := fun hzero => ha (by rw [hzero])
  have hsame : a.exponent = b.exponent := by
    rcases le_total b.exponent a.exponent with hle | hle
    · exact hexponent hb hmagnitude hle
    · exact (hexponent ha hmagnitude.symm hle).symm
  have hcoefficient := coefficient_eq_of_magnitude_eq hmagnitude hsame.ge
  have hnegative := negative_eq_of_value_eq h hne
  rw [hsame, Int.sub_self, Int.toNat_zero, pow_zero, mul_one] at hcoefficient
  cases a
  cases b
  simp_all

/-- The one spelling of a number at a precision: zero is "0", whatever its sign. -/
def spelling (precision : ℕ) : String :=
  if (d.normalize precision).isZero then "0" else (d.normalize precision).positional

/-- Two numbers share a spelling exactly when they round to one number. -/
theorem spelling_eq_iff {a b : DecimalFloat} {precision : ℕ} :
    a.spelling precision = b.spelling precision ↔
      (a.rounded precision).value = (b.rounded precision).value := by
  have hspelling : ∀ x : DecimalFloat, x.spelling precision = if (x.rounded precision).isZero then
      (⟨false, 0, 0⟩ : DecimalFloat).positional else (x.normalize precision).positional := by
    intro x
    rw [spelling, normalize, isZero_stripped]
    rfl
  have hvalue : ∀ x : DecimalFloat, ∃ y : DecimalFloat, x.spelling precision = y.positional ∧
      y.value = (x.rounded precision).value := by
    intro x
    rw [hspelling]
    by_cases hzero : (x.rounded precision).coefficient = 0
    · refine ⟨⟨false, 0, 0⟩, by simp [isZero, hzero], ?_⟩
      rw [(value_eq_zero_iff _).mpr hzero, (value_eq_zero_iff _).mpr rfl]
    · exact ⟨x.normalize precision, by simp [isZero, hzero], (stripped_of_ne_zero _ hzero).2⟩
  constructor
  · intro h
    obtain ⟨x, hx, hxvalue⟩ := hvalue a
    obtain ⟨y, hy, hyvalue⟩ := hvalue b
    rw [← hxvalue, ← hyvalue]
    exact value_eq_of_positional_eq (hx.symm.trans (h.trans hy))
  · intro h
    rw [hspelling, hspelling]
    by_cases hzero : (a.rounded precision).coefficient = 0
    · have hzero' : (b.rounded precision).coefficient = 0 := by
        rw [← value_eq_zero_iff, ← h, value_eq_zero_iff, hzero]
      simp [isZero, hzero, hzero']
    · have hne : (b.rounded precision).coefficient ≠ 0 := fun hzero' => hzero (by
        rw [← value_eq_zero_iff, h, value_eq_zero_iff, hzero'])
      obtain ⟨hstripped, hsame⟩ := stripped_of_ne_zero _ hzero
      obtain ⟨hstripped', hsame'⟩ := stripped_of_ne_zero _ hne
      have heq : a.normalize precision = b.normalize precision :=
        hstripped.eq_of_value_eq hstripped' (hsame.trans (h.trans hsame'.symm))
      simp [isZero, hzero, hne, heq]

end DecimalFloat

end Lib
