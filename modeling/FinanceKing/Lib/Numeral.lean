import Mathlib.Algebra.Order.Field.Rat
import Mathlib.Tactic.Ring
import Mathlib.Tactic.FieldSimp

/-! Numbers as they are written. A text spells an integer, or a decimal with a fraction and an exponent, by a
    grammar of its characters, and the number it denotes is read off the positions of its digits. -/

namespace Lib

/-! ### Digits -/

/-- A run of ASCII digits, possibly empty. -/
def AllDigits (text : List Char) : Prop := ∀ c ∈ text, c.isDigit

/-- The number a run of digits denotes, each digit at its own power of ten. -/
def digitsValue : List Char → ℕ
  | [] => 0
  | c :: rest => (c.toNat - 48) * 10 ^ rest.length + digitsValue rest

/-- Reading left to right, ten times what was read plus the next digit, gives the positional value. -/
theorem ofDigitChars_eq (text : List Char) (init : ℕ) :
    Nat.ofDigitChars 10 text init = init * 10 ^ text.length + digitsValue text := by
  induction text generalizing init with
  | nil => simp [digitsValue]
  | cons c rest ih =>
    have hzero : ('0' : Char).toNat = 48 := rfl
    rw [Nat.ofDigitChars_cons, ih, digitsValue, List.length_cons, pow_succ, hzero]
    ring

theorem ofDigitChars_zero (text : List Char) : Nat.ofDigitChars 10 text 0 = digitsValue text := by
  rw [ofDigitChars_eq, zero_mul, zero_add]

theorem digitsValue_append (left right : List Char) :
    digitsValue (left ++ right) = digitsValue left * 10 ^ right.length + digitsValue right := by
  rw [← ofDigitChars_zero, Nat.ofDigitChars_append, ofDigitChars_eq, ofDigitChars_zero]

/-! ### Integers -/

/-- An optional sign and the factor it stands for. -/
inductive SpellsSign : List Char → ℤ → Prop
  | unsigned : SpellsSign [] 1
  | plus : SpellsSign ['+'] 1
  | minus : SpellsSign ['-'] (-1)

/-- `[+-]?[0-9]+`, and the integer it denotes. -/
def SpellsInteger (text : List Char) (n : ℤ) : Prop :=
  ∃ sign factor digits, text = sign ++ digits ∧ SpellsSign sign factor ∧ digits ≠ [] ∧
    AllDigits digits ∧ n = factor * digitsValue digits

/-- `[0-9]+`, and the integer it denotes. -/
def SpellsNatural (text : List Char) (n : ℤ) : Prop :=
  text ≠ [] ∧ AllDigits text ∧ n = digitsValue text

/-! ### Decimals -/

/-- `(?:\.[0-9]*)?`, and the digits behind the point. -/
inductive SpellsFraction : List Char → List Char → Prop
  | whole : SpellsFraction [] []
  | point {digits : List Char} (hdigits : AllDigits digits) : SpellsFraction ('.' :: digits) digits

/-- `(?:[eE][+-]?[0-9]+)?`, and the exponent. -/
inductive SpellsExponent : List Char → ℤ → Prop
  | absent : SpellsExponent [] 0
  | lower {text : List Char} {n : ℤ} (h : SpellsInteger text n) : SpellsExponent ('e' :: text) n
  | upper {text : List Char} {n : ℤ} (h : SpellsInteger text n) : SpellsExponent ('E' :: text) n

/-- The parts of a decimal literal. -/
structure DecimalToken where
  sign : ℤ
  whole : List Char
  fraction : List Char
  exponent : ℤ

namespace DecimalToken

variable (self : DecimalToken)

/-- The number a literal denotes: its whole part and its fraction, at its power of ten. -/
def value : ℚ :=
  self.sign * (digitsValue self.whole + digitsValue self.fraction / 10 ^ self.fraction.length) *
    10 ^ self.exponent

/-- The exponent of the last digit written. -/
def lastExponent : ℤ := self.exponent - self.fraction.length

/-- All digits as one integer at the exponent of the last of them. -/
theorem value_eq : self.value =
    self.sign * digitsValue (self.whole ++ self.fraction) * 10 ^ self.lastExponent := by
  have hten : (10 : ℚ) ≠ 0 := by norm_num
  rw [value, lastExponent, digitsValue_append, zpow_sub₀ hten, zpow_natCast]
  push_cast
  field_simp

end DecimalToken

/-- `[+-]?[0-9]+(?:\.[0-9]*)?(?:[eE][+-]?[0-9]+)?`, and its parts. -/
def SpellsDecimal (text : List Char) (token : DecimalToken) : Prop :=
  ∃ sign point exponent, text = sign ++ (token.whole ++ (point ++ exponent)) ∧
    SpellsSign sign token.sign ∧ token.whole ≠ [] ∧ AllDigits token.whole ∧
    SpellsFraction point token.fraction ∧ SpellsExponent exponent token.exponent

example : SpellsDecimal ['-', '1', '.', '5', 'e', '2'] ⟨-1, ['1'], ['5'], 2⟩ :=
  ⟨['-'], ['.', '5'], ['e', '2'], rfl, .minus, by decide, by simp [AllDigits], .point (by simp [AllDigits]),
    .lower ⟨[], 1, ['2'], rfl, .unsigned, by decide, by simp [AllDigits], by decide⟩⟩

end Lib
