import FinanceKing.Base

/-! Numbers read from text as Python reads them: the digits of a run, the sign before it, and what `Decimal`
    makes of a whole string. -/

namespace FinanceKing

/-- An optional sign, and what follows it. -/
def takeSign : List Char → Bool × List Char
  | '+' :: rest => (false, rest)
  | '-' :: rest => (true, rest)
  | text => (false, text)

def applySign (negative : Bool) (n : ℤ) : ℤ := if negative then -n else n

/-- The leading run of ASCII digits, and what follows it. -/
def takeDigits (text : List Char) : List Char × List Char := text.span Char.isDigit

/-- `[+-]?[0-9]+` over the whole text, as the integer it spells. -/
def signedInteger (text : List Char) : Option ℤ :=
  let (negative, rest) := takeSign text
  match takeDigits rest with
  | ([], _) => none
  | (digits, []) => some (applySign negative (Nat.ofDigitChars 10 digits 0))
  | _ => none

/-- `(?:\.[0-9]*)?`: the digits of a fraction. -/
def takeFraction : List Char → List Char × List Char
  | '.' :: rest => takeDigits rest
  | text => ([], text)

/-- `(?:[eE][+-]?[0-9]+)?` at the end of the text. -/
def exponentOf : List Char → Option ℤ
  | [] => some 0
  | 'e' :: rest => signedInteger rest
  | 'E' :: rest => signedInteger rest
  | _ => none

/-- Whether `Decimal` holds a coefficient of these digits at this exponent: its range of exponents is
    bounded, and a text outside it is an `InvalidOperation`. -/
def holdsDecimal (coefficient : List Char) (exponent : ℤ) : Prop :=
  -1999999999999999997 ≤ exponent ∧
    exponent + ((coefficient.dropWhile (· = '0')).length - 1 : ℕ) ≤ 999999999999999999

instance (coefficient : List Char) (exponent : ℤ) : Decidable (holdsDecimal coefficient exponent) :=
  inferInstanceAs (Decidable (_ ∧ _))

/-- The longest run of digits `int` converts; the sign is no digit. -/
def maxIntDigits : ℕ := 4300

/-- The zeros of the runs of decimal digits Python reads besides the ASCII ones, by code point. -/
def foreignZeros : List ℕ :=
  [0x660, 0x6f0, 0x7c0, 0x966, 0x9e6, 0xa66, 0xae6, 0xb66, 0xbe6, 0xc66, 0xce6, 0xd66, 0xde6, 0xe50,
    0xed0, 0xf20, 0x1040, 0x1090, 0x17e0, 0x1810, 0x1946, 0x19d0, 0x1a80, 0x1a90, 0x1b50, 0x1bb0, 0x1c40,
    0x1c50, 0xa620, 0xa8d0, 0xa900, 0xa9d0, 0xa9f0, 0xaa50, 0xabf0, 0xff10, 0x104a0, 0x10d30, 0x11066,
    0x110f0, 0x11136, 0x111d0, 0x112f0, 0x11450, 0x114d0, 0x11650, 0x116c0, 0x11730, 0x118e0, 0x11950,
    0x11c50, 0x11d50, 0x11da0, 0x11f50, 0x16a60, 0x16ac0, 0x16b50, 0x1d7ce, 0x1d7d8, 0x1d7e2, 0x1d7ec,
    0x1d7f6, 0x1e140, 0x1e2f0, 0x1e4f0, 0x1e950, 0x1fbf0]

/-- The ASCII digit a decimal digit of another script is read as. -/
def asciiDigit (c : Char) : Char :=
  match foreignZeros.find? fun first => first ≤ c.toNat && c.toNat < first + 10 with
  | some first => Char.ofNat (48 + (c.toNat - first))
  | none => c

/-- What `Decimal(text)` gives: a number, a value that is none, or `InvalidOperation`. -/
inductive DecimalReading where
  | finite (value : Decimal)
  | notFinite
  | invalid
  deriving DecidableEq

/-- The spellings of an infinity, and those a payload of digits may follow in a NaN. -/
def isNotFinite (text : List Char) : Bool :=
  let lowered := text.map Char.toLower
  lowered = ['i', 'n', 'f'] || lowered = ['i', 'n', 'f', 'i', 'n', 'i', 't', 'y'] ||
    (['n', 'a', 'n'].isPrefixOf lowered && (lowered.drop 3).all Char.isDigit) ||
    (['s', 'n', 'a', 'n'].isPrefixOf lowered && (lowered.drop 4).all Char.isDigit)

/-- `Decimal(text)`: whitespace is dropped at both ends and underscores throughout, a digit of any script is
    read, and the number is exact. -/
def decimalOf (text : String) : DecimalReading :=
  let (negative, rest) := takeSign (((strip text).filter (· ≠ '_')).map asciiDigit)
  let (whole, afterWhole) := takeDigits rest
  let (fraction, tail) := takeFraction afterWhole
  if isNotFinite rest then .notFinite
  else match whole ++ fraction, exponentOf tail with
    | [], _ => .invalid
    | _, none => .invalid
    | coefficient, some exponent =>
      if holdsDecimal coefficient (exponent - fraction.length) then
        .finite (applySign negative (Nat.ofDigitChars 10 coefficient 0) * 10 ^ (exponent - fraction.length))
      else .invalid

example : ["0.00", " 1_0.50\n", ".5e1", "-٣", "snan12", "Infinity", "1 0", ".", "1e"].map decimalOf =
    [.finite 0, .finite (21 / 2), .finite 5, .finite (-3), .notFinite, .notFinite, .invalid, .invalid,
      .invalid] := by
  decide +kernel

end FinanceKing
