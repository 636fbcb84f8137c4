import FinanceKing.Base

/-! Construction-time validators shared by every domain type, and the closed vocabularies. Each guard
    returns the value it checked or raises; none of them coerces. -/

namespace FinanceKing

/-- A check that raises, and passes otherwise. -/
def raiseIf (refused : Prop) [Decidable refused] (kind : ErrorKind) (message : Message) :
    PyResult Unit :=
  if refused then raise kind message else .ok ()

@[simp] theorem raiseIf_eq_ok {refused : Prop} [Decidable refused] {kind : ErrorKind}
    {message : Message} {u : Unit} : raiseIf refused kind message = .ok u ↔ ¬refused := by
  by_cases h : refused <;> simp [raiseIf, h, raise]

def requirePositiveDecimal (candidate : Decimal) (fieldName : String) : PyResult Unit :=
  raiseIf (candidate ≤ 0) .domainError
    [fieldName, " must be positive; got ", .decimal candidate]

def requireNonNegativeDecimal (candidate : Decimal) (fieldName : String) : PyResult Unit :=
  raiseIf (candidate < 0) .domainError
    [fieldName, " must not be negative; got ", .decimal candidate]

/-- A dimensionless ratio in `[0, 1]`, never a percent. -/
def requireFraction (candidate : Decimal) (fieldName : String) : PyResult Unit :=
  raiseIf (¬(0 ≤ candidate ∧ candidate ≤ 1)) .domainError
    [fieldName, " must lie in [0, 1]; got ", .decimal candidate]

def requirePositiveDuration (candidate : TimeDelta) (fieldName : String) : PyResult Unit :=
  raiseIf (candidate ≤ 0) .domainError [fieldName, " must be positive; got ", .span candidate]

/-- A string with at least one character that is not whitespace. -/
def requireText (candidate : String) (fieldName : String) : PyResult Unit :=
  raiseIf (strip candidate = []) .domainError [fieldName, " must not be blank"]

/-- The three tests of an asset code: ASCII, alphanumeric, and its own upper case. -/
def isAssetCode (code : String) : Bool :=
  code.toList.all (fun c => c.toNat < 128 && c.isAlphanum && c.toUpper == c)

def requireAssetCode (candidate : String) (fieldName : String) : PyResult Unit := do
  requireText candidate fieldName
  raiseIf (¬isAssetCode candidate) .domainError
    [fieldName, " must be an uppercase ASCII alphanumeric code; got ", .quoted candidate]

@[simp] theorem requirePositiveDecimal_eq_ok {x : Decimal} {name : String} {u : Unit} :
    requirePositiveDecimal x name = .ok u ↔ 0 < x := by
  simp [requirePositiveDecimal]

@[simp] theorem requireNonNegativeDecimal_eq_ok {x : Decimal} {name : String} {u : Unit} :
    requireNonNegativeDecimal x name = .ok u ↔ 0 ≤ x := by
  simp [requireNonNegativeDecimal]

@[simp] theorem requireFraction_eq_ok {x : Decimal} {name : String} {u : Unit} :
    requireFraction x name = .ok u ↔ 0 ≤ x ∧ x ≤ 1 := by
  simp [requireFraction]

@[simp] theorem requirePositiveDuration_eq_ok {d : TimeDelta} {name : String} {u : Unit} :
    requirePositiveDuration d name = .ok u ↔ 0 < d := by
  simp [requirePositiveDuration]

@[simp] theorem requireText_eq_ok {s name : String} {u : Unit} :
    requireText s name = .ok u ↔ strip s ≠ [] := by
  simp [requireText]

/-! ### Vocabularies -/

/-- A trading venue; every member is a testnet. -/
inductive Venue where
  | binanceSpotTestnet
  | binanceFuturesTestnet
  | bybitTestnet
  deriving DecidableEq

/-- The wire value, which is also how a message spells a venue. -/
def Venue.value : Venue → String
  | .binanceSpotTestnet => "binance-spot-testnet"
  | .binanceFuturesTestnet => "binance-futures-testnet"
  | .bybitTestnet => "bybit-testnet"

/-- Which way a belief or a position points. -/
inductive Direction where
  | long
  | short
  | flat
  deriving DecidableEq

def Direction.value : Direction → String
  | .long => "long"
  | .short => "short"
  | .flat => "flat"

/-- The side of an order or a fill. -/
inductive Side where
  | buy
  | sell
  deriving DecidableEq

def Side.value : Side → String
  | .buy => "buy"
  | .sell => "sell"

/-- `+1` for a buy, `-1` for a sell. -/
def Side.signedMultiplier : Side → Decimal
  | .buy => 1
  | .sell => -1

inductive OrderType where
  | market
  | limit
  deriving DecidableEq

inductive TimeInForce where
  | gtc
  | ioc
  | fok
  deriving DecidableEq

def TimeInForce.value : TimeInForce → String
  | .gtc => "gtc"
  | .ioc => "ioc"
  | .fok => "fok"

end FinanceKing
