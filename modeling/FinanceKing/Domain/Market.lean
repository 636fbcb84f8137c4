import FinanceKing.Domain.Guards
import FinanceKing.Lib.Rounding

/-! What is traded and the lattice the venue accepts it on, and amounts that carry their asset. A
    checked type extends its raw fields with the proof that its constructor accepted them. -/

namespace FinanceKing

open Lib

/-- The fields of an instrument, before its constructor has checked them. -/
structure InstrumentFields where
  venue : Venue
  symbol : String
  baseAsset : String
  quoteAsset : String
  tickSize : Decimal
  lotStep : Decimal
  minNotionalQuote : Decimal
  deriving DecidableEq

def InstrumentFields.postInit (self : InstrumentFields) : PyResult Unit := do
  requireText self.symbol "symbol"
  requireAssetCode self.baseAsset "base_asset"
  requireAssetCode self.quoteAsset "quote_asset"
  requirePositiveDecimal self.tickSize "tick_size"
  requirePositiveDecimal self.lotStep "lot_step"
  requirePositiveDecimal self.minNotionalQuote "min_notional_quote"
  raiseIf (self.baseAsset = self.quoteAsset) .domainError
    [self.symbol, " cannot have ", self.baseAsset, " as both base and quote asset"]

/-- A tradable symbol on one venue, with the filters that symbol enforces. -/
structure Instrument extends InstrumentFields where
  checked : toInstrumentFields.postInit = .ok ()
  deriving DecidableEq

namespace Instrument

variable (self : Instrument)

theorem lotStep_pos : 0 < self.lotStep := by
  have h := self.checked
  simp only [InstrumentFields.postInit, bind_eq_ok, requirePositiveDecimal_eq_ok] at h
  obtain ⟨_, _, _, _, _, _, _, _, _, hlot, _⟩ := h
  exact hlot

theorem tickSize_pos : 0 < self.tickSize := by
  have h := self.checked
  simp only [InstrumentFields.postInit, bind_eq_ok, requirePositiveDecimal_eq_ok] at h
  obtain ⟨_, _, _, _, _, _, _, htick, _⟩ := h
  exact htick

/-- Snap a quantity onto `lotStep`, toward zero, so a short's magnitude shrinks too. -/
def quantizeBaseQuantity (baseQuantity : Decimal) : Decimal :=
  snapWith roundTowardZero self.lotStep baseQuantity

/-- Snap a price onto `tickSize`, away from crossing the book. -/
def quantizeQuotePrice (quotePrice : Decimal) (side : Side) : Decimal :=
  snapWith (match side with | .buy => roundTowardZero | .sell => roundAwayFromZero)
    self.tickSize quotePrice

/-- Value of `baseQuantity` at `quotePrice`, in the quote asset. -/
def notionalQuote (baseQuantity quotePrice : Decimal) : Decimal := baseQuantity * quotePrice

/-- Whether an order of this size clears the venue's floor; magnitude, not signed value. -/
def meetsMinNotional (baseQuantity quotePrice : Decimal) : Bool :=
  self.minNotionalQuote ≤ |notionalQuote baseQuantity quotePrice|

/-- A spot pair with ordinary filters, for evaluating the model on concrete inputs. -/
def sample : Instrument where
  venue := .binanceSpotTestnet
  symbol := "BTCUSDT"
  baseAsset := "BTC"
  quoteAsset := "USDT"
  tickSize := 1 / 100
  lotStep := 1 / 1000
  minNotionalQuote := 5
  checked := by decide +kernel

end Instrument

/-! ### Balances -/

structure BalanceFields where
  asset : String
  freeQuantity : Decimal
  lockedQuantity : Decimal
  deriving DecidableEq

def BalanceFields.postInit (self : BalanceFields) : PyResult Unit := do
  requireAssetCode self.asset "asset"
  requireNonNegativeDecimal self.freeQuantity "free_quantity"
  requireNonNegativeDecimal self.lockedQuantity "locked_quantity"

/-- What a venue reports holding for one asset. -/
structure Balance extends BalanceFields where
  checked : toBalanceFields.postInit = .ok ()
  deriving DecidableEq

/-- Free plus locked; never the number to size a new order against. -/
def Balance.totalQuantity (self : Balance) : Decimal := self.freeQuantity + self.lockedQuantity

end FinanceKing

/-! Observations of the market: one aggregated bar, always closed, and one individual trade. -/

namespace FinanceKing

structure BarFields where
  instrument : Instrument
  openTimeUtc : DateTime
  closeTimeUtc : DateTime
  openQuotePrice : Decimal
  highQuotePrice : Decimal
  lowQuotePrice : Decimal
  closeQuotePrice : Decimal
  baseVolume : Decimal
  tradeCount : ℤ
  deriving DecidableEq

def BarFields.postInit (self : BarFields) : PyResult Unit := do
  requirePositiveDecimal self.openQuotePrice "open_quote_price"
  requirePositiveDecimal self.highQuotePrice "high_quote_price"
  requirePositiveDecimal self.lowQuotePrice "low_quote_price"
  requirePositiveDecimal self.closeQuotePrice "close_quote_price"
  requireNonNegativeDecimal self.baseVolume "base_volume"
  raiseIf (self.closeTimeUtc ≤ self.openTimeUtc) .domainError
    ["close_time_utc ", .instant self.closeTimeUtc, " must follow open_time_utc ",
      .instant self.openTimeUtc]
  raiseIf (self.tradeCount < 0) .domainError
    ["trade_count must not be negative; got ", .count self.tradeCount]
  raiseIf (self.highQuotePrice < max self.openQuotePrice self.closeQuotePrice ∨
      self.lowQuotePrice > min self.openQuotePrice self.closeQuotePrice) .domainError
    [self.instrument.symbol, " bar at ", .instant self.openTimeUtc, " has high ",
      .decimal self.highQuotePrice, " / low ", .decimal self.lowQuotePrice,
      " that do not bracket open ", .decimal self.openQuotePrice, " and close ",
      .decimal self.closeQuotePrice]

/-- One OHLCV interval, closed. -/
structure Bar extends BarFields where
  checked : toBarFields.postInit = .ok ()
  deriving DecidableEq

namespace Bar

variable (self : Bar)

theorem postInit_facts :
    0 < self.highQuotePrice ∧ 0 < self.lowQuotePrice ∧ 0 ≤ self.baseVolume ∧
      self.openTimeUtc < self.closeTimeUtc ∧
      max self.openQuotePrice self.closeQuotePrice ≤ self.highQuotePrice ∧
      self.lowQuotePrice ≤ min self.openQuotePrice self.closeQuotePrice := by
  have h := self.checked
  simp only [BarFields.postInit, bind_eq_ok, requirePositiveDecimal_eq_ok,
    requireNonNegativeDecimal_eq_ok, raiseIf_eq_ok, not_le, not_or, not_lt] at h
  obtain ⟨_, _, _, hhigh, _, hlow, _, _, _, hvolume, _, htime, _, _, htop, hbottom⟩ := h
  exact ⟨hhigh, hlow, hvolume, htime, htop, hbottom⟩

/-- The low of a bar never exceeds its high. -/
theorem low_le_high : self.lowQuotePrice ≤ self.highQuotePrice := by
  obtain ⟨_, _, _, _, htop, hbottom⟩ := self.postInit_facts
  calc self.lowQuotePrice ≤ min self.openQuotePrice self.closeQuotePrice := hbottom
    _ ≤ max self.openQuotePrice self.closeQuotePrice := min_le_max
    _ ≤ self.highQuotePrice := htop

/-- Whether the interval saw no trades at all. -/
def isEmpty : Bool := self.tradeCount = 0

end Bar

structure TickFields where
  instrument : Instrument
  venueTradeId : String
  eventTimeUtc : DateTime
  quotePrice : Decimal
  baseQuantity : Decimal
  aggressorSide : Side
  deriving DecidableEq

def TickFields.postInit (self : TickFields) : PyResult Unit := do
  requireText self.venueTradeId "venue_trade_id"
  requirePositiveDecimal self.quotePrice "quote_price"
  requirePositiveDecimal self.baseQuantity "base_quantity"

/-- One trade printed by the venue. -/
structure Tick extends TickFields where
  checked : toTickFields.postInit = .ok ()
  deriving DecidableEq

end FinanceKing
