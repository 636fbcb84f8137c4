import FinanceKing.Domain.Market

/-! The order path's two records: what was asked for, and what happened. Both quantities are unsigned
    and the direction lives in `side`, so a negative buy cannot be written down. -/

namespace FinanceKing

structure OrderFields where
  orderId : Uuid
  clientOrderId : String
  correlationId : Uuid
  instrument : Instrument
  side : Side
  orderType : OrderType
  timeInForce : TimeInForce
  baseQuantity : Decimal
  limitQuotePrice : Option Decimal
  createdAtUtc : DateTime
  deriving DecidableEq

def OrderFields.postInit (self : OrderFields) : PyResult Unit := do
  requireText self.clientOrderId "client_order_id"
  requirePositiveDecimal self.baseQuantity "base_quantity"
  match self.orderType, self.limitQuotePrice with
  | .limit, none =>
    raise .domainError ["limit order ", self.clientOrderId, " carries no limit_quote_price"]
  | .limit, some price => requirePositiveDecimal price "limit_quote_price"
  | .market, none => .ok ()
  | .market, some price =>
    raise .domainError
      ["market order ", self.clientOrderId, " carries limit_quote_price ", .decimal price,
        "; the venue ignores it and fills at market"]

/-- An instruction to the venue. -/
structure Order extends OrderFields where
  checked : toOrderFields.postInit = .ok ()
  deriving DecidableEq

namespace Order

variable (self : Order)

theorem baseQuantity_pos : 0 < self.baseQuantity := by
  have h := self.checked
  simp only [OrderFields.postInit, bind_eq_ok, requirePositiveDecimal_eq_ok] at h
  obtain ⟨_, _, _, hquantity, _⟩ := h
  exact hquantity

/-- The quantity as it will change a position: positive to buy, negative to sell. -/
def signedBaseQuantity : Decimal := self.baseQuantity * self.side.signedMultiplier

end Order

structure FillFields where
  fillId : Uuid
  orderId : Uuid
  venueTradeId : String
  instrument : Instrument
  side : Side
  eventTimeUtc : DateTime
  quotePrice : Decimal
  baseQuantity : Decimal
  feeQuote : Decimal
  deriving DecidableEq

def FillFields.postInit (self : FillFields) : PyResult Unit := do
  requireText self.venueTradeId "venue_trade_id"
  requirePositiveDecimal self.quotePrice "quote_price"
  requirePositiveDecimal self.baseQuantity "base_quantity"
  requireNonNegativeDecimal self.feeQuote "fee_quote"

/-- One execution reported by the venue; `feeQuote` is the fee charged, not a rate. -/
structure Fill extends FillFields where
  checked : toFillFields.postInit = .ok ()
  deriving DecidableEq

namespace Fill

variable (self : Fill)

theorem postInit_facts : 0 < self.quotePrice ∧ 0 < self.baseQuantity ∧ 0 ≤ self.feeQuote := by
  have h := self.checked
  simp only [FillFields.postInit, bind_eq_ok, requirePositiveDecimal_eq_ok,
    requireNonNegativeDecimal_eq_ok] at h
  obtain ⟨_, _, _, hprice, _, hquantity, hfee⟩ := h
  exact ⟨hprice, hquantity, hfee⟩

theorem quotePrice_pos : 0 < self.quotePrice := self.postInit_facts.1

theorem baseQuantity_pos : 0 < self.baseQuantity := self.postInit_facts.2.1

theorem feeQuote_nonneg : 0 ≤ self.feeQuote := self.postInit_facts.2.2

/-- How this fill moves a position: positive for a buy, negative for a sell. -/
def signedBaseQuantity : Decimal := self.baseQuantity * self.side.signedMultiplier

/-- Executed value in the quote asset, gross of the fee. -/
def notionalQuote : Decimal := self.quotePrice * self.baseQuantity

/-- The signed quantity is the unsigned one under the side's sign. -/
theorem signedBaseQuantity_cases :
    self.side = .buy ∧ self.signedBaseQuantity = self.baseQuantity ∨
      self.side = .sell ∧ self.signedBaseQuantity = -self.baseQuantity := by
  rw [signedBaseQuantity]
  cases hside : self.side with
  | buy => exact Or.inl ⟨rfl, mul_one _⟩
  | sell => exact Or.inr ⟨rfl, mul_neg_one _⟩

theorem signedBaseQuantity_ne_zero : self.signedBaseQuantity ≠ 0 := by
  have hpos := self.baseQuantity_pos
  rcases self.signedBaseQuantity_cases with ⟨_, h⟩ | ⟨_, h⟩ <;> rw [h]
  · exact hpos.ne'
  · exact (neg_neg_of_pos hpos).ne

end Fill

end FinanceKing
