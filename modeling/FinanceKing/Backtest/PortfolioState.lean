import FinanceKing.Domain.Position
import FinanceKing.Lib.Dict
import FinanceKing.Lib.SortBy

/-! Portfolio state, advanced by fills, funding settlements and risk-limit breaches. Cash carries the
    full notional on both sides, idempotence is part of the state, and a breach is counted when it
    happens. Every transition returns a new value, so a call that raises leaves the state it was
    called on. -/

namespace FinanceKing.Backtest

open Lib

/-- The venue's own identity for a funding settlement. -/
abbrev FundingKey := Instrument × DateTime

/-- A mapping whose key disagrees with its value's instrument is refused. -/
def frozenPositions (positions : Dict Instrument Position) : PyResult Unit :=
  positions.entries.forM (fun entry =>
    raiseIf (entry.2.instrument ≠ entry.1) .portfolioAccounting
      ["positions is keyed ", .quoted entry.1.symbol, " but holds a ", entry.2.instrument.symbol,
        " position"])

structure PortfolioStateFields where
  asOfUtc : DateTime
  quoteCashUsd : Decimal
  positions : Dict Instrument Position
  appliedFillIds : Finset Uuid
  appliedFundingKeys : Finset FundingKey
  fundingPaidUsd : Decimal
  riskLimitBreachCount : ℤ
  deriving DecidableEq

def PortfolioStateFields.postInit (self : PortfolioStateFields) : PyResult Unit := do
  raiseIf (self.riskLimitBreachCount < 0) .portfolioAccounting
    ["risk_limit_breach_count must not be negative; got ", .count self.riskLimitBreachCount]
  frozenPositions self.positions

/-- Everything the books know at one instant. -/
structure PortfolioState extends PortfolioStateFields where
  checked : toPortfolioStateFields.postInit = .ok ()
  deriving DecidableEq

/-- The three ways the books are advanced. -/
inductive PortfolioCall where
  | withFill (fill : Fill)
  | withFunding (instrument : Instrument) (occursAtUtc : DateTime)
      (fundingRate markQuotePrice : Decimal)
  | withRiskLimitBreach (occursAtUtc : DateTime) (breachCount : ℤ)
  deriving DecidableEq

namespace PortfolioState

def make (fields : PortfolioStateFields) : PyResult PortfolioState :=
  construct PortfolioStateFields.postInit PortfolioState.mk fields

/-- A portfolio holding cash and nothing else. -/
def opening (asOfUtc : DateTime) (startingCashUsd : Decimal) : PyResult PortfolioState := do
  raiseIf (startingCashUsd ≤ 0) .portfolioAccounting
    ["starting_cash_usd must be positive; got ", .decimal startingCashUsd,
      ". A run opened at zero equity has no denominator for a return"]
  make {
    asOfUtc := asOfUtc
    quoteCashUsd := startingCashUsd
    positions := Dict.empty
    appliedFillIds := ∅
    appliedFundingKeys := ∅
    fundingPaidUsd := 0
    riskLimitBreachCount := 0 }

variable (self : PortfolioState)

/-- How many distinct fills have been applied. -/
def fillCount : ℕ := self.appliedFillIds.card

/-- Realised PnL across every instrument, gross of fees. -/
def realisedPnlUsd : Decimal := (self.positions.values.map (·.realisedPnlQuote)).sum

/-- Every fee actually charged, summed across instruments. -/
def feePaidUsd : Decimal := (self.positions.values.map (·.feeQuotePaid)).sum

/-- Only the positions carrying exposure right now, by symbol. -/
def openPositions : List Position :=
  ((sortBy (fun entry => entry.1.symbol) self.positions.entries).map Prod.snd).filter
    (fun position => position.signedBaseQuantity ≠ 0)

/-- Whether any exposure is held at this instant. -/
def isInMarket : Bool := self.openPositions ≠ []

/-- Cash plus every open position marked to the supplied prices; a missing or non-positive mark is
    refused. -/
def equityUsd (markQuotePrices : Dict Instrument Decimal) : PyResult Decimal :=
  self.openPositions.foldlM (fun equity position =>
    match markQuotePrices.get? position.instrument with
    | none =>
      raise .markPriceMissing
        ["no mark supplied for the open ", position.instrument.symbol, " position of ",
          .decimal position.signedBaseQuantity, " at ", .instant self.asOfUtc]
    | some mark => do
      raiseIf (mark ≤ 0) .markPriceMissing
        ["mark for ", position.instrument.symbol, " is ", .decimal mark,
          "; a non-positive mark is a feed fault, not a price"]
      return equity + position.signedBaseQuantity * mark) self.quoteCashUsd

def advancedTo (moment : DateTime) (what : Message) : PyResult DateTime := do
  raiseIf (moment < self.asOfUtc) .portfolioAccounting
    (what ++ ([" is stamped ", .instant moment, ", before the portfolio's own ",
      .instant self.asOfUtc, ". The books cannot be advanced backwards"] : Message))
  return moment

/-- Apply one execution. Idempotent on `fillId`. -/
def withFill (fill : Fill) : PyResult PortfolioState :=
  if fill.fillId ∈ self.appliedFillIds then .ok self
  else do
    let asOfUtc ← self.advancedTo fill.eventTimeUtc ["fill ", fill.venueTradeId]
    let held := (self.positions.get? fill.instrument).getD (.flat fill.instrument)
    let transition ← held.withFill fill
    let cashDelta := -(fill.signedBaseQuantity * fill.quotePrice) - fill.feeQuote
    make { self.toPortfolioStateFields with
      asOfUtc := asOfUtc
      quoteCashUsd := self.quoteCashUsd + cashDelta
      positions := self.positions.set fill.instrument transition.after
      appliedFillIds := insert fill.fillId self.appliedFillIds }

/-- The signed quantity held in one instrument, zero when it was never traded. -/
def heldQuantity (instrument : Instrument) : Decimal :=
  (self.positions.get? instrument).elim 0 (·.signedBaseQuantity)

/-- Settle funding on the position held at this exact instant. Idempotent on
    `(instrument, occursAtUtc)`. -/
def withFunding (instrument : Instrument) (occursAtUtc : DateTime)
    (fundingRate markQuotePrice : Decimal) : PyResult PortfolioState := do
  raiseIf (markQuotePrice ≤ 0) .markPriceMissing
    ["funding mark for ", instrument.symbol, " is ", .decimal markQuotePrice,
      "; a non-positive mark is a feed fault, not a price"]
  if (instrument, occursAtUtc) ∈ self.appliedFundingKeys then .ok self
  else do
    let asOfUtc ← self.advancedTo occursAtUtc ["funding on ", instrument.symbol]
    let paymentUsd := self.heldQuantity instrument * markQuotePrice * fundingRate
    make { self.toPortfolioStateFields with
      asOfUtc := asOfUtc
      quoteCashUsd := self.quoteCashUsd - paymentUsd
      appliedFundingKeys := insert (instrument, occursAtUtc) self.appliedFundingKeys
      fundingPaidUsd := self.fundingPaidUsd + paymentUsd }

/-- Record that a risk limit was breached during the run. -/
def withRiskLimitBreach (occursAtUtc : DateTime) (breachCount : ℤ) : PyResult PortfolioState := do
  raiseIf (breachCount ≤ 0) .runConfig
    ["breach_count must be positive; got ", .count breachCount]
  let asOfUtc ← self.advancedTo occursAtUtc ["risk-limit breach"]
  make { self.toPortfolioStateFields with
    asOfUtc := asOfUtc
    riskLimitBreachCount := self.riskLimitBreachCount + breachCount }

/-- Advance the books by one call. -/
def advance : PortfolioCall → PyResult PortfolioState
  | .withFill fill => self.withFill fill
  | .withFunding instrument occursAtUtc fundingRate markQuotePrice =>
    self.withFunding instrument occursAtUtc fundingRate markQuotePrice
  | .withRiskLimitBreach occursAtUtc breachCount =>
    self.withRiskLimitBreach occursAtUtc breachCount

/-! ### What one accepted call changes -/

theorem frozenPositions_eq_ok (positions : Dict Instrument Position) :
    frozenPositions positions = .ok () ↔
      ∀ instrument position, positions.get? instrument = some position →
        position.instrument = instrument := by
  simp only [frozenPositions, forM_eq_ok, raiseIf_eq_ok, not_not, Dict.get?_eq_some_iff]
  exact ⟨fun h i p hp => h (i, p) hp, fun h e he => h e.1 e.2 he⟩

theorem make_eq_ok_of (fields : PortfolioStateFields) (hcount : 0 ≤ fields.riskLimitBreachCount)
    (hkeyed : ∀ instrument position, fields.positions.get? instrument = some position →
      position.instrument = instrument) :
    ∃ h, make fields = .ok ⟨fields, h⟩ := by
  have h : fields.postInit = .ok () := by
    simp only [PortfolioStateFields.postInit, bind_eq_ok, raiseIf_eq_ok, not_lt]
    exact ⟨(), hcount, (frozenPositions_eq_ok _).mpr hkeyed⟩
  exact ⟨h, construct_ok h⟩

theorem postInit_facts : 0 ≤ self.riskLimitBreachCount ∧
    ∀ instrument position, self.positions.get? instrument = some position →
      position.instrument = instrument := by
  have h := self.checked
  simp only [PortfolioStateFields.postInit, bind_eq_ok, raiseIf_eq_ok, not_lt] at h
  obtain ⟨_, hcount, hkeyed⟩ := h
  exact ⟨hcount, (frozenPositions_eq_ok _).mp hkeyed⟩

/-- The position a fill is applied to is one of the fill's own instrument. -/
theorem held_instrument (instrument : Instrument) :
    ((self.positions.get? instrument).getD (.flat instrument)).instrument = instrument := by
  cases hget : self.positions.get? instrument with
  | none => rfl
  | some position => exact self.postInit_facts.2 _ _ hget

theorem advancedTo_eq_ok {moment t : DateTime} {what : Message} :
    self.advancedTo moment what = .ok t ↔ self.asOfUtc ≤ moment ∧ t = moment := by
  rw [advancedTo]
  simp only [bind_eq_ok, raiseIf_eq_ok, pure_eq_ok, not_lt]
  constructor
  · rintro ⟨_, hclock, h⟩
    exact ⟨hclock, h.symm⟩
  · rintro ⟨hclock, h⟩
    exact ⟨(), hclock, h.symm⟩

/-- A fill that is not a repeat and not behind the clock is booked on the position it names. -/
theorem withFill_accepted {fill : Fill} (hid : fill.fillId ∉ self.appliedFillIds)
    (hclock : self.asOfUtc ≤ fill.eventTimeUtc) :
    ∃ t state, ((self.positions.get? fill.instrument).getD (.flat fill.instrument)).withFill fill =
        .ok t ∧ self.withFill fill = .ok state ∧
      state.toPortfolioStateFields = { self.toPortfolioStateFields with
        asOfUtc := fill.eventTimeUtc
        quoteCashUsd := self.quoteCashUsd +
          (-(fill.signedBaseQuantity * fill.quotePrice) - fill.feeQuote)
        positions := self.positions.set fill.instrument t.after
        appliedFillIds := insert fill.fillId self.appliedFillIds } := by
  have hheld := self.held_instrument fill.instrument
  obtain ⟨t, ht, _, hrepeat, hnew⟩ := Position.withFill_spec _ hheld.symm
  have hafter : t.after.instrument = fill.instrument := by
    rcases Decidable.em (fill.fillId ∈
      ((self.positions.get? fill.instrument).getD (.flat fill.instrument)).appliedFillIds) with h | h
    · rw [hrepeat h, hheld]
    · rw [(hnew h).instrument, hheld]
  obtain ⟨hcheck, hmake⟩ := make_eq_ok_of { self.toPortfolioStateFields with
      asOfUtc := fill.eventTimeUtc
      quoteCashUsd := self.quoteCashUsd +
        (-(fill.signedBaseQuantity * fill.quotePrice) - fill.feeQuote)
      positions := self.positions.set fill.instrument t.after
      appliedFillIds := insert fill.fillId self.appliedFillIds } self.postInit_facts.1 (by
    intro instrument position hget
    rw [Dict.get?_set] at hget
    split at hget
    · next hsame => rw [hsame, ← Option.some.inj hget, hafter]
    · exact self.postInit_facts.2 _ _ hget)
  refine ⟨t, ⟨_, hcheck⟩, ht, ?_, rfl⟩
  rw [withFill, if_neg hid]
  simp only [bind_eq_ok, advancedTo_eq_ok]
  exact ⟨_, ⟨hclock, rfl⟩, t, ht, hmake⟩

theorem advancedTo_late {moment : DateTime} (what : Message) (h : moment < self.asOfUtc) :
    ∃ e, self.advancedTo moment what = .error e :=
  ⟨_, by rw [advancedTo, raiseIf, if_pos h]; rfl⟩

theorem withFill_repeat {fill : Fill} (hid : fill.fillId ∈ self.appliedFillIds) :
    self.withFill fill = .ok self := if_pos hid

theorem withFill_late {fill : Fill} (hid : fill.fillId ∉ self.appliedFillIds)
    (hclock : fill.eventTimeUtc < self.asOfUtc) : ∃ e, self.withFill fill = .error e := by
  obtain ⟨e, he⟩ := self.advancedTo_late ["fill ", fill.venueTradeId] hclock
  exact ⟨e, by rw [withFill, if_neg hid, he]; rfl⟩

variable {instrument : Instrument} {occursAtUtc : DateTime} {fundingRate markQuotePrice : Decimal}
  {breachCount : ℤ} {after : PortfolioState}

theorem withFunding_repeat (hmark : 0 < markQuotePrice)
    (hkey : (instrument, occursAtUtc) ∈ self.appliedFundingKeys) :
    self.withFunding instrument occursAtUtc fundingRate markQuotePrice = .ok self := by
  rw [withFunding, raiseIf, if_neg (not_le.mpr hmark), if_pos hkey]
  rfl

theorem withFunding_late (hkey : (instrument, occursAtUtc) ∉ self.appliedFundingKeys)
    (hclock : occursAtUtc < self.asOfUtc) :
    ∃ e, self.withFunding instrument occursAtUtc fundingRate markQuotePrice = .error e := by
  obtain ⟨e, he⟩ := self.advancedTo_late ["funding on ", instrument.symbol] hclock
  rw [withFunding, raiseIf, if_neg hkey]
  split
  · exact ⟨_, rfl⟩
  · exact ⟨e, by rw [he]; rfl⟩

/-- What an accepted settlement changes: cash and the funding paid, by one payment. -/
theorem withFunding_accepted
    (h : self.withFunding instrument occursAtUtc fundingRate markQuotePrice = .ok after)
    (hkey : (instrument, occursAtUtc) ∉ self.appliedFundingKeys) :
    after.toPortfolioStateFields = { self.toPortfolioStateFields with
      asOfUtc := occursAtUtc
      quoteCashUsd := self.quoteCashUsd -
        self.heldQuantity instrument * markQuotePrice * fundingRate
      appliedFundingKeys := insert (instrument, occursAtUtc) self.appliedFundingKeys
      fundingPaidUsd := self.fundingPaidUsd +
        self.heldQuantity instrument * markQuotePrice * fundingRate } := by
  rw [withFunding] at h
  simp only [if_neg hkey, bind_eq_ok, advancedTo_eq_ok] at h
  obtain ⟨_, _, _, ⟨_, rfl⟩, hmake⟩ := h
  obtain ⟨_, rfl⟩ := construct_eq_ok hmake
  rfl

theorem withRiskLimitBreach_late (hclock : occursAtUtc < self.asOfUtc) :
    ∃ e, self.withRiskLimitBreach occursAtUtc breachCount = .error e := by
  obtain ⟨e, he⟩ := self.advancedTo_late ["risk-limit breach"] hclock
  rw [withRiskLimitBreach, raiseIf]
  split
  · exact ⟨_, rfl⟩
  · exact ⟨e, by rw [he]; rfl⟩

/-- What an accepted breach changes: the clock and the counter, nothing in the books. -/
theorem withRiskLimitBreach_accepted
    (h : self.withRiskLimitBreach occursAtUtc breachCount = .ok after) :
    after.toPortfolioStateFields = { self.toPortfolioStateFields with
      asOfUtc := occursAtUtc
      riskLimitBreachCount := self.riskLimitBreachCount + breachCount } := by
  rw [withRiskLimitBreach] at h
  simp only [bind_eq_ok, advancedTo_eq_ok] at h
  obtain ⟨_, _, _, ⟨_, rfl⟩, hmake⟩ := h
  obtain ⟨_, rfl⟩ := construct_eq_ok hmake
  rfl

end PortfolioState

end FinanceKing.Backtest
