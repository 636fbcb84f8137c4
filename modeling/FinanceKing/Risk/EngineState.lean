import FinanceKing.Risk.Calibration
import FinanceKing.Risk.Contribution
import FinanceKing.Risk.Drawdown
import FinanceKing.Risk.KillSwitchJournal
import FinanceKing.Risk.Netting

/-! What a risk decision reads and what it leaves behind: the market and the account at one instant, the
    policy in force, and a batch of outcomes with an audit row for every signal. -/

namespace FinanceKing.Risk

open Lib Strategies

/-! ### The market -/

structure InstrumentMarketStateFields where
  instrument : Instrument
  markUsd : Decimal
  midQuotePrice : Decimal
  atr14Quote : Decimal
  returnSeries : List Decimal
  volatilityFloorAnnualised : Decimal
  deriving DecidableEq

/-- A position cannot be sized or booked against a price that is not positive. -/
def requireMarketPrice (instrument : Instrument) (candidate : Decimal) (fieldName : String) : PyResult Unit :=
  raiseIf (candidate ≤ 0) .domainError
    [fieldName, " for ", instrument.symbol, " is ", .decimal candidate, "; a position cannot be sized or " ++
      "booked against a non-positive price"]

def InstrumentMarketStateFields.postInit (self : InstrumentMarketStateFields) : PyResult Unit := do
  requireMarketPrice self.instrument self.markUsd "mark_usd"
  requireMarketPrice self.instrument self.midQuotePrice "mid_quote_price"

/-- Everything the terms read about one instrument, at one instant. -/
structure InstrumentMarketState extends InstrumentMarketStateFields where
  checked : toInstrumentMarketStateFields.postInit = .ok ()
  deriving DecidableEq

theorem InstrumentMarketState.markUsd_pos (market : InstrumentMarketState) : 0 < market.markUsd := by
  have h := market.checked
  simp only [InstrumentMarketStateFields.postInit, requireMarketPrice, bind_eq_ok, raiseIf_eq_ok,
    not_le] at h
  obtain ⟨_, hmark, _⟩ := h
  exact hmark

theorem InstrumentMarketState.midQuotePrice_pos (market : InstrumentMarketState) :
    0 < market.midQuotePrice := by
  have h := market.checked
  simp only [InstrumentMarketStateFields.postInit, requireMarketPrice, bind_eq_ok, raiseIf_eq_ok,
    not_le] at h
  obtain ⟨_, _, hmid⟩ := h
  exact hmid

structure MarketStateFields where
  instruments : Dict Instrument InstrumentMarketState
  riskModel : RiskModel Decimal

def MarketStateFields.postInit (self : MarketStateFields) : PyResult Unit :=
  self.instruments.entries.forM fun (instrument, state) =>
    raiseIf (state.instrument ≠ instrument) .domainError
      ["instruments is keyed ", .quoted instrument.symbol, " but holds market state for ",
        .quoted state.instrument.symbol]

/-- The market half of a decision: one snapshot per instrument, plus the risk model. -/
structure MarketState extends MarketStateFields where
  checked : toMarketStateFields.postInit = .ok ()

/-- The mark of every instrument. -/
def MarketState.marksUsd (self : MarketState) : Dict Instrument Decimal :=
  self.instruments.mapValues fun state => state.markUsd

/-! ### The account and the policy -/

structure StrategyStateFields where
  strategyId : String
  calibration : CalibrationMap
  closedTradeCount : ℤ
  realisedMeanReturnFraction : Decimal
  realisedReturnStdevFraction : Decimal
  drawdownState : Option DrawdownState
  deriving DecidableEq

def StrategyStateFields.postInit (self : StrategyStateFields) : PyResult Unit :=
  raiseIf (self.calibration.strategyId ≠ self.strategyId) .domainError
    ["strategy state for ", .quoted self.strategyId, " carries a calibration map belonging to ",
      .quoted self.calibration.strategyId, "; a map is a claim about one strategy's record and means " ++
      "nothing applied to another"]

/-- One strategy's own record, as of the decision instant. -/
structure StrategyState extends StrategyStateFields where
  checked : toStrategyStateFields.postInit = .ok ()
  deriving DecidableEq

structure PortfolioStateFields where
  portfolio : Portfolio
  equityUsd : Decimal
  strategies : Dict String StrategyState
  drawdownState : Option DrawdownState
  deriving DecidableEq

def PortfolioStateFields.postInit (self : PortfolioStateFields) : PyResult Unit :=
  self.strategies.entries.forM fun (strategyId, state) =>
    raiseIf (state.strategyId ≠ strategyId) .domainError
      ["strategies is keyed ", .quoted strategyId, " but holds state for ", .quoted state.strategyId]

/-- The account half of a decision. -/
structure PortfolioState extends PortfolioStateFields where
  checked : toPortfolioStateFields.postInit = .ok ()
  deriving DecidableEq

theorem portfolioDrawdownBudgets_checked :
    (⟨.portfolio, 10 / 100, 3 / 100⟩ : DrawdownBudgetsFields).postInit = .ok () := by
  with_unfolding_all decide

def defaultPortfolioDrawdownBudgets : DrawdownBudgets :=
  ⟨⟨.portfolio, 10 / 100, 3 / 100⟩, portfolioDrawdownBudgets_checked⟩

def defaultStrategyDrawdownBudgets : DrawdownBudgets := ⟨⟨.strategy, 15 / 100, 3 / 100⟩, by decide +kernel⟩

/-- Every configurable limit the engine applies. -/
structure RiskPolicy where
  limits : RiskLimits := defaultRiskLimits
  exposureLimits : ExposureLimits := defaultExposureLimits
  concentrationLimits : ConcentrationLimits := defaultConcentrationLimits
  sizingParameters : SizingParameters := defaultSizingParameters
  convictionParameters : ConvictionParameters := defaultConvictionParameters
  portfolioDrawdownBudgets : DrawdownBudgets := defaultPortfolioDrawdownBudgets
  strategyDrawdownBudgets : DrawdownBudgets := defaultStrategyDrawdownBudgets
  tradableSymbols : Finset String := ∅
  deriving DecidableEq

/-! ### The decision -/

/-- The stages of a decision, in execution order. -/
inductive Stage where
  | killSwitch
  | portfolioDrawdown
  | signalAdmission
  | conviction
  | exposure
  | sizing
  | netting
  | concentration
  | orderConstruction
  deriving DecidableEq

def stages : List Stage :=
  [.killSwitch, .portfolioDrawdown, .signalAdmission, .conviction, .exposure, .sizing, .netting,
    .concentration, .orderConstruction]

inductive RiskVerdict where
  | approved
  | rejected
  deriving DecidableEq

/-- One signal's complete record: the verdict, and every term that produced it. -/
structure SignalAudit where
  strategyId : String
  instrument : Instrument
  direction : Direction
  decidedAtUtc : DateTime
  verdict : RiskVerdict
  stage : Stage
  rejection : Option Rejection
  conviction : Option ConvictionAssessment := none
  exposure : Option ExposureAssessment := none
  sizing : Option PositionSizing := none
  portfolioDrawdown : Option LimitVerdict := none
  strategyDrawdown : Option LimitVerdict := none
  portfolioDrawdownBudgets : Option DrawdownBudgets := none
  strategyDrawdownBudgets : Option DrawdownBudgets := none
  concentration : Option ConcentrationAssessment := none
  clientOrderId : Option String := none
  attributedSignedBaseQuantity : Option Decimal := none
  bookedQuotePrice : Option Decimal := none
  deriving DecidableEq

/-- What a decision gives for a signal or an instrument: an order or a refusal. -/
inductive Outcome where
  | order (order : Order)
  | rejection (rejection : Rejection)
  deriving DecidableEq

/-- Everything one decision produced. -/
structure DecisionBatch where
  correlationId : Uuid
  decidedAtUtc : DateTime
  outcomes : List Outcome
  plans : List NetOrderPlan
  audits : List SignalAudit
  stagesExecuted : List Stage
  deriving DecidableEq

namespace DecisionBatch

variable (self : DecisionBatch)

/-- The orders to submit. -/
def orders : List Order := self.outcomes.filterMap fun | .order order => some order | .rejection _ => none

/-- Every refusal. -/
def rejections : List Rejection :=
  self.outcomes.filterMap fun | .order _ => none | .rejection rejection => some rejection

end DecisionBatch

/-- One signal that survived to netting, with the terms that sized it. -/
structure Admitted where
  signal : Signal
  market : InstrumentMarketState
  request : StrategyRequest
  conviction : Option ConvictionAssessment
  exposure : ExposureAssessment
  sizing : Option PositionSizing
  strategyDrawdown : Option LimitVerdict
  deriving DecidableEq

/-- What an order's identity is digested from. -/
structure OrderMaterial where
  correlationId : Uuid
  seed : ℤ
  instrument : Instrument
  side : Side
  baseQuantity : Decimal
  decidedAtUtc : DateTime
  deriving DecidableEq

end FinanceKing.Risk
