import FinanceKing.Domain.Portfolio
import FinanceKing.Risk.Limits
import FinanceKing.Strategy.Runner

/-! Portfolio exposure limits and the pre-trade validation that runs before an order exists. A breach is a
    returned refusal, and a signal that only reduces exposure is never refused for one. -/

namespace FinanceKing.Risk

open Lib Strategies

/-! ### The limits -/

def exposureHardCeilings : List (String × Ceiling) :=
  [("max_position_equity_ratio", ⟨10 / 100⟩), ("max_gross_exposure_ratio", ⟨3⟩),
    ("max_net_exposure_ratio", ⟨150 / 100⟩), ("max_asset_exposure_ratio", ⟨25 / 100⟩)]

/-- The floor that governs the configured limit too. -/
def exposureHardFloors : List (String × Floor) :=
  hardFloors.filter fun (name, _) => name = "min_free_margin_ratio"

structure ExposureLimitsFields where
  maxPositionEquityRatio : Decimal := 5 / 100
  maxGrossExposureRatio : Decimal := 2
  maxNetExposureRatio : Decimal := 1
  maxAssetExposureRatio : Decimal := 15 / 100
  minFreeMarginRatio : Decimal := 40 / 100
  deriving DecidableEq

def ExposureLimitsFields.postInit (self : ExposureLimitsFields) : PyResult Unit := do
  assertWithinCeilings
    (submittedLimits [("max_position_equity_ratio", self.maxPositionEquityRatio),
      ("max_gross_exposure_ratio", self.maxGrossExposureRatio),
      ("max_net_exposure_ratio", self.maxNetExposureRatio),
      ("max_asset_exposure_ratio", self.maxAssetExposureRatio)])
    exposureHardCeilings "exposure"
  assertAboveFloors (submittedLimits [("min_free_margin_ratio", self.minFreeMarginRatio)])
    exposureHardFloors "exposure"

/-- Fraction-of-equity exposure limits, refused at construction if a bound is crossed. -/
structure ExposureLimits extends ExposureLimitsFields where
  checked : toExposureLimitsFields.postInit = .ok ()
  deriving DecidableEq

/-- The shipped limits pass their own check. -/
def defaultExposureLimits : ExposureLimits := ⟨{}, by decide +kernel⟩

/-- Everything about the account and the rules, at one instant. -/
structure PreTradeContext where
  equityUsd : Decimal
  exposureLimits : ExposureLimits
  absoluteLimits : RiskLimits
  tradableSymbols : Finset String
  deriving DecidableEq

inductive BoundKind where
  | ceiling
  | floor
  deriving DecidableEq

/-- One limit, its threshold, and what was observed against it. -/
structure LimitEvaluation where
  limitName : String
  boundKind : BoundKind
  thresholdUsd : Decimal
  observedUsd : Decimal
  deriving DecidableEq

/-- What may still be added before this limit binds; negative when breached. -/
def LimitEvaluation.headroomUsd (self : LimitEvaluation) : Decimal :=
  match self.boundKind with
  | .ceiling => self.thresholdUsd - self.observedUsd
  | .floor => self.observedUsd - self.thresholdUsd

def LimitEvaluation.isBreached (self : LimitEvaluation) : Bool := self.headroomUsd < 0

/-! ### The book -/

/-- What the book already holds, priced at one set of marks. -/
structure PortfolioExposure where
  grossNotionalUsd : Decimal
  netNotionalUsd : Decimal
  notionalUsdByBaseAsset : Dict String Decimal
  notionalUsdByInstrument : Dict Instrument Decimal
  deriving DecidableEq

namespace PortfolioExposure

variable (self : PortfolioExposure)

def heldNotionalUsd (instrument : Instrument) : Decimal := (self.notionalUsdByInstrument.get? instrument).getD 0

def assetNotionalUsd (baseAsset : String) : Decimal := (self.notionalUsdByBaseAsset.get? baseAsset).getD 0

def empty : PortfolioExposure := ⟨0, 0, Dict.empty, Dict.empty⟩

/-- One more open position, at its mark. -/
def withPosition (position : Position) (markUsd notionalUsd : Decimal) : PortfolioExposure where
  grossNotionalUsd := self.grossNotionalUsd + notionalUsd
  netNotionalUsd := self.netNotionalUsd + position.signedBaseQuantity * markUsd
  notionalUsdByBaseAsset := self.notionalUsdByBaseAsset.set position.instrument.baseAsset
    (self.assetNotionalUsd position.instrument.baseAsset + notionalUsd)
  notionalUsdByInstrument := self.notionalUsdByInstrument.set position.instrument
    (self.heldNotionalUsd position.instrument + notionalUsd)

end PortfolioExposure

/-- Price one open position into the exposure; a missing mark raises. -/
def priceInto (marksUsd : Dict Instrument Decimal) (exposure : PortfolioExposure) (position : Position) :
    PyResult PortfolioExposure :=
  match marksUsd.get? position.instrument with
  | none => raise .domainError
      ["no mark for open position in ", position.instrument.venue.value, ":", position.instrument.symbol,
        "; exposure cannot be priced and must not be assumed zero"]
  | some markUsd => do
    let notionalUsd ← position.notionalQuote markUsd
    return exposure.withPosition position markUsd notionalUsd

/-- Price the open book at the marks. -/
def portfolioExposure (portfolio : Portfolio) (marksUsd : Dict Instrument Decimal) :
    PyResult PortfolioExposure :=
  portfolio.openPositions.foldlM (priceInto marksUsd) .empty

/-! ### The verdict -/

/-- A refusal, naming the limit that bound. -/
structure Rejection where
  reason : Message
  bindingLimitName : String
  rejectedAtUtc : DateTime
  deriving DecidableEq

/-- The pre-trade verdict on one signal, approved or refused. -/
structure ExposureAssessment where
  strategyId : String
  instrument : Instrument
  direction : Direction
  decidedAtUtc : DateTime
  equityUsd : Decimal
  evaluations : List LimitEvaluation
  permittedNotionalUsd : Decimal
  permittedBaseQuantity : Decimal
  rejection : Option Rejection
  deriving DecidableEq

/-- `Decimal` division, whose context traps a zero divisor. -/
def decimalQuotient (dividend divisor : Decimal) : PyResult Decimal := do
  raiseIf (divisor = 0 ∧ dividend = 0) .invalidOperation ["[<class 'decimal.DivisionUndefined'>]"]
  raiseIf (divisor = 0) .zeroDivision ["[<class 'decimal.DivisionByZero'>]"]
  return dividend / divisor

/-- Every limit that governs opening exposure, evaluated against the current book. -/
def evaluationsFor (instrument : Instrument) (direction : Direction) (exposure : PortfolioExposure)
    (context : PreTradeContext) : PyResult (List LimitEvaluation) := do
  let equityUsd := context.equityUsd
  let directionalSign : Decimal := if direction = .long then 1 else -1
  -- margin the open book consumes
  let usedMarginUsd ← decimalQuotient exposure.grossNotionalUsd context.absoluteLimits.maxLeverage
  return [
    ⟨"max_position_equity_ratio", .ceiling, context.exposureLimits.maxPositionEquityRatio * equityUsd,
      exposure.heldNotionalUsd instrument⟩,
    ⟨"max_position_notional_usd", .ceiling, context.absoluteLimits.maxPositionNotionalUsd,
      exposure.heldNotionalUsd instrument⟩,
    ⟨"max_asset_exposure_ratio", .ceiling, context.exposureLimits.maxAssetExposureRatio * equityUsd,
      exposure.assetNotionalUsd instrument.baseAsset⟩,
    ⟨"max_gross_exposure_ratio", .ceiling, context.exposureLimits.maxGrossExposureRatio * equityUsd,
      exposure.grossNotionalUsd⟩,
    ⟨"max_portfolio_notional_usd", .ceiling, context.absoluteLimits.maxPortfolioNotionalUsd,
      exposure.grossNotionalUsd⟩,
    -- signed toward the direction being opened: a long added to a short book reduces it
    ⟨"max_net_exposure_ratio", .ceiling, context.exposureLimits.maxNetExposureRatio * equityUsd,
      exposure.netNotionalUsd * directionalSign⟩,
    ⟨"min_free_margin_ratio", .floor, context.exposureLimits.minFreeMarginRatio * equityUsd,
      equityUsd - usedMarginUsd⟩,
    -- no order exists yet, so nothing is observed against the order-level cap
    ⟨"max_single_order_notional_usd", .ceiling, context.absoluteLimits.maxSingleOrderNotionalUsd, 0⟩]

/-- A row's headroom in notional; the free-margin row is in margin until leverage converts it. -/
def notionalHeadroomUsd (maxLeverage : Decimal) (evaluation : LimitEvaluation) : Decimal :=
  if evaluation.limitName = "min_free_margin_ratio" then evaluation.headroomUsd * maxLeverage
  else evaluation.headroomUsd

/-- Keep the tighter of the row that bound so far and the next one. -/
def tighten (maxLeverage : Decimal) (tightest : Decimal × String) (evaluation : LimitEvaluation) :
    Decimal × String :=
  let headroomUsd := notionalHeadroomUsd maxLeverage evaluation
  if headroomUsd < tightest.1 then (headroomUsd, evaluation.limitName) else tightest

/-- The tightest headroom across every limit, and the name of the limit that bound. -/
def permittedNotionalUsd (evaluations : List LimitEvaluation) (maxLeverage : Decimal) :
    PyResult (Decimal × String) := do
  let first ← item "tuple" evaluations 0
  -- the scan starts from the first row's own headroom, unconverted
  let (tightestUsd, bindingLimitName) :=
    evaluations.foldl (tighten maxLeverage) (first.headroomUsd, first.limitName)
  return (max tightestUsd 0, bindingLimitName)

/-- A flat signal closes what is open, whatever the book's exposure. -/
def reduceOnlyAssessment (signal : Signal) (exposure : PortfolioExposure) (context : PreTradeContext)
    (decidedAtUtc : DateTime) : ExposureAssessment where
  strategyId := signal.strategyId
  instrument := signal.instrument
  direction := .flat
  decidedAtUtc := decidedAtUtc
  equityUsd := context.equityUsd
  evaluations := []
  permittedNotionalUsd := exposure.heldNotionalUsd signal.instrument
  permittedBaseQuantity := 0
  rejection := none

def refused (signal : Signal) (context : PreTradeContext) (decidedAtUtc : DateTime)
    (evaluations : List LimitEvaluation) (reason : Message) (bindingLimitName : String) :
    ExposureAssessment where
  strategyId := signal.strategyId
  instrument := signal.instrument
  direction := signal.direction
  decidedAtUtc := decidedAtUtc
  equityUsd := context.equityUsd
  evaluations := evaluations
  permittedNotionalUsd := 0
  permittedBaseQuantity := 0
  rejection := some ⟨reason, bindingLimitName, decidedAtUtc⟩

/-- The verdict once a directional signal's headroom is known. -/
def assessHeadroom (signal : Signal) (context : PreTradeContext) (decidedAtUtc : DateTime)
    (evaluations : List LimitEvaluation) (markUsd permittedUsd : Decimal) (bindingLimitName : String) :
    ExposureAssessment :=
  if permittedUsd ≤ 0 then
    refused signal context decidedAtUtc evaluations
      [bindingLimitName, " leaves no headroom for ", signal.instrument.symbol,
        ": threshold and observed values are in limits_evaluated"] bindingLimitName
  else
    let permittedBaseQuantity := signal.instrument.quantizeBaseQuantity (permittedUsd / markUsd)
    if permittedBaseQuantity ≤ 0 ∨ ¬ signal.instrument.meetsMinNotional permittedBaseQuantity markUsd then
      refused signal context decidedAtUtc evaluations
        ["permitted notional ", .decimal permittedUsd, " on ", signal.instrument.symbol, " quantizes to ",
          .decimal permittedBaseQuantity, ", below the venue MIN_NOTIONAL of ",
          .decimal signal.instrument.minNotionalQuote] "min_notional_quote"
    else
      { strategyId := signal.strategyId
        instrument := signal.instrument
        direction := signal.direction
        decidedAtUtc := decidedAtUtc
        equityUsd := context.equityUsd
        evaluations := evaluations
        permittedNotionalUsd := permittedUsd
        permittedBaseQuantity := permittedBaseQuantity
        rejection := none }

/-- Decide how much exposure, if any, a signal may be given. -/
def validatePreTrade (signal : Signal) (portfolio : Portfolio) (marksUsd : Dict Instrument Decimal)
    (context : PreTradeContext) (decidedAtUtc : DateTime) : PyResult ExposureAssessment := do
  if signal.instrument.symbol ∉ context.tradableSymbols then
    return refused signal context decidedAtUtc []
      [signal.instrument.symbol, " is not in the resolved tradable universe for ",
        signal.instrument.venue.value] "tradable_universe"
  let exposure ← portfolioExposure portfolio marksUsd
  if signal.direction = .flat then
    return reduceOnlyAssessment signal exposure context decidedAtUtc
  match (marksUsd.get? signal.instrument).filter (0 < ·) with
  | none =>
    return refused signal context decidedAtUtc []
      ["no usable mark for ", signal.instrument.symbol, "; a position cannot be sized against a price the ",
        "system does not have"] "mark_available"
  | some markUsd => do
    let evaluations ← evaluationsFor signal.instrument signal.direction exposure context
    let (permittedUsd, bindingLimitName) ←
      permittedNotionalUsd evaluations context.absoluteLimits.maxLeverage
    return assessHeadroom signal context decidedAtUtc evaluations markUsd permittedUsd bindingLimitName

end FinanceKing.Risk
