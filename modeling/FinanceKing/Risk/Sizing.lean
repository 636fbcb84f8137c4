import FinanceKing.Domain.Market
import FinanceKing.Lib.Root
import FinanceKing.Risk.Limits

/-! Position sizing: three methods computed independently and combined with the exposure headroom by a
    minimum, so every term can only make the position smaller. Only the Kelly term is ever left out. -/

namespace FinanceKing.Risk

open Lib

/-! ### Parameters -/

def ewmaDecay : Decimal := 94 / 100

def slowWindowObservations : ℕ := 60

def periodsPerYear : Decimal := 365

/-- The process-wide decimal context. -/
def decimalPrecision : ℕ := 38

def sizingCeilings : List (String × Ceiling) :=
  [("risk_fraction_per_trade", ⟨1 / 100⟩), ("target_volatility_annualised", ⟨15 / 100⟩),
    ("max_kelly_fraction", ⟨50 / 100⟩), ("atr_invalidation_multiple", ⟨10⟩),
    ("unstated_invalidation_risk_multiplier", ⟨5 / 10⟩)]

def sizingFloors : List (String × Floor) :=
  (hardFloors.filter fun (name, _) => name = "min_trades_for_kelly") ++
    [("atr_invalidation_multiple", ⟨25 / 10⟩)]

def requireNonNegative (candidate : Decimal) (fieldName : String) : PyResult Unit :=
  raiseIf (candidate < 0) .domainError
    [fieldName, " must be at or above zero; got ", .decimal candidate]

def requirePositive (candidate : Decimal) (fieldName : String) : PyResult Unit :=
  raiseIf (candidate ≤ 0) .domainError [fieldName, " must be above zero; got ", .decimal candidate]

@[simp] theorem requireNonNegative_eq_ok {x : Decimal} {name : String} {u : Unit} :
    requireNonNegative x name = .ok u ↔ 0 ≤ x := by
  rw [requireNonNegative, raiseIf_eq_ok, not_lt]

@[simp] theorem requirePositive_eq_ok {x : Decimal} {name : String} {u : Unit} :
    requirePositive x name = .ok u ↔ 0 < x := by
  rw [requirePositive, raiseIf_eq_ok, not_le]

structure SizingParametersFields where
  riskFractionPerTrade : Decimal := 5 / 1000
  targetVolatilityAnnualised : Decimal := 15 / 100
  maxKellyFraction : Decimal := 25 / 100
  minTradesForKelly : ℤ := 100
  atrInvalidationMultiple : Decimal := 25 / 10
  unstatedInvalidationRiskMultiplier : Decimal := 5 / 10
  deriving DecidableEq

def SizingParametersFields.boundedValues (self : SizingParametersFields) : Dict String Decimal :=
  submittedLimits
    [("risk_fraction_per_trade", self.riskFractionPerTrade),
      ("target_volatility_annualised", self.targetVolatilityAnnualised),
      ("max_kelly_fraction", self.maxKellyFraction),
      ("atr_invalidation_multiple", self.atrInvalidationMultiple),
      ("unstated_invalidation_risk_multiplier", self.unstatedInvalidationRiskMultiplier),
      ("min_trades_for_kelly", self.minTradesForKelly)]

def SizingParametersFields.postInit (self : SizingParametersFields) : PyResult Unit := do
  assertWithinCeilings self.boundedValues sizingCeilings "sizing"
  assertAboveFloors self.boundedValues sizingFloors "sizing"
  requirePositive self.riskFractionPerTrade "risk_fraction_per_trade"
  requirePositive self.targetVolatilityAnnualised "target_volatility_annualised"
  requireNonNegative self.maxKellyFraction "max_kelly_fraction"
  requirePositive self.atrInvalidationMultiple "atr_invalidation_multiple"

/-- The configurable half of sizing. -/
structure SizingParameters extends SizingParametersFields where
  checked : toSizingParametersFields.postInit = .ok ()
  deriving DecidableEq

/-- The shipped parameters pass their own check. -/
def defaultSizingParameters : SizingParameters := ⟨{}, by decide +kernel⟩

/-- The parameters with the calibrated risk fraction in place of their own, checked again. -/
def withRiskFraction (parameters : SizingParameters) (riskFractionPerTrade : Decimal) :
    PyResult SizingParameters :=
  construct SizingParametersFields.postInit SizingParameters.mk
    { parameters.toSizingParametersFields with riskFractionPerTrade := riskFractionPerTrade }

/-! ### Inputs and the result -/

structure SizingInputsFields where
  instrument : Instrument
  direction : Direction
  equityUsd : Decimal
  entryQuotePrice : Decimal
  invalidationQuotePrice : Option Decimal
  atr14Quote : Decimal
  returnSeries : List Decimal
  volatilityFloorAnnualised : Decimal
  closedTradeCount : ℤ
  realisedMeanReturnFraction : Decimal
  realisedReturnStdevFraction : Decimal
  permittedNotionalUsd : Decimal
  deriving DecidableEq

def SizingInputsFields.postInit (self : SizingInputsFields) : PyResult Unit := do
  raiseIf (self.direction = .flat) .domainError
    ["a flat signal asks for no exposure; sizing it is a category error, not a request for zero"]
  requirePositive self.entryQuotePrice "entry_quote_price"
  requireNonNegative self.equityUsd "equity_usd"
  requireNonNegative self.atr14Quote "atr_14_quote"
  requireNonNegative self.volatilityFloorAnnualised "volatility_floor_annualised"
  requireNonNegative self.realisedReturnStdevFraction "realised_return_stdev_fraction"
  requireNonNegative self.permittedNotionalUsd "permitted_notional_usd"
  raiseIf (self.closedTradeCount < 0) .domainError
    ["closed_trade_count must be at or above zero; got ", .count self.closedTradeCount]
  match self.invalidationQuotePrice with
  | none => .ok ()
  | some level => requirePositive level "invalidation_quote_price"

/-- Everything sizing reads. -/
structure SizingInputs extends SizingInputsFields where
  checked : toSizingInputsFields.postInit = .ok ()
  deriving DecidableEq

/-- The three candidate volatilities and the one that was used, all annualised. -/
structure VolatilityEstimate where
  ewmaAnnualised : Decimal
  slowWindowAnnualised : Decimal
  floorAnnualised : Decimal
  usedAnnualised : Decimal
  deriving DecidableEq

/-- The sized quantity and every term that produced it. -/
structure PositionSizing where
  baseQuantity : Decimal
  notionalUsd : Decimal
  bindingTerm : String
  fixedFractionalBaseQuantity : Decimal
  volatilityTargetBaseQuantity : Decimal
  kellyBaseQuantity : Option Decimal
  exposureBaseQuantity : Decimal
  volatility : VolatilityEstimate
  usedInvalidationFallback : Bool
  riskFractionUsed : Decimal
  deriving DecidableEq

/-- Every term that entered the minimum, by name; Kelly is absent when it was left out. -/
def PositionSizing.terms (self : PositionSizing) : List (String × Decimal) :=
  [("fixed_fractional", self.fixedFractionalBaseQuantity),
    ("volatility_target", self.volatilityTargetBaseQuantity), ("exposure", self.exposureBaseQuantity)] ++
    (self.kellyBaseQuantity.map fun quantity => ("kelly", quantity)).toList

/-! ### The terms -/

/-- Population standard deviation; fewer than two observations have none. -/
def populationStdev (observations : List Decimal) : Decimal :=
  if observations.length < 2 then 0
  else
    let mean := observations.sum / observations.length
    let squared := (observations.map fun observation => (observation - mean) ^ 2).sum
    decimalRoot decimalPrecision (squared / observations.length)

/-- The exponentially weighted variance, seeded with the first squared return. -/
def ewmaVariance : List Decimal → Decimal
  | [] => 0
  | first :: rest => rest.foldl (fun variance observation =>
      ewmaDecay * variance + (1 - ewmaDecay) * observation ^ 2) (first ^ 2)

/-- The maximum of a fast and a slow estimate and the floor, annualised. -/
def volatilityUsed (returnSeries : List Decimal) (floorAnnualised : Decimal) :
    PyResult VolatilityEstimate := do
  requireNonNegative floorAnnualised "floor_annualised"
  let annualisation := decimalRoot decimalPrecision periodsPerYear
  let ewmaAnnualised := decimalRoot decimalPrecision (ewmaVariance returnSeries) * annualisation
  let slowWindowAnnualised :=
    populationStdev (returnSeries.drop (returnSeries.length - slowWindowObservations)) * annualisation
  return {
    ewmaAnnualised := ewmaAnnualised
    slowWindowAnnualised := slowWindowAnnualised
    floorAnnualised := floorAnnualised
    usedAnnualised := max (max ewmaAnnualised slowWindowAnnualised) floorAnnualised }

/-- Distance from entry to the point that would prove the thesis wrong. -/
def riskDistanceQuote (inputs : SizingInputs) (parameters : SizingParameters) : Decimal :=
  match inputs.invalidationQuotePrice with
  | some level => |inputs.entryQuotePrice - level|
  | none => parameters.atrInvalidationMultiple * inputs.atr14Quote

/-- Capped Kelly, or none when the record is too short to estimate it. -/
def kellyBaseQuantity (inputs : SizingInputs) (parameters : SizingParameters) : Option Decimal :=
  if inputs.closedTradeCount < parameters.minTradesForKelly then none
  -- a record with no dispersion is a data fault, and the bet on it is none
  else if inputs.realisedReturnStdevFraction ≤ 0 then some 0
  else
    let fullKellyEquityFraction :=
      max (inputs.realisedMeanReturnFraction / inputs.realisedReturnStdevFraction ^ 2) 0
    let equityFraction :=
      min (parameters.maxKellyFraction * fullKellyEquityFraction) parameters.maxKellyFraction
    some (equityFraction * inputs.equityUsd / inputs.entryQuotePrice)

/-- The first candidate of the least quantity. -/
def leastCandidate (first : String × Decimal) (rest : List (String × Decimal)) : String × Decimal :=
  rest.foldl (fun least candidate => if candidate.2 < least.2 then candidate else least) first

/-- The lot-lattice quantity the venue would take, and the term that bound it. -/
def venueFiltered (inputs : SizingInputs) (binding : String × Decimal) : Decimal × String :=
  let baseQuantity := inputs.instrument.quantizeBaseQuantity binding.2
  if inputs.instrument.meetsMinNotional baseQuantity inputs.entryQuotePrice then (baseQuantity, binding.1)
  else (0, "venue_filters")

/-- Size one position. -/
def sizePosition (inputs : SizingInputs) (parameters : SizingParameters) : PyResult PositionSizing := do
  let volatility ← volatilityUsed inputs.returnSeries inputs.volatilityFloorAnnualised
  let usedInvalidationFallback := inputs.invalidationQuotePrice.isNone
  let riskFractionUsed := if usedInvalidationFallback
    then parameters.riskFractionPerTrade * parameters.unstatedInvalidationRiskMultiplier
    else parameters.riskFractionPerTrade
  let riskDistance := riskDistanceQuote inputs parameters
  let fixedFractionalBaseQuantity :=
    if 0 < riskDistance then riskFractionUsed * inputs.equityUsd / riskDistance else 0
  let volatilityTargetBaseQuantity :=
    if 0 < volatility.usedAnnualised then
      parameters.targetVolatilityAnnualised / volatility.usedAnnualised * inputs.equityUsd /
        inputs.entryQuotePrice
    else 0
  let kelly := kellyBaseQuantity inputs parameters
  let exposureBaseQuantity := inputs.permittedNotionalUsd / inputs.entryQuotePrice
  let binding := leastCandidate ("fixed_fractional", fixedFractionalBaseQuantity)
    ([("volatility_target", volatilityTargetBaseQuantity), ("exposure", exposureBaseQuantity)] ++
      (kelly.map fun quantity => ("kelly", quantity)).toList)
  let (baseQuantity, bindingTerm) := venueFiltered inputs binding
  return {
    baseQuantity := baseQuantity
    notionalUsd := Instrument.notionalQuote baseQuantity inputs.entryQuotePrice
    bindingTerm := bindingTerm
    fixedFractionalBaseQuantity := fixedFractionalBaseQuantity
    volatilityTargetBaseQuantity := volatilityTargetBaseQuantity
    kellyBaseQuantity := kelly
    exposureBaseQuantity := exposureBaseQuantity
    volatility := volatility
    usedInvalidationFallback := usedInvalidationFallback
    riskFractionUsed := riskFractionUsed }

end FinanceKing.Risk
