import FinanceKing.Domain.Guards
import FinanceKing.Lib.Trailing

/-! The feature functions: each walks a series in time order and stamps, at an observation, a value of
    the window that ends there. -/

namespace FinanceKing.Data.Features

open Lib

/-! ### Series -/

/-- One closed bar: the instant it closed and the two prices that mean different things. -/
structure FeatureObservation where
  eventTimeUtc : DateTime
  openQuotePrice : Decimal
  closeQuotePrice : Decimal
  deriving DecidableEq

/-- One funding settlement a perpetual venue has already published. -/
structure SettlementRateObservation where
  eventTimeUtc : DateTime
  settlementRate : Decimal
  deriving DecidableEq

/-- One computed value with both times that matter. -/
structure FeaturePoint where
  eventTimeUtc : DateTime
  availableAtUtc : DateTime
  featureValue : Decimal
  deriving DecidableEq

/-- The two durations a computation is given. -/
structure FeatureWindow where
  lookback : TimeDelta
  availabilityLag : TimeDelta
  deriving DecidableEq

/-- The point stamped at an instant, knowable one lag later. -/
def FeatureWindow.point (self : FeatureWindow) (eventTimeUtc : DateTime) (value : Decimal) :
    FeaturePoint :=
  ⟨eventTimeUtc, eventTimeUtc + self.availabilityLag, value⟩

/-- The floating-point numbers the estimates are computed in, and the statistics taken over them. -/
structure FloatArithmetic where
  Value : Type
  ofDecimal : Decimal → Value
  toDecimal : Value → Decimal
  isZero : Value → Bool
  sub : Value → Value → Value
  div : Value → Value → Value
  stdev : List Value → Value
  fmean : List Value → Value

/-! ### Functions -/

/-- The loop of the windowed functions: an observation with none at or before its window start yields no
    point; the rest is the kernel of that base, of the observations inside and of the newest of them. -/
def windowedPoints {α : Type} (time : α → DateTime) (kernel : α → List α → α → Option Decimal)
    (observations : List α) (window : FeatureWindow) : List FeaturePoint :=
  emitFrom (windowed time window.lookback fun base inside observation =>
    (kernel base inside observation).map (window.point (time observation))) [] observations

/-- Simple return over the lookback. The base is the newest observation at or before `t - lookback`. -/
def trailingReturnFraction (observations : List FeatureObservation) (window : FeatureWindow) :
    List FeaturePoint :=
  emitFrom (fun before observation =>
    let windowStart := observation.eventTimeUtc - window.lookback
    (before.reverse.find? fun candidate => candidate.eventTimeUtc ≤ windowStart).map fun base =>
      window.point observation.eventTimeUtc
        (observation.closeQuotePrice / base.closeQuotePrice - 1)) [] observations

section Floats

variable (float : FloatArithmetic)

/-- The returns between consecutive observations, the first of them based before the window. -/
def returnsInside (base : FeatureObservation) (inside : List FeatureObservation) : List float.Value :=
  List.zipWith (fun observation previous =>
    float.ofDecimal (observation.closeQuotePrice / previous.closeQuotePrice - 1)) inside (base :: inside)

/-- Sample standard deviation of successive simple returns inside the lookback. -/
def trailingRealisedVolatility : List FeatureObservation → FeatureWindow → List FeaturePoint :=
  windowedPoints FeatureObservation.eventTimeUtc fun base inside _ =>
    let returns := returnsInside float base inside
    if returns.length < 2 then none else some (float.toDecimal (float.stdev returns))

def closesInside (inside : List FeatureObservation) : List float.Value :=
  inside.map fun observation => float.ofDecimal observation.closeQuotePrice

/-- How many sample standard deviations the close sits from the window's mean close. -/
def bollingerZScore : List FeatureObservation → FeatureWindow → List FeaturePoint :=
  windowedPoints FeatureObservation.eventTimeUtc fun _ inside observation =>
    let closes := closesInside float inside
    if closes.length < 2 then none
    else
      let dispersion := float.stdev closes
      if float.isZero dispersion then none
      else some (float.toDecimal (float.div
        (float.sub (float.ofDecimal observation.closeQuotePrice) (float.fmean closes)) dispersion))

/-- One Bollinger standard deviation, as a fraction of the mean close. -/
def bollingerBandWidthFraction : List FeatureObservation → FeatureWindow → List FeaturePoint :=
  windowedPoints FeatureObservation.eventTimeUtc fun _ inside _ =>
    let closes := closesInside float inside
    if closes.length < 2 then none
    else some (float.toDecimal (float.div (float.stdev closes) (float.fmean closes)))

end Floats

/-- Where a close stands between the window's extremes; a flat window has no channel to break out of. -/
def breakoutState (closes : List Decimal) (closeQuotePrice : Decimal) : Decimal :=
  let highest := closes.max?.getD 0
  let lowest := closes.min?.getD 0
  if highest = lowest then 0
  else if closeQuotePrice = highest then 1
  else if closeQuotePrice = lowest then -1
  else 0

/-- `1` at a new window high close, `-1` at a new window low close, `0` between them. -/
def donchianChannelBreakoutState : List FeatureObservation → FeatureWindow → List FeaturePoint :=
  windowedPoints FeatureObservation.eventTimeUtc fun _ inside observation =>
    some (breakoutState (inside.map FeatureObservation.closeQuotePrice) observation.closeQuotePrice)

/-- The signed rate exchanged at one settlement, republished under the store's lag. -/
def settledFundingRate : List SettlementRateObservation → FeatureWindow → List FeaturePoint :=
  windowedPoints SettlementRateObservation.eventTimeUtc fun _ _ observation =>
    some observation.settlementRate

/-- Mean magnitude of the settlements inside the lookback, sign discarded. -/
def trailingMeanAbsoluteFundingRate : List SettlementRateObservation → FeatureWindow → List FeaturePoint :=
  windowedPoints SettlementRateObservation.eventTimeUtc fun _ inside _ =>
    let magnitudes := inside.map fun observation => |observation.settlementRate|
    some (magnitudes.sum / magnitudes.length)

end FinanceKing.Data.Features
