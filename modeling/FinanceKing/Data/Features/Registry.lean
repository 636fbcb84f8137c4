import FinanceKing.Data.Features.Compute
import FinanceKing.Lib.SortBy

/-! The registry of features: what each one declares, and the boundary where a series is validated before
    a feature is computed over it. -/

namespace FinanceKing.Data.Features

open Lib

abbrev FeatureCompute := List FeatureObservation → FeatureWindow → List FeaturePoint

abbrev SettlementRateCompute := List SettlementRateObservation → FeatureWindow → List FeaturePoint

/-! ### Declarations -/

/-- A feature declaration, before its constructor has checked it. -/
structure FeatureSpecFields where
  name : String
  version : ℤ
  compute : Option FeatureCompute
  settlementRateCompute : Option SettlementRateCompute
  inputs : List String
  lookback : TimeDelta
  availabilityLag : TimeDelta
  labelHorizon : TimeDelta
  pointInTimeProof : String
  usesTrailingStatisticsOnly : Bool

def requireText (candidate fieldName : String) : PyResult Unit :=
  raiseIf (strip candidate = []) .featureContract [fieldName, " must not be blank"]

def requirePositiveDuration (candidate : TimeDelta) (fieldName : String) : PyResult Unit :=
  raiseIf (candidate ≤ 0) .featureContract [fieldName, " must be positive; got ", .span candidate]

def requireNonNegativeDuration (candidate : TimeDelta) (fieldName : String) : PyResult Unit :=
  raiseIf (candidate < 0) .featureContract
    [fieldName, " must not be negative; got ", .span candidate, ". A negative lag claims the value was ",
      "knowable before it happened"]

namespace FeatureSpecFields

variable (self : FeatureSpecFields)

def requireExactlyOneComputation : PyResult Unit := do
  raiseIf (self.compute.isNone ∧ self.settlementRateCompute.isNone) .featureContract
    [self.name, " declares neither compute nor settlement_rate_compute; a feature is a computation over ",
      "one observation kind, and which kind it reads is what the availability contract checks its inputs ",
      "against"]
  raiseIf (self.compute.isSome ∧ self.settlementRateCompute.isSome) .featureContract
    [self.name, " declares both compute and settlement_rate_compute; a feature is one series with one ",
      "lookback and one lag, so two computations under one name means two features whose values would ",
      "share a primary key"]

def postInit : PyResult Unit := do
  requireText self.name "name"
  self.requireExactlyOneComputation
  raiseIf (self.version < 1) .featureContract ["version must be at least 1; got ", .count self.version]
  requirePositiveDuration self.lookback "lookback"
  requireNonNegativeDuration self.availabilityLag "availability_lag"
  requirePositiveDuration self.labelHorizon "label_horizon"
  raiseIf (self.inputs = []) .featureContract
    [self.name, " declares no inputs; a feature computed from nothing cannot be checked against the ",
      "availability contract"]
  requireText self.pointInTimeProof "point_in_time_proof"
  raiseIf (self.pointInTimeProof.length < 20) .featureContract
    ["point_in_time_proof for ", self.name, " is ", .count self.pointInTimeProof.length, " characters and ",
      "states nothing checkable; say which window is used and how the join is bounded"]
  raiseIf (¬ self.usesTrailingStatisticsOnly) .featureContract
    [self.name, " declares uses_trailing_statistics_only=False; a full-sample statistic cannot be ",
      "point-in-time (docs/rules/no-lookahead.md)"]

end FeatureSpecFields

structure FeatureSpec extends FeatureSpecFields where
  checked : toFeatureSpecFields.postInit = .ok ()

namespace FeatureSpec

variable (self : FeatureSpec)

/-- The durations handed to the computation, so the declaration is the computation. -/
def window : FeatureWindow := ⟨self.lookback, self.availabilityLag⟩

def key : String × ℤ := (self.name, self.version)

theorem lookback_pos : 0 < self.lookback := by
  have h := self.checked
  simp only [FeatureSpecFields.postInit, requirePositiveDuration, bind_eq_ok, raiseIf_eq_ok, not_le] at h
  obtain ⟨_, _, _, _, _, _, _, hlookback, _⟩ := h
  exact hlookback

end FeatureSpec

/-! ### The features -/

/-- The input of the bar features. -/
def closedBars : List String := ["klines"]

/-- The input of the settlement features. -/
def fundingSettlements : List String := ["fundingRate"]

def hourWindow : TimeDelta := TimeDelta.ofMinutes 60

def twentyPeriodWindow : TimeDelta := TimeDelta.ofMinutes 300

def fundingRegimeWindow : TimeDelta := TimeDelta.ofMinutes (7 * 24 * 60)

def fundingPublicationLag : TimeDelta := TimeDelta.ofMinutes 1

/-- A feature over closed bars, knowable at the close itself and labelled over its own lookback. -/
def barFeature (name : String) (compute : FeatureCompute) (lookback : TimeDelta)
    (pointInTimeProof : String) : FeatureSpecFields where
  name := name
  version := 1
  compute := some compute
  settlementRateCompute := none
  inputs := closedBars
  lookback := lookback
  availabilityLag := 0
  labelHorizon := lookback
  pointInTimeProof := pointInTimeProof
  usesTrailingStatisticsOnly := true

/-- A feature over funding settlements of the regime window. -/
def settlementFeature (name : String) (compute : SettlementRateCompute) (pointInTimeProof : String) :
    FeatureSpecFields where
  name := name
  version := 1
  compute := none
  settlementRateCompute := some compute
  inputs := fundingSettlements
  lookback := fundingRegimeWindow
  availabilityLag := fundingPublicationLag
  labelHorizon := fundingRegimeWindow
  pointInTimeProof := pointInTimeProof
  usesTrailingStatisticsOnly := true

/-- The texts of a declaration say something. -/
def IsStated (name pointInTimeProof : String) : Prop :=
  strip name ≠ [] ∧ strip pointInTimeProof ≠ [] ∧ 20 ≤ pointInTimeProof.length

instance (name pointInTimeProof : String) : Decidable (IsStated name pointInTimeProof) :=
  inferInstanceAs (Decidable (_ ∧ _))

theorem IsStated.append {name opening : String} (h : IsStated name opening) (rest : String) :
    IsStated name (opening ++ rest) := by
  obtain ⟨hname, hopening, hlength⟩ := h
  refine ⟨hname, ?_, ?_⟩
  · exact strip_append_ne_nil hopening _
  · rw [String.length_append]
    omega

theorem barFeature_checked {name pointInTimeProof : String} {compute : FeatureCompute}
    {lookback : TimeDelta} (hlookback : 0 < lookback) (hstated : IsStated name pointInTimeProof) :
    (barFeature name compute lookback pointInTimeProof).postInit = .ok () := by
  obtain ⟨hname, hproof, hlength⟩ := hstated
  simp [FeatureSpecFields.postInit, FeatureSpecFields.requireExactlyOneComputation, requireText,
    requirePositiveDuration, requireNonNegativeDuration, barFeature, closedBars, hname, hproof,
    not_le.mpr hlookback, Nat.not_lt.mpr hlength]

theorem settlementFeature_checked {name pointInTimeProof : String} {compute : SettlementRateCompute}
    (hstated : IsStated name pointInTimeProof) :
    (settlementFeature name compute pointInTimeProof).postInit = .ok () := by
  obtain ⟨hname, hproof, hlength⟩ := hstated
  simp [FeatureSpecFields.postInit, FeatureSpecFields.requireExactlyOneComputation, requireText,
    requirePositiveDuration, requireNonNegativeDuration, settlementFeature, fundingSettlements,
    fundingRegimeWindow, fundingPublicationLag, TimeDelta.ofMinutes, TimeDelta.ofSeconds, hname, hproof,
    Nat.not_lt.mpr hlength]

def trailingReturnProof : String :=
  "Window is half-open (t-1h, t]; " ++ (
    "the base is the newest closed bar at or before t-1h and the head is the bar closing at t, " ++
    "so both endpoints had already closed at t. No partial window is emitted.")

def realisedVolatilityProof : String :=
  "Sample standard deviation " ++ (
    "of successive returns between closed bars inside (t-1h, t]; the oldest return's base is the " ++
    "bar at or before t-1h, which also already existed at t. Fewer than two returns emits " ++
    "nothing rather than a zero.")

def breakoutStateProof : String :=
  "The channel high and low " ++ (
    "are taken over the closes in (t-5h, t], the newest of which is the observation being " ++
    "stamped; every one of them had closed at t. The oldest observation used is the newest one " ++
    "at or before t-5h, which also already existed. A window without such an observation emits " ++
    "nothing rather than an extreme over a short window.")

def zScoreProof : String :=
  "Mean and sample standard " ++ (
    "deviation over the closes in (t-5h, t], all of which had closed at t, with the stamped " ++
    "observation inside its own window -- which is what a Bollinger band is. Nothing after t " ++
    "enters either moment, and a window with zero dispersion emits no point.")

def bandWidthProof : String :=
  "The same trailing (t-5h, t] " ++ (
    "window and the same sample standard deviation bollinger_z_score divides by, over the mean " ++
    "of that window. Both moments are taken over closed bars at or before t.")

def settledRateProof : String :=
  "The value is the rate settled " ++ (
    "at t and nothing else enters it, so no observation after t can. It is stamped available one " ++
    "minute later, which is the measured envelope for the mark-price stream that broadcasts it; " ++
    "a decision taken at the settlement instant itself sees the previous settlement. A window " ++
    "holding no settlement at or before t-7d emits nothing, so this series and the trailing mean " ++
    "over the same window begin on the same date.")

def meanAbsoluteRateProof : String :=
  "Mean of |rate| over the " ++ (
    "settlements in (t-7d, t], the newest of which is the one being stamped and all of which had " ++
    "already settled at t. The oldest used is the newest settlement at or before t-7d, which " ++
    "also already existed. A window without one emits nothing rather than a mean over however " ++
    "many settlements happened to be loaded.")

/-- `FEATURES`, in the order they are declared. -/
def features (float : FloatArithmetic) : List FeatureSpec :=
  [⟨barFeature "trailing_return_fraction" trailingReturnFraction hourWindow trailingReturnProof,
      barFeature_checked (by decide) (IsStated.append (by decide +kernel) _)⟩,
    ⟨barFeature "trailing_realised_volatility" (trailingRealisedVolatility float) hourWindow realisedVolatilityProof,
      barFeature_checked (by decide) (IsStated.append (by decide +kernel) _)⟩,
    ⟨barFeature "donchian_channel_breakout_state" donchianChannelBreakoutState twentyPeriodWindow breakoutStateProof,
      barFeature_checked (by decide) (IsStated.append (by decide +kernel) _)⟩,
    ⟨barFeature "bollinger_z_score" (bollingerZScore float) twentyPeriodWindow zScoreProof,
      barFeature_checked (by decide) (IsStated.append (by decide +kernel) _)⟩,
    ⟨barFeature "bollinger_band_width_fraction" (bollingerBandWidthFraction float) twentyPeriodWindow bandWidthProof,
      barFeature_checked (by decide) (IsStated.append (by decide +kernel) _)⟩,
    ⟨settlementFeature "settled_funding_rate" settledFundingRate settledRateProof,
      settlementFeature_checked (IsStated.append (by decide +kernel) _)⟩,
    ⟨settlementFeature "trailing_mean_absolute_funding_rate" trailingMeanAbsoluteFundingRate meanAbsoluteRateProof,
      settlementFeature_checked (IsStated.append (by decide +kernel) _)⟩]

/-- The spec of one name and version, or a refusal naming what exists. -/
def registered (float : FloatArithmetic) (name : String) (version : ℤ) : PyResult FeatureSpec :=
  match (features float).find? fun spec => spec.key = (name, version) with
  | some spec => .ok spec
  | none => raise .featureContract
      ["no feature ", .quoted name, " at version ", .count version, " is registered; registered features ",
        "are ", .texts (sortBy id ((features float).map fun spec => spec.name).dedup)]

/-! ### Validation -/

/-- Instants that ascend, each after the one before it. -/
def requireAscending (series : String) : List DateTime → PyResult Unit
  | [] => .ok ()
  | [_] => .ok ()
  | previous :: moment :: moments => do
    raiseIf (moment ≤ previous) .featureContract
      [series, " must ascend strictly by event_time_utc; ", .instant moment, " does not follow ",
        .instant previous]
    requireAscending series (moment :: moments)

def requirePrice (observation : FeatureObservation) (fieldName : String) (quoted : Decimal) :
    PyResult Unit :=
  raiseIf (quoted ≤ 0) .featureContract
    [fieldName, " at ", .instant observation.eventTimeUtc, " is ", .decimal quoted,
      "; a non-positive price is corrupt input"]

/-- Positive prices and ascending event times, checked observation by observation. -/
def requireStrictlyIncreasing : Option DateTime → List FeatureObservation → PyResult Unit
  | _, [] => .ok ()
  | previous, observation :: observations => do
    requirePrice observation "close_quote_price" observation.closeQuotePrice
    requirePrice observation "open_quote_price" observation.openQuotePrice
    raiseIf (∃ earlier ∈ previous, observation.eventTimeUtc ≤ earlier) .featureContract
      ["observations must ascend strictly by event_time_utc; ", .instant observation.eventTimeUtc,
        " does not follow ", .instant (previous.getD 0)]
    requireStrictlyIncreasing (some observation.eventTimeUtc) observations

def requireStrictlyIncreasingSettlements (observations : List SettlementRateObservation) : PyResult Unit :=
  requireAscending "settlements" (observations.map SettlementRateObservation.eventTimeUtc)

/-- One feature over one series of closed bars. -/
def evaluate (spec : FeatureSpec) (observations : List FeatureObservation) : PyResult (List FeaturePoint) :=
  match spec.compute with
  | none => raise .featureContract
      [spec.name, " v", .count spec.version, " is declared over settlement rates and was handed closed ",
        "bars; call evaluate_settlement_rates. Computing it from the wrong series would produce a number ",
        "under a name whose point-in-time proof describes a different input"]
  | some compute => do
    requireStrictlyIncreasing none observations
    return compute observations spec.window

/-- One settlement-rate feature over one series of settlements. -/
def evaluateSettlementRates (spec : FeatureSpec) (observations : List SettlementRateObservation) :
    PyResult (List FeaturePoint) :=
  match spec.settlementRateCompute with
  | none => raise .featureContract
      [spec.name, " v", .count spec.version, " is declared over closed bars and was handed settlement ",
        "rates; call evaluate. Computing it from the wrong series would produce a number under a name ",
        "whose point-in-time proof describes a different input"]
  | some compute => do
    requireStrictlyIncreasingSettlements observations
    return compute observations spec.window

end FinanceKing.Data.Features
