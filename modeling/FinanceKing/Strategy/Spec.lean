import FinanceKing.Domain.Market
import FinanceKing.Lib.Dict
import FinanceKing.Lib.SortBy

/-! What a strategy declares: the instruments and intervals it reads, the features it needs, its warm-up
    and horizon, and the rule that produces the price at which its thesis is wrong. -/

namespace FinanceKing.Strategies

open Lib

/-! ### Guards -/

def requireText (candidate : String) (fieldName : String) : PyResult Unit :=
  raiseIf (strip candidate = []) .strategyContract [fieldName, " must not be blank"]

def requirePositiveDuration (candidate : TimeDelta) (fieldName : String) : PyResult Unit :=
  raiseIf (candidate ≤ 0) .strategyContract [fieldName, " must be positive; got ", .span candidate]

def requirePositiveInt (candidate : ℤ) (fieldName : String) : PyResult Unit :=
  raiseIf (candidate < 1) .strategyContract
    [fieldName, " must be at least 1; got ", .count candidate]

/-- A fraction strictly inside `(0, 1)`. -/
def requireOpenUnitFraction (candidate : Decimal) (fieldName : String) : PyResult Unit :=
  raiseIf (¬(0 < candidate ∧ candidate < 1)) .strategyContract
    [fieldName, " must lie strictly between 0 and 1; got ", .decimal candidate]

/-! ### Requirements -/

/-- One feature series a strategy needs, named the way the feature registry keys it. -/
structure FeatureRequirement where
  featureName : String
  featureVersion : ℤ
  deriving DecidableEq

def FeatureRequirement.postInit (self : FeatureRequirement) : PyResult Unit := do
  requireText self.featureName "feature_name"
  requirePositiveInt self.featureVersion "feature_version"

/-- The phrase every refusal names it by. -/
def FeatureRequirement.describe (self : FeatureRequirement) : String :=
  self.featureName ++ " v" ++ toString self.featureVersion

/-- The values of the features at one bar. -/
abbrev FeatureValues := Dict FeatureRequirement Decimal

def FeatureValues.has (values : FeatureValues) (requirement : FeatureRequirement) : Prop :=
  requirement ∈ values.keys

instance (values : FeatureValues) (requirement : FeatureRequirement) :
    Decidable (values.has requirement) :=
  inferInstanceAs (Decidable (requirement ∈ values.keys))

/-! ### The invalidation rule -/

/-- The adverse move that falsifies the thesis, fixed or scaled by a feature. -/
structure InvalidationRuleFields where
  adverseMoveFraction : Decimal
  scalingFeature : Option FeatureRequirement
  scalingMultiple : Decimal
  maximumAdverseMoveFraction : Option Decimal
  deriving DecidableEq

/-- A scaled distance is capped, at or above its floor. -/
def requireCap (self : InvalidationRuleFields) (scalingFeature : FeatureRequirement) : PyResult Unit :=
  match self.maximumAdverseMoveFraction with
  | none => raise .strategyContract
      [scalingFeature.describe, " scales the invalidation distance and no ",
        "maximum_adverse_move_fraction bounds it; the distance is the denominator of every position ",
        "sized from this strategy, and an unbounded one is an unbounded quantity"]
  | some maximum => do
    requireOpenUnitFraction maximum "maximum_adverse_move_fraction"
    raiseIf (maximum < self.adverseMoveFraction) .strategyContract
      ["maximum_adverse_move_fraction ", .decimal maximum, " is below the floor ",
        .decimal self.adverseMoveFraction, "; the bounds cross, so no distance satisfies both"]

/-- What a rule declares beside its floor, scaled or not. -/
def requireScaling (self : InvalidationRuleFields) : PyResult Unit :=
  match self.scalingFeature with
  | some scalingFeature => do
    raiseIf (self.scalingMultiple ≤ 0) .strategyContract
      ["scaling_multiple must be positive when ", scalingFeature.describe, " scales the distance; got ",
        .decimal self.scalingMultiple]
    requireCap self scalingFeature
  | none => do
    raiseIf (self.scalingMultiple ≠ 0) .strategyContract
      ["scaling_multiple is ", .decimal self.scalingMultiple, " and no scaling_feature is declared; a ",
        "multiple of nothing is a number that reads as a scaled stop and behaves as a fixed one"]
    raiseIf self.maximumAdverseMoveFraction.isSome .strategyContract
      ["maximum_adverse_move_fraction caps a scaled distance and no scaling_feature is declared; a ",
        "fixed fraction is already its own cap"]

def InvalidationRuleFields.postInit (self : InvalidationRuleFields) : PyResult Unit := do
  requireOpenUnitFraction self.adverseMoveFraction "adverse_move_fraction"
  requireScaling self

structure InvalidationRule extends InvalidationRuleFields where
  checked : toInvalidationRuleFields.postInit = .ok ()
  deriving DecidableEq

namespace InvalidationRule

variable (self : InvalidationRule)

/-- The scaled distance between its floor and its cap. -/
def clamp (scaled : Decimal) : Decimal :=
  if scaled < self.adverseMoveFraction then self.adverseMoveFraction
  else match self.maximumAdverseMoveFraction with
    | some maximum => if maximum < scaled then maximum else scaled
    | none => scaled

/-- The distance this rule produces given the values the decision was taken on. -/
def adverseMoveFractionFor (featureValues : FeatureValues) : PyResult Decimal :=
  match self.scalingFeature with
  | none => .ok self.adverseMoveFraction
  | some scalingFeature =>
    match featureValues.get? scalingFeature with
    | none => raise .strategyContract
        ["the invalidation distance scales off ", scalingFeature.describe, " and no value for it was ",
          "supplied; substituting the floor would size a position against a distance nobody declared"]
    | some observed =>
      if observed < 0 then raise .strategyContract
        [scalingFeature.describe, " reported ", .decimal observed, "; a scaling feature cannot be ",
          "negative, and the value would invert the stop through the entry price"]
      else .ok (self.clamp (self.scalingMultiple * observed))

/-- The level a distance away from the reference, snapped further away. -/
def snappedLevel (direction : Direction) (referenceQuotePrice distance : Decimal)
    (instrument : Instrument) : Decimal :=
  match direction with
  | .long => instrument.quantizeQuotePrice (referenceQuotePrice * (1 - distance)) .buy
  | _ => instrument.quantizeQuotePrice (referenceQuotePrice * (1 + distance)) .sell

/-- The price at which a thesis taken at the reference price is wrong. -/
def levelFor (direction : Direction) (referenceQuotePrice : Decimal) (instrument : Instrument)
    (featureValues : FeatureValues) : PyResult Decimal := do
  raiseIf (direction = .flat) .strategyContract
    ["a flat signal asserts nothing, so it has no invalidation level; Signal refuses one on a flat ",
      "direction for the same reason"]
  raiseIf (referenceQuotePrice ≤ 0) .strategyContract
    ["reference_quote_price must be positive; got ", .decimal referenceQuotePrice]
  let distance ← self.adverseMoveFractionFor featureValues
  let snapped := snappedLevel direction referenceQuotePrice distance instrument
  raiseIf (snapped ≤ 0) .strategyContract
    [instrument.symbol, " has a tick size of ", .decimal instrument.tickSize, ", which is coarser than ",
      "the whole invalidation distance at a reference price of ", .decimal referenceQuotePrice,
      "; the level snaps to ", .decimal snapped, " and the thesis cannot be expressed on this instrument"]
  return snapped

end InvalidationRule

/-! ### The specification -/

/-- A strategy declaration, before its constructor has checked it. The parameter space, which nothing
    here reads, is left to the search that mutates it. -/
structure StrategySpecFields where
  strategyId : String
  strategyVersion : ℤ
  thesis : String
  instruments : List Instrument
  barIntervals : List TimeDelta
  requiredFeatures : List FeatureRequirement
  warmUpBars : ℤ
  invalidation : InvalidationRule
  signalHorizon : TimeDelta
  deriving DecidableEq

/-- `timedelta`s as a message spells them, shortest first. -/
def spans (intervals : List TimeDelta) : Message := (sortBy id intervals).map Piece.span

namespace StrategySpecFields

variable (self : StrategySpecFields)

def describe : String := self.strategyId ++ " v" ++ toString self.strategyVersion

def symbols : List String := self.instruments.map fun instrument => instrument.symbol

def requireDeclaredInstruments : PyResult Unit := do
  raiseIf (self.instruments = []) .strategyContract
    [self.strategyId, " declares no instruments; the engine subscribes from this field, so a strategy ",
      "that names none is one that reads bars the backtest never gated"]
  raiseIf (¬ self.symbols.Nodup) .strategyContract
    [self.strategyId, " declares a duplicate instrument in ", .texts (sortBy id self.symbols)]

def requireDeclaredIntervals : PyResult Unit := do
  raiseIf (self.barIntervals = []) .strategyContract
    [self.strategyId, " declares no bar intervals; the interval is what turns warm_up_bars into a ",
      "duration, and a strategy that does not state it cannot have its embargo sized"]
  self.barIntervals.forM fun interval => requirePositiveDuration interval "bar_interval"
  raiseIf (¬ self.barIntervals.Nodup) .strategyContract
    (([self.strategyId, " declares a duplicate bar interval in "] : Message) ++ spans self.barIntervals)

def requireDistinctFeatures : PyResult Unit :=
  raiseIf (¬ self.requiredFeatures.Nodup) .strategyContract
    [self.strategyId, " requires the same feature twice: ",
      .texts (sortBy id (self.requiredFeatures.map FeatureRequirement.describe))]

def postInit : PyResult Unit := do
  requireText self.strategyId "strategy_id"
  requirePositiveInt self.strategyVersion "strategy_version"
  requireText self.thesis "thesis"
  raiseIf (self.thesis.length < 30) .strategyContract
    ["the thesis for ", self.strategyId, " is ", .count self.thesis.length, " characters and states ",
      "nothing falsifiable; say what is believed and what would disprove it"]
  requirePositiveInt self.warmUpBars "warm_up_bars"
  requirePositiveDuration self.signalHorizon "signal_horizon"
  self.requireDeclaredInstruments
  self.requireDeclaredIntervals
  self.requireDistinctFeatures

end StrategySpecFields

structure StrategySpec extends StrategySpecFields where
  checked : toStrategySpecFields.postInit = .ok ()
  deriving DecidableEq

namespace StrategySpec

variable (self : StrategySpec)

/-- Whether this strategy subscribed to the instrument. -/
def declares (instrument : Instrument) : Bool := instrument ∈ self.instruments

/-- Whether this strategy subscribed to bars of this length. -/
def declaresInterval (interval : TimeDelta) : Bool := interval ∈ self.barIntervals

theorem warmUpBars_pos : 1 ≤ self.warmUpBars := by
  have h := self.checked
  simp only [StrategySpecFields.postInit, requirePositiveInt, bind_eq_ok, raiseIf_eq_ok, not_lt] at h
  obtain ⟨_, _, _, _, _, _, _, _, _, hwarm, _⟩ := h
  exact hwarm

end StrategySpec

end FinanceKing.Strategies
