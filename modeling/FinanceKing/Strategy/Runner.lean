import FinanceKing.Strategy.Spec

/-! Driving a strategy one bar at a time. The runner refuses a bar the specification did not declare,
    suppresses the warm-up, withholds the evaluation when a feature is unavailable, and checks the signal
    against the specification that produced it. -/

namespace FinanceKing.Strategies

open Lib

/-! ### Signals -/

structure SignalFields where
  strategyId : String
  instrument : Instrument
  direction : Direction
  conviction : Decimal
  horizon : TimeDelta
  invalidationQuotePrice : Option Decimal
  rationale : String
  decidedAtUtc : DateTime
  deriving DecidableEq

/-- A directional signal states the level that would prove it wrong; a flat one states none. -/
def SignalFields.requireInvalidation (self : SignalFields) : PyResult Unit :=
  match self.direction, self.invalidationQuotePrice with
  | .flat, some level => raise .domainError
      [self.strategyId, " emitted a flat signal carrying an invalidation level of ", .decimal level,
        "; flat asserts nothing to invalidate"]
  | .flat, none => .ok ()
  | direction, none => raise .domainError
      [self.strategyId, " emitted a ", direction.value, " signal on ", self.instrument.symbol,
        " with no invalidation level; a strategy that cannot state what would prove it wrong has no thesis"]
  | _, some level => requirePositiveDecimal level "invalidation_quote_price"

def SignalFields.postInit (self : SignalFields) : PyResult Unit := do
  FinanceKing.requireText self.strategyId "strategy_id"
  requireFraction self.conviction "conviction"
  FinanceKing.requirePositiveDuration self.horizon "horizon"
  FinanceKing.requireText self.rationale "rationale"
  self.requireInvalidation

/-- A strategy's belief about one instrument at one instant. -/
structure Signal extends SignalFields where
  checked : toSignalFields.postInit = .ok ()
  deriving DecidableEq

/-! ### State -/

/-- Everything `evaluate` may read besides the bar it is handed, before it has been checked. -/
structure StrategyStateFields where
  barsConsumed : ℤ
  recentBars : List Bar
  featureValues : FeatureValues
  seed : ℤ
  deriving DecidableEq

/-- Each bar opens after the one before it. -/
def requireAscending : List Bar → PyResult Unit
  | [] => .ok ()
  | [_] => .ok ()
  | previous :: observed :: bars => do
    raiseIf (observed.openTimeUtc ≤ previous.openTimeUtc) .strategyContract
      ["recent_bars must ascend strictly by open_time_utc; ", .instant observed.openTimeUtc,
        " does not follow ", .instant previous.openTimeUtc]
    requireAscending (observed :: bars)

def StrategyStateFields.postInit (self : StrategyStateFields) : PyResult Unit := do
  raiseIf (self.barsConsumed < 0) .strategyContract
    ["bars_consumed must not be negative; got ", .count self.barsConsumed]
  requireAscending self.recentBars

structure StrategyState extends StrategyStateFields where
  checked : toStrategyStateFields.postInit = .ok ()
  deriving DecidableEq

namespace StrategyState

variable (self : StrategyState)

/-- The last `windowBars` of the bars. -/
def lastBars (bars : List Bar) (windowBars : ℤ) : List Bar :=
  if 0 < windowBars then bars.drop (bars.length - windowBars.toNat) else []

/-- The state after consuming a bar. -/
def advancedWith (observed : Bar) (featureValues : FeatureValues) (windowBars : ℤ) :
    PyResult StrategyState :=
  construct StrategyStateFields.postInit StrategyState.mk
    { self.toStrategyStateFields with
      barsConsumed := self.barsConsumed + 1
      recentBars := lastBars (self.recentBars ++ [observed]) windowBars
      featureValues := featureValues }

end StrategyState

/-- The state a run starts from. -/
def initialState (seed : ℤ) : StrategyState := ⟨⟨0, [], Dict.empty, seed⟩, rfl⟩

/-- A specification and one pure function. -/
structure Strategy where
  spec : StrategySpec
  evaluate : StrategyState → Bar → DateTime → Option Signal

/-- One bar's outcome. -/
structure StrategyStep where
  state : StrategyState
  signal : Option Signal
  unavailableFeatures : List FeatureRequirement

/-! ### Refusals -/

section Refusals

variable (spec : StrategySpec)

def requireDeclaredObservation (bar : Bar) (asOf : DateTime) (state : StrategyState) : PyResult Unit := do
  raiseIf (¬ spec.declares bar.instrument) .observationRefused
    [spec.describe, " was handed a ", bar.instrument.symbol, " bar and declares ",
      .texts (sortBy id spec.symbols), "; a bar the spec did not name is data the backtest never gated"]
  let interval := bar.closeTimeUtc - bar.openTimeUtc
  raiseIf (¬ spec.declaresInterval interval) .observationRefused
    (([spec.describe, " was handed a ", .span interval, " bar and declares "] : Message) ++
      spans spec.barIntervals ++
      (["; warm_up_bars is only a duration against a declared interval, so an undeclared one makes the ",
        "embargo unsizable"] : Message))
  raiseIf (asOf < bar.closeTimeUtc) .observationRefused
    [spec.describe, " was handed a bar closing at ", .instant bar.closeTimeUtc, " while the clock reads ",
      .instant asOf, "; the bar has not finished, and a value read from it is look-ahead that produces a ",
      "plausible equity curve rather than an error"]
  raiseIf (∃ last ∈ state.recentBars.getLast?, bar.openTimeUtc ≤ last.openTimeUtc) .observationRefused
    [spec.describe, " was handed a bar opening at ", .instant bar.openTimeUtc, " after one opening at ",
      .instant (state.recentBars.getLast?.elim 0 fun last => last.openTimeUtc),
      "; the series went backwards"]

/-- The requirements of a list that fail a test, as a refusal names them. -/
def named (requirements : List FeatureRequirement) : Piece :=
  .texts (sortBy id (requirements.map FeatureRequirement.describe))

def requireKnownRequirements (featureValues : FeatureValues) : PyResult Unit :=
  let undeclared := featureValues.keys.filter fun requirement => requirement ∉ spec.requiredFeatures
  raiseIf (undeclared ≠ []) .observationRefused
    [spec.describe, " was handed values for ", named undeclared, ", which it does not declare; an ",
      "undeclared input is one no availability check gated"]

def requireDeclarableUnavailability (featureValues : FeatureValues)
    (unavailableFeatures : List FeatureRequirement) : PyResult Unit := do
  let undeclared := unavailableFeatures.filter fun requirement => requirement ∉ spec.requiredFeatures
  raiseIf (undeclared ≠ []) .observationRefused
    [spec.describe, " was told ", named undeclared, " are unavailable, and it never declared them; an ",
      "unavailability for a feature nobody asked for is a caller confusing two strategies' requirements"]
  let contradicted := unavailableFeatures.filter fun requirement => featureValues.has requirement
  raiseIf (contradicted ≠ []) .observationRefused
    [spec.describe, " was handed values for ", named contradicted, " and told the same features are ",
      "unavailable. Those cannot both hold, and the reading that wins by default is the substituted value"]

def requireEveryDeclaredFeature (featureValues : FeatureValues) : PyResult Unit :=
  let missing := spec.requiredFeatures.filter fun requirement => ¬ featureValues.has requirement
  raiseIf (missing ≠ []) .observationRefused
    [spec.describe, " declares ", named missing, " and was handed no value for them after its ",
      .count spec.warmUpBars, "-bar warm-up. Registration validates that the warm-up covers every ",
      "required feature's lookback, so an absent value here is the engine failing to subscribe rather ",
      "than the series being short"]

/-- The emitted level must be the one the declared rule produces. -/
def requireDeclaredInvalidation (signal : Signal) (bar : Bar) (featureValues : FeatureValues) :
    PyResult Unit :=
  if signal.direction = .flat then .ok ()
  else do
    let expected ← spec.invalidation.levelFor signal.direction bar.closeQuotePrice bar.instrument
      featureValues
    raiseIf (signal.invalidationQuotePrice ≠ some expected) .signalRefused
      [spec.describe, " emitted an invalidation level of ",
        .decimal (signal.invalidationQuotePrice.getD 0), " on a ", signal.direction.value,
        " signal; its declared rule applied to the bar close of ", .decimal bar.closeQuotePrice,
        " yields ", .decimal expected, ". The level is the denominator of every position sized from ",
        "this signal, so an undeclared one is strategy-side sizing with extra steps"]

def requireSignalMatchesSpec (signal : Signal) (bar : Bar) (asOf : DateTime)
    (featureValues : FeatureValues) : PyResult Unit := do
  raiseIf (signal.strategyId ≠ spec.strategyId) .signalRefused
    [spec.describe, " emitted a signal attributed to ", .quoted signal.strategyId,
      "; the survival score, the lineage edge and the audit row all key on that id"]
  raiseIf (signal.instrument ≠ bar.instrument) .signalRefused
    [spec.describe, " decided on a ", bar.instrument.symbol, " bar and emitted a signal on ",
      signal.instrument.symbol]
  raiseIf (signal.decidedAtUtc ≠ asOf) .signalRefused
    [spec.describe, " stamped a signal at ", .instant signal.decidedAtUtc, " while the injected clock ",
      "read ", .instant asOf, "; a decision time that is not the injected instant means a second clock ",
      "exists somewhere"]
  raiseIf (signal.horizon ≠ spec.signalHorizon) .signalRefused
    [spec.describe, " declares a horizon of ", .span spec.signalHorizon, " and emitted ",
      .span signal.horizon, "; the horizon sizes the walk-forward embargo and the label"]
  requireDeclaredInvalidation spec signal bar featureValues

end Refusals

/-! ### One bar -/

/-- What the caller hands over with a bar: the features' values, and those it declares unavailable. -/
structure Supply where
  featureValues : FeatureValues
  unavailableFeatures : List FeatureRequirement

/-- What a state that has warmed up decides: nothing while a required feature is withheld. -/
def decideSignal (strategy : Strategy) (advanced : StrategyState) (bar : Bar) (asOf : DateTime)
    (supply : Supply) : PyResult StrategyStep := do
  let blocking := strategy.spec.requiredFeatures.filter fun requirement =>
    requirement ∈ supply.unavailableFeatures
  if blocking ≠ [] then return ⟨advanced, none, blocking⟩
  requireEveryDeclaredFeature strategy.spec supply.featureValues
  let signal := strategy.evaluate advanced bar asOf
  signal.toList.forM fun emitted =>
    requireSignalMatchesSpec strategy.spec emitted bar asOf supply.featureValues
  return ⟨advanced, signal, []⟩

/-- Consume a bar and return the new state with whatever belief it produced. -/
def step (strategy : Strategy) (state : StrategyState) (bar : Bar) (asOf : DateTime) (supply : Supply) :
    PyResult StrategyStep := do
  requireDeclaredObservation strategy.spec bar asOf state
  requireKnownRequirements strategy.spec supply.featureValues
  requireDeclarableUnavailability strategy.spec supply.featureValues supply.unavailableFeatures
  let advanced ← state.advancedWith bar supply.featureValues (strategy.spec.warmUpBars + 1)
  if advanced.barsConsumed < strategy.spec.warmUpBars then return ⟨advanced, none, []⟩
  decideSignal strategy advanced bar asOf supply

/-- The bars of a run one after another, each at its own close. -/
def run (strategy : Strategy) (supply : Bar → Supply) : StrategyState → List Bar → PyResult StrategyState
  | state, [] => .ok state
  | state, bar :: bars => do
    let outcome ← step strategy state bar bar.closeTimeUtc (supply bar)
    run strategy supply outcome.state bars

end FinanceKing.Strategies
