import FinanceKing.Risk.Drawdown

/-! The twelve kill-switch triggers, as pure evaluators of an observation record. The first three read
    the budgets the drawdown limits read and carry no threshold of their own. -/

namespace FinanceKing.Risk

open Lib

inductive TriggerId where
  | portfolioDrawdown
  | dailyLoss
  | rollingLoss
  | lossVelocity
  | reconciliationDivergence
  | orderRejectionRate
  | marketDataStaleness
  | clockSkew
  | unhandledException
  | hardCeilingBreach
  | auditWriteFailure
  | manual
  deriving DecidableEq

/-- The row of the table a trigger is listed under; evaluation follows these numbers. -/
def triggerOrdinals : TriggerId → ℕ
  | .portfolioDrawdown => 1
  | .dailyLoss => 2
  | .rollingLoss => 3
  | .lossVelocity => 4
  | .reconciliationDivergence => 5
  | .orderRejectionRate => 6
  | .marketDataStaleness => 7
  | .clockSkew => 8
  | .unhandledException => 9
  | .hardCeilingBreach => 10
  | .auditWriteFailure => 11
  | .manual => 12

/-- Not configurable: a window that can be lengthened is the daily limit again. -/
def lossVelocityWindow : TimeDelta := TimeDelta.ofMinutes 5

def rejectionSampleOrders : ℕ := 20

def reconciliationAttemptsBeforeTrip : ℤ := 2

def stalenessCalibrationWindow : TimeDelta := TimeDelta.ofMinutes (30 * 24 * 60)

def minimumGapObservations : ℕ := 100

def defaultPortfolioBudgets : DrawdownBudgets :=
  ⟨⟨.portfolio, 10 / 100, 3 / 100⟩, by decide +kernel⟩

def triggerHardCeilings : List (String × Ceiling) :=
  [("loss_velocity_ratio", ⟨25 / 1000⟩), ("order_rejection_ratio", ⟨50 / 100⟩),
    ("market_data_staleness_multiple", ⟨20⟩), ("clock_skew_seconds", ⟨5⟩)]

/-- Which trigger reports each drawdown-family limit. -/
def drawdownTriggerIds : List (LimitName × TriggerId) :=
  [(.drawdown, .portfolioDrawdown), (.dailyLoss, .dailyLoss), (.rollingLoss, .rollingLoss)]

inductive OrderOutcome where
  | accepted
  | rejected
  deriving DecidableEq

def grossNotionalCeilingName : String := "max_portfolio_notional_usd"

def positionCountCeilingName : String := "max_open_positions"

/-- What tripped the switch, its detail as the pieces of the text. -/
structure FiringTrigger where
  triggerId : TriggerId
  unit : String
  observedValue : Decimal
  thresholdValue : Decimal
  detail : Message
  deriving DecidableEq

/-! ### Thresholds and observations -/

structure TriggerThresholdsFields where
  portfolioBudgets : DrawdownBudgets := defaultPortfolioBudgets
  lossVelocityRatio : Decimal := 15 / 1000
  orderRejectionRatio : Decimal := 20 / 100
  marketDataStalenessMultiple : Decimal := 10
  clockSkewSeconds : Decimal := 1
  deriving DecidableEq

namespace TriggerThresholdsFields

variable (self : TriggerThresholdsFields)

def submitted : List (String × Decimal) :=
  [("loss_velocity_ratio", self.lossVelocityRatio), ("order_rejection_ratio", self.orderRejectionRatio),
    ("market_data_staleness_multiple", self.marketDataStalenessMultiple),
    ("clock_skew_seconds", self.clockSkewSeconds)]

def postInit : PyResult Unit := do
  raiseIf (self.portfolioBudgets.scope ≠ .portfolio) .triggerObservation
    ["the kill switch trips on portfolio-scope limits; got budgets scoped ",
      .quoted self.portfolioBudgets.scope.value, ". A strategy-scope breach suspends one strategy " ++
      "and is handled in `evolution`"]
  self.submitted.forM fun (name, value) =>
    raiseIf (value ≤ 0) .triggerObservation
      [name, " must be positive; got ", .decimal value, ". A threshold of zero fires " ++
        "continuously, which is indistinguishable from a broken trigger"]
  assertWithinCeilings (submittedLimits self.submitted) triggerHardCeilings "risk.triggers"

end TriggerThresholdsFields

/-- What each trigger compares against, every field bounded in the dangerous direction. -/
structure TriggerThresholds extends TriggerThresholdsFields where
  checked : toTriggerThresholdsFields.postInit = .ok ()
  deriving DecidableEq

def defaultThresholds : TriggerThresholds := ⟨{}, by decide +kernel⟩

/-- The exact interval in seconds. -/
def secondsBetween (earlier later : DateTime) : Decimal := ((later - earlier : ℤ) : ℚ) / 1000000

structure SymbolStalenessFields where
  symbol : String
  lastTickAtUtc : DateTime
  p99InterTickGapSeconds : Decimal
  hasOpenPosition : Bool
  deriving DecidableEq

def SymbolStalenessFields.postInit (self : SymbolStalenessFields) : PyResult Unit := do
  raiseIf (strip self.symbol = []) .triggerObservation ["symbol must not be blank"]
  raiseIf (self.p99InterTickGapSeconds ≤ 0) .triggerObservation
    [self.symbol, " reports a p99 inter-tick gap of ", .decimal self.p99InterTickGapSeconds,
      "s; a non-positive gap makes every staleness comparison fire"]

/-- One symbol's freshness, against its own measured inter-tick behaviour. -/
structure SymbolStaleness extends SymbolStalenessFields where
  checked : toSymbolStalenessFields.postInit = .ok ()
  deriving DecidableEq

def SymbolStaleness.ageSeconds (self : SymbolStaleness) (asOfUtc : DateTime) : Decimal :=
  secondsBetween self.lastTickAtUtc asOfUtc

structure TriggerObservationsFields where
  correlationId : Uuid
  observedAtUtc : DateTime
  drawdownState : DrawdownState
  reconciliationDivergenceAttempts : ℤ := 0
  reconciliationDivergenceIsBeyondDust : Bool := false
  recentOrderOutcomes : List OrderOutcome := []
  symbolStaleness : List SymbolStaleness := []
  clockSkewSeconds : Decimal := 0
  unhandledExceptionModule : Option String := none
  grossExposureUsd : Decimal := 0
  openPositionCount : ℤ := 0
  auditWriteFailed : Bool := false
  manualTripReason : Option String := none
  deriving DecidableEq

def TriggerObservationsFields.requireNonNegative (candidate : ℤ) (fieldName : String) : PyResult Unit :=
  raiseIf (candidate < 0) .triggerObservation [fieldName, " must not be negative; got ", .count candidate]

def TriggerObservationsFields.postInit (self : TriggerObservationsFields) : PyResult Unit := do
  raiseIf (self.drawdownState.scope ≠ .portfolio) .triggerObservation
    ["the kill switch trips on portfolio-scope state; got ", .quoted self.drawdownState.scope.value]
  raiseIf (self.observedAtUtc < self.drawdownState.observedAtUtc) .triggerObservation
    ["drawdown state is stamped ", .instant self.drawdownState.observedAtUtc,
      ", after the observation instant ", .instant self.observedAtUtc, "; a trigger evaluated " ++
      "against a future state is not replayable"]
  requireNonNegative self.reconciliationDivergenceAttempts "reconciliation_divergence_attempts"
  requireNonNegative self.openPositionCount "open_position_count"
  raiseIf (self.grossExposureUsd < 0) .triggerObservation
    ["gross_exposure_usd is the absolute notional across the book and must not be negative; got ",
      .decimal self.grossExposureUsd]
  self.symbolStaleness.forM fun staleness =>
    raiseIf (self.observedAtUtc < staleness.lastTickAtUtc) .triggerObservation
      [staleness.symbol, " reports a tick at ", .instant staleness.lastTickAtUtc,
        ", after the observation instant; a negative age reads as perfectly fresh"]
  raiseIf (self.unhandledExceptionModule = some "") .triggerObservation
    ["unhandled_exception_module must name a module"]
  raiseIf (self.manualTripReason.any fun reason => strip reason = []) .triggerObservation
    ["a manual trip carries a reason; an empty one is a trip nobody can review afterwards"]

/-- Everything the twelve triggers are evaluated against, measured by the caller. -/
structure TriggerObservations extends TriggerObservationsFields where
  checked : toTriggerObservationsFields.postInit = .ok ()
  deriving DecidableEq

/-- Every trigger that fired at one instant, in table order. -/
structure TriggerEvaluation where
  correlationId : Uuid
  observedAtUtc : DateTime
  firing : List FiringTrigger
  deriving DecidableEq

def TriggerEvaluation.shouldTrip (self : TriggerEvaluation) : Bool := !self.firing.isEmpty

/-- The lowest-numbered firing trigger. -/
def TriggerEvaluation.primary (self : TriggerEvaluation) : Option FiringTrigger := self.firing.head?

/-! ### Measurements -/

/-- `itertools.pairwise`. -/
def pairwise {α : Type} (l : List α) : List (α × α) := l.zip l.tail

/-- The 99th-percentile inter-tick gap over the trailing window, by nearest rank. -/
def deriveP99InterTickGapSeconds (tickTimesUtc : List DateTime) (asOfUtc : DateTime)
    (window : TimeDelta) : PyResult Decimal := do
  raiseIf (window ≤ 0) .triggerObservation ["window must be positive; got ", .span window]
  (pairwise tickTimesUtc).forM fun (previous, tick) =>
    raiseIf (tick ≤ previous) .triggerObservation
      ["tick_times_utc must ascend strictly; ", .instant tick, " does not follow ", .instant previous]
  let horizon := asOfUtc - window
  let considered := tickTimesUtc.filter fun tick => horizon ≤ tick
  let gaps := sortBy (fun gap => gap)
    ((pairwise considered).map fun (earlier, later) => secondsBetween earlier later)
  raiseIf (gaps.length < minimumGapObservations) .triggerObservation
    ["a 99th percentile needs at least ", .count minimumGapObservations, " gaps in the trailing ",
      .count (window / TimeDelta.ofMinutes (24 * 60)), " days; got ", .count gaps.length,
      ". A percentile from a short sample is the sample maximum wearing a percentile's name"]
  -- `-(-99 * n // 100)` is the ceiling of 99% of the sample
  match gaps[(99 * gaps.length + 99) / 100 - 1]? with
  | some gap => return gap
  | none => raise .indexError ["tuple index out of range"]

theorem isChain_iff_forall_pairwise {α : Type} {R : α → α → Prop} : ∀ {l : List α},
    l.IsChain R ↔ ∀ pair ∈ pairwise l, R pair.1 pair.2
  | [] => by simp [pairwise]
  | [a] => by simp [pairwise]
  | a :: b :: l => by
    have hpairs : pairwise (a :: b :: l) = (a, b) :: pairwise (b :: l) := rfl
    rw [List.isChain_cons_cons, isChain_iff_forall_pairwise, hpairs, List.forall_mem_cons]

/-- A derived gap is one a symbol's freshness accepts. -/
theorem deriveP99InterTickGapSeconds_pos {tickTimesUtc : List DateTime} {asOfUtc : DateTime}
    {window : TimeDelta} {gap : Decimal}
    (h : deriveP99InterTickGapSeconds tickTimesUtc asOfUtc window = .ok gap) : 0 < gap := by
  simp only [deriveP99InterTickGapSeconds, bind_eq_ok] at h
  obtain ⟨_, _, ⟨⟩, hticks, _, _, hgap⟩ := h
  have hascend : ∀ pair ∈ pairwise tickTimesUtc, pair.1 < pair.2 := fun pair hpair =>
    not_le.mp (raiseIf_eq_ok.mp (forM_eq_ok.mp hticks pair hpair))
  have hordered : tickTimesUtc.Pairwise (fun a b => a < b) :=
    (isChain_iff_forall_pairwise.mpr hascend).pairwise
  split at hgap
  case h_2 => cases hgap
  case h_1 found hfound =>
    obtain rfl := Except.ok.inj hgap
    have hmem := (mem_sortBy _).mp (List.mem_of_getElem? hfound)
    obtain ⟨⟨earlier, later⟩, hpair, rfl⟩ := List.mem_map.mp hmem
    have hkept := (hordered.filter fun tick => asOfUtc - window ≤ tick).isChain
    have hlt : earlier < later := isChain_iff_forall_pairwise.mp hkept _ hpair
    have hdiff : (0 : ℚ) < ((later - earlier : ℤ) : ℚ) := Int.cast_pos.mpr (sub_pos.mpr hlt)
    rw [secondsBetween]
    positivity

/-- Loss from the highest equity inside `window`, as a fraction of that high. -/
def lossVelocityRatio (state : DrawdownState) (window : TimeDelta) : PyResult Decimal := do
  raiseIf (window ≤ 0) .triggerObservation ["window must be positive; got ", .span window]
  let horizon := state.observedAtUtc - window
  let inside := (state.rollingMarks.filter fun mark => horizon ≤ mark.observedAtUtc).map
    fun mark => mark.equityUsd
  let windowHigh := inside.foldr max state.currentEquityUsd
  return max 0 ((windowHigh - state.currentEquityUsd) / windowHigh)

/-! ### The triggers -/

/-- Triggers 1-3, read off the same state the drawdown limits are evaluated against. -/
def drawdownTriggers (observations : TriggerObservations) (thresholds : TriggerThresholds) :
    List FiringTrigger :=
  let budgets := thresholds.portfolioBudgets
  drawdownTriggerIds.filterMap fun (limitName, triggerId) =>
    let observed := observations.drawdownState.observedRatioFor limitName
    let budget := budgets.budgetFor limitName
    if budget ≤ observed then
      some
        { triggerId := triggerId
          unit := "fraction"
          observedValue := observed
          thresholdValue := budget
          detail := ["portfolio ", limitName.value, " reached ", .decimal observed,
            " against a budget of ", .decimal budget, " at ",
            .instant observations.drawdownState.observedAtUtc] }
    else
      none

/-- Trigger 4, independent of the daily budget. -/
def lossVelocityTrigger (observations : TriggerObservations) (thresholds : TriggerThresholds) :
    PyResult (Option FiringTrigger) := do
  let observed ← lossVelocityRatio observations.drawdownState lossVelocityWindow
  if observed < thresholds.lossVelocityRatio then
    return none
  else
    return some
      { triggerId := .lossVelocity
        unit := "fraction"
        observedValue := observed
        thresholdValue := thresholds.lossVelocityRatio
        detail := ["equity fell ", .decimal observed, " of its ",
          .count (lossVelocityWindow / TimeDelta.ofMinutes 1), "-minute high against a velocity " ++
          "threshold of ", .decimal thresholds.lossVelocityRatio,
          ", independently of the daily budget"] }

/-- Trigger 5: a divergence that survived the retries. -/
def reconciliationTrigger (observations : TriggerObservations) : Option FiringTrigger :=
  let attempts := observations.reconciliationDivergenceAttempts
  if !observations.reconciliationDivergenceIsBeyondDust then none
  else if attempts < reconciliationAttemptsBeforeTrip then none
  else
    some
      { triggerId := .reconciliationDivergence
        unit := "attempts"
        observedValue := attempts
        thresholdValue := reconciliationAttemptsBeforeTrip
        detail := ["a reconciliation divergence beyond dust tolerance persisted through ",
          .count attempts, " attempts; the local position record is not what the venue holds"] }

/-- Trigger 6, over exactly the last orders of the sample. -/
def rejectionRateTrigger (observations : TriggerObservations) (thresholds : TriggerThresholds) :
    Option FiringTrigger :=
  let outcomes := observations.recentOrderOutcomes
  let sample := outcomes.drop (outcomes.length - rejectionSampleOrders)
  let rejected := sample.countP fun outcome => outcome = .rejected
  let observed : Decimal := rejected / sample.length
  if sample.length < rejectionSampleOrders then none
  else if observed ≤ thresholds.orderRejectionRatio then none
  else
    some
      { triggerId := .orderRejectionRate
        unit := "fraction"
        observedValue := observed
        thresholdValue := thresholds.orderRejectionRatio
        detail := [.count rejected, " of the last ", .count sample.length, " orders were rejected; " ++
          "the venue's filters, minimum notionals or margin requirements are not what sizing " ++
          "believes them to be"] }

/-- Trigger 7, once per stale symbol that carries an open position. -/
def stalenessTriggers (observations : TriggerObservations) (thresholds : TriggerThresholds) :
    List FiringTrigger :=
  observations.symbolStaleness.filterMap fun staleness =>
    let threshold := staleness.p99InterTickGapSeconds * thresholds.marketDataStalenessMultiple
    let age := staleness.ageSeconds observations.observedAtUtc
    if !staleness.hasOpenPosition then none
    else if age ≤ threshold then none
    else
      some
        { triggerId := .marketDataStaleness
          unit := "seconds"
          observedValue := age
          thresholdValue := threshold
          detail := [staleness.symbol, " has an open position and its last tick is ", .decimal age,
            "s old, past ", .decimal thresholds.marketDataStalenessMultiple,
            "x its measured p99 inter-tick gap of ", .decimal staleness.p99InterTickGapSeconds, "s"] }

/-- Trigger 8, compared on magnitude. -/
def clockSkewTrigger (observations : TriggerObservations) (thresholds : TriggerThresholds) :
    Option FiringTrigger :=
  let observed := |observations.clockSkewSeconds|
  if observed ≤ thresholds.clockSkewSeconds then none
  else
    some
      { triggerId := .clockSkew
        unit := "seconds"
        observedValue := observed
        thresholdValue := thresholds.clockSkewSeconds
        detail := ["local time differs from exchange server time by ", .decimal observed, "s; every " ++
          "timestamp this process stamps on an order, a fill or an audit row is wrong by that much"] }

/-- Trigger 9. -/
def unhandledExceptionTrigger (observations : TriggerObservations) : Option FiringTrigger :=
  observations.unhandledExceptionModule.map fun name =>
    { triggerId := .unhandledException
      unit := "count"
      observedValue := 1
      thresholdValue := 1
      detail := ["an unhandled exception escaped ", name, "; the process is in the least " ++
        "understood state it can reach and its position record cannot be trusted"] }

/-- `HARD_CEILINGS[name]`. -/
def hardCeilingNamed (name : String) : PyResult Ceiling :=
  match hardCeilings.lookup name with
  | some ceiling => .ok ceiling
  | none => raise .keyError [.quoted name]

/-- Trigger 10: both ceilings are reported rather than the first. -/
def hardCeilingTriggers (observations : TriggerObservations) : PyResult (List FiringTrigger) := do
  let notionalCeiling ← hardCeilingNamed grossNotionalCeilingName
  let overNotional : List FiringTrigger :=
    if notionalCeiling.isExceededBy observations.grossExposureUsd then
      [{ triggerId := .hardCeilingBreach
         unit := "usd"
         observedValue := observations.grossExposureUsd
         thresholdValue := notionalCeiling.bound
         detail := ["gross exposure ", .decimal observations.grossExposureUsd, " USD is above the " ++
          "compiled hard ceiling ", .decimal notionalCeiling.bound, "; order construction is " ++
          "supposed to make this unreachable"] }]
    else
      []
  let countCeiling ← hardCeilingNamed positionCountCeilingName
  let observedCount : Decimal := observations.openPositionCount
  let overCount : List FiringTrigger :=
    if countCeiling.isExceededBy observedCount then
      [{ triggerId := .hardCeilingBreach
         unit := "count"
         observedValue := observedCount
         thresholdValue := countCeiling.bound
         detail := [.count observations.openPositionCount, " open positions is above the compiled " ++
          "hard ceiling ", .decimal countCeiling.bound, "; order construction is supposed to make " ++
          "this unreachable"] }]
    else
      []
  return overNotional ++ overCount

/-- Trigger 11: the audit log is a precondition for trading. -/
def auditWriteTrigger (observations : TriggerObservations) : Option FiringTrigger :=
  if observations.auditWriteFailed then
    some
      { triggerId := .auditWriteFailure
        unit := "count"
        observedValue := 1
        thresholdValue := 1
        detail := ["an audit write failed; a trade taken from here is permanently " ++
          "unreconstructable, not merely harder to reconstruct"] }
  else
    none

/-- Trigger 12. A person decided, and the row says why. -/
def manualTrigger (observations : TriggerObservations) : Option FiringTrigger :=
  observations.manualTripReason.map fun reason =>
    { triggerId := .manual
      unit := "count"
      observedValue := 1
      thresholdValue := 1
      detail := ["manual trip requested: ", String.ofList (strip reason)] }

/-- Every trigger that fires against the observations, in table order. -/
def evaluateTriggers (observations : TriggerObservations) (thresholds : Option TriggerThresholds) :
    PyResult TriggerEvaluation := do
  let applied := thresholds.getD defaultThresholds
  let velocity ← lossVelocityTrigger observations applied
  let ceilings ← hardCeilingTriggers observations
  return {
    correlationId := observations.correlationId
    observedAtUtc := observations.observedAtUtc
    firing := drawdownTriggers observations applied ++ velocity.toList ++
      (reconciliationTrigger observations).toList ++ (rejectionRateTrigger observations applied).toList ++
      stalenessTriggers observations applied ++ (clockSkewTrigger observations applied).toList ++
      (unhandledExceptionTrigger observations).toList ++ ceilings ++
      (auditWriteTrigger observations).toList ++ (manualTrigger observations).toList }

end FinanceKing.Risk
