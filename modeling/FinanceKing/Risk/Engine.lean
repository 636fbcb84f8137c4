import FinanceKing.Risk.EngineState

/-! `RiskEngine.decide`: the only path from signals to orders. The kill switch is checked first, every signal
    is sized on its own, requests are netted per instrument, and the prospective book is assessed whole. A
    breach is a returned refusal with an audit row; only malformed input raises. -/

namespace FinanceKing.Risk

open Lib Strategies

/-- The limits in force, the held kill-switch state, and the digests an order's identity is made of: the
    name-based id and the hexadecimal digits of its material. -/
structure RiskEngine where
  policy : RiskPolicy
  gate : KillSwitchState
  digests : OrderMaterial → Uuid × String

namespace RiskEngine

variable (engine : RiskEngine)

/-! ### The batch-wide halts -/

/-- Refuse the whole batch for one portfolio-wide cause, with a row per signal. -/
def refuseBatch (signals : List Signal) (decidedAtUtc : DateTime) (correlationId : Uuid)
    (stagesExecuted : List Stage) (stage : Stage) (reason : Message) (bindingLimitName : String)
    (portfolioDrawdown : Option LimitVerdict) : DecisionBatch :=
  let rejection : Rejection := ⟨reason, bindingLimitName, decidedAtUtc⟩
  { correlationId := correlationId
    decidedAtUtc := decidedAtUtc
    outcomes := signals.map fun _ => .rejection rejection
    plans := []
    audits := signals.map fun signal =>
      { strategyId := signal.strategyId
        instrument := signal.instrument
        direction := signal.direction
        decidedAtUtc := decidedAtUtc
        verdict := .rejected
        stage := stage
        rejection := some rejection
        portfolioDrawdown := portfolioDrawdown
        portfolioDrawdownBudgets := some engine.policy.portfolioDrawdownBudgets }
    stagesExecuted := stagesExecuted }

/-- Every signal refused, with no sizing and no covariance work performed. -/
def haltedBatch (signals : List Signal) (decidedAtUtc : DateTime) (correlationId : Uuid)
    (haltedReason : Message) : DecisionBatch :=
  engine.refuseBatch signals decidedAtUtc correlationId [.killSwitch] .killSwitch haltedReason "kill_switch"
    none

/-- A drawdown verdict, for a subject that has drawdown state. -/
def evaluated (state : Option DrawdownState) (budgets : DrawdownBudgets) : PyResult (Option LimitVerdict) :=
  match state with
  | none => .ok none
  | some state => some <$> evaluate state budgets

/-- Why the whole batch must be refused before any signal is looked at. -/
def portfolioHaltReason (portfolioState : PortfolioState) (marketState : MarketState)
    (verdict : Option LimitVerdict) : Option (Message × String) :=
  let held := portfolioState.portfolio.openPositions
  let unpriced := sortBy id ((held.filter fun position =>
    (marketState.instruments.get? position.instrument).isNone).map fun position => position.instrument.symbol)
  let uncovered := sortBy id ((held.map fun position => position.instrument.symbol).dedup.filter fun symbol =>
    symbol ∉ marketState.riskModel.symbols)
  if unpriced ≠ [] then some
    ([.texts unpriced, " are held and carry no market state; exposure cannot be priced and must not be " ++
      "assumed zero"], "market_state_present")
  else if uncovered ≠ [] then some
    ([.texts uncovered, " are held and lie outside the estimated risk universe; the position nobody has " ++
      "an estimate for is the one most likely to be the problem"], "risk_model_coverage")
  else if portfolioState.equityUsd ≤ 0 then some
    (["portfolio equity is ", .decimal portfolioState.equityUsd, "; every limit here is a fraction of " ++
      "equity and none of them is defined against a non-positive one"], "equity_usd")
  else if portfolioState.drawdownState = none ∧ held ≠ [] then some
    (["the portfolio holds open positions and carries no drawdown state; a high-water mark that was lost " ++
      "is a drawdown limit that silently never binds"], "drawdown_state_present")
  else
    match verdict.bind fun verdict => verdict.breach with
    | none => none
    | some breach => some
        (["portfolio ", breach.limitName.value, " is ", .decimal breach.observedRatio, " against a budget of ",
          .decimal breach.budgetRatio, "; the halt is latched and recovery does not retract the evidence"],
          "portfolio_" ++ breach.limitName.value)

/-! ### Admission and sizing -/

/-- What the sizing loop carries from signal to signal. -/
structure SizingLoop where
  admitted : List Admitted
  audits : List SignalAudit
  refusals : List Rejection
  seen : List (String × Instrument)
  remainingToClose : Dict Instrument Decimal

/-- The audit row of a signal refused before netting. -/
def plainAudit (signal : Signal) (decidedAtUtc : DateTime) (stage : Stage) (rejection : Rejection)
    (portfolioDrawdown : Option LimitVerdict) (strategyDrawdown : Option LimitVerdict := none)
    (conviction : Option ConvictionAssessment := none) (exposure : Option ExposureAssessment := none)
    (sizing : Option PositionSizing := none) : SignalAudit where
  strategyId := signal.strategyId
  instrument := signal.instrument
  direction := signal.direction
  decidedAtUtc := decidedAtUtc
  verdict := .rejected
  stage := stage
  rejection := some rejection
  conviction := conviction
  exposure := exposure
  sizing := sizing
  portfolioDrawdown := portfolioDrawdown
  strategyDrawdown := strategyDrawdown
  portfolioDrawdownBudgets := some engine.policy.portfolioDrawdownBudgets
  strategyDrawdownBudgets := some engine.policy.strategyDrawdownBudgets

/-- Why a signal cannot be evaluated at all. -/
def admissionRefusal (signal : Signal) (seen : List (String × Instrument)) (portfolioState : PortfolioState)
    (marketState : MarketState) (decidedAtUtc : DateTime) : Option (Message × String) :=
  if (signal.strategyId, signal.instrument) ∈ seen then some
    ([signal.strategyId, " emitted two signals on ", signal.instrument.symbol, " in one batch; two opinions " ++
      "from one strategy cannot be attributed to one slice of a net order"], "duplicate_signal")
  else if decidedAtUtc < signal.decidedAtUtc then some
    ([signal.strategyId, " decided at ", .instant signal.decidedAtUtc, ", after the risk decision at ",
      .instant decidedAtUtc, "; a signal from the future is look-ahead reaching the order path"],
      "signal_not_from_the_future")
  else if (portfolioState.strategies.get? signal.strategyId).isNone then some
    (["no strategy record for ", signal.strategyId, "; a signal with no calibration map and no realised " ++
      "distribution cannot be sized, and defaulting one would size it off somebody else's record"],
      "strategy_record_present")
  else if (marketState.instruments.get? signal.instrument).isNone then some
    (["no market state for ", signal.instrument.venue.value, ":", signal.instrument.symbol, "; a position " ++
      "cannot be sized against a price the system does not have"], "market_state_present")
  else if signal.instrument.symbol ∉ marketState.riskModel.symbols then some
    ([signal.instrument.symbol, " is outside the estimated risk universe ",
      .texts marketState.riskModel.symbols, "; its risk contribution cannot be computed and must not be " ++
      "assumed zero"], "risk_model_coverage")
  else none

/-- A flat signal's contribution: whatever of the position is still open. -/
def flattenRequest (signal : Signal) (market : InstrumentMarketState) (exposure : ExposureAssessment)
    (portfolio : Portfolio) (remainingToClose : Dict Instrument Decimal)
    (strategyDrawdown : Option LimitVerdict) : PyResult (Admitted × Dict Instrument Decimal) := do
  let openQuantity := (remainingToClose.get? signal.instrument).getD
    ((portfolio.positionFor signal.instrument).elim 0 fun position => position.signedBaseQuantity)
  let request ← strategyRequest signal.strategyId (-openQuantity)
  return (⟨signal, market, request, none, exposure, none, strategyDrawdown⟩,
    remainingToClose.set signal.instrument 0)

/-- The quantity a sizing leaves after the drawdown response, admitted or refused below the venue's floor. -/
def admitSized (signal : Signal) (market : InstrumentMarketState) (conviction : ConvictionAssessment)
    (exposure : ExposureAssessment) (sizing : PositionSizing) (decidedAtUtc : DateTime)
    (portfolioDrawdown strategyDrawdown : Option LimitVerdict) (scaledMultiplier : Decimal) :
    PyResult (Admitted ⊕ SignalAudit × Rejection) := do
  let baseQuantity := signal.instrument.quantizeBaseQuantity (sizing.baseQuantity * scaledMultiplier)
  if baseQuantity ≤ 0 ∨ ¬ signal.instrument.meetsMinNotional baseQuantity market.markUsd then
    let rejection : Rejection := ⟨[signal.strategyId, " on ", signal.instrument.symbol, " sizes to ",
      .decimal baseQuantity, " after a de-risk multiplier of ", .decimal scaledMultiplier,
      ", below the venue MIN_NOTIONAL of ", .decimal signal.instrument.minNotionalQuote],
      "min_notional_quote", decidedAtUtc⟩
    return .inr (engine.plainAudit signal decidedAtUtc .sizing rejection portfolioDrawdown strategyDrawdown
      (some conviction) (some exposure) (some sizing), rejection)
  let signed := if signal.direction = .long then baseQuantity else -baseQuantity
  let request ← strategyRequest signal.strategyId signed
  return .inl ⟨signal, market, request, some conviction, exposure, some sizing, strategyDrawdown⟩

/-- The conviction, sizing and de-risk chain for one directional signal. -/
def sizeDirectional (signal : Signal) (strategy : StrategyState) (market : InstrumentMarketState)
    (exposure : ExposureAssessment) (equityUsd : Decimal) (decidedAtUtc : DateTime)
    (portfolioDrawdown strategyDrawdown : Option LimitVerdict) (deriskMultiplier : Decimal) :
    PyResult (Admitted ⊕ SignalAudit × Rejection) := do
  let conviction ←
    assessConviction signal strategy.calibration engine.policy.convictionParameters decidedAtUtc
  match conviction.rejection, conviction.riskFractionUsed with
  | some rejection, _ =>
    return .inr (engine.plainAudit signal decidedAtUtc .conviction rejection portfolioDrawdown
      strategyDrawdown (some conviction) (some exposure), rejection)
  | none, none =>
    raise .domainError
      [signal.strategyId, " was approved by the conviction channel with no risk fraction; the pair " ++
        "disagreeing is a decision nobody can act on"]
  | none, some riskFractionUsed => do
    let inputs ← construct SizingInputsFields.postInit SizingInputs.mk
      { instrument := signal.instrument
        direction := signal.direction
        equityUsd := equityUsd
        entryQuotePrice := market.markUsd
        invalidationQuotePrice := signal.invalidationQuotePrice
        atr14Quote := market.atr14Quote
        returnSeries := market.returnSeries
        volatilityFloorAnnualised := market.volatilityFloorAnnualised
        closedTradeCount := strategy.closedTradeCount
        realisedMeanReturnFraction := strategy.realisedMeanReturnFraction
        realisedReturnStdevFraction := strategy.realisedReturnStdevFraction
        permittedNotionalUsd := exposure.permittedNotionalUsd }
    let parameters ← withRiskFraction engine.policy.sizingParameters riskFractionUsed
    let sizing ← sizePosition inputs parameters
    let scaledMultiplier := strategyDrawdown.elim deriskMultiplier fun verdict =>
      min deriskMultiplier verdict.deriskMultiplier
    engine.admitSized signal market conviction exposure sizing decidedAtUtc portfolioDrawdown strategyDrawdown
      scaledMultiplier

/-- A refused signal: its audit row and its rejection. -/
def SizingLoop.refuse (loop : SizingLoop) (audit : SignalAudit) (rejection : Rejection) : SizingLoop :=
  { loop with audits := loop.audits ++ [audit], refusals := loop.refusals ++ [rejection] }

/-- An admitted signal. -/
def SizingLoop.accept (loop : SizingLoop) (admission : Admitted) : SizingLoop :=
  { loop with admitted := loop.admitted ++ [admission] }

/-- What every signal of a batch is sized against. -/
structure SizingContext where
  portfolioState : PortfolioState
  marketState : MarketState
  decidedAtUtc : DateTime
  portfolioDrawdown : Option LimitVerdict

/-- The multiplier the portfolio's own drawdown asks for. -/
def SizingContext.deriskMultiplier (context : SizingContext) : Decimal :=
  context.portfolioDrawdown.elim 1 fun verdict => verdict.deriskMultiplier

/-- The exposure check's view of the account and the policy. -/
def preTradeContext (context : SizingContext) : PreTradeContext where
  equityUsd := context.portfolioState.equityUsd
  exposureLimits := engine.policy.exposureLimits
  absoluteLimits := engine.policy.limits
  tradableSymbols := engine.policy.tradableSymbols

/-- An admitted signal's path: the strategy's own halt, the exposure check, then flattening or sizing. -/
def sizeAdmitted (context : SizingContext) (loop : SizingLoop) (signal : Signal) (strategy : StrategyState)
    (market : InstrumentMarketState) : PyResult SizingLoop := do
  let strategyDrawdown ← evaluated strategy.drawdownState engine.policy.strategyDrawdownBudgets
  match strategyDrawdown.bind fun verdict => verdict.breach with
  | some breach =>
    let rejection : Rejection := ⟨[signal.strategyId, " ", breach.limitName.value, " is ",
      .decimal breach.observedRatio, " against a budget of ", .decimal breach.budgetRatio,
      "; the halt is latched"], "strategy_" ++ breach.limitName.value, context.decidedAtUtc⟩
    return loop.refuse (engine.plainAudit signal context.decidedAtUtc .signalAdmission rejection
      context.portfolioDrawdown strategyDrawdown) rejection
  | none => do
    let exposure ← validatePreTrade signal context.portfolioState.portfolio context.marketState.marksUsd
      (engine.preTradeContext context) context.decidedAtUtc
    match exposure.rejection with
    | some rejection =>
      return loop.refuse (engine.plainAudit signal context.decidedAtUtc .exposure rejection
        context.portfolioDrawdown strategyDrawdown none (some exposure)) rejection
    | none =>
      if signal.direction = .flat then do
        let (admission, remainingToClose) ← flattenRequest signal market exposure
          context.portfolioState.portfolio loop.remainingToClose strategyDrawdown
        return { loop.accept admission with remainingToClose := remainingToClose }
      else do
        match ← engine.sizeDirectional signal strategy market exposure context.portfolioState.equityUsd
            context.decidedAtUtc context.portfolioDrawdown strategyDrawdown context.deriskMultiplier with
        | .inl admission => return loop.accept admission
        | .inr (audit, rejection) => return loop.refuse audit rejection

/-- One signal of the sizing loop. -/
def sizeSignal (context : SizingContext) (loop : SizingLoop) (signal : Signal) : PyResult SizingLoop :=
  match admissionRefusal signal loop.seen context.portfolioState context.marketState context.decidedAtUtc with
  | some (reason, bindingLimitName) =>
    let rejection : Rejection := ⟨reason, bindingLimitName, context.decidedAtUtc⟩
    .ok (loop.refuse (engine.plainAudit signal context.decidedAtUtc .signalAdmission rejection
      context.portfolioDrawdown) rejection)
  | none =>
    match context.portfolioState.strategies.get? signal.strategyId,
        context.marketState.instruments.get? signal.instrument with
    | some strategy, some market =>
      engine.sizeAdmitted context { loop with seen := (signal.strategyId, signal.instrument) :: loop.seen }
        signal strategy market
    | _, _ => raise .keyError [.quoted signal.strategyId]

/-- Size every signal independently, in the order of the batch. -/
def sizeSignals (context : SizingContext) (signals : List Signal) : PyResult SizingLoop :=
  signals.foldlM (engine.sizeSignal context) ⟨[], [], [], [], Dict.empty⟩

/-! ### Netting -/

/-- The admissions of every instrument, instruments in first-appearance order. -/
def grouped (admitted : List Admitted) : Dict Instrument (List Admitted) :=
  admitted.foldl (fun groups admission => groups.set admission.signal.instrument
    ((groups.get? admission.signal.instrument).getD [] ++ [admission])) Dict.empty

/-- What the netting loop leaves: the plans, the admissions behind them, and the groups it refused. -/
structure Netting where
  plans : List NetOrderPlan
  netted : List Admitted
  rejected : List (Admitted × Rejection)

/-- Net one instrument's group; a venue portion below the floor refuses the whole group. -/
def netGroup (marketState : MarketState) (decidedAtUtc : DateTime) (netting : Netting)
    (entry : Instrument × List Admitted) : PyResult Netting :=
  let (instrument, group) := entry
  match marketState.instruments.get? instrument with
  | none => raise .keyError [instrument.symbol]
  | some market => do
    let plan ← netRequests instrument (group.map fun admission => admission.request) market.markUsd
      market.midQuotePrice
    if plan.hasVenuePortion ∧ ¬ instrument.meetsMinNotional |plan.netSignedBaseQuantity| market.markUsd then
      let rejection : Rejection := ⟨["the net order on ", instrument.symbol, " is ",
        .decimal plan.netSignedBaseQuantity, ", below the venue MIN_NOTIONAL of ",
        .decimal instrument.minNotionalQuote, "; the internal cross is not booked either, because a " ++
        "crossed position with no venue leg is a position at a price nobody traded"],
        "net_min_notional_quote", decidedAtUtc⟩
      return { netting with
        rejected := netting.rejected ++ group.map fun admission => (admission, rejection) }
    return { netting with plans := netting.plans ++ [plan], netted := netting.netted ++ group }

/-- Net per instrument, in first-appearance order. -/
def net (admitted : List Admitted) (marketState : MarketState) (decidedAtUtc : DateTime) :
    PyResult Netting :=
  (grouped admitted).entries.foldlM (netGroup marketState decidedAtUtc) ⟨[], [], []⟩

/-! ### Concentration -/

/-- A symbol's notional with one more amount added. -/
def addNotional (notional : Dict String Decimal) (symbol : String) (amount : Decimal) : Dict String Decimal :=
  notional.set symbol ((notional.get? symbol).getD 0 + amount)

/-- An open position's notional at its mark. -/
def addPosition (marketState : MarketState) (notional : Dict String Decimal) (position : Position) :
    PyResult (Dict String Decimal) :=
  match marketState.instruments.get? position.instrument with
  | none => raise .keyError [position.instrument.symbol]
  | some market => .ok (addNotional notional position.instrument.symbol
      (position.signedBaseQuantity * market.markUsd))

/-- The prospective book's signed notional: what is held, and what every plan would add. -/
def prospectiveNotional (plans : List NetOrderPlan) (portfolioState : PortfolioState)
    (marketState : MarketState) : PyResult (Dict String Decimal) := do
  let held ← portfolioState.portfolio.openPositions.foldlM (addPosition marketState) Dict.empty
  return plans.foldl (fun notional plan => addNotional notional plan.symbol plan.venueSignedNotionalQuote) held

/-- Evaluate the portfolio as it would stand if every plan filled. -/
def assessProspective (plans : List NetOrderPlan) (portfolioState : PortfolioState)
    (marketState : MarketState) (decidedAtUtc : DateTime) : PyResult ConcentrationAssessment := do
  let signedNotionalUsdBySymbol ← prospectiveNotional plans portfolioState marketState
  let weights ← weightRatiosFromNotional signedNotionalUsdBySymbol portfolioState.equityUsd
  Risk.assessConcentration weights marketState.riskModel engine.policy.concentrationLimits decidedAtUtc

/-! ### Orders -/

/-- The order's two identifiers, derived from the decision rather than drawn. -/
def orderIdentity (material : OrderMaterial) : Uuid × String :=
  ((engine.digests material).1, "fk-" ++ (engine.digests material).2)

/-- The order of one plan's venue portion. -/
def constructOrder (plan : NetOrderPlan) (decidedAtUtc : DateTime) (correlationId : Uuid) (seed : ℤ) :
    PyResult Order :=
  let side : Side := if 0 < plan.netSignedBaseQuantity then .buy else .sell
  let baseQuantity := |plan.netSignedBaseQuantity|
  let identity := engine.orderIdentity ⟨correlationId, seed, plan.instrument, side, baseQuantity, decidedAtUtc⟩
  construct OrderFields.postInit Order.mk
    { orderId := identity.1
      clientOrderId := identity.2
      correlationId := correlationId
      instrument := plan.instrument
      side := side
      orderType := .market
      timeInForce := .ioc
      baseQuantity := baseQuantity
      limitQuotePrice := none
      createdAtUtc := decidedAtUtc }

/-- One order per instrument with a venue portion; a perfect internal cross has none. -/
def constructOrders (plans : List NetOrderPlan) (decidedAtUtc : DateTime) (correlationId : Uuid) (seed : ℤ) :
    PyResult (Dict Instrument Order) :=
  plans.foldlM (fun orders plan =>
    if ¬ plan.hasVenuePortion then .ok orders
    else (fun order => orders.set plan.instrument order) <$>
      engine.constructOrder plan decidedAtUtc correlationId seed) Dict.empty

/-! ### The decision -/

/-- The audit row of a signal that survived to netting. -/
def auditFor (admission : Admitted) (decidedAtUtc : DateTime) (stage : Stage) (rejection : Option Rejection)
    (portfolioDrawdown : Option LimitVerdict) (concentration : Option ConcentrationAssessment := none)
    (attribution : Option Attribution := none) (clientOrderId : Option String := none) : SignalAudit where
  strategyId := admission.signal.strategyId
  instrument := admission.signal.instrument
  direction := admission.signal.direction
  decidedAtUtc := decidedAtUtc
  verdict := if rejection.isSome then .rejected else .approved
  stage := stage
  rejection := rejection
  conviction := admission.conviction
  exposure := some admission.exposure
  sizing := admission.sizing
  portfolioDrawdown := portfolioDrawdown
  strategyDrawdown := admission.strategyDrawdown
  portfolioDrawdownBudgets := some engine.policy.portfolioDrawdownBudgets
  strategyDrawdownBudgets := some engine.policy.strategyDrawdownBudgets
  concentration := concentration
  clientOrderId := clientOrderId
  attributedSignedBaseQuantity := attribution.map fun attribution => attribution.signedBaseQuantity
  bookedQuotePrice := attribution.map fun attribution => attribution.bookedQuotePrice

/-- The row of an approved signal: its slice of its instrument's plan. -/
def approvedAudit (plans : List NetOrderPlan) (orders : Dict Instrument Order)
    (concentration : ConcentrationAssessment) (decidedAtUtc : DateTime)
    (portfolioDrawdown : Option LimitVerdict) (admission : Admitted) : PyResult SignalAudit :=
  -- of two plans on one instrument the dictionary keeps the later
  match plans.reverse.find? fun plan => plan.instrument = admission.signal.instrument with
  | none => raise .keyError [admission.signal.instrument.symbol]
  | some plan =>
    match plan.attributions.find? fun candidate => candidate.strategyId = admission.signal.strategyId with
    | none => raise .stopIteration []
    | some attribution => .ok (engine.auditFor admission decidedAtUtc .orderConstruction none portfolioDrawdown
        (some concentration) (some attribution)
        ((orders.get? plan.instrument).map fun order => order.clientOrderId))

/-- The decision once the batch is netted: assess the prospective book, then construct the orders. -/
def concludeBatch (context : SizingContext) (sized : SizingLoop) (netting : Netting) (correlationId : Uuid)
    (seed : ℤ) : PyResult DecisionBatch := do
  let audits := sized.audits ++ netting.rejected.map fun (admission, rejection) =>
    engine.auditFor admission context.decidedAtUtc .netting (some rejection) context.portfolioDrawdown
  let outcomes := (sized.refusals ++ netting.rejected.map Prod.snd).map Outcome.rejection
  let concentration ← engine.assessProspective netting.plans context.portfolioState context.marketState
    context.decidedAtUtc
  match concentration.rejection with
  | some rejection => return {
      correlationId := correlationId
      decidedAtUtc := context.decidedAtUtc
      outcomes := outcomes ++ netting.netted.map fun _ => .rejection rejection
      plans := []
      audits := audits ++ netting.netted.map fun admission => engine.auditFor admission context.decidedAtUtc
        .concentration (some rejection) context.portfolioDrawdown
      stagesExecuted := stages.take 8 }
  | none => do
    let orders ← engine.constructOrders netting.plans context.decidedAtUtc correlationId seed
    let approved ← netting.netted.mapM (engine.approvedAudit netting.plans orders concentration
      context.decidedAtUtc context.portfolioDrawdown)
    return {
      correlationId := correlationId
      decidedAtUtc := context.decidedAtUtc
      outcomes := outcomes ++ orders.values.map Outcome.order
      plans := netting.plans
      audits := audits ++ approved
      stagesExecuted := stages }

/-- Turn a batch of signals into net orders and audited refusals. -/
def decide (signals : List Signal) (portfolioState : PortfolioState) (marketState : MarketState)
    (decidedAtUtc : DateTime) (correlationId : Uuid) (seed : ℤ) : PyResult DecisionBatch :=
  match ensureTrading engine.gate with
  | .error tripped => .ok (engine.haltedBatch signals decidedAtUtc correlationId tripped.message)
  | .ok () => do
    let portfolioDrawdown ←
      evaluated portfolioState.drawdownState engine.policy.portfolioDrawdownBudgets
    match portfolioHaltReason portfolioState marketState portfolioDrawdown with
    | some (reason, bindingLimitName) =>
      return engine.refuseBatch signals decidedAtUtc correlationId [.killSwitch, .portfolioDrawdown]
        .portfolioDrawdown reason bindingLimitName portfolioDrawdown
    | none => do
      let context : SizingContext := ⟨portfolioState, marketState, decidedAtUtc, portfolioDrawdown⟩
      let sized ← engine.sizeSignals context signals
      let netting ← net sized.admitted marketState decidedAtUtc
      engine.concludeBatch context sized netting correlationId seed

end RiskEngine

end FinanceKing.Risk
