import FinanceKing.Domain.Results
import FinanceKing.Risk.Engine

/-! The sizing loop of a risk decision, one signal at a time: what a signal needs to be evaluated, the one
    row of one that is refused, and the one request of one that is admitted. -/

namespace FinanceKing.Risk

open Lib Strategies

namespace RiskEngine

/-! ### What one signal comes to -/

/-- A signal that can be evaluated, with the record and the market it is evaluated against. -/
structure Admissible (context : SizingContext) (seen : List (String × Instrument)) (signal : Signal)
    (strategy : StrategyState) (market : InstrumentMarketState) : Prop where
  fresh : (signal.strategyId, signal.instrument) ∉ seen
  notFuture : signal.decidedAtUtc ≤ context.decidedAtUtc
  recorded : context.portfolioState.strategies.get? signal.strategyId = some strategy
  priced : context.marketState.instruments.get? signal.instrument = some market
  covered : signal.instrument.symbol ∈ context.marketState.riskModel.symbols

/-- A refused signal's row. -/
structure RefusedRow (signal : Signal) (stage : Stage) (rejection : Rejection) (audit : SignalAudit) :
    Prop where
  strategyId : audit.strategyId = signal.strategyId
  instrument : audit.instrument = signal.instrument
  direction : audit.direction = signal.direction
  isRejected : audit.verdict = .rejected
  atStage : audit.stage = stage
  carries : audit.rejection = some rejection

/-- The loop once it has looked at a signal. -/
def SizingLoop.see (loop : SizingLoop) (signal : Signal) : SizingLoop :=
  { loop with seen := (signal.strategyId, signal.instrument) :: loop.seen }

/-- What is left to close of an instrument. -/
def openQuantity (context : SizingContext) (remainingToClose : Dict Instrument Decimal)
    (instrument : Instrument) : Decimal :=
  (remainingToClose.get? instrument).getD
    ((context.portfolioState.portfolio.positionFor instrument).elim 0 fun position =>
      position.signedBaseQuantity)

section

variable (engine : RiskEngine) (context : SizingContext) (signal : Signal)

/-- The exposure check of one signal. -/
def exposureOf : PyResult ExposureAssessment :=
  validatePreTrade signal context.portfolioState.portfolio context.marketState.marksUsd
    (engine.preTradeContext context) context.decidedAtUtc

/-- Why an admissible signal is refused, by the stage that refuses it. -/
inductive RefusalCause (strategy : StrategyState) : Stage → Rejection → Prop
  | halted {drawdown : Option LimitVerdict} {rejection : Rejection}
      (evaluated : RiskEngine.evaluated strategy.drawdownState engine.policy.strategyDrawdownBudgets =
        .ok drawdown)
      (breached : (drawdown.bind fun verdict => verdict.breach) ≠ none) :
      RefusalCause strategy .signalAdmission rejection
  | overLimit {exposure : ExposureAssessment} {rejection : Rejection}
      (validated : exposureOf engine context signal = .ok exposure)
      (refused : exposure.rejection = some rejection) : RefusalCause strategy .exposure rejection
  | unsized {stage : Stage} {rejection : Rejection} (directional : signal.direction ≠ .flat)
      (late : stage = .conviction ∨ stage = .sizing) : RefusalCause strategy stage rejection

/-- An admission: the strategy is not halted, and the exposure check approves. -/
structure AdmittedFrom (strategy : StrategyState) (market : InstrumentMarketState) (admission : Admitted) :
    Prop where
  ofSignal : admission.signal = signal
  atMarket : admission.market = market
  strategyId : admission.request.strategyId = signal.strategyId
  evaluated : RiskEngine.evaluated strategy.drawdownState engine.policy.strategyDrawdownBudgets =
    .ok admission.strategyDrawdown
  unbreached : (admission.strategyDrawdown.bind fun verdict => verdict.breach) = none
  validated : exposureOf engine context signal = .ok admission.exposure
  approved : admission.exposure.rejection = none

/-- A directional request: lots of at least the venue's floor, on the side the signal points at. -/
def LotsOf (market : InstrumentMarketState) (signedBaseQuantity : Decimal) : Prop :=
  ∃ wanted, 0 < signal.instrument.quantizeBaseQuantity wanted ∧
    signal.instrument.meetsMinNotional (signal.instrument.quantizeBaseQuantity wanted) market.markUsd ∧
    signedBaseQuantity = if signal.direction = .long then signal.instrument.quantizeBaseQuantity wanted
      else -signal.instrument.quantizeBaseQuantity wanted

/-- Everything one signal can do to the loop. -/
inductive SizedTo (loop : SizingLoop) : SizingLoop → Prop
  | inadmissible {rejection : Rejection} {audit : SignalAudit}
      (refusal : RiskEngine.admissionRefusal signal loop.seen context.portfolioState context.marketState
        context.decidedAtUtc ≠ none)
      (row : RefusedRow signal .signalAdmission rejection audit) :
      SizedTo loop (loop.refuse audit rejection)
  | refused {strategy : StrategyState} {market : InstrumentMarketState} {stage : Stage}
      {rejection : Rejection} {audit : SignalAudit}
      (admissible : Admissible context loop.seen signal strategy market)
      (row : RefusedRow signal stage rejection audit)
      (cause : RefusalCause engine context signal strategy stage rejection) :
      SizedTo loop ((loop.see signal).refuse audit rejection)
  | closed {strategy : StrategyState} {market : InstrumentMarketState} {admission : Admitted}
      (admissible : Admissible context loop.seen signal strategy market)
      (admitted : AdmittedFrom engine context signal strategy market admission)
      (flat : signal.direction = .flat)
      (request : admission.request.signedBaseQuantity =
        -openQuantity context loop.remainingToClose signal.instrument) :
      SizedTo loop { (loop.see signal).accept admission with
        remainingToClose := loop.remainingToClose.set signal.instrument 0 }
  | sized {strategy : StrategyState} {market : InstrumentMarketState} {admission : Admitted}
      (admissible : Admissible context loop.seen signal strategy market)
      (admitted : AdmittedFrom engine context signal strategy market admission)
      (directional : signal.direction ≠ .flat)
      (lots : LotsOf signal market admission.request.signedBaseQuantity) :
      SizedTo loop ((loop.see signal).accept admission)

end

variable {engine : RiskEngine} {context : SizingContext} {signal : Signal}

/-! ### Reading the step -/

theorem admissionRefusal_eq_none_iff {seen : List (String × Instrument)} :
    admissionRefusal signal seen context.portfolioState context.marketState context.decidedAtUtc = none ↔
      ∃ strategy market, Admissible context seen signal strategy market := by
  rw [admissionRefusal]
  constructor
  · intro h
    split_ifs at h with hseen hfuture hrecord hmarket hcovered
    obtain ⟨strategy, hstrategy⟩ := Option.ne_none_iff_exists'.mp (by simpa using hrecord)
    obtain ⟨market, hpriced⟩ := Option.ne_none_iff_exists'.mp (by simpa using hmarket)
    exact ⟨strategy, market, hseen, not_lt.mp hfuture, hstrategy, hpriced, hcovered⟩
  · rintro ⟨strategy, market, hfresh, hpast, hstrategy, hpriced, hcovered⟩
    rw [if_neg hfresh, if_neg (not_lt.mpr hpast), if_neg (by simp [hstrategy]),
      if_neg (by simp [hpriced]), if_neg (not_not.mpr hcovered)]

theorem plainAudit_row (signal : Signal) (decidedAtUtc : DateTime) (stage : Stage) (rejection : Rejection)
    (portfolioDrawdown strategyDrawdown : Option LimitVerdict) (conviction : Option ConvictionAssessment)
    (exposure : Option ExposureAssessment) (sizing : Option PositionSizing) :
    RefusedRow signal stage rejection (engine.plainAudit signal decidedAtUtc stage rejection
      portfolioDrawdown strategyDrawdown conviction exposure sizing) :=
  ⟨rfl, rfl, rfl, rfl, rfl, rfl⟩

theorem strategyRequest_eq_ok {strategyId : String} {quantity : Decimal} {request : StrategyRequest}
    (h : strategyRequest strategyId quantity = .ok request) :
    request.strategyId = strategyId ∧ request.signedBaseQuantity = quantity := by
  obtain ⟨_, rfl⟩ := construct_eq_ok h
  exact ⟨rfl, rfl⟩

/-- What sizing comes to: lots on the side of the signal, or a row below the venue's floor. -/
theorem admitSized_cases {market : InstrumentMarketState} {conviction : ConvictionAssessment}
    {exposure : ExposureAssessment} {sizing : PositionSizing} {decidedAtUtc : DateTime}
    {portfolioDrawdown strategyDrawdown : Option LimitVerdict} {scaledMultiplier : Decimal}
    {outcome : Admitted ⊕ SignalAudit × Rejection}
    (h : engine.admitSized signal market conviction exposure sizing decidedAtUtc portfolioDrawdown
      strategyDrawdown scaledMultiplier = .ok outcome) :
    (∃ admission, outcome = .inl admission ∧ admission.signal = signal ∧ admission.market = market ∧
      admission.request.strategyId = signal.strategyId ∧ admission.exposure = exposure ∧
      admission.strategyDrawdown = strategyDrawdown ∧
      LotsOf signal market admission.request.signedBaseQuantity) ∨
    ∃ audit rejection, outcome = .inr (audit, rejection) ∧ RefusedRow signal .sizing rejection audit := by
  simp only [admitSized] at h
  split at h
  · obtain rfl := pure_eq_ok.mp h
    exact .inr ⟨_, _, rfl, plainAudit_row ..⟩
  · next hfloor =>
    rw [not_or, not_le, not_not] at hfloor
    simp only [bind_eq_ok, pure_eq_ok] at h
    obtain ⟨request, hrequest, rfl⟩ := h
    obtain ⟨hid, hquantity⟩ := strategyRequest_eq_ok hrequest
    exact .inl ⟨_, rfl, rfl, rfl, hid, rfl, rfl, _, hfloor.1, hfloor.2, hquantity⟩

theorem sizeDirectional_cases {strategy : StrategyState} {market : InstrumentMarketState}
    {exposure : ExposureAssessment} {equityUsd : Decimal} {decidedAtUtc : DateTime}
    {portfolioDrawdown strategyDrawdown : Option LimitVerdict} {deriskMultiplier : Decimal}
    {outcome : Admitted ⊕ SignalAudit × Rejection}
    (h : engine.sizeDirectional signal strategy market exposure equityUsd decidedAtUtc portfolioDrawdown
      strategyDrawdown deriskMultiplier = .ok outcome) :
    (∃ admission, outcome = .inl admission ∧ admission.signal = signal ∧ admission.market = market ∧
      admission.request.strategyId = signal.strategyId ∧ admission.exposure = exposure ∧
      admission.strategyDrawdown = strategyDrawdown ∧
      LotsOf signal market admission.request.signedBaseQuantity) ∨
    ∃ stage audit rejection, outcome = .inr (audit, rejection) ∧
      (stage = Stage.conviction ∨ stage = Stage.sizing) ∧ RefusedRow signal stage rejection audit := by
  rw [sizeDirectional, bind_eq_ok] at h
  obtain ⟨conviction, _, h⟩ := h
  split at h
  · obtain rfl := pure_eq_ok.mp h
    exact .inr ⟨_, _, _, rfl, .inl rfl, plainAudit_row ..⟩
  · exact absurd h raise_ne_ok
  · simp only [bind_eq_ok] at h
    obtain ⟨_, _, _, _, _, _, h⟩ := h
    rcases admitSized_cases h with hadmitted | ⟨audit, rejection, rfl, hrow⟩
    · exact .inl hadmitted
    · exact .inr ⟨_, audit, rejection, rfl, .inr rfl, hrow⟩

/-- A signal does to the loop one of the things a signal can do. -/
theorem sizeSignal_step {loop next : SizingLoop} (h : engine.sizeSignal context loop signal = .ok next) :
    SizedTo engine context signal loop next := by
  rw [sizeSignal] at h
  split at h
  · next hrefusal =>
    obtain rfl := Except.ok.inj h
    exact .inadmissible (by simp [hrefusal]) (plainAudit_row ..)
  · next hnone =>
    obtain ⟨strategy, market, hadmissible⟩ := admissionRefusal_eq_none_iff.mp hnone
    rw [hadmissible.recorded, hadmissible.priced] at h
    simp only [sizeAdmitted, bind_eq_ok] at h
    obtain ⟨drawdown, hdrawdown, h⟩ := h
    split at h
    · next breach hbreach =>
      obtain rfl := pure_eq_ok.mp h
      exact .refused hadmissible (plainAudit_row ..) (.halted hdrawdown (by simp [hbreach]))
    · next hunbreached =>
      simp only [bind_eq_ok] at h
      obtain ⟨exposure, hexposure, h⟩ := h
      split at h
      · next rejection hrejection =>
        obtain rfl := pure_eq_ok.mp h
        exact .refused hadmissible (plainAudit_row ..) (.overLimit hexposure hrejection)
      · next happroved =>
        split at h
        · next hflat =>
          simp only [flattenRequest, bind_eq_ok, pure_eq_ok] at h
          obtain ⟨_, ⟨request, hrequest, rfl⟩, rfl⟩ := h
          obtain ⟨hid, hquantity⟩ := strategyRequest_eq_ok hrequest
          exact .closed hadmissible ⟨rfl, rfl, hid, hdrawdown, hunbreached, hexposure, happroved⟩ hflat
            hquantity
        · next hdirectional =>
          rw [bind_eq_ok] at h
          obtain ⟨outcome, hsized, h⟩ := h
          rcases sizeDirectional_cases hsized with
            ⟨admission, rfl, hsignal, hmarket, hid, rfl, rfl, hlots⟩ |
            ⟨stage, audit, rejection, rfl, hlate, hrow⟩
          · obtain rfl := pure_eq_ok.mp h
            exact .sized hadmissible ⟨hsignal, hmarket, hid, hdrawdown, hunbreached, hexposure, happroved⟩
              hdirectional hlots
          · obtain rfl := pure_eq_ok.mp h
            exact .refused hadmissible hrow (.unsized hdirectional hlate)

end RiskEngine

end FinanceKing.Risk
