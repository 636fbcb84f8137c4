import FinanceKing.Risk.CalibratedBand
import FinanceKing.Risk.DecisionAccounting
import FinanceKing.Risk.PreTrade
import FinanceKing.Risk.ProspectiveBook
import FinanceKing.Risk.SizingBound

/-! When a decision returns. Each stage is total on what the stage before it leaves, so on a well-formed account
    and market only the band of risk fractions can make one raise, from inside sizing. What returns need not trade:
    the concentration stage judges the prospective book alone, and refuses the first order into an empty one. -/

namespace FinanceKing.Risk

open Lib Strategies

/-- A loop whose every step returns, returns. -/
theorem foldlM_returns {α β : Type} {f : β → α → PyResult β} : ∀ {l : List α},
    (∀ b, ∀ a ∈ l, ∃ b', f b a = .ok b') → ∀ b, ∃ b', l.foldlM f b = .ok b'
  | [], _, b => ⟨b, rfl⟩
  | a :: l, h, b => by
    obtain ⟨next, hnext⟩ := h b a List.mem_cons_self
    obtain ⟨last, hlast⟩ := foldlM_returns (fun b a ha => h b a (List.mem_cons_of_mem _ ha)) next
    rw [List.foldlM_cons, hnext]
    exact ⟨last, hlast⟩

namespace RiskEngine

/-! ### What a decision may assume -/

/-- A strategy's record as the decision may read it. -/
structure WellFormedRecord (engine : RiskEngine) (decidedAtUtc : DateTime) (strategy : StrategyState) :
    Prop where
  scope : ∀ state, strategy.drawdownState = some state →
    state.scope = engine.policy.strategyDrawdownBudgets.scope
  fittedBefore : strategy.calibration.availableAtUtc ≤ decidedAtUtc
  tradeCount : 0 ≤ strategy.closedTradeCount
  stdev : 0 ≤ strategy.realisedReturnStdevFraction

/-- A policy, an account and a market nothing else than sizing can refuse to read. -/
structure WellFormed (engine : RiskEngine) (portfolioState : PortfolioState) (marketState : MarketState)
    (decidedAtUtc : DateTime) : Prop where
  leverage : engine.policy.limits.maxLeverage ≠ 0
  scope : ∀ state, portfolioState.drawdownState = some state →
    state.scope = engine.policy.portfolioDrawdownBudgets.scope
  records : ∀ strategyId strategy, portfolioState.strategies.get? strategyId = some strategy →
    WellFormedRecord engine decidedAtUtc strategy
  markets : ∀ instrument market, marketState.instruments.get? instrument = some market →
    0 ≤ market.atr14Quote ∧ 0 ≤ market.volatilityFloorAnnualised

/-- A book the portfolio-wide checks let through. -/
structure Assessable (portfolioState : PortfolioState) (marketState : MarketState) : Prop where
  priced : ∀ position ∈ portfolioState.portfolio.openPositions,
    (marketState.instruments.get? position.instrument).isSome
  covered : ∀ position ∈ portfolioState.portfolio.openPositions,
    position.instrument.symbol ∈ marketState.riskModel.symbols
  solvent : 0 < portfolioState.equityUsd

theorem sortBy_ne_nil {α : Type} [LinearOrder α] {l : List α} (h : l ≠ []) : sortBy id l ≠ [] := by
  intro hnil
  exact h (hnil ▸ perm_sortBy id l).nil_eq.symm

theorem assessable_of_unhalted {portfolioState : PortfolioState} {marketState : MarketState}
    {verdict : Option LimitVerdict} (h : portfolioHaltReason portfolioState marketState verdict = none) :
    Assessable portfolioState marketState := by
  simp only [portfolioHaltReason] at h
  split_ifs at h with hunpriced huncovered hinsolvent
  refine ⟨fun position hposition => ?_, fun position hposition => ?_, not_le.mp hinsolvent⟩
  · by_contra hnone
    refine hunpriced (sortBy_ne_nil (List.ne_nil_of_mem (List.mem_map_of_mem
      (List.mem_filter.mpr ⟨hposition, ?_⟩))))
    rw [Option.isNone_iff_eq_none]
    exact Option.not_isSome_iff_eq_none.mp hnone
  · by_contra hout
    exact huncovered (sortBy_ne_nil (List.ne_nil_of_mem (List.mem_filter.mpr
      ⟨List.mem_dedup.mpr (List.mem_map_of_mem hposition), decide_eq_true hout⟩)))

/-! ### Drawdown and exposure -/

theorem evaluated_returns {state : Option DrawdownState} {budgets : DrawdownBudgets}
    (h : ∀ held, state = some held → held.scope = budgets.scope) :
    ∃ verdict, evaluated state budgets = .ok verdict := by
  cases state with
  | none => exact ⟨none, rfl⟩
  | some held =>
    have hlatched : DrawdownStateFields.postInit { held.toDrawdownStateFields with
        latchedBreach := held.latchedBreach.or (firstBreach held budgets) } = .ok () := held.checked
    have hscope : ¬budgets.scope ≠ held.scope := not_not.mpr (h held rfl).symm
    have hverdict : ∃ verdict, evaluate held budgets = .ok verdict := by
      simp only [evaluate, bind_eq_ok, raiseIf_eq_ok, pure_eq_ok]
      exact ⟨_, (), hscope, _, construct_ok hlatched, rfl⟩
    obtain ⟨verdict, hverdict⟩ := hverdict
    exact ⟨some verdict, map_eq_ok.mpr ⟨verdict, hverdict, rfl⟩⟩

section

variable {portfolioState : PortfolioState} {marketState : MarketState}

/-- Every open position of an assessable book is marked. -/
theorem Assessable.marked (h : Assessable portfolioState marketState) :
    Marked marketState.marksUsd portfolioState.portfolio.openPositions := by
  intro position hposition
  obtain ⟨market, hmarket⟩ := Option.isSome_iff_exists.mp (h.priced position hposition)
  refine ⟨market.markUsd, ?_, market.markUsd_pos⟩
  rw [MarketState.marksUsd, Dict.get?_mapValues, hmarket]
  rfl

theorem assessHeadroom_permitted_nonneg (signal : Signal) (context : PreTradeContext) (decidedAtUtc : DateTime)
    (rows : List LimitEvaluation) (markUsd permittedUsd : Decimal) (name : String) :
    0 ≤ (assessHeadroom signal context decidedAtUtc rows markUsd permittedUsd name).permittedNotionalUsd := by
  simp only [assessHeadroom]
  split
  · exact le_rfl
  · next hpositive =>
    split
    · exact le_rfl
    · exact (not_le.mp hpositive).le

/-- The exposure check of a priced signal returns, and permits nothing negative to a directional one. -/
theorem exposureOf_returns {engine : RiskEngine} {context : SizingContext} {signal : Signal}
    (hbook : Assessable context.portfolioState context.marketState)
    (hleverage : engine.policy.limits.maxLeverage ≠ 0) {market : InstrumentMarketState}
    (hpriced : context.marketState.instruments.get? signal.instrument = some market) :
    ∃ exposure, exposureOf engine context signal = .ok exposure ∧
      (signal.direction ≠ .flat → 0 ≤ exposure.permittedNotionalUsd) := by
  obtain ⟨exposure, hexposure, _⟩ := foldlM_priceInto hbook.marked PortfolioExposure.empty
  by_cases htradable : signal.instrument.symbol ∈ (engine.preTradeContext context).tradableSymbols
  · by_cases hflat : signal.direction = .flat
    · have hreduces : exposureOf engine context signal = .ok (reduceOnlyAssessment signal exposure
          (engine.preTradeContext context) context.decidedAtUtc) := by
        rw [exposureOf, validatePreTrade, if_neg (not_not.mpr htradable), bind_eq_ok]
        exact ⟨exposure, hexposure, by rw [if_pos hflat]; rfl⟩
      exact ⟨_, hreduces, fun hdirectional => absurd hflat hdirectional⟩
    · have hmarked : context.marketState.marksUsd.get? signal.instrument = some market.markUsd := by
        rw [MarketState.marksUsd, Dict.get?_mapValues, hpriced]
        rfl
      obtain ⟨row, _, hvalidated⟩ := validatePreTrade_reached context.decidedAtUtc
        ⟨htradable, hexposure, hflat, hmarked, market.markUsd_pos, hleverage⟩
      exact ⟨_, hvalidated, fun _ => assessHeadroom_permitted_nonneg ..⟩
  · exact ⟨_, if_pos htradable, fun _ => le_rfl⟩

end

/-! ### Sizing -/

theorem signal_strategyId_ne_empty (signal : Signal) : signal.strategyId ≠ "" := by
  have h := signal.checked
  simp only [SignalFields.postInit, bind_eq_ok, requireText_eq_ok] at h
  obtain ⟨_, hname, _⟩ := h
  intro hempty
  rw [hempty] at hname
  exact hname rfl

theorem signal_conviction_mem (signal : Signal) : 0 ≤ signal.conviction ∧ signal.conviction ≤ 1 := by
  have h := signal.checked
  simp only [SignalFields.postInit, bind_eq_ok, requireFraction_eq_ok] at h
  obtain ⟨_, _, _, hfraction, _⟩ := h
  exact hfraction

theorem signal_invalidation_pos (signal : Signal) (hdirectional : signal.direction ≠ .flat) :
    ∃ level, signal.invalidationQuotePrice = some level ∧ 0 < level := by
  have h := signal.checked
  simp only [SignalFields.postInit, bind_eq_ok] at h
  obtain ⟨_, _, _, _, _, _, _, _, hinvalidation⟩ := h
  rw [SignalFields.requireInvalidation] at hinvalidation
  split at hinvalidation
  · cases hinvalidation
  · next hflat _ => exact absurd hflat hdirectional
  · cases hinvalidation
  · next hlevel _ =>
    exact ⟨_, hlevel, requirePositiveDecimal_eq_ok.mp hinvalidation⟩

/-- The conviction channel answers a directional signal of the record's own strategy, with a refusal or with a
    fraction sizing accepts. -/
theorem assessConviction_returns {signal : Signal} {calibration : CalibrationMap}
    {parameters : ConvictionParameters} {decidedAtUtc : DateTime} (hband : UsableBand parameters)
    (hdirectional : signal.direction ≠ .flat) (howner : calibration.strategyId = signal.strategyId)
    (hfitted : calibration.availableAtUtc ≤ decidedAtUtc) :
    ∃ conviction, assessConviction signal calibration parameters decidedAtUtc = .ok conviction ∧
      (conviction.rejection = none → ∃ fraction, conviction.riskFractionUsed = some fraction ∧
        ∀ sizing, ∃ accepted, withRiskFraction sizing fraction = .ok accepted) := by
  obtain ⟨hnonneg, hle⟩ := signal_conviction_mem signal
  obtain ⟨calibrated, hcalibrated, hstorable⟩ := calibrated_spec calibration hnonneg hle
  have hfraction := riskFractionFor_of_storable parameters hstorable
  have hassessed : ∃ outcome, convictionOutcome signal parameters calibrated decidedAtUtc = .ok outcome ∧
      outcome.2.isNone = outcome.1.isSome ∧ (outcome.2 = none → ∃ fraction, outcome.1 = some fraction ∧
        ∀ sizing, ∃ accepted, withRiskFraction sizing fraction = .ok accepted) := by
    rw [convictionOutcome]
    split
    · exact ⟨_, rfl, rfl, fun hnone => by cases hnone⟩
    · rw [hfraction]
      exact ⟨_, rfl, rfl, fun _ => ⟨_, rfl, hband.accepted hstorable⟩⟩
  obtain ⟨outcome, houtcome, hpaired, haccepted⟩ := hassessed
  have hreturns : ∃ conviction, assessConviction signal calibration parameters decidedAtUtc = .ok conviction ∧
      conviction.rejection = outcome.2 ∧ conviction.riskFractionUsed = outcome.1 := by
    simp only [assessConviction, bind_eq_ok, raiseIf_eq_ok, not_lt, not_not]
    refine ⟨_, ⟨(), hdirectional, (), howner, (), hfitted, calibrated, hcalibrated, outcome, houtcome,
      construct_ok ?_⟩, rfl, rfl⟩
    rw [ConvictionAssessmentFields.postInit, raiseIf_eq_ok, not_not]
    exact hpaired
  obtain ⟨conviction, hconviction, hrejection, hused⟩ := hreturns
  refine ⟨conviction, hconviction, fun hnone => ?_⟩
  rw [hused]
  exact haccepted (hrejection ▸ hnone)

theorem strategyRequest_returns (signal : Signal) (quantity : Decimal) :
    ∃ request, strategyRequest signal.strategyId quantity = .ok request := by
  refine ⟨_, construct_ok ?_⟩
  rw [StrategyRequestFields.postInit, raiseIf_eq_ok]
  exact signal_strategyId_ne_empty signal

section

variable {engine : RiskEngine} {context : SizingContext} {signal : Signal}

theorem admitSized_returns (market : InstrumentMarketState) (conviction : ConvictionAssessment)
    (exposure : ExposureAssessment) (sizing : PositionSizing) (decidedAtUtc : DateTime)
    (portfolioDrawdown strategyDrawdown : Option LimitVerdict) (scaledMultiplier : Decimal) :
    ∃ outcome, engine.admitSized signal market conviction exposure sizing decidedAtUtc portfolioDrawdown
      strategyDrawdown scaledMultiplier = .ok outcome := by
  simp only [admitSized]
  split
  · exact ⟨_, rfl⟩
  · obtain ⟨request, hrequest⟩ := strategyRequest_returns signal (if signal.direction = .long then
      signal.instrument.quantizeBaseQuantity (sizing.baseQuantity * scaledMultiplier)
      else -signal.instrument.quantizeBaseQuantity (sizing.baseQuantity * scaledMultiplier))
    rw [hrequest]
    exact ⟨_, rfl⟩

/-- The sizing stage returns for a directional signal, whatever the record and the market. -/
theorem sizeDirectional_returns {strategy : StrategyState} {market : InstrumentMarketState}
    {exposure : ExposureAssessment} (hband : UsableBand engine.policy.convictionParameters)
    (hdirectional : signal.direction ≠ .flat) (howner : strategy.calibration.strategyId = signal.strategyId)
    {equityUsd : Decimal} (hsolvent : 0 < equityUsd) {decidedAtUtc : DateTime}
    (hrecord : WellFormedRecord engine decidedAtUtc strategy)
    (hmarket : 0 ≤ market.atr14Quote ∧ 0 ≤ market.volatilityFloorAnnualised)
    (hpermitted : 0 ≤ exposure.permittedNotionalUsd)
    (portfolioDrawdown strategyDrawdown : Option LimitVerdict) (deriskMultiplier : Decimal) :
    ∃ outcome, engine.sizeDirectional signal strategy market exposure equityUsd decidedAtUtc portfolioDrawdown
      strategyDrawdown deriskMultiplier = .ok outcome := by
  obtain ⟨conviction, hconviction, haccepted⟩ :=
    assessConviction_returns hband hdirectional howner hrecord.fittedBefore
  simp only [sizeDirectional, hconviction, Except.bind, bind]
  cases hrejection : conviction.rejection with
  | some rejection => exact ⟨_, rfl⟩
  | none =>
    obtain ⟨fraction, hfraction, hsizing⟩ := haccepted hrejection
    obtain ⟨accepted, haccepted⟩ := hsizing engine.policy.sizingParameters
    obtain ⟨level, hlevel, hpositive⟩ := signal_invalidation_pos signal hdirectional
    have hinputs : SizingInputsFields.postInit
        { instrument := signal.instrument
          direction := signal.direction
          equityUsd := equityUsd
          entryQuotePrice := market.markUsd
          invalidationQuotePrice := signal.invalidationQuotePrice
          atr14Quote := market.atr14Quote
          returnSeries := market.returnSeries
          volatilityFloorAnnualised := market.volatilityFloorAnnualised
          closedTradeCount := strategy.closedTradeCount
          realisedMeanReturnFraction := strategy.realisedMeanReturnFraction
          realisedReturnStdevFraction := strategy.realisedReturnStdevFraction
          permittedNotionalUsd := exposure.permittedNotionalUsd } = .ok () := by
      simp only [SizingInputsFields.postInit, bind_eq_ok, raiseIf_eq_ok, requirePositive_eq_ok,
        requireNonNegative_eq_ok, hlevel, not_lt]
      exact ⟨(), hdirectional, (), market.markUsd_pos, (), hsolvent.le, (), hmarket.1, (), hmarket.2, (),
        hrecord.stdev, (), hpermitted, (), hrecord.tradeCount, hpositive⟩
    obtain ⟨sizing, hsized, _⟩ := sizePosition_spec ⟨_, hinputs⟩ accepted
    rw [hfraction]
    dsimp only
    rw [construct_ok hinputs]
    dsimp only
    rw [haccepted]
    dsimp only
    rw [hsized]
    exact admitSized_returns ..

/-- A recorded strategy's calibration is its own. -/
theorem calibration_owner {portfolioState : PortfolioState} {strategyId : String} {strategy : StrategyState}
    (h : portfolioState.strategies.get? strategyId = some strategy) :
    strategy.calibration.strategyId = strategyId := by
  have hkeyed := portfolioState.checked
  rw [PortfolioStateFields.postInit, forM_eq_ok] at hkeyed
  have hkey := hkeyed _ ((Dict.get?_eq_some_iff _ _ _).mp h)
  have howned := strategy.checked
  rw [raiseIf_eq_ok, not_not] at hkey
  rw [StrategyStateFields.postInit, raiseIf_eq_ok, not_not] at howned
  exact howned.trans hkey

/-- One signal is always sized: refused, closed or admitted. -/
theorem sizeSignal_returns (hband : UsableBand engine.policy.convictionParameters)
    (hwell : WellFormed engine context.portfolioState context.marketState context.decidedAtUtc)
    (hbook : Assessable context.portfolioState context.marketState) (loop : SizingLoop) (signal : Signal) :
    ∃ next, engine.sizeSignal context loop signal = .ok next := by
  rw [sizeSignal]
  split
  · exact ⟨_, rfl⟩
  · next hnone =>
    obtain ⟨strategy, market, hadmissible⟩ := admissionRefusal_eq_none_iff.mp hnone
    have hrecord := hwell.records _ _ hadmissible.recorded
    have howner := calibration_owner hadmissible.recorded
    obtain ⟨drawdown, hdrawdown⟩ := evaluated_returns hrecord.scope
    obtain ⟨exposure, hexposure, hpermitted⟩ := exposureOf_returns hbook hwell.leverage hadmissible.priced
    rw [hadmissible.recorded, hadmissible.priced]
    simp only [sizeAdmitted, hdrawdown, bind, Except.bind]
    split
    · exact ⟨_, rfl⟩
    · rw [exposureOf] at hexposure
      rw [hexposure]
      dsimp only
      split
      · exact ⟨_, rfl⟩
      · split
        · obtain ⟨request, hrequest⟩ := strategyRequest_returns signal
            (-openQuantity context loop.remainingToClose signal.instrument)
          rw [openQuantity] at hrequest
          simp only [flattenRequest, bind, Except.bind]
          rw [hrequest]
          exact ⟨_, rfl⟩
        · next hdirectional =>
          obtain ⟨outcome, houtcome⟩ := sizeDirectional_returns hband hdirectional howner hbook.solvent hrecord
            (hwell.markets _ _ hadmissible.priced) (hpermitted hdirectional) context.portfolioDrawdown drawdown
            context.deriskMultiplier
          rw [houtcome]
          rcases outcome with admission | ⟨audit, rejection⟩
          · exact ⟨_, rfl⟩
          · exact ⟨_, rfl⟩

end

/-! ### Netting and the prospective book -/

section

variable {portfolioState : PortfolioState} {marketState : MarketState}

theorem net_returns {admitted : List Admitted} (honce : OneEach admitted)
    (hpriced : ∀ admission ∈ admitted, (marketState.instruments.get? admission.signal.instrument).isSome)
    (decidedAtUtc : DateTime) : ∃ netting, net admitted marketState decidedAtUtc = .ok netting := by
  refine foldlM_returns (fun netting entry hentry => ?_) _
  obtain ⟨instrument, group⟩ := entry
  obtain ⟨hgroup, hsome⟩ := mem_grouped.mp hentry
  dsimp only at hgroup hsome
  subst hgroup
  obtain ⟨admission, hadmission⟩ := List.exists_mem_of_ne_nil _ hsome
  obtain ⟨hmem, hinstrument⟩ := mem_groupOf.mp hadmission
  obtain ⟨market, hmarket⟩ := Option.isSome_iff_exists.mp (hinstrument ▸ hpriced admission hmem)
  have hrequests : (groupOf admitted instrument).map (fun admission => admission.request) ≠ [] := by
    simpa using hsome
  obtain ⟨plan, hplan, _⟩ := netRequests_returns hrequests (honce.distinctStrategies instrument)
    market.markUsd_pos market.midQuotePrice_pos
  simp only [netGroup, hmarket, bind, Except.bind]
  rw [hplan]
  dsimp only
  split
  · exact ⟨_, rfl⟩
  · exact ⟨_, rfl⟩

/-- A notional over symbols of the universe. -/
def WithinUniverse (marketState : MarketState) (notional : Dict String Decimal) : Prop :=
  ∀ symbol, (notional.get? symbol).isSome → symbol ∈ marketState.riskModel.symbols

theorem WithinUniverse.add {notional : Dict String Decimal} (h : WithinUniverse marketState notional)
    {symbol : String} (hsymbol : symbol ∈ marketState.riskModel.symbols) (amount : Decimal) :
    WithinUniverse marketState (addNotional notional symbol amount) := by
  intro other hother
  rw [addNotional, Dict.get?_set] at hother
  split at hother
  · next hsame => exact hsame ▸ hsymbol
  · exact h other hother

theorem foldlM_addPosition_returns {positions : List Position}
    (hpriced : ∀ position ∈ positions, (marketState.instruments.get? position.instrument).isSome)
    (hcovered : ∀ position ∈ positions, position.instrument.symbol ∈ marketState.riskModel.symbols) :
    ∀ {before : Dict String Decimal}, WithinUniverse marketState before →
    ∃ after, positions.foldlM (addPosition marketState) before = .ok after ∧
      WithinUniverse marketState after := by
  induction positions with
  | nil => exact fun {before} hbefore => ⟨before, rfl, hbefore⟩
  | cons position positions ih =>
    intro before hbefore
    obtain ⟨hhead, hrest⟩ := List.forall_mem_cons.mp hpriced
    obtain ⟨hin, hothers⟩ := List.forall_mem_cons.mp hcovered
    obtain ⟨market, hmarket⟩ := Option.isSome_iff_exists.mp hhead
    obtain ⟨after, hafter, hwithin⟩ := ih hrest hothers (hbefore.add hin
      (position.signedBaseQuantity * market.markUsd))
    refine ⟨after, ?_, hwithin⟩
    rw [List.foldlM_cons, addPosition, hmarket]
    exact hafter

theorem foldl_plans_within {plans : List NetOrderPlan}
    (h : ∀ plan ∈ plans, plan.symbol ∈ marketState.riskModel.symbols) :
    ∀ {before : Dict String Decimal}, WithinUniverse marketState before →
    WithinUniverse marketState (plans.foldl
      (fun notional plan => addNotional notional plan.symbol plan.venueSignedNotionalQuote) before) := by
  induction plans with
  | nil => exact fun hbefore => hbefore
  | cons plan plans ih =>
    intro before hbefore
    obtain ⟨hin, hothers⟩ := List.forall_mem_cons.mp h
    exact ih hothers (hbefore.add hin _)

/-- The prospective book of an assessable one is assessed. -/
theorem assessProspective_returns (engine : RiskEngine) (hbook : Assessable portfolioState marketState)
    {plans : List NetOrderPlan} (hplans : ∀ plan ∈ plans, plan.symbol ∈ marketState.riskModel.symbols)
    (decidedAtUtc : DateTime) : ∃ assessment,
      engine.assessProspective plans portfolioState marketState decidedAtUtc = .ok assessment := by
  have hempty : WithinUniverse marketState Dict.empty := fun symbol hsymbol => by cases hsymbol
  obtain ⟨held, hheld, hwithin⟩ := foldlM_addPosition_returns hbook.priced hbook.covered hempty
  have hnotional := foldl_plans_within hplans hwithin
  have hrisk : ∀ weights : Dict String Decimal, WithinUniverse marketState weights →
      ∃ risk, portfolioRisk weights marketState.riskModel = .ok risk := by
    intro weights hweights
    have hunknown : weights.keys.filter (fun symbol => symbol ∉ marketState.riskModel.symbols) = [] := by
      refine List.filter_eq_nil_iff.mpr fun symbol hsymbol => ?_
      have hin := hweights symbol ((Dict.mem_keys_iff _ _).mp hsymbol)
      simp [hin]
    have hnone : ¬sortBy id (weights.keys.filter fun symbol => symbol ∉ marketState.riskModel.symbols) ≠ [] := by
      rw [hunknown, not_not]
      rfl
    simp only [portfolioRisk, raiseIf, if_neg hnone, bind, Except.bind]
    split
    · exact ⟨_, rfl⟩
    · exact ⟨_, rfl⟩
  have hweights : WithinUniverse marketState ((plans.foldl
      (fun notional plan => addNotional notional plan.symbol plan.venueSignedNotionalQuote) held).mapValues
      fun notionalUsd => notionalUsd / portfolioState.equityUsd) := by
    intro symbol hsymbol
    rw [Dict.get?_mapValues, Option.isSome_map] at hsymbol
    exact hnotional symbol hsymbol
  obtain ⟨risk, hrisk⟩ := hrisk _ hweights
  simp only [assessProspective, prospectiveNotional, weightRatiosFromNotional, Risk.assessConcentration,
    bind_eq_ok, pure_eq_ok, raiseIf_eq_ok, not_le]
  exact ⟨_, _, ⟨held, hheld, rfl⟩, _, ⟨(), hbook.solvent, rfl⟩, risk, hrisk, rfl⟩

end

/-! ### Orders and rows -/

section

variable {engine : RiskEngine}

theorem constructOrder_returns {plan : NetOrderPlan} (hvenue : plan.netSignedBaseQuantity ≠ 0)
    (decidedAtUtc : DateTime) (correlationId : Uuid) (seed : ℤ) :
    ∃ order, engine.constructOrder plan decidedAtUtc correlationId seed = .ok order := by
  refine ⟨_, construct_ok ?_⟩
  simp only [OrderFields.postInit, bind_eq_ok, requireText_eq_ok, requirePositiveDecimal_eq_ok]
  exact ⟨(), strip_append_ne_nil (by decide) _, (), abs_pos.mpr hvenue, trivial⟩

theorem constructOrders_returns (engine : RiskEngine) (plans : List NetOrderPlan) (decidedAtUtc : DateTime)
    (correlationId : Uuid)
    (seed : ℤ) : ∃ orders, engine.constructOrders plans decidedAtUtc correlationId seed = .ok orders := by
  refine foldlM_returns (fun orders plan _ => ?_) _
  split
  · exact ⟨_, rfl⟩
  · next hvenue =>
    rw [not_not] at hvenue
    obtain ⟨order, horder⟩ := constructOrder_returns (of_decide_eq_true hvenue) decidedAtUtc correlationId seed
    exact ⟨_, map_eq_ok.mpr ⟨order, horder, rfl⟩⟩

/-- Every netted admission has its slice. -/
theorem approvedAudit_returns (engine : RiskEngine) {admitted : List Admitted} (honce : OneEach admitted)
    {marketState : MarketState} {netting : Netting}
    (hnets : NetsGroups marketState (grouped admitted).entries netting) {admission : Admitted}
    (hadmission : admission ∈ netting.netted) (orders : Dict Instrument Order)
    (concentration : ConcentrationAssessment) (decidedAtUtc : DateTime)
    (portfolioDrawdown : Option LimitVerdict) : ∃ audit, engine.approvedAudit netting.plans orders concentration
      decidedAtUtc portfolioDrawdown admission = .ok audit := by
  obtain ⟨plan, hplan, hinstrument⟩ := List.mem_map.mp (planned_of_netted hnets hadmission)
  have hfound : (netting.plans.reverse.find? fun plan =>
      plan.instrument = admission.signal.instrument) = some plan := by
    cases hsearch : netting.plans.reverse.find? fun plan => plan.instrument = admission.signal.instrument with
    | none =>
      exact absurd (decide_eq_true hinstrument)
        (List.find?_eq_none.mp hsearch plan (List.mem_reverse.mpr hplan))
    | some other =>
      have hother : other.instrument = admission.signal.instrument := by simpa using List.find?_some hsearch
      rw [List.inj_on_of_nodup_map (hnets.inOrder.nodup (grouped admitted).nodupKeys)
        (List.mem_reverse.mp (List.mem_of_find?_eq_some hsearch)) hplan (hother.trans hinstrument.symm)]
  obtain ⟨entry, hentry, market, hgroup, _⟩ := hnets.plans plan hplan
  have hkey := hgroup.instrument_eq
  have hmember : admission ∈ entry.2 := by
    rw [← netted_filter hnets hentry (hkey ▸ List.mem_map_of_mem hplan)]
    exact List.mem_filter.mpr ⟨hadmission, decide_eq_true (hinstrument.symm.trans hkey)⟩
  obtain ⟨attribution, _, hslice⟩ := exists_right_of_forall₂ (slices_of_group honce hentry hgroup).1 hmember
  rw [sliceIn] at hslice
  rw [approvedAudit, hfound]
  dsimp only
  rw [hslice]
  exact ⟨_, rfl⟩

/-- A plan is on the instrument of an admission. -/
theorem admission_of_plan {admitted : List Admitted} {marketState : MarketState} {netting : Netting}
    (hnets : NetsGroups marketState (grouped admitted).entries netting) {plan : NetOrderPlan}
    (hplan : plan ∈ netting.plans) : ∃ admission ∈ admitted, plan.instrument = admission.signal.instrument := by
  obtain ⟨entry, hentry, market, hgroup, _⟩ := hnets.plans plan hplan
  obtain ⟨admission, hadmission⟩ := List.exists_mem_of_ne_nil _ (mem_grouped.mp hentry).2
  obtain ⟨hmem, hinstrument⟩ := mem_groupOf.mp hadmission
  exact ⟨admission, hmem, hgroup.instrument_eq.trans hinstrument.symm⟩

/-- So the risk model covers it. -/
theorem covered_plan {context : SizingContext} {signals : List Signal} {sized : SizingLoop} {netting : Netting}
    (hrun : SizedRun context signals sized)
    (hnets : NetsGroups context.marketState (grouped sized.admitted).entries netting) {plan : NetOrderPlan}
    (hplan : plan ∈ netting.plans) : plan.symbol ∈ context.marketState.riskModel.symbols := by
  obtain ⟨admission, hmem, hsame⟩ := admission_of_plan hnets hplan
  rw [NetOrderPlan.symbol, hsame]
  exact (hrun.tradable admission hmem).2

/-- A decision on a well-formed account and market returns, where the band of risk fractions is usable. -/
theorem decide_returns (hband : UsableBand engine.policy.convictionParameters) {portfolioState : PortfolioState}
    {marketState : MarketState} {decidedAtUtc : DateTime}
    (hwell : WellFormed engine portfolioState marketState decidedAtUtc) (signals : List Signal)
    (correlationId : Uuid) (seed : ℤ) : ∃ batch,
      engine.decide signals portfolioState marketState decidedAtUtc correlationId seed = .ok batch := by
  rw [RiskEngine.decide]
  split
  · exact ⟨_, rfl⟩
  · obtain ⟨verdict, hverdict⟩ := evaluated_returns hwell.scope
    simp only [hverdict, bind, Except.bind]
    split
    · exact ⟨_, rfl⟩
    · next hunhalted =>
      have hbook := assessable_of_unhalted hunhalted
      obtain ⟨sized, hsized⟩ : ∃ sized, engine.sizeSignals ⟨portfolioState, marketState, decidedAtUtc, verdict⟩
          signals = .ok sized :=
        foldlM_returns (fun loop signal _ => sizeSignal_returns hband hwell hbook loop signal) _
      have hrun := sizeSignals_run hsized
      obtain ⟨netting, hnetting⟩ := net_returns hrun.oneEach
        (fun admission hadmission => (hrun.tradable admission hadmission).1) decidedAtUtc
      have hnets := net_netsGroups hnetting
      obtain ⟨concentration, hconcentration⟩ := assessProspective_returns engine hbook
        (fun plan hplan => covered_plan hrun hnets hplan) decidedAtUtc
      rw [hsized]
      dsimp only
      rw [hnetting]
      simp only [concludeBatch, hconcentration, bind, Except.bind]
      split
      · exact ⟨_, rfl⟩
      · obtain ⟨orders, horders⟩ := constructOrders_returns engine netting.plans decidedAtUtc
          correlationId seed
        obtain ⟨approved, happroved, _⟩ := exists_mapM (fun _ _ => True) fun admission hadmission =>
          (approvedAudit_returns engine hrun.oneEach hnets hadmission orders concentration decidedAtUtc
            verdict).imp fun audit haudit => ⟨haudit, trivial⟩
        rw [horders]
        dsimp only
        rw [happroved]
        exact ⟨_, rfl⟩

end

end RiskEngine

/-! ### Usable fractions -/

/-- Every calibrated risk fraction is in the band, in order, and one sizing accepts, so decisions return. -/
structure UsableFractions (parameters : ConvictionParameters) : Prop where
  inBand : ∀ (map : CalibrationMap) (conviction : Decimal), map.isFitted = true → 0 ≤ conviction →
    conviction ≤ 1 → ∃ calibrated fraction, map.calibrated conviction = .ok calibrated ∧
      riskFractionFor calibrated parameters = .ok fraction ∧
      parameters.riskFractionMinPerTrade ≤ fraction ∧ fraction ≤ parameters.riskFractionMaxPerTrade ∧
      ∀ sizing, ∃ accepted, withRiskFraction sizing fraction = .ok accepted
  monotone : ∀ low high lower higher, low ≤ high → riskFractionFor low parameters = .ok lower →
    riskFractionFor high parameters = .ok higher → lower ≤ higher
  decides : ∀ engine : RiskEngine, engine.policy.convictionParameters = parameters →
    ∀ portfolioState marketState decidedAtUtc, RiskEngine.WellFormed engine portfolioState marketState decidedAtUtc →
    ∀ signals correlationId seed, ∃ batch,
      engine.decide signals portfolioState marketState decidedAtUtc correlationId seed = .ok batch

theorem riskFractionFor_mono {parameters : ConvictionParameters} {low high lower higher : Decimal}
    (h : low ≤ high) (hlower : riskFractionFor low parameters = .ok lower)
    (hhigher : riskFractionFor high parameters = .ok higher) : lower ≤ higher := by
  simp only [riskFractionFor, bind_eq_ok, pure_eq_ok] at hlower hhigher
  obtain ⟨_, _, rfl⟩ := hlower
  obtain ⟨_, _, rfl⟩ := hhigher
  exact quantized_mono (bandPoint_mono parameters h)

/-- What a map of one bucket buys at either end of the band. -/
theorem UsableFractions.ends {parameters : ConvictionParameters} (h : UsableFractions parameters) :
    UsableBand parameters := by
  have hbottom : bottomMap.calibrated 0 = .ok 0 := by with_unfolding_all decide
  have htop : topMap.calibrated 0 = .ok 1 := by with_unfolding_all decide
  obtain ⟨zero, lower, hzero, hlower, hmin, _, haccepted⟩ :=
    h.inBand bottomMap 0 (by with_unfolding_all decide) le_rfl zero_le_one
  obtain ⟨one, upper, hone, hupper, _, hmax, _⟩ := h.inBand topMap 0 (by with_unfolding_all decide) le_rfl zero_le_one
  obtain rfl := Except.ok.inj (hbottom.symm.trans hzero)
  obtain rfl := Except.ok.inj (htop.symm.trans hone)
  rw [riskFractionFor_of_storable parameters ⟨le_rfl, zero_le_one, quantized_zero.symm⟩, bandPoint_zero] at hlower
  rw [riskFractionFor_of_storable parameters ⟨zero_le_one, le_rfl, quantized_one.symm⟩, bandPoint_one] at hupper
  obtain rfl := Except.ok.inj hlower
  obtain rfl := Except.ok.inj hupper
  refine ⟨?_, hmin, hmax⟩
  obtain ⟨accepted, haccepted⟩ := haccepted defaultSizingParameters
  by_contra hnone
  exact (withRiskFraction_pos haccepted).not_ge (quantized_zero ▸ quantized_mono (not_lt.mp hnone))

/-- The shipped parameters with nothing at the lower end of the band, which the constructor accepts. -/
def zeroEnded : ConvictionParameters := ⟨{ riskFractionMinPerTrade := 0 }, by decide +kernel⟩

def zeroEndedEngine : RiskEngine :=
  { majorsEngine with policy := { majorsEngine.policy with convictionParameters := zeroEnded } }

/-- The account of a strategy whose fitted map calibrates to nothing, with no position open. -/
def calibratedAccount : PortfolioState where
  portfolio := emptyPortfolio
  equityUsd := 10000
  strategies := Dict.empty.set "breakout" ⟨{ breakoutState.toStrategyStateFields with calibration := bottomMap },
    by decide +kernel⟩
  drawdownState := some undrawnPortfolio
  checked := by decide +kernel

/-- Nothing about the policy, the account or the market is malformed. -/
theorem calibrated_wellFormed : RiskEngine.WellFormed zeroEndedEngine calibratedAccount majorsMarket 0 where
  leverage := by with_unfolding_all decide
  scope := by
    intro state hstate
    obtain rfl := Option.some.inj hstate
    rfl
  records := by
    intro strategyId strategy hstrategy
    rw [calibratedAccount, Dict.get?_set, Dict.get?_empty] at hstrategy
    split at hstrategy
    · obtain rfl := Option.some.inj hstrategy
      exact ⟨fun state hstate => (by cases hstate), by with_unfolding_all decide, by with_unfolding_all decide,
        by with_unfolding_all decide⟩
    · cases hstrategy
  markets := by
    intro instrument market hmarket
    rw [majorsMarket, Dict.get?_set, Dict.get?_set, Dict.get?_empty] at hmarket
    split at hmarket
    · obtain rfl := Option.some.inj hmarket
      exact ⟨by with_unfolding_all decide, by with_unfolding_all decide⟩
    · split at hmarket
      · obtain rfl := Option.some.inj hmarket
        exact ⟨by with_unfolding_all decide, by with_unfolding_all decide⟩
      · cases hmarket

/-- No configured asset limit reaches more than half of the risk. -/
theorem maxAssetRiskShareRatio_le (limits : ConcentrationLimits) : limits.maxAssetRiskShareRatio ≤ 50 / 100 := by
  have h := limits.checked
  rw [ConcentrationLimitsFields.postInit, assertWithinCeilings_eq_ok_iff] at h
  obtain ⟨requested, hrequested, hle⟩ := h ("max_asset_risk_share_ratio", ⟨50 / 100⟩)
    (by simp [concentrationHardCeilings])
  have hreported : (submittedLimits [("max_cluster_risk_share_ratio", limits.maxClusterRiskShareRatio),
      ("max_asset_risk_share_ratio", limits.maxAssetRiskShareRatio)]).get? "max_asset_risk_share_ratio" =
        some limits.maxAssetRiskShareRatio := by
    simp [submittedLimits]
  rw [hreported] at hrequested
  obtain rfl := Option.some.inj hrequested
  exact hle

section

variable {model : RiskModel Decimal} {weight : String → Decimal} {symbol : String}

/-- A sum over the universe of a book of one name is that name's term. -/
theorem sum_symbols_alone (hsymbol : symbol ∈ model.symbols) {term : String → Decimal}
    (hterm : ∀ other, other ≠ symbol → term other = 0) : (model.symbols.map term).sum = term symbol := by
  rw [List.sum_map_eq_nsmul_single symbol term fun other hother _ => hterm other hother,
    List.count_eq_one_of_mem model.nodup_symbols hsymbol, one_nsmul]

/-- The only name of a book carries nine tenths of its risk at the least, whatever the root rounds away. -/
theorem riskShare_alone (hsymbol : symbol ∈ model.symbols) (hheld : weight symbol ≠ 0)
    (halone : ∀ other, other ≠ symbol → weight other = 0) : 9 / 10 ≤ riskShare model weight symbol := by
  have hvolatility := model.volatilityOf_pos hsymbol
  have hcovariance : bookCovariance model weight symbol =
      model.volatilityOf symbol * model.volatilityOf symbol * weight symbol := by
    rw [bookCovariance, sum_symbols_alone hsymbol fun other hother => by rw [halone other hother, mul_zero],
      model.covarianceBetween_self hsymbol]
  have hvariance : bookVariance model weight = weight symbol * bookCovariance model weight symbol :=
    sum_symbols_alone hsymbol fun other hother => by rw [halone other hother, zero_mul]
  have hpos : 0 < bookVariance model weight := by
    have hsquare : 0 < weight symbol * weight symbol := mul_self_pos.mpr hheld
    calc 0 < model.volatilityOf symbol * model.volatilityOf symbol * (weight symbol * weight symbol) :=
          mul_pos (mul_pos hvolatility hvolatility) hsquare
      _ = bookVariance model weight := by
          rw [hvariance, hcovariance]
          ring
  have hroot : 0 < root (bookVariance model weight) := NearRoot.root_pos hpos
  have hnear := NearRoot.root_mul_root_le hpos
  have hshare : riskShare model weight symbol =
      bookVariance model weight / (root (bookVariance model weight) * root (bookVariance model weight)) := by
    rw [riskShare, if_neg hpos.not_ge, contributionFor]
    dsimp only
    rw [← mul_div_assoc, div_div, ← hvariance]
  rw [hshare, le_div_iff₀ (mul_pos hroot hroot)]
  linarith

/-- So a book of one name is over every asset limit that the ceilings allow. -/
theorem breachesShare_alone (hsymbol : symbol ∈ model.symbols) (hheld : weight symbol ≠ 0)
    (halone : ∀ other, other ≠ symbol → weight other = 0) (limits : ConcentrationLimits) :
    BreachesShare model weight limits := by
  refine .inl ⟨symbol, hsymbol, hheld, ?_⟩
  calc limits.maxAssetRiskShareRatio ≤ 50 / 100 := maxAssetRiskShareRatio_le limits
    _ < 9 / 10 := by norm_num
    _ ≤ riskShare model weight symbol := riskShare_alone hsymbol hheld halone

end

namespace RiskEngine

/-- The decision has its signals sized and netted, so the concentration stage is next: trading is open, and the
    portfolio is not halted. -/
structure ReachesConcentration (engine : RiskEngine) (signals : List Signal) (portfolioState : PortfolioState)
    (marketState : MarketState) (decidedAtUtc : DateTime) (verdict : Option LimitVerdict) (sized : SizingLoop)
    (netting : Netting) : Prop where
  trading : ensureTrading engine.gate = .ok ()
  evaluates : evaluated portfolioState.drawdownState engine.policy.portfolioDrawdownBudgets = .ok verdict
  unhalted : portfolioHaltReason portfolioState marketState verdict = none
  sizes : engine.sizeSignals ⟨portfolioState, marketState, decidedAtUtc, verdict⟩ signals = .ok sized
  nets : net sized.admitted marketState decidedAtUtc = .ok netting

/-- The batch ends at the concentration stage, refused whole. -/
def StopsAtConcentration (batch : DecisionBatch) : Prop :=
  batch.stagesExecuted = stages.take 8 ∧ batch.orders = []

section

variable {engine : RiskEngine} {signals : List Signal} {portfolioState : PortfolioState} {marketState : MarketState}
  {decidedAtUtc : DateTime} {verdict : Option LimitVerdict} {sized : SizingLoop} {netting : Netting}

namespace ReachesConcentration

variable (h : ReachesConcentration engine signals portfolioState marketState decidedAtUtc verdict sized netting)

include h

theorem decide_eq (correlationId : Uuid) (seed : ℤ) :
    engine.decide signals portfolioState marketState decidedAtUtc correlationId seed =
      engine.concludeBatch ⟨portfolioState, marketState, decidedAtUtc, verdict⟩ sized netting correlationId
        seed := by
  rw [RiskEngine.decide, h.trading]
  simp only [h.evaluates, h.unhalted, h.sizes, h.nets, bind, Except.bind]

/-- A batch that reaches the stage stops there exactly where the prospective book is over a share limit. -/
theorem stops_iff {correlationId : Uuid} {seed : ℤ} {batch : DecisionBatch}
    (hdecided : engine.decide signals portfolioState marketState decidedAtUtc correlationId seed = .ok batch) :
    StopsAtConcentration batch ↔ BreachesShare marketState.riskModel
      (prospectiveWeight netting.plans portfolioState marketState) engine.policy.concentrationLimits := by
  rw [h.decide_eq] at hdecided
  simp only [concludeBatch, bind_eq_ok] at hdecided
  obtain ⟨concentration, hassessed, hdecided⟩ := hdecided
  rw [← assessProspective_refuses_iff hassessed]
  split at hdecided
  · next rejection hrejection =>
    obtain rfl := pure_eq_ok.mp hdecided
    refine iff_of_true ⟨rfl, ?_⟩ (by simp [hrejection])
    simp [DecisionBatch.orders, List.filterMap_append, List.filterMap_map]
  · next happroved =>
    simp only [bind_eq_ok] at hdecided
    obtain ⟨orders, _, approved, _, hdecided⟩ := hdecided
    obtain rfl := pure_eq_ok.mp hdecided
    refine iff_of_false (fun hstops => ?_) (by simp [happroved])
    cases hstops.1

theorem covered {plan : NetOrderPlan} (hplan : plan ∈ netting.plans) :
    plan.symbol ∈ marketState.riskModel.symbols :=
  covered_plan (sizeSignals_run h.sizes) (net_netsGroups h.nets) hplan

/-- Every plan is on the instrument of one of the signals. -/
theorem plan_of_signal {plan : NetOrderPlan} (hplan : plan ∈ netting.plans) :
    ∃ signal ∈ signals, plan.instrument = signal.instrument := by
  obtain ⟨admission, hmem, hsame⟩ := admission_of_plan (net_netsGroups h.nets) hplan
  have hkey := (sizeSignals_run h.sizes).rows.subset (List.mem_append_right _ (List.mem_map_of_mem
    (f := fun admission : Admitted => signalKey admission.signal) hmem))
  obtain ⟨signal, hsignal, hkeys⟩ := List.mem_map.mp hkey
  exact ⟨signal, hsignal, hsame.trans (congrArg (fun key => key.2.1) hkeys).symm⟩

/-- A batch of one signal nets to one plan at the most. -/
theorem plans_of_one {signal : Signal} (hone : signals = [signal]) {plan : NetOrderPlan}
    (hplan : plan ∈ netting.plans) : netting.plans = [plan] := by
  have hnodup : netting.planned.Nodup :=
    (net_netsGroups h.nets).inOrder.nodup (grouped sized.admitted).nodupKeys
  have hsame : ∀ other ∈ netting.plans, other.instrument = signal.instrument := by
    intro other hother
    obtain ⟨_, hsignal, hinstrument⟩ := h.plan_of_signal hother
    rw [hone] at hsignal
    rw [hinstrument, List.mem_singleton.mp hsignal]
  rw [Netting.planned] at hnodup
  generalize netting.plans = plans at hplan hnodup hsame ⊢
  rcases plans with _ | ⟨first, _ | ⟨second, rest⟩⟩
  · cases hplan
  · rw [List.mem_singleton.mp hplan]
  · have hboth : first.instrument = second.instrument :=
      (hsame first (by simp)).trans (hsame second (by simp)).symm
    simp [hboth] at hnodup

/-- The first order into an empty book is over the asset limit: its name carries all of the risk. -/
theorem breaches_of_flat {signal : Signal} (hone : signals = [signal])
    (hflat : portfolioState.portfolio.openPositions = []) {plan : NetOrderPlan} (hplan : plan ∈ netting.plans)
    (hvenue : plan.hasVenuePortion) : BreachesShare marketState.riskModel
      (prospectiveWeight netting.plans portfolioState marketState) engine.policy.concentrationLimits := by
  have hweight : ∀ symbol, prospectiveWeight netting.plans portfolioState marketState symbol =
      (if plan.symbol = symbol then plan.venueSignedNotionalQuote else 0) / portfolioState.equityUsd := by
    intro symbol
    rw [prospectiveWeight, heldNotionalOf, hflat, plannedNotionalOf, h.plans_of_one hone hplan, List.map_nil,
      List.sum_nil, List.map_singleton, List.sum_singleton, zero_add]
  have hequity := (assessable_of_unhalted h.unhalted).solvent
  refine breachesShare_alone (h.covered hplan) ?_ (fun other hother => ?_) _
  · obtain ⟨entry, _, market, hgroup, _⟩ := (net_netsGroups h.nets).plans plan hplan
    have hquantity : plan.netSignedBaseQuantity ≠ 0 := of_decide_eq_true hvenue
    have hprice : plan.referenceQuotePrice = market.markUsd := by
      rw [(netRequests_plan hgroup.planned).2.2, if_pos hquantity]
    rw [hweight, if_pos rfl, NetOrderPlan.venueSignedNotionalQuote, hprice]
    exact div_ne_zero (mul_ne_zero hquantity market.markUsd_pos.ne') hequity.ne'
  · rw [hweight, if_neg (Ne.symm hother), zero_div]

end ReachesConcentration

end

end RiskEngine

/-- The account of a strategy whose fitted map calibrates to certainty, with no position open. -/
def fittedAccount : PortfolioState where
  portfolio := emptyPortfolio
  equityUsd := 10000
  strategies := Dict.empty.set "breakout" ⟨{ breakoutState.toStrategyStateFields with calibration := topMap },
    by decide +kernel⟩
  drawdownState := some undrawnPortfolio
  checked := by decide +kernel

/-- A long on the empty book is sized and netted to an order that the venue would take, and is refused. -/
theorem opening_reachesConcentration : ∃ verdict sized netting batch,
    RiskEngine.ReachesConcentration majorsEngine [openingLong] fittedAccount majorsMarket 0 verdict sized netting ∧
      (∃ plan ∈ netting.plans, plan.hasVenuePortion ∧
        plan.instrument.meetsMinNotional |plan.netSignedBaseQuantity| bitcoinMarket.markUsd) ∧
      majorsEngine.decide [openingLong] fittedAccount majorsMarket 0 7 1 = .ok batch ∧ batch.orders = [] := by
  have hrun : (do
      let verdict ← RiskEngine.evaluated fittedAccount.drawdownState majorsEngine.policy.portfolioDrawdownBudgets
      let sized ← majorsEngine.sizeSignals ⟨fittedAccount, majorsMarket, 0, verdict⟩ [openingLong]
      let netting ← RiskEngine.net sized.admitted majorsMarket 0
      return (RiskEngine.portfolioHaltReason fittedAccount majorsMarket verdict, netting.plans.any fun plan =>
        plan.hasVenuePortion && plan.instrument.meetsMinNotional |plan.netSignedBaseQuantity|
          bitcoinMarket.markUsd)) = Except.ok (none, true) := by
    decide +kernel
  have hrefused : (majorsEngine.decide [openingLong] fittedAccount majorsMarket 0 7 1).map
      (fun batch => batch.orders) = .ok [] := by decide +kernel
  obtain ⟨batch, hdecided, horders⟩ := map_eq_ok.mp hrefused
  simp only [bind_eq_ok, pure_eq_ok] at hrun
  obtain ⟨verdict, hverdict, sized, hsized, netting, hnetting, hfacts⟩ := hrun
  obtain ⟨hunhalted, hplans⟩ := Prod.mk.inj hfacts
  obtain ⟨plan, hplan, hvenue⟩ := List.any_eq_true.mp hplans
  rw [Bool.and_eq_true] at hvenue
  exact ⟨verdict, sized, netting, batch, ⟨by with_unfolding_all decide, hverdict, hunhalted, hsized, hnetting⟩,
    ⟨plan, hplan, hvenue⟩, hdecided, horders⟩

end FinanceKing.Risk
