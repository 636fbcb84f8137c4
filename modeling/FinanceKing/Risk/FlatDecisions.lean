import FinanceKing.Risk.DecisionAccounting
import FinanceKing.Risk.ProspectiveBook

/-! A batch of flat signals. The exposure check passes every one of them, and each instrument is closed once,
    in whole lots; the concentration stage then judges the book that remains, and refuses the closings with it. -/

namespace FinanceKing.Risk

open Lib Strategies

namespace RiskEngine

/-! ### What a batch would close -/

section

variable (engine : RiskEngine) (portfolioState : PortfolioState) (marketState : MarketState)
  (decidedAtUtc : DateTime) (signals : List Signal)

/-- Whether a strategy is within its own drawdown budgets. -/
def unhalted (strategy : StrategyState) : Bool :=
  match evaluated strategy.drawdownState engine.policy.strategyDrawdownBudgets with
  | .ok drawdown => (drawdown.bind fun verdict => verdict.breach).isNone
  | .error _ => false

/-- Whether a flat signal is evaluated: it is on time, from a recorded strategy that is not halted. -/
def closes (signal : Signal) : Bool :=
  signal.decidedAtUtc ≤ decidedAtUtc ∧ (portfolioState.strategies.get? signal.strategyId).any engine.unhalted

/-- Whether some signal closes an instrument. -/
def closing (instrument : Instrument) : Bool :=
  signals.any fun signal => signal.instrument = instrument ∧ engine.closes portfolioState decidedAtUtc signal

/-- What closing an instrument trades: the position, in whole lots. -/
def closingLots (instrument : Instrument) : Decimal :=
  instrument.quantizeBaseQuantity (-heldQuantity portfolioState.portfolio instrument)

/-- Whether an instrument's closing survives netting: nothing for the venue, or at least its floor. -/
def survives (instrument : Instrument) : Bool :=
  engine.closing portfolioState decidedAtUtc signals instrument ∧
    (closingLots portfolioState instrument = 0 ∨ instrument.meetsMinNotional
      |closingLots portfolioState instrument| (markOf marketState.marksUsd instrument))

/-- What is left of an instrument once the batch has closed what it can. -/
def remainingQuantity (instrument : Instrument) : Decimal :=
  heldQuantity portfolioState.portfolio instrument +
    if engine.survives portfolioState marketState decidedAtUtc signals instrument then
      closingLots portfolioState instrument else 0

/-- A symbol's weight in what is left. -/
def remainingWeight (symbol : String) : Decimal :=
  (portfolioState.portfolio.openPositions.map fun position =>
    if position.instrument.symbol = symbol then
      engine.remainingQuantity portfolioState marketState decidedAtUtc signals position.instrument *
        markOf marketState.marksUsd position.instrument else 0).sum / portfolioState.equityUsd

end

/-! ### The sizing loop over flat signals -/

variable {engine : RiskEngine} {context : SizingContext}

/-- A flat signal on an instrument that can be traded and priced. -/
structure FlatSignal (engine : RiskEngine) (marketState : MarketState) (signal : Signal) : Prop where
  flat : signal.direction = .flat
  tradable : signal.instrument.symbol ∈ engine.policy.tradableSymbols
  covered : signal.instrument.symbol ∈ marketState.riskModel.symbols
  priced : (marketState.instruments.get? signal.instrument).isSome

/-- The exposure check passes a flat signal. -/
theorem exposureOf_flat {signal : Signal} (h : FlatSignal engine context.marketState signal)
    {exposure : ExposureAssessment} (hexposure : exposureOf engine context signal = .ok exposure) :
    exposure.rejection = none := by
  have htradable : ¬signal.instrument.symbol ∉ (engine.preTradeContext context).tradableSymbols :=
    not_not.mpr h.tradable
  rw [exposureOf, validatePreTrade, if_neg htradable, bind_eq_ok] at hexposure
  obtain ⟨_, _, hexposure⟩ := hexposure
  rw [if_pos h.flat] at hexposure
  obtain rfl := pure_eq_ok.mp hexposure
  rfl

/-- The requests on an instrument, summed. -/
def requested (admitted : List Admitted) (instrument : Instrument) : Decimal :=
  rawNet ((groupOf admitted instrument).map fun admission => admission.request)

/-- What the loop holds after some flat signals: one whole closing on each instrument that has one. -/
structure FlatRun (engine : RiskEngine) (context : SizingContext) (signals : List Signal)
    (loop : SizingLoop) : Prop where
  requests : ∀ instrument, requested loop.admitted instrument =
    if groupOf loop.admitted instrument = [] then 0
    else -heldQuantity context.portfolioState.portfolio instrument
  remaining : ∀ instrument, loop.remainingToClose.get? instrument =
    if groupOf loop.admitted instrument = [] then none else some 0
  admitted : ∀ instrument, groupOf loop.admitted instrument ≠ [] ↔
    engine.closing context.portfolioState context.decidedAtUtc signals instrument = true
  seen : ∀ key ∈ loop.seen, (context.portfolioState.strategies.get? key.1).any engine.unhalted = true →
    groupOf loop.admitted key.2 ≠ []
  atAdmission : ∀ audit ∈ loop.audits, audit.stage = .signalAdmission

namespace FlatRun

variable {signals : List Signal} {loop : SizingLoop} {signal : Signal}

theorem closing_concat (instrument : Instrument) :
    engine.closing context.portfolioState context.decidedAtUtc (signals ++ [signal]) instrument = true ↔
      engine.closing context.portfolioState context.decidedAtUtc signals instrument = true ∨
      signal.instrument = instrument ∧
        engine.closes context.portfolioState context.decidedAtUtc signal = true := by
  rw [closing, List.any_append, Bool.or_eq_true]
  simp [closing]

/-- A refused signal that closes nothing new. -/
theorem refuse (h : FlatRun engine context signals loop) {rejection : Rejection} {audit : SignalAudit}
    (hrow : RefusedRow signal .signalAdmission rejection audit)
    (hnothing : engine.closes context.portfolioState context.decidedAtUtc signal = true →
      groupOf loop.admitted signal.instrument ≠ []) :
    FlatRun engine context (signals ++ [signal]) (loop.refuse audit rejection) where
  requests := h.requests
  remaining := h.remaining
  admitted := by
    intro instrument
    rw [closing_concat, ← h.admitted]
    refine ⟨Or.inl, fun hor => hor.elim id ?_⟩
    rintro ⟨rfl, hcloses⟩
    exact hnothing hcloses
  seen := h.seen
  atAdmission := by
    intro other hother
    rcases List.mem_append.mp hother with hold | hlast
    · exact h.atAdmission other hold
    · rw [List.mem_singleton.mp hlast]
      exact hrow.atStage

/-- A halted strategy's signal is seen, and closes nothing. -/
theorem see (h : FlatRun engine context signals loop)
    (hhalted : (context.portfolioState.strategies.get? signal.strategyId).any engine.unhalted = false) :
    FlatRun engine context signals (loop.see signal) where
  requests := h.requests
  remaining := h.remaining
  admitted := h.admitted
  seen := by
    intro key hkey hunhalted
    rcases List.mem_cons.mp hkey with rfl | hold
    · rw [hhalted] at hunhalted
      cases hunhalted
    · exact h.seen key hold hunhalted
  atAdmission := h.atAdmission

theorem groupOf_concat (admitted : List Admitted) (admission : Admitted) (instrument : Instrument) :
    groupOf (admitted ++ [admission]) instrument = groupOf admitted instrument ++
      if admission.signal.instrument = instrument then [admission] else [] := by
  rw [groupOf, List.filter_append, List.filter_singleton]
  simp [groupOf]

/-- The first closing of an instrument asks for all of it, a later one for nothing. -/
theorem accept (h : FlatRun engine context signals loop) {admission : Admitted}
    (hsignal : admission.signal = signal)
    (hcloses : engine.closes context.portfolioState context.decidedAtUtc signal = true)
    (hrequest : admission.request.signedBaseQuantity =
      -openQuantity context loop.remainingToClose signal.instrument) :
    FlatRun engine context (signals ++ [signal]) { (loop.see signal).accept admission with
      remainingToClose := loop.remainingToClose.set signal.instrument 0 } where
  requests := by
    intro instrument
    simp only [SizingLoop.accept, SizingLoop.see, requested, groupOf_concat, hsignal]
    by_cases hsame : signal.instrument = instrument
    · have hquantity : openQuantity context loop.remainingToClose instrument =
          if groupOf loop.admitted instrument = [] then
            heldQuantity context.portfolioState.portfolio instrument else 0 := by
        rw [openQuantity, h.remaining]
        split
        · rfl
        · rfl
      have hsum := h.requests instrument
      rw [requested] at hsum
      subst hsame
      rw [if_pos rfl, if_neg (by simp), List.map_append, rawNet, List.map_append, List.sum_append, ← rawNet,
        hsum, List.map_singleton, List.map_singleton, List.sum_singleton, hrequest, hquantity]
      split <;> simp
    · rw [if_neg hsame, List.append_nil]
      exact h.requests instrument
  remaining := by
    intro instrument
    simp only [SizingLoop.accept, SizingLoop.see, groupOf_concat, hsignal]
    rw [Dict.get?_set]
    by_cases hsame : instrument = signal.instrument
    · rw [if_pos hsame, if_pos hsame.symm, if_neg (by simp)]
    · rw [if_neg hsame, if_neg (Ne.symm hsame), List.append_nil]
      exact h.remaining instrument
  admitted := by
    intro instrument
    simp only [SizingLoop.accept, SizingLoop.see, groupOf_concat, hsignal]
    rw [closing_concat, ← h.admitted]
    by_cases hsame : signal.instrument = instrument
    · simp [hsame, hcloses]
    · simp [hsame]
  seen := by
    intro key hkey hunhalted
    simp only [SizingLoop.accept, SizingLoop.see, groupOf_concat, hsignal]
    rcases List.mem_cons.mp hkey with rfl | hold
    · simp
    · exact fun hnil => h.seen key hold hunhalted (List.append_eq_nil_iff.mp hnil).1
  atAdmission := h.atAdmission

/-- One flat signal. -/
theorem step {next : SizingLoop} (h : FlatRun engine context signals loop)
    (hflat : FlatSignal engine context.marketState signal)
    (hstep : SizedTo engine context signal loop next) : FlatRun engine context (signals ++ [signal]) next := by
  have hunhalted : ∀ {strategy drawdown}, context.portfolioState.strategies.get? signal.strategyId = some strategy →
      evaluated strategy.drawdownState engine.policy.strategyDrawdownBudgets = .ok drawdown →
      (context.portfolioState.strategies.get? signal.strategyId).any engine.unhalted =
        (drawdown.bind fun verdict => verdict.breach).isNone := by
    intro strategy drawdown hrecorded hevaluated
    rw [hrecorded, Option.any_some, unhalted, hevaluated]
  cases hstep with
  | inadmissible refusal row =>
    refine h.refuse row fun hcloses => ?_
    rw [closes, Bool.decide_and, Bool.and_eq_true, decide_eq_true_eq] at hcloses
    obtain ⟨hpast, hrecord⟩ := hcloses
    obtain ⟨market, hmarket⟩ := Option.isSome_iff_exists.mp hflat.priced
    obtain ⟨strategy, hstrategy, _⟩ := (Option.any_eq_true _ _).mp (of_decide_eq_true hrecord)
    by_contra hnone
    refine refusal (admissionRefusal_eq_none_iff.mpr ⟨strategy, market, fun hseen => ?_, hpast, hstrategy, hmarket,
      hflat.covered⟩)
    exact h.seen _ hseen (of_decide_eq_true hrecord) hnone
  | @refused strategy market stage rejection audit admissible row cause =>
    cases cause with
    | @halted drawdown _ hevaluated hbreached =>
      have hhalted : (context.portfolioState.strategies.get? signal.strategyId).any engine.unhalted = false := by
        rw [hunhalted admissible.recorded hevaluated, Option.isNone_eq_false_iff, Option.isSome_iff_ne_none]
        exact hbreached
      refine (h.see hhalted).refuse row fun hcloses => ?_
      simp [closes, hhalted] at hcloses
    | overLimit validated refused =>
      rw [exposureOf_flat hflat validated] at refused
      cases refused
    | unsized directional _ => exact absurd hflat.flat directional
  | closed admissible admitted flat request =>
    refine h.accept admitted.ofSignal ?_ request
    have hopen := hunhalted admissible.recorded admitted.evaluated
    rw [admitted.unbreached] at hopen
    simp [closes, admissible.notFuture, hopen]
  | sized _ _ directional _ => exact absurd hflat.flat directional

end FlatRun

theorem sizeSignals_flat {signals : List Signal} {loop : SizingLoop}
    (hflat : ∀ signal ∈ signals, FlatSignal engine context.marketState signal)
    (h : engine.sizeSignals context signals = .ok loop) : FlatRun engine context signals loop := by
  have hrun : (∀ signal ∈ signals, FlatSignal engine context.marketState signal) →
      FlatRun engine context signals loop := by
    refine sizeSignals_induction (P := fun signals loop =>
      (∀ signal ∈ signals, FlatSignal engine context.marketState signal) →
        FlatRun engine context signals loop) (fun _ => ?_) (fun signals signal loop next hrun hstep hall => ?_) h
    · exact ⟨fun _ => rfl, fun _ => rfl, fun _ => ⟨fun hne => absurd rfl hne, fun hnone => (by cases hnone)⟩,
        List.forall_mem_nil _, List.forall_mem_nil _⟩
    · exact (hrun fun other hother => hall other (List.mem_append_left _ hother)).step
        (hall signal (by simp)) hstep
  exact hrun hflat

/-! ### The book that remains -/

section

variable {signals : List Signal} {sized : SizingLoop} {netting : Netting}

/-- A plan for a closing: its lots, priced at the mark. -/
structure ClosesBy (context : SizingContext) (plan : NetOrderPlan) : Prop where
  lots : plan.netSignedBaseQuantity = closingLots context.portfolioState plan.instrument
  notional : plan.venueSignedNotionalQuote = closingLots context.portfolioState plan.instrument *
    markOf context.marketState.marksUsd plan.instrument

theorem FlatRun.closesBy (h : FlatRun engine context signals sized) {entry : Instrument × List Admitted}
    (hentry : entry ∈ (grouped sized.admitted).entries) {plan : NetOrderPlan} {market : InstrumentMarketState}
    (hplans : PlansGroup context.marketState entry plan market) : ClosesBy context plan := by
  obtain ⟨hgroup, hsome⟩ := mem_grouped.mp hentry
  obtain ⟨hinstrument, hnet, hreference⟩ := netRequests_plan hplans.planned
  have hraw := h.requests entry.1
  rw [if_neg hsome, requested, ← hgroup] at hraw
  have hlots : plan.netSignedBaseQuantity = closingLots context.portfolioState plan.instrument := by
    rw [hnet, hraw, hinstrument]
    rfl
  refine ⟨hlots, ?_⟩
  rw [NetOrderPlan.venueSignedNotionalQuote, hreference, ← hlots, hinstrument, markOf_marksUsd hplans.priced]
  split
  · rfl
  · next hzero =>
    rw [not_not.mp hzero, zero_mul, zero_mul]

/-- The floor of a closing is the one that decides whether it survives. -/
theorem ClosesBy.meetsFloor_iff {plan : NetOrderPlan} (h : ClosesBy context plan)
    {market : InstrumentMarketState}
    (hmarket : context.marketState.instruments.get? plan.instrument = some market) :
    MeetsFloor market plan ↔ closingLots context.portfolioState plan.instrument = 0 ∨
      plan.instrument.meetsMinNotional |closingLots context.portfolioState plan.instrument|
        (markOf context.marketState.marksUsd plan.instrument) = true := by
  rw [MeetsFloor, NetOrderPlan.hasVenuePortion, decide_eq_true_eq, h.lots, markOf_marksUsd hmarket,
    or_iff_not_imp_left]

/-- The planned instruments are the ones whose closing survives. -/
theorem FlatRun.planned_iff (h : FlatRun engine context signals sized)
    (hnets : NetsGroups context.marketState (grouped sized.admitted).entries netting) (instrument : Instrument) :
    instrument ∈ netting.planned ↔ engine.survives context.portfolioState context.marketState
      context.decidedAtUtc signals instrument = true := by
  rw [survives, decide_eq_true_eq]
  constructor
  · intro hmem
    obtain ⟨plan, hplan, rfl⟩ := List.mem_map.mp hmem
    obtain ⟨entry, hentry, market, hplans, hfloor⟩ := hnets.plans plan hplan
    have hkey := hplans.instrument_eq
    have hpriced := hplans.priced
    rw [← hkey] at hpriced
    refine ⟨(h.admitted _).mp ?_, ((h.closesBy hentry hplans).meetsFloor_iff hpriced).mp hfloor⟩
    rw [hkey]
    exact (mem_grouped.mp hentry).2
  · rintro ⟨hclosing, hfloor⟩
    have hentry : (instrument, groupOf sized.admitted instrument) ∈ (grouped sized.admitted).entries :=
      mem_grouped.mpr ⟨rfl, (h.admitted instrument).mpr hclosing⟩
    by_contra hunplanned
    obtain ⟨plan, market, hplans, hbelow⟩ := hnets.refused _ hentry hunplanned
    have hkey : plan.instrument = instrument := hplans.instrument_eq
    have hpriced := hplans.priced
    rw [← hkey] at hpriced hfloor
    exact hbelow (((h.closesBy hentry hplans).meetsFloor_iff hpriced).mpr hfloor)

theorem sum_map_filter (p : Instrument → Bool) (f : Instrument → Decimal) (instruments : List Instrument) :
    ((instruments.filter p).map f).sum = (instruments.map fun instrument => if p instrument then f instrument else 0).sum := by
  induction instruments with
  | nil => rfl
  | cons instrument instruments ih =>
    rw [List.filter_cons, List.map_cons, List.sum_cons, ← ih]
    split
    · rw [List.map_cons, List.sum_cons]
    · rw [zero_add]

/-- The prospective book of a flat batch is the book that remains. -/
theorem FlatRun.prospective_eq (h : FlatRun engine context signals sized)
    (hheld : ∀ signal ∈ signals, heldQuantity context.portfolioState.portfolio signal.instrument ≠ 0)
    (hnets : NetsGroups context.marketState (grouped sized.admitted).entries netting) :
    prospectiveWeight netting.plans context.portfolioState context.marketState =
      engine.remainingWeight context.portfolioState context.marketState context.decidedAtUtc signals := by
  funext symbol
  set portfolio := context.portfolioState.portfolio with hportfolio
  have hopen : (portfolio.openPositions.map fun position => position.instrument).Nodup :=
    portfolio.nodup_instruments.sublist (List.filter_sublist.map _)
  have hperm : netting.planned.Perm ((portfolio.openPositions.map fun position => position.instrument).filter
      (engine.survives context.portfolioState context.marketState context.decidedAtUtc signals)) := by
    refine (List.perm_ext_iff_of_nodup (hnets.inOrder.nodup (grouped sized.admitted).nodupKeys)
      (hopen.filter _)).mpr fun instrument => ?_
    rw [h.planned_iff hnets, List.mem_filter, iff_and_self]
    intro hsurvives
    rw [survives, decide_eq_true_eq, closing, List.any_eq_true] at hsurvives
    obtain ⟨⟨signal, hsignal, hcloses⟩, _⟩ := hsurvives
    rw [decide_eq_true_eq] at hcloses
    obtain ⟨position, hposition, hinstrument⟩ := open_of_heldQuantity_ne (hcloses.1 ▸ hheld signal hsignal)
    exact List.mem_map.mpr ⟨position, hposition, hinstrument⟩
  have hplanned : plannedNotionalOf netting.plans symbol =
      (portfolio.openPositions.map fun position =>
        if engine.survives context.portfolioState context.marketState context.decidedAtUtc signals
            position.instrument then
          if position.instrument.symbol = symbol then closingLots context.portfolioState position.instrument *
            markOf context.marketState.marksUsd position.instrument else 0
        else 0).sum := by
    have hplans : (netting.plans.map fun plan =>
        if plan.symbol = symbol then plan.venueSignedNotionalQuote else 0) =
        netting.planned.map fun instrument =>
          if instrument.symbol = symbol then closingLots context.portfolioState instrument *
            markOf context.marketState.marksUsd instrument else 0 := by
      rw [Netting.planned, List.map_map]
      refine List.map_congr_left fun plan hplan => ?_
      obtain ⟨entry, hentry, market, hgroup, _⟩ := hnets.plans plan hplan
      rw [(h.closesBy hentry hgroup).notional]
      rfl
    rw [plannedNotionalOf, hplans, (hperm.map _).sum_eq, sum_map_filter, List.map_map]
    rfl
  rw [prospectiveWeight, remainingWeight, hplanned, heldNotionalOf, ← List.sum_map_add]
  refine congrArg (· / _) (congrArg List.sum (List.map_congr_left fun position hposition => ?_))
  rw [remainingQuantity, heldQuantity_of_mem (List.mem_of_mem_filter hposition)]
  by_cases hsymbol : position.instrument.symbol = symbol
  · simp only [if_pos hsymbol]
    split <;> ring
  · simp [hsymbol]

end

/-! ### The decision on a flat batch -/

/-- No signal is refused for an exposure or a concentration limit. -/
def RefusesNoReduction (batch : DecisionBatch) : Prop :=
  ∀ audit ∈ batch.audits, audit.verdict = .rejected → audit.stage ≠ .exposure ∧ audit.stage ≠ .concentration

/-- A decision on flat signals that close what is held, with trading open and no drawdown budget breached. -/
structure FlatDecision (engine : RiskEngine) (signals : List Signal) (portfolioState : PortfolioState)
    (marketState : MarketState) (decidedAtUtc : DateTime) (correlationId : Uuid) (seed : ℤ)
    (batch : DecisionBatch) : Prop where
  trading : ensureTrading engine.gate = .ok ()
  unbreached : ∀ verdict, evaluated portfolioState.drawdownState engine.policy.portfolioDrawdownBudgets =
    .ok verdict → (verdict.bind fun verdict => verdict.breach) = none
  flat : ∀ signal ∈ signals, FlatSignal engine marketState signal
  held : ∀ signal ∈ signals, heldQuantity portfolioState.portfolio signal.instrument ≠ 0
  decided : engine.decide signals portfolioState marketState decidedAtUtc correlationId seed = .ok batch

/-- A verdict without a breach halts nothing. -/
theorem portfolioHaltReason_unbreached {portfolioState : PortfolioState} {marketState : MarketState}
    {verdict : Option LimitVerdict} (h : (verdict.bind fun verdict => verdict.breach) = none) :
    portfolioHaltReason portfolioState marketState verdict =
      portfolioHaltReason portfolioState marketState none := by
  rw [portfolioHaltReason, portfolioHaltReason, h]
  rfl

/-- Something goes on from netting exactly when something is planned. -/
theorem netted_eq_nil_iff {admitted : List Admitted} {marketState : MarketState} {netting : Netting}
    (h : NetsGroups marketState (grouped admitted).entries netting) :
    netting.netted = [] ↔ netting.planned = [] := by
  constructor
  · intro hnone
    by_contra hsome
    obtain ⟨instrument, hmem⟩ := List.exists_mem_of_ne_nil _ hsome
    obtain ⟨entry, hentry, rfl⟩ := List.mem_map.mp (h.inOrder.subset hmem)
    have hgroup := netted_filter h hentry hmem
    rw [hnone, List.filter_nil] at hgroup
    have hne := (mem_grouped.mp hentry).2
    rw [← (mem_grouped.mp hentry).1] at hne
    exact hne hgroup.symm
  · intro hnone
    rw [h.netted, hnone]
    simp

/-- A concluded flat batch refuses a reduction exactly where something goes on and the remaining book is over a
    share limit. -/
theorem FlatRun.concludeBatch_iff {signals : List Signal} {sized : SizingLoop} {netting : Netting}
    {batch : DecisionBatch} (h : FlatRun engine context signals sized)
    (hheld : ∀ signal ∈ signals, heldQuantity context.portfolioState.portfolio signal.instrument ≠ 0)
    (hnets : NetsGroups context.marketState (grouped sized.admitted).entries netting) {correlationId : Uuid}
    {seed : ℤ} (hbatch : engine.concludeBatch context sized netting correlationId seed = .ok batch) :
    RefusesNoReduction batch ↔ netting.netted = [] ∨ ¬BreachesShare context.marketState.riskModel
      (engine.remainingWeight context.portfolioState context.marketState context.decidedAtUtc signals)
      engine.policy.concentrationLimits := by
  have hearlier : ∀ audit ∈ refusedRows engine context sized netting,
      audit.stage ≠ .exposure ∧ audit.stage ≠ .concentration := by
    intro audit haudit
    rcases List.mem_append.mp haudit with hsized | hnetted
    · rw [h.atAdmission audit hsized]
      decide
    · obtain ⟨entry, _, rfl⟩ := List.mem_map.mp hnetted
      exact ⟨Stage.noConfusion, Stage.noConfusion⟩
  simp only [concludeBatch, bind_eq_ok] at hbatch
  obtain ⟨concentration, hassessed, hbatch⟩ := hbatch
  have hrefuses := assessProspective_refuses_iff hassessed
  rw [h.prospective_eq hheld hnets] at hrefuses
  rw [← hrefuses]
  split at hbatch
  · next rejection hrejection =>
    obtain rfl := pure_eq_ok.mp hbatch
    rw [hrejection]
    constructor
    · intro hrefusesNone
      refine .inl (List.eq_nil_iff_forall_not_mem.mpr fun admission hadmission => ?_)
      exact (hrefusesNone _ (List.mem_append_right _ (List.mem_map_of_mem hadmission)) rfl).2 rfl
    · rintro (hnone | hunrefused)
      · intro audit haudit _
        rcases List.mem_append.mp haudit with hrefused | hnetted
        · exact hearlier audit hrefused
        · rw [hnone] at hnetted
          cases hnetted
      · exact absurd (Option.some_ne_none _) hunrefused
  · next happroved =>
    simp only [bind_eq_ok] at hbatch
    obtain ⟨orders, _, approved, hrows, hbatch⟩ := hbatch
    obtain rfl := pure_eq_ok.mp hbatch
    refine iff_of_true (fun audit haudit hrejected => ?_) (.inr (by simp [happroved]))
    rcases List.mem_append.mp haudit with hrefused | hlast
    · exact hearlier audit hrefused
    · obtain ⟨admission, _, hrow⟩ := exists_left_of_forall₂ (mapM_eq_ok_iff.mp hrows) hlast
      rw [(approvedAudit_row hrow).isApproved] at hrejected
      cases hrejected

end RiskEngine

/-! ### One of two majors closed -/

/-- The ether position alone is closed; bitcoin stays. -/
def closeEther : List Signal := [⟨closeOf ether, closeOf_ether_checked⟩]

theorem closing_is_flat {signals : List Signal} (h : ∀ signal ∈ signals,
    signal.direction = .flat ∧ (signal.instrument = Instrument.sample ∨ signal.instrument = ether)) :
    (∀ signal ∈ signals, RiskEngine.FlatSignal majorsEngine majorsMarket signal) ∧
      ∀ signal ∈ signals, heldQuantity majorsAccount.portfolio signal.instrument ≠ 0 := by
  refine ⟨fun signal hsignal => ?_, fun signal hsignal => ?_⟩
  · obtain ⟨hflat, hinstrument | hinstrument⟩ := h signal hsignal
    · constructor
      · exact hflat
      all_goals rw [hinstrument]; decide +kernel
    · constructor
      · exact hflat
      all_goals rw [hinstrument]; decide +kernel
  · rcases (h signal hsignal).2 with hinstrument | hinstrument
    all_goals rw [hinstrument]; decide +kernel

/-- A decision on some closings of the two majors. -/
theorem majors_flatDecision {signals : List Signal} (h : ∀ signal ∈ signals,
    signal.direction = .flat ∧ (signal.instrument = Instrument.sample ∨ signal.instrument = ether))
    {batch : DecisionBatch} (hdecided : majorsEngine.decide signals majorsAccount majorsMarket 0 7 1 = .ok batch) :
    RiskEngine.FlatDecision majorsEngine signals majorsAccount majorsMarket 0 7 1 batch := by
  obtain ⟨hflat, hheld⟩ := closing_is_flat h
  refine ⟨by with_unfolding_all decide, fun verdict hverdict => ?_, hflat, hheld, hdecided⟩
  have hbreach : (RiskEngine.evaluated majorsAccount.drawdownState
      majorsEngine.policy.portfolioDrawdownBudgets).map
      (fun verdict => verdict.bind fun verdict => verdict.breach) = .ok none := by with_unfolding_all decide
  rw [hverdict] at hbreach
  exact Except.ok.inj hbreach

end FinanceKing.Risk
