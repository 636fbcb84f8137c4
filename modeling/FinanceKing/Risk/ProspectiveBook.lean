import FinanceKing.Risk.Book
import FinanceKing.Risk.Concentration
import FinanceKing.Risk.Engine
import FinanceKing.Risk.EngineNetting

/-! The book a decision assesses: what is held and what every plan would add, symbol by symbol, over equity. -/

namespace FinanceKing.Risk

open Lib Strategies

namespace RiskEngine

/-- What the open positions in a symbol are worth, signed. -/
def heldNotionalOf (portfolioState : PortfolioState) (marketState : MarketState) (symbol : String) : Decimal :=
  (portfolioState.portfolio.openPositions.map fun position =>
    if position.instrument.symbol = symbol then
      position.signedBaseQuantity * markOf marketState.marksUsd position.instrument else 0).sum

/-- What some plans would add to a symbol. -/
def plannedNotionalOf (plans : List NetOrderPlan) (symbol : String) : Decimal :=
  (plans.map fun plan => if plan.symbol = symbol then plan.venueSignedNotionalQuote else 0).sum

/-- A symbol's weight in the book as it would stand. -/
def prospectiveWeight (plans : List NetOrderPlan) (portfolioState : PortfolioState) (marketState : MarketState)
    (symbol : String) : Decimal :=
  (heldNotionalOf portfolioState marketState symbol + plannedNotionalOf plans symbol) / portfolioState.equityUsd

theorem getD_addNotional (notional : Dict String Decimal) (symbol : String) (amount : Decimal) (key : String) :
    ((addNotional notional symbol amount).get? key).getD 0 =
      (notional.get? key).getD 0 + if symbol = key then amount else 0 := by
  rw [addNotional, Dict.get?_set]
  by_cases h : key = symbol
  · rw [if_pos h, if_pos h.symm, h, Option.getD_some]
  · rw [if_neg h, if_neg (Ne.symm h), add_zero]

theorem markOf_marksUsd {marketState : MarketState} {instrument : Instrument} {market : InstrumentMarketState}
    (h : marketState.instruments.get? instrument = some market) :
    markOf marketState.marksUsd instrument = market.markUsd := by
  rw [markOf, MarketState.marksUsd, Dict.get?_mapValues, h]
  rfl

/-- Pricing positions into the notional adds their signed worth. -/
theorem foldlM_addPosition {marketState : MarketState} (symbol : String) {positions : List Position} :
    ∀ {before after : Dict String Decimal}, positions.foldlM (addPosition marketState) before = .ok after →
    (after.get? symbol).getD 0 = (before.get? symbol).getD 0 + (positions.map fun position =>
      if position.instrument.symbol = symbol then
        position.signedBaseQuantity * markOf marketState.marksUsd position.instrument else 0).sum := by
  induction positions with
  | nil =>
    intro before after h
    obtain rfl := pure_eq_ok.mp h
    rw [List.map_nil, List.sum_nil, add_zero]
  | cons position positions ih =>
    intro before after h
    simp only [List.foldlM_cons, bind_eq_ok] at h
    obtain ⟨next, hnext, hrest⟩ := h
    rw [addPosition] at hnext
    split at hnext
    · exact absurd hnext raise_ne_ok
    · next market hmarket =>
      obtain rfl := Except.ok.inj hnext
      rw [ih hrest, getD_addNotional, List.map_cons, List.sum_cons, add_assoc, markOf_marksUsd hmarket]

theorem foldl_plans (symbol : String) : ∀ (plans : List NetOrderPlan) (before : Dict String Decimal),
    ((plans.foldl (fun notional plan => addNotional notional plan.symbol plan.venueSignedNotionalQuote)
      before).get? symbol).getD 0 = (before.get? symbol).getD 0 + plannedNotionalOf plans symbol
  | [], before => by rw [List.foldl_nil, plannedNotionalOf, List.map_nil, List.sum_nil, add_zero]
  | plan :: plans, before => by
    rw [List.foldl_cons, foldl_plans symbol plans, getD_addNotional, plannedNotionalOf, plannedNotionalOf,
      List.map_cons, List.sum_cons, add_assoc]

/-- The assessed weights are the prospective book's. -/
theorem weightOf_prospective {plans : List NetOrderPlan} {portfolioState : PortfolioState}
    {marketState : MarketState} {notional weights : Dict String Decimal}
    (hnotional : prospectiveNotional plans portfolioState marketState = .ok notional)
    (hweights : weightRatiosFromNotional notional portfolioState.equityUsd = .ok weights) :
    weightOf weights = prospectiveWeight plans portfolioState marketState := by
  funext symbol
  simp only [prospectiveNotional, bind_eq_ok, pure_eq_ok] at hnotional
  obtain ⟨held, hheld, rfl⟩ := hnotional
  simp only [weightRatiosFromNotional, bind_eq_ok, pure_eq_ok] at hweights
  obtain ⟨_, _, rfl⟩ := hweights
  have hsum := foldl_plans symbol plans held
  rw [foldlM_addPosition symbol hheld, Dict.get?_empty, Option.getD_none, zero_add] at hsum
  rw [weightOf, Dict.get?_mapValues, prospectiveWeight, heldNotionalOf, ← hsum]
  cases Dict.get? _ symbol with
  | none => simp
  | some notional => rfl

/-- A decision's concentration stage refuses exactly a prospective book over a share limit. -/
theorem assessProspective_refuses_iff {engine : RiskEngine} {plans : List NetOrderPlan}
    {portfolioState : PortfolioState} {marketState : MarketState} {decidedAtUtc : DateTime}
    {assessment : ConcentrationAssessment}
    (h : engine.assessProspective plans portfolioState marketState decidedAtUtc = .ok assessment) :
    assessment.rejection ≠ none ↔ BreachesShare marketState.riskModel
      (prospectiveWeight plans portfolioState marketState) engine.policy.concentrationLimits := by
  simp only [assessProspective, bind_eq_ok] at h
  obtain ⟨notional, hnotional, weights, hweights, h⟩ := h
  rw [assessConcentration_refuses_iff h, weightOf_prospective hnotional hweights]

end RiskEngine

/-! What the sizing loop owes the signals of a batch: a refused row, or an admission, for each of them. -/

/-- What a row and its signal have in common. -/
def signalKey (signal : Signal) : String × Instrument × Direction :=
  (signal.strategyId, signal.instrument, signal.direction)

def auditKey (audit : SignalAudit) : String × Instrument × Direction :=
  (audit.strategyId, audit.instrument, audit.direction)

namespace RiskEngine

variable {engine : RiskEngine} {context : SizingContext}

/-! ### The sizing loop -/

/-- What the loop owes the signals it has sized: a refused row or an admission for each. -/
structure SizedRun (context : SizingContext) (signals : List Signal) (loop : SizingLoop) : Prop where
  rows : (loop.audits.map auditKey ++ loop.admitted.map fun admission => signalKey admission.signal).Perm
    (signals.map signalKey)
  rejected : ∀ audit ∈ loop.audits, audit.verdict = .rejected
  refusals : (loop.audits.map fun audit => audit.rejection) = loop.refusals.map some
  distinct : (loop.admitted.map fun admission =>
    (admission.signal.strategyId, admission.signal.instrument)).Nodup
  seen : ∀ admission ∈ loop.admitted,
    (admission.signal.strategyId, admission.signal.instrument) ∈ loop.seen
  owned : ∀ admission ∈ loop.admitted, admission.request.strategyId = admission.signal.strategyId
  tradable : ∀ admission ∈ loop.admitted,
    (context.marketState.instruments.get? admission.signal.instrument).isSome ∧
      admission.signal.instrument.symbol ∈ context.marketState.riskModel.symbols

namespace SizedRun

variable {signals : List Signal} {loop : SizingLoop} {signal : Signal}

theorem refuse (h : SizedRun context signals loop) {stage : Stage} {rejection : Rejection}
    {audit : SignalAudit} (hrow : RefusedRow signal stage rejection audit) :
    SizedRun context (signals ++ [signal]) (loop.refuse audit rejection) where
  rows := by
    have hkey : auditKey audit = signalKey signal := by
      rw [auditKey, signalKey, hrow.strategyId, hrow.instrument, hrow.direction]
    simp only [SizingLoop.refuse, List.map_append, List.map_singleton, hkey, List.append_assoc]
    exact (List.perm_append_comm.append_left _).trans
      (by rw [← List.append_assoc]; exact h.rows.append_right _)
  rejected := by
    intro other hother
    rcases List.mem_append.mp hother with hold | hlast
    · exact h.rejected other hold
    · rw [List.mem_singleton.mp hlast]
      exact hrow.isRejected
  refusals := by
    simp only [SizingLoop.refuse, List.map_append, List.map_singleton, h.refusals, hrow.carries]
  distinct := h.distinct
  seen := h.seen
  owned := h.owned
  tradable := h.tradable

theorem see (h : SizedRun context signals loop) (signal : Signal) :
    SizedRun context signals (loop.see signal) where
  rows := h.rows
  rejected := h.rejected
  refusals := h.refusals
  distinct := h.distinct
  seen admission hadmission := List.mem_cons_of_mem _ (h.seen admission hadmission)
  owned := h.owned
  tradable := h.tradable

theorem accept (h : SizedRun context signals loop) {strategy : StrategyState} {market : InstrumentMarketState}
    {admission : Admitted} (hadmissible : Admissible context loop.seen signal strategy market)
    (hsignal : admission.signal = signal) (howner : admission.request.strategyId = signal.strategyId)
    (remainingToClose : Dict Instrument Decimal) :
    SizedRun context (signals ++ [signal]) { (loop.see signal).accept admission with
      remainingToClose := remainingToClose } where
  rows := by
    simp only [SizingLoop.accept, SizingLoop.see, List.map_append, List.map_singleton, hsignal]
    rw [← List.append_assoc]
    exact h.rows.append_right _
  rejected := h.rejected
  refusals := h.refusals
  distinct := by
    simp only [SizingLoop.accept, SizingLoop.see, List.map_append, List.map_singleton, hsignal]
    refine h.distinct.append (List.nodup_singleton _) ?_
    rw [List.disjoint_singleton]
    intro hmem
    obtain ⟨earlier, hearlier, hkey⟩ := List.mem_map.mp hmem
    exact hadmissible.fresh (hkey ▸ h.seen earlier hearlier)
  seen := by
    intro other hother
    rcases List.mem_append.mp hother with hold | hlast
    · exact List.mem_cons_of_mem _ (h.seen other hold)
    · rw [List.mem_singleton.mp hlast, hsignal]
      exact List.mem_cons_self
  owned := by
    intro other hother
    rcases List.mem_append.mp hother with hold | hlast
    · exact h.owned other hold
    · rw [List.mem_singleton.mp hlast, hsignal]
      exact howner
  tradable := by
    intro other hother
    rcases List.mem_append.mp hother with hold | hlast
    · exact h.tradable other hold
    · rw [List.mem_singleton.mp hlast, hsignal, hadmissible.priced]
      exact ⟨rfl, hadmissible.covered⟩

/-- Whatever a signal does to the loop, it is accounted for. -/
theorem step {next : SizingLoop} (h : SizedRun context signals loop)
    (hstep : SizedTo engine context signal loop next) : SizedRun context (signals ++ [signal]) next := by
  cases hstep with
  | inadmissible _ row => exact h.refuse row
  | refused _ row _ => exact (h.see signal).refuse row
  | closed admissible admitted _ _ =>
    exact h.accept admissible admitted.ofSignal admitted.strategyId _
  | sized admissible admitted _ _ =>
    exact h.accept admissible admitted.ofSignal admitted.strategyId loop.remainingToClose

end SizedRun

/-- What a step keeps over the signals seen so far, a whole loop keeps. -/
theorem sizeSignals_induction {P : List Signal → SizingLoop → Prop}
    (hstart : P [] ⟨[], [], [], [], Dict.empty⟩)
    (hstep : ∀ signals signal loop next, P signals loop → SizedTo engine context signal loop next →
      P (signals ++ [signal]) next) : ∀ {signals : List Signal} {loop : SizingLoop},
    engine.sizeSignals context signals = .ok loop → P signals loop := by
  intro signals
  induction signals using List.reverseRecOn with
  | nil =>
    intro loop h
    obtain rfl := pure_eq_ok.mp h
    exact hstart
  | append_singleton signals signal ih =>
    intro loop h
    simp only [sizeSignals, List.foldlM_append, bind_eq_ok, List.foldlM_cons, List.foldlM_nil,
      pure_eq_ok] at h
    obtain ⟨before, hbefore, _, hlast, rfl⟩ := h
    exact hstep signals signal before _ (ih hbefore) (sizeSignal_step hlast)

theorem sizeSignals_run {signals : List Signal} {loop : SizingLoop}
    (h : engine.sizeSignals context signals = .ok loop) : SizedRun context signals loop :=
  sizeSignals_induction ⟨List.Perm.refl _, by simp, rfl, List.nodup_nil, by simp, by simp, by simp⟩
    (fun _ _ _ _ hrun hstep => hrun.step hstep) h

end RiskEngine

end FinanceKing.Risk
