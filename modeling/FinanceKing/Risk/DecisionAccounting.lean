import FinanceKing.Risk.EngineOrders

/-! Every signal of a decision accounted for, through every exit: the kill switch, the portfolio's halt, the
    concentration refusal and the constructed orders. -/

namespace FinanceKing.Risk

open Lib Strategies

/-- The quantity a decision attributes to the approved signals on an instrument. -/
def DecisionBatch.attributedTo (batch : DecisionBatch) (instrument : Instrument) : Decimal :=
  ((batch.audits.filter fun audit => audit.verdict = .approved ∧ audit.instrument = instrument).map
    fun audit => audit.attributedSignedBaseQuantity.getD 0).sum

/-- A decision that loses no signal and attributes every order whole. -/
structure Accounted (signals : List Signal) (batch : DecisionBatch) : Prop where
  rows : (batch.audits.map auditKey).Perm (signals.map signalKey)
  rejections : ((batch.audits.filter fun audit => audit.verdict = .rejected).map
    fun audit => audit.rejection).Perm (batch.rejections.map some)
  oneOrder : (batch.orders.map fun order => order.instrument).Nodup
  attributed : ∀ order ∈ batch.orders, batch.attributedTo order.instrument = order.signedBaseQuantity
  crossed : ∀ instrument, batch.attributedTo instrument = 0 ↔
    ∀ order ∈ batch.orders, order.instrument ≠ instrument
  stagesInOrder : batch.stagesExecuted <+: stages

/-- A decision that refuses everything it was given. -/
structure RefusesAll (batch : DecisionBatch) : Prop where
  noOrders : batch.orders = []
  allRejected : ∀ audit ∈ batch.audits, audit.verdict = .rejected

/-- What a refusal of everything still owes: its rows, and a refusal for each. -/
theorem RefusesAll.accounted {signals : List Signal} {batch : DecisionBatch} (h : RefusesAll batch)
    (hrows : (batch.audits.map auditKey).Perm (signals.map signalKey))
    (hrejections : (batch.audits.map fun audit => audit.rejection) = batch.rejections.map some)
    (hstages : batch.stagesExecuted <+: stages) : Accounted signals batch where
  rows := hrows
  rejections := by
    rw [List.filter_eq_self.mpr fun audit haudit => decide_eq_true (h.allRejected audit haudit), hrejections]
  oneOrder := by
    rw [h.noOrders]
    exact List.nodup_nil
  attributed := by
    rw [h.noOrders]
    exact List.forall_mem_nil _
  crossed := by
    intro instrument
    have hnone : (batch.audits.filter fun audit =>
        audit.verdict = .approved ∧ audit.instrument = instrument) = [] := by
      refine List.filter_eq_nil_iff.mpr fun audit haudit => ?_
      simp [h.allRejected audit haudit]
    rw [DecisionBatch.attributedTo, hnone, h.noOrders]
    simp
  stagesInOrder := hstages

/-- The orders of some outcomes that are refusals and then orders. -/
theorem orders_of_outcomes (batch : DecisionBatch) {rejections : List Rejection} {orders : List Order}
    (h : batch.outcomes = rejections.map Outcome.rejection ++ orders.map Outcome.order) :
    batch.orders = orders ∧ batch.rejections = rejections := by
  rw [DecisionBatch.orders, DecisionBatch.rejections, h]
  simp [List.filterMap_append, List.filterMap_map]

namespace RiskEngine

variable {engine : RiskEngine} {context : SizingContext} {signals : List Signal}

/-! ### The batch-wide halts -/

theorem refuseBatch_refusesAll (decidedAtUtc : DateTime) (correlationId : Uuid) (executed : List Stage)
    (stage : Stage) (reason : Message) (bindingLimitName : String) (portfolioDrawdown : Option LimitVerdict) :
    RefusesAll (engine.refuseBatch signals decidedAtUtc correlationId executed stage reason bindingLimitName
      portfolioDrawdown) := by
  constructor
  · simp [DecisionBatch.orders, refuseBatch]
  · intro audit haudit
    obtain ⟨signal, _, rfl⟩ := List.mem_map.mp haudit
    rfl

theorem refuseBatch_accounted (decidedAtUtc : DateTime) (correlationId : Uuid) {executed : List Stage}
    (hstages : executed <+: stages) (stage : Stage) (reason : Message) (bindingLimitName : String)
    (portfolioDrawdown : Option LimitVerdict) :
    Accounted signals (engine.refuseBatch signals decidedAtUtc correlationId executed stage reason
      bindingLimitName portfolioDrawdown) := by
  refine (refuseBatch_refusesAll ..).accounted ?_ ?_ hstages
  · rw [refuseBatch, List.map_map]
    exact List.Perm.refl _
  · simp [DecisionBatch.rejections, refuseBatch, Function.comp_def]

/-! ### The approved rows -/

/-- An approved row: its admission's slice of its instrument's plan. -/
structure ApprovedRow (plans : List NetOrderPlan) (admission : Admitted) (audit : SignalAudit) : Prop where
  key : auditKey audit = signalKey admission.signal
  isApproved : audit.verdict = .approved
  slice : ∃ plan ∈ plans, plan.instrument = admission.signal.instrument ∧
    audit.attributedSignedBaseQuantity =
      (sliceIn plan admission).map fun attribution => attribution.signedBaseQuantity

theorem approvedAudit_row {plans : List NetOrderPlan} {orders : Dict Instrument Order}
    {concentration : ConcentrationAssessment} {decidedAtUtc : DateTime}
    {portfolioDrawdown : Option LimitVerdict} {admission : Admitted} {audit : SignalAudit}
    (h : engine.approvedAudit plans orders concentration decidedAtUtc portfolioDrawdown admission =
      .ok audit) : ApprovedRow plans admission audit := by
  rw [approvedAudit] at h
  split at h
  · exact absurd h raise_ne_ok
  · next plan hplan =>
    split at h
    · exact absurd h raise_ne_ok
    · next attribution hattribution =>
      obtain rfl := Except.ok.inj h
      refine ⟨rfl, rfl, plan, List.mem_reverse.mp (List.mem_of_find?_eq_some hplan),
        by simpa using List.find?_some hplan, ?_⟩
      rw [sliceIn, hattribution]
      rfl

theorem ApprovedRow.instrument {plans : List NetOrderPlan} {admission : Admitted} {audit : SignalAudit}
    (h : ApprovedRow plans admission audit) : audit.instrument = admission.signal.instrument :=
  congrArg (fun key : String × Instrument × Direction => key.2.1) h.key

/-- What approved rows attribute on a planned instrument is what its plan nets to. -/
theorem attributed_of_plan {admitted : List Admitted} (honce : OneEach admitted) {marketState : MarketState}
    {netting : Netting} (hnets : NetsGroups marketState (grouped admitted).entries netting)
    {approved : List SignalAudit}
    (hrows : List.Forall₂ (ApprovedRow netting.plans) netting.netted approved) {plan : NetOrderPlan}
    (hplan : plan ∈ netting.plans) :
    ((approved.filter fun audit => audit.instrument = plan.instrument).map
      fun audit => audit.attributedSignedBaseQuantity.getD 0).sum = plan.netSignedBaseQuantity := by
  obtain ⟨entry, hentry, market, hgroup, _⟩ := hnets.plans plan hplan
  have hkey := hgroup.instrument_eq
  obtain ⟨hslices, hsum⟩ := slices_of_group honce hentry hgroup
  have hfiltered : List.Forall₂ (ApprovedRow netting.plans) entry.2
      (approved.filter fun audit => audit.instrument = plan.instrument) := by
    rw [← netted_filter hnets hentry (hkey ▸ List.mem_map_of_mem hplan), hkey]
    exact List.rel_filter (fun admission audit hrow => by simp [hrow.instrument]) hrows
  rw [← hsum, NetOrderPlan.attributedSignedBaseQuantity]
  -- both sides are the plan's slices of its group, one admission after another
  have happroved : (entry.2.map fun admission =>
      (sliceIn plan admission).elim 0 fun slice => slice.signedBaseQuantity) =
      (approved.filter fun audit => audit.instrument = plan.instrument).map
        fun audit => audit.attributedSignedBaseQuantity.getD 0 := by
    refine map_eq_map_of_forall₂ (List.forall₂_iff_zip.mpr
      ⟨hfiltered.length_eq, fun {admission audit} hpair => ?_⟩)
    obtain ⟨other, hother, hinstrument, hslice⟩ := ((List.forall₂_iff_zip.mp hfiltered).2 hpair).slice
    have hsame : other = plan := by
      refine List.inj_on_of_nodup_map (hnets.inOrder.nodup (grouped admitted).nodupKeys) hother hplan ?_
      rw [hinstrument, grouped_instrument hentry (List.of_mem_zip hpair).1, hkey]
    rw [hslice, hsame]
    cases sliceIn plan admission <;> rfl
  have hattributed : (entry.2.map fun admission =>
      (sliceIn plan admission).elim 0 fun slice => slice.signedBaseQuantity) =
      plan.attributions.map fun attribution => attribution.signedBaseQuantity := by
    refine map_eq_map_of_forall₂ (hslices.imp fun admission attribution hslice => ?_)
    rw [hslice]
    rfl
  rw [← happroved, hattributed]

/-- Nothing is attributed on an instrument with no plan. -/
theorem attributed_of_unplanned {admitted : List Admitted} {marketState : MarketState} {netting : Netting}
    (hnets : NetsGroups marketState (grouped admitted).entries netting) {approved : List SignalAudit}
    (hrows : List.Forall₂ (ApprovedRow netting.plans) netting.netted approved) {instrument : Instrument}
    (hunplanned : instrument ∉ netting.planned) :
    (approved.filter fun audit => audit.instrument = instrument) = [] := by
  refine List.filter_eq_nil_iff.mpr fun audit haudit hsame => ?_
  obtain ⟨admission, hadmission, hrow⟩ := exists_left_of_forall₂ hrows haudit
  exact hunplanned (of_decide_eq_true hsame ▸ hrow.instrument ▸ planned_of_netted hnets hadmission)

/-! ### The orders of a conclusion -/

/-- What a concluded decision emits, against what it attributes. -/
structure Emits (plans : List NetOrderPlan) (attributed : Instrument → Decimal) (orders : List Order) :
    Prop where
  oneOrder : (orders.map fun order => order.instrument).Nodup
  whole : ∀ order ∈ orders, attributed order.instrument = order.signedBaseQuantity
  crossed : ∀ instrument, attributed instrument = 0 ↔ ∀ order ∈ orders, order.instrument ≠ instrument

/-- Orders for plans on distinct instruments emit what the plans net to. -/
theorem OrdersFor.emits {plans : List NetOrderPlan} {orders : Dict Instrument Order}
    (h : OrdersFor plans orders) {attributed : Instrument → Decimal}
    (hplanned : ∀ plan ∈ plans, attributed plan.instrument = plan.netSignedBaseQuantity)
    (hunplanned : ∀ instrument, instrument ∉ plans.map (fun plan => plan.instrument) →
      attributed instrument = 0) : Emits plans attributed orders.values := by
  have hof : ∀ entry ∈ orders.entries, ∃ plan ∈ plans, plan.instrument = entry.1 ∧ OrderOf plan entry.2 :=
    fun entry hentry => h.planned entry.1 entry.2 ((Dict.get?_eq_some_iff _ _ _).mpr hentry)
  have hvalues : ∀ order ∈ orders.values, ∃ plan ∈ plans, OrderOf plan order := by
    intro order horder
    obtain ⟨entry, hentry, rfl⟩ := List.mem_map.mp horder
    obtain ⟨plan, hplan, _, horderOf⟩ := hof entry hentry
    exact ⟨plan, hplan, horderOf⟩
  refine ⟨?_, fun order horder => ?_, fun instrument => ⟨fun hzero order horder hsame => ?_, fun hnone => ?_⟩⟩
  · have hkeys : orders.values.map (fun order => order.instrument) = orders.entries.map Prod.fst := by
      rw [Dict.values, List.map_map]
      refine List.map_congr_left fun entry hentry => ?_
      obtain ⟨plan, _, hkey, horderOf⟩ := hof entry hentry
      exact horderOf.instrument.trans hkey
    rw [hkeys]
    exact orders.nodupKeys
  · obtain ⟨plan, hplan, horderOf⟩ := hvalues order horder
    rw [horderOf.instrument, hplanned plan hplan, horderOf.quantity]
  · obtain ⟨plan, hplan, horderOf⟩ := hvalues order horder
    rw [← hsame, horderOf.instrument, hplanned plan hplan] at hzero
    exact horderOf.venue hzero
  · by_cases hmem : instrument ∈ plans.map fun plan => plan.instrument
    · obtain ⟨plan, hplan, rfl⟩ := List.mem_map.mp hmem
      rw [hplanned plan hplan]
      by_contra hportion
      obtain ⟨order, horder⟩ := Option.isSome_iff_exists.mp (h.complete plan hplan hportion)
      obtain ⟨plan', _, hkey, horderOf⟩ := h.planned _ _ horder
      exact hnone order (Dict.mem_values_of_get? horder) (horderOf.instrument.trans hkey)
    · exact hunplanned instrument hmem

/-! ### The conclusion -/

section

variable {sized : SizingLoop} {netting : Netting} {batch : DecisionBatch} {marketState : MarketState}

theorem SizedRun.oneEach (h : SizedRun context signals sized) : OneEach sized.admitted := ⟨h.distinct, h.owned⟩

/-- The rows refused before the prospective book is assessed. -/
def refusedRows (engine : RiskEngine) (context : SizingContext) (sized : SizingLoop) (netting : Netting) :
    List SignalAudit :=
  sized.audits ++ netting.rejected.map fun (admission, rejection) =>
    engine.auditFor admission context.decidedAtUtc .netting (some rejection) context.portfolioDrawdown

theorem refusedRows_rejected (h : SizedRun context signals sized) :
    ∀ audit ∈ refusedRows engine context sized netting, audit.verdict = .rejected := by
  intro audit haudit
  rcases List.mem_append.mp haudit with hsized | hnetted
  · exact h.rejected audit hsized
  · obtain ⟨entry, _, rfl⟩ := List.mem_map.mp hnetted
    rfl

theorem refusedRows_rejections (h : SizedRun context signals sized) :
    ((refusedRows engine context sized netting).map fun audit => audit.rejection) =
      (sized.refusals ++ netting.rejected.map Prod.snd).map some := by
  rw [refusedRows, List.map_append, List.map_append, h.refusals, List.map_map, List.map_map]
  rfl

/-- The refused rows and the rows of the netted admissions are the rows of the batch. -/
theorem refusedRows_keys (h : SizedRun context signals sized)
    (hnets : NetsGroups marketState (grouped sized.admitted).entries netting) :
    ((refusedRows engine context sized netting).map auditKey ++
      netting.netted.map fun admission => signalKey admission.signal).Perm (signals.map signalKey) := by
  have hrejected : (netting.rejected.map fun entry => engine.auditFor entry.1 context.decidedAtUtc .netting
      (some entry.2) context.portfolioDrawdown).map auditKey =
      (netting.rejected.map Prod.fst).map fun admission => signalKey admission.signal := by
    rw [List.map_map, List.map_map]
    rfl
  rw [refusedRows, List.map_append, hrejected, List.append_assoc, ← List.map_append]
  refine List.Perm.trans (List.Perm.append_left _ ?_) h.rows
  exact (List.perm_append_comm.trans (netting_perm hnets)).map _

/-- A batch refused for its concentration is accounted for. -/
theorem accounted_of_concentrated (h : SizedRun context signals sized)
    (hnets : NetsGroups marketState (grouped sized.admitted).entries netting) {rejection : Rejection}
    (haudits : batch.audits = refusedRows engine context sized netting ++ netting.netted.map fun admission =>
      engine.auditFor admission context.decidedAtUtc .concentration (some rejection)
        context.portfolioDrawdown)
    (houtcomes : batch.outcomes = (sized.refusals ++ netting.rejected.map Prod.snd).map Outcome.rejection ++
      netting.netted.map fun _ => Outcome.rejection rejection)
    (hstages : batch.stagesExecuted <+: stages) : Accounted signals batch := by
  have hrefusals : batch.outcomes = (sized.refusals ++ netting.rejected.map Prod.snd ++
      netting.netted.map fun _ => rejection).map Outcome.rejection ++
      ([] : List Order).map Outcome.order := by
    rw [houtcomes]
    simp [Function.comp_def]
  obtain ⟨horders, hrejections⟩ := orders_of_outcomes batch hrefusals
  have hrejected : RefusesAll batch := by
    refine ⟨horders, fun audit haudit => ?_⟩
    rw [haudits] at haudit
    rcases List.mem_append.mp haudit with hrefused | hnetted
    · exact refusedRows_rejected h audit hrefused
    · obtain ⟨admission, _, rfl⟩ := List.mem_map.mp hnetted
      rfl
  refine hrejected.accounted ?_ ?_ hstages
  · rw [haudits, List.map_append, List.map_map]
    exact refusedRows_keys h hnets
  · rw [haudits, hrejections, List.map_append, List.map_append, refusedRows_rejections h, List.map_map,
      List.map_map]
    rfl

/-- A batch that reaches its orders is accounted for. -/
theorem accounted_of_ordered (h : SizedRun context signals sized)
    (hnets : NetsGroups marketState (grouped sized.admitted).entries netting) {approved : List SignalAudit}
    (hrows : List.Forall₂ (ApprovedRow netting.plans) netting.netted approved)
    {orders : Dict Instrument Order} (horders : OrdersFor netting.plans orders)
    (haudits : batch.audits = refusedRows engine context sized netting ++ approved)
    (houtcomes : batch.outcomes = (sized.refusals ++ netting.rejected.map Prod.snd).map Outcome.rejection ++
      orders.values.map Outcome.order)
    (hstages : batch.stagesExecuted <+: stages) : Accounted signals batch := by
  obtain ⟨hemitted, hrejections⟩ := orders_of_outcomes batch houtcomes
  have happroved : ∀ audit ∈ approved, audit.verdict = .approved := fun audit haudit => by
    obtain ⟨_, _, hrow⟩ := exists_left_of_forall₂ hrows haudit
    exact hrow.isApproved
  have hrefused : ∀ audit ∈ refusedRows engine context sized netting, audit.verdict = .rejected :=
    refusedRows_rejected h
  have hattributed : ∀ instrument, batch.attributedTo instrument =
      ((approved.filter fun audit => audit.instrument = instrument).map
        fun audit => audit.attributedSignedBaseQuantity.getD 0).sum := by
    intro instrument
    have hnone : (refusedRows engine context sized netting).filter
        (fun audit => audit.verdict = .approved ∧ audit.instrument = instrument) = [] := by
      refine List.filter_eq_nil_iff.mpr fun audit haudit => ?_
      simp [hrefused audit haudit]
    have hall : approved.filter (fun audit => audit.verdict = .approved ∧ audit.instrument = instrument) =
        approved.filter fun audit => audit.instrument = instrument :=
      List.filter_congr fun audit haudit => by simp [happroved audit haudit]
    rw [DecisionBatch.attributedTo, haudits, List.filter_append, hnone, List.nil_append, hall]
  have hemits : Emits netting.plans batch.attributedTo orders.values := by
    refine horders.emits (fun plan hplan => ?_) fun instrument hunplanned => ?_
    · rw [hattributed, attributed_of_plan h.oneEach hnets hrows hplan]
    · rw [hattributed, attributed_of_unplanned hnets hrows hunplanned]
      rfl
  have hkeys : (approved.map auditKey) = netting.netted.map fun admission => signalKey admission.signal :=
    (map_eq_map_of_forall₂ (hrows.imp fun _ _ hrow => hrow.key.symm)).symm
  rw [← hemitted] at hemits
  refine ⟨?_, ?_, hemits.oneOrder, hemits.whole, hemits.crossed, hstages⟩
  · rw [haudits, List.map_append, hkeys]
    exact refusedRows_keys h hnets
  · have hnone : approved.filter (fun audit => audit.verdict = .rejected) = [] :=
      List.filter_eq_nil_iff.mpr fun audit haudit => by simp [happroved audit haudit]
    have hall : (refusedRows engine context sized netting).filter (fun audit => audit.verdict = .rejected) =
        refusedRows engine context sized netting :=
      List.filter_eq_self.mpr fun audit haudit => decide_eq_true (hrefused audit haudit)
    rw [haudits, List.filter_append, hnone, hall, List.append_nil, refusedRows_rejections h, hrejections]

/-- A decision concluded on a sized and netted batch is accounted for. -/
theorem concludeBatch_accounted (h : SizedRun context signals sized)
    (hnets : NetsGroups marketState (grouped sized.admitted).entries netting) {correlationId : Uuid} {seed : ℤ}
    (hbatch : engine.concludeBatch context sized netting correlationId seed = .ok batch) :
    Accounted signals batch := by
  simp only [concludeBatch, bind_eq_ok] at hbatch
  obtain ⟨concentration, _, hbatch⟩ := hbatch
  split at hbatch
  · obtain rfl := pure_eq_ok.mp hbatch
    exact accounted_of_concentrated h hnets rfl rfl (List.take_prefix 8 stages)
  · simp only [bind_eq_ok] at hbatch
    obtain ⟨orders, horders, approved, happroved, hbatch⟩ := hbatch
    obtain rfl := pure_eq_ok.mp hbatch
    exact accounted_of_ordered h hnets ((mapM_eq_ok_iff.mp happroved).imp fun _ _ => approvedAudit_row)
      (constructOrders_ordersFor horders) rfl rfl List.prefix_rfl

end

/-! ### The decision -/

/-- Nothing but the kill switch's refusal of every signal. -/
structure OnlyHalted (batch : DecisionBatch) : Prop extends RefusesAll batch where
  onlyKillSwitch : batch.stagesExecuted = [.killSwitch]

/-- A decision accounts for every signal of its batch, and a halted one refuses them all at the kill switch. -/
theorem decide_accounted (engine : RiskEngine) {signals : List Signal} {portfolioState : PortfolioState}
    {marketState : MarketState} {decidedAtUtc : DateTime} {correlationId : Uuid} {seed : ℤ}
    {batch : DecisionBatch} (h : engine.decide signals portfolioState marketState decidedAtUtc correlationId
      seed = .ok batch) :
    Accounted signals batch ∧ (ensureTrading engine.gate ≠ .ok () → OnlyHalted batch) := by
  rw [decide] at h
  split at h
  · obtain rfl := Except.ok.inj h
    exact ⟨refuseBatch_accounted decidedAtUtc correlationId (List.take_prefix 1 stages) _ _ _ _,
      fun _ => ⟨refuseBatch_refusesAll .., rfl⟩⟩
  · next hopen =>
    refine ⟨?_, fun hhalted => absurd hopen hhalted⟩
    rw [bind_eq_ok] at h
    obtain ⟨portfolioDrawdown, _, h⟩ := h
    split at h
    · obtain rfl := pure_eq_ok.mp h
      exact refuseBatch_accounted decidedAtUtc correlationId (List.take_prefix 2 stages) _ _ _ _
    · simp only [bind_eq_ok] at h
      obtain ⟨sized, hsized, netting, hnetting, h⟩ := h
      exact concludeBatch_accounted (sizeSignals_run hsized) (net_netsGroups hnetting) h

end RiskEngine

/-! ### A book of two majors -/

def ether : Instrument :=
  ⟨{ Instrument.sample.toInstrumentFields with symbol := "ETHUSDT", baseAsset := "ETH" }, by decide +kernel⟩

/-- One lot-aligned long, opened at its price. -/
def longOf (instrument : Instrument) (price : Decimal) : PositionFields where
  instrument := instrument
  signedBaseQuantity := 1
  averageEntryQuotePrice := price
  realisedPnlQuote := 0
  feeQuotePaid := 0
  openedAtUtc := some 0
  appliedFillIds := ∅

/-- The book holds both, within every exposure limit. -/
def twoMajors : Portfolio where
  asOfUtc := 0
  positions := [⟨longOf Instrument.sample 100, by decide +kernel⟩, ⟨longOf ether 80, by decide +kernel⟩]
  cashBalances := Dict.empty
  checked := by decide +kernel

/-- Two symbols that move on their own, each its own cluster. -/
def independentMajors : RiskModel Decimal where
  symbols := ["BTCUSDT", "ETHUSDT"]
  dailyVolatilityRatio := (Dict.empty.set "BTCUSDT" (3 / 100)).set "ETHUSDT" (4 / 100)
  correlations :=
    { symbols := ["BTCUSDT", "ETHUSDT"]
      entries := (Dict.empty.set "BTCUSDT" ((Dict.empty.set "BTCUSDT" 1).set "ETHUSDT" 0)).set "ETHUSDT"
        ((Dict.empty.set "BTCUSDT" 0).set "ETHUSDT" 1)
      checked := by decide +kernel }
  shrinkageIntensityRatio := 0
  psdRepairRatio := 0
  clusters := [⟨⟨"BTCUSDT", ["BTCUSDT"]⟩, by decide +kernel⟩, ⟨⟨"ETHUSDT", ["ETHUSDT"]⟩, by decide +kernel⟩]
  checked := by decide +kernel

def bitcoinMarket : InstrumentMarketState := ⟨⟨Instrument.sample, 100, 100, 1, [], 1 / 10⟩, by decide +kernel⟩

def etherMarket : InstrumentMarketState := ⟨⟨ether, 80, 80, 1, [], 1 / 10⟩, by decide +kernel⟩

def majorsMarket : MarketState where
  instruments := (Dict.empty.set Instrument.sample bitcoinMarket).set ether etherMarket
  riskModel := independentMajors
  checked := by decide +kernel

/-- A strategy with no record yet. -/
def breakoutState : StrategyState where
  strategyId := "breakout"
  calibration := ⟨⟨"breakout", 0, 0, []⟩, by decide +kernel⟩
  closedTradeCount := 0
  realisedMeanReturnFraction := 0
  realisedReturnStdevFraction := 0
  drawdownState := none
  checked := by decide +kernel

/-- Equity at its high-water mark. -/
def undrawnPortfolio : DrawdownState where
  scope := .portfolio
  subjectId := "portfolio"
  peakEquityUsd := 10000
  currentEquityUsd := 10000
  dayStartUtc := 0
  dayOpenEquityUsd := 10000
  rollingMarks := [⟨⟨0, 10000⟩, by decide +kernel⟩]
  observedAtUtc := 0
  latchedBreach := none
  checked := by decide +kernel

def majorsAccount : PortfolioState where
  portfolio := twoMajors
  equityUsd := 10000
  strategies := Dict.empty.set "breakout" breakoutState
  drawdownState := some undrawnPortfolio
  checked := by decide +kernel

/-- The shipped policy over the two majors, with trading open. -/
def majorsEngine : RiskEngine where
  policy := { tradableSymbols := {"BTCUSDT", "ETHUSDT"} }
  gate := ⟨⟨.trading, none, none, none, none⟩, by decide +kernel⟩
  digests := fun material => if material.instrument = ether then (2, "91c7") else (1, "3f0a")

/-- Close a position. -/
def closeOf (instrument : Instrument) : SignalFields where
  strategyId := "breakout"
  instrument := instrument
  direction := .flat
  conviction := 0
  horizon := 3600000000
  invalidationQuotePrice := none
  rationale := "regime ended"
  decidedAtUtc := 0

theorem closeOf_ether_checked : (closeOf ether).postInit = .ok () := by
  with_unfolding_all decide

/-- Both positions closed in one batch. -/
def closeBoth : List Signal :=
  [⟨closeOf Instrument.sample, by decide +kernel⟩, ⟨closeOf ether, closeOf_ether_checked⟩]

/-- Both are sold whole, and the decision is accounted for. -/
theorem closing_both_is_accounted : ∃ batch,
    majorsEngine.decide closeBoth majorsAccount majorsMarket 0 7 1 = .ok batch ∧
      batch.orders.map (fun order => order.signedBaseQuantity) = [-1, -1] ∧
      Accounted closeBoth batch ∧ (ensureTrading majorsEngine.gate ≠ .ok () → RiskEngine.OnlyHalted batch) := by
  have hrun : (majorsEngine.decide closeBoth majorsAccount majorsMarket 0 7 1).map
      (fun batch => batch.orders.map fun order => order.signedBaseQuantity) = .ok [-1, -1] := by decide +kernel
  cases hdecided : majorsEngine.decide closeBoth majorsAccount majorsMarket 0 7 1 with
  | error e =>
    rw [hdecided] at hrun
    cases hrun
  | ok batch =>
    rw [hdecided] at hrun
    exact ⟨batch, rfl, Except.ok.inj hrun, RiskEngine.decide_accounted majorsEngine hdecided⟩

end FinanceKing.Risk
