import FinanceKing.Backtest.Venue.OrderLedger

/-! Fill conservation over any session of calls whose order ids are distinct: what each order prints,
    how a crossing order ends, what rests, where prints are priced, which ids they carry, and that the
    report counts exactly the refusals the calls returned. -/

namespace FinanceKing.Backtest

open Lib

namespace FillSimulation

variable {self : FillSimulation} {state : SimulationState} {calls : List VenueCall}

/-! ### The bar a print is priced against -/

/-- The last bar of a symbol the venue has quoted. -/
def lastQuotedBar (self : FillSimulation) (symbol : String) (calls : List VenueCall) : Option Bar :=
  (calls.filterMap (fun
    | .observe bar => if bar.instrument.symbol = symbol ∧ (self.quoteOf bar).isOk then some bar else none
    | _ => none)).getLast?

/-- The bar a call resolves an order of a symbol against: the one it observes, or the last one. -/
def barFor (self : FillSimulation) (before : List VenueCall) (symbol : String) : VenueCall → Option Bar
  | .observe bar => some bar
  | _ => self.lastQuotedBar symbol before

/-- The held quote of a symbol is the quote of its last bar. -/
theorem quotes_stateAfter (self : FillSimulation) (calls : List VenueCall) (symbol : String) :
    (self.stateAfter calls).quotes.get? symbol =
      (self.lastQuotedBar symbol calls).bind (fun bar => (self.quoteOf bar).toOption) := by
  induction calls using List.reverseRecOn with
  | nil => rfl
  | append_singleton calls c ih =>
    have hspec := self.call_spec (consistent_stateAfter self calls) c
    rw [stateAfter_concat, lastQuotedBar, List.filterMap_append, List.getLast?_append]
    rw [lastQuotedBar] at ih
    cases c with
    | observe bar =>
      rw [call]
      rcases self.observe_eq bar (self.stateAfter calls) with
        ⟨e, hquote, hrun⟩ | ⟨quote, resting, hquote, hrun, _⟩
      · rw [hrun, Ran.map_error]
        simpa [hquote, Except.isOk, Except.toBool] using ih
      · rw [hrun, Ran.map_ok]
        simp only [Dict.get?_set]
        by_cases hsymbol : symbol = bar.instrument.symbol
        · simp [hsymbol, hquote, Except.isOk, Except.toBool, Except.toOption]
        · simp [hsymbol, Ne.symm hsymbol, ih]
    | submit order decidedAtUtc =>
      generalize self.call (.submit order decidedAtUtc) (self.stateAfter calls) = run at hspec
      cases hspec with
      | raised _ error recent => simpa using ih
      | refused _ _ rejection refusal recent hrefusal => simpa [SimulationState.countRejection] using ih
      | acknowledged _ _ quote recent hquote => simpa using ih
    | resolveAck ack =>
      generalize self.call (.resolveAck ack) (self.stateAfter calls) = run at hspec
      cases hspec with
      | raised _ error recent => simpa using ih
      | resolved _ order quote outcome outcomes after hpending hquote hrange houtcome hresolved =>
        cases hresolved with
        | crossed records hcrossed => simpa using ih
        | refused rejection refusal hrefusal => simpa [SimulationState.countRejection] using ih
        | rests limit hunmarketable => simpa using ih

/-! ### Refusals -/

/-- Whether an event refuses an order for a reason. -/
def isRefusalFor (reason : RejectReason) : Event → Bool
  | .reject refusal => reasonFrom refusal.reason = .ok reason
  | _ => false

theorem countP_refusal {refusal : RejectEvent} {order : Order} {occursAtUtc : DateTime}
    {rejection : Rejection}
    (h : refusal.toRejectEventFields = ⟨order, occursAtUtc, rejection.asRejectText⟩)
    (reason : RejectReason) :
    [Event.reject refusal].countP (isRefusalFor reason) = if rejection.reason = reason then 1 else 0 := by
  have hreason : reasonFrom refusal.reason = .ok rejection.reason := by
    rw [h]
    exact reasonFrom_asRejectText rejection
  simp [isRefusalFor, hreason]

theorem rejectionCounts_countRejection (state : SimulationState) (counted reason : RejectReason) :
    (state.countRejection counted).report.rejectionCounts reason =
      state.report.rejectionCounts reason + if counted = reason then 1 else 0 := by
  simp only [SimulationState.report, SimulationState.countRejection, Dict.get?_set]
  by_cases h : reason = counted
  · simp [h]
  · simp [h, Ne.symm h]

/-- The report counts exactly the refusals the calls returned. -/
theorem rejectionCounts_eq (self : FillSimulation) (calls : List VenueCall) (reason : RejectReason) :
    (self.stateAfter calls).report.rejectionCounts reason =
      (eventsIn (self.transcript calls)).countP (isRefusalFor reason) := by
  induction calls using List.reverseRecOn with
  | nil => rfl
  | append_singleton calls c ih =>
    have hspec := self.call_spec (consistent_stateAfter self calls) c
    rw [transcript_concat, eventsIn_append, List.countP_append, ← ih, stateAfter_concat, reply]
    generalize self.call c (self.stateAfter calls) = run at hspec
    cases hspec with
    | raised c error recent => rfl
    | observed bar quote resting hquote hresting =>
      simp [eventsIn, isRefusalFor, SimulationState.report, List.countP_eq_zero]
    | refused order decidedAtUtc rejection refusal recent hrefusal =>
      rw [rejectionCounts_countRejection]
      simp only [eventsIn, List.flatMap_cons, List.flatMap_nil, List.append_nil, countP_refusal hrefusal]
      rfl
    | acknowledged order decidedAtUtc quote recent hquote => rfl
    | resolved ack order quote outcome outcomes after hpending hquote hrange houtcome hresolved =>
      cases hresolved with
      | crossed records hcrossed =>
        simp [eventsIn, isRefusalFor, SimulationState.report, List.countP_eq_zero, AckOutcome.event]
      | refused rejection refusal hrefusal =>
        rw [rejectionCounts_countRejection]
        simp only [eventsIn, List.flatMap_cons, List.flatMap_nil, List.append_nil, List.map_cons,
          List.map_nil, AckOutcome.event, countP_refusal hrefusal]
        rfl
      | rests limit hunmarketable => rfl

/-! ### Prices -/

/-- Every print of a call lies in the range of the bar the call resolves it against. -/
theorem price_mem_range (self : FillSimulation) (before : List VenueCall) (c : VenueCall)
    {events : List Event} {fill : Fill} (hreply : self.reply before c = .ok events)
    (hfill : Event.fill fill ∈ events) :
    ∃ bar, self.barFor before fill.instrument.symbol c = some bar ∧
      bar.lowQuotePrice ≤ fill.quotePrice ∧ fill.quotePrice ≤ bar.highQuotePrice := by
  have hspec := self.call_spec (consistent_stateAfter self before) c
  rw [reply] at hreply
  generalize self.call c (self.stateAfter before) = run at hspec hreply
  cases hspec with
  | raised c error recent => cases hreply
  | observed bar quote resting hquote hresting =>
    obtain rfl := Except.ok.inj hreply
    obtain ⟨record, hrecord, hsame⟩ := List.mem_map.mp hfill
    obtain rfl := Event.fill.inj hsame
    obtain ⟨id, held, _, hpaid⟩ := mem_paidBy hrecord
    obtain ⟨_, _, _, _, hprice⟩ := paid_printOf hpaid
    exact ⟨bar, rfl, consume_price_mem hprice⟩
  | refused order decidedAtUtc rejection refusal recent hrefusal =>
    obtain rfl := Except.ok.inj hreply
    simp at hfill
  | acknowledged order decidedAtUtc quote recent hquote =>
    obtain rfl := Except.ok.inj hreply
    simp at hfill
  | resolved ack order quote outcome outcomes after hpending hquote hrange houtcome hresolved =>
    obtain rfl := Except.ok.inj hreply
    cases hresolved with
    | refused rejection refusal hrefusal => simp [AckOutcome.event] at hfill
    | rests limit hunmarketable => simp at hfill
    | crossed records hcrossed =>
      obtain ⟨outcome, houtcome, hsame⟩ := List.mem_map.mp hfill
      obtain ⟨record, hrecord, rfl⟩ := List.mem_map.mp houtcome
      obtain rfl := Event.fill.inj hsame
      obtain ⟨hlow, hhigh⟩ := hcrossed.range record hrecord
      rw [quotes_stateAfter, Option.bind_eq_some_iff] at hquote
      obtain ⟨bar, hbar, hquoted⟩ := hquote
      have hok : self.quoteOf bar = .ok quote := by
        cases hcase : self.quoteOf bar with
        | error e => rw [hcase] at hquoted; cases hquoted
        | ok q => rw [hcase] at hquoted; rw [Option.some.inj hquoted]
      obtain ⟨hbarLow, hbarHigh, _⟩ := ranged_of_quoteOf hok
      have hsymbol : record.fill.instrument = order.instrument := by
        obtain ⟨touched, walked, hlegs, htouched, hwalked⟩ := hcrossed.legs
        rw [hlegs, List.mem_append] at hrecord
        rcases hrecord with hrecord | hrecord
        · rw [(htouched record (by simpa using hrecord)).1.fields]; rfl
        · rw [(hwalked record (by simpa using hrecord)).1.fields]; rfl
      refine ⟨bar, ?_, hbarLow ▸ hlow, hbarHigh ▸ hhigh⟩
      rw [hsymbol]
      exact hbar

/-! ### Crossing and resting -/

section Run

variable {before rest : List VenueCall} {order : Order}

/-- An order that crosses on arrival is filled exactly, or refused with no print ever. -/
theorem crossing_conserved {ack : OrderAckEvent} {quote : TouchQuote}
    (hids : ((submittedOf (before ++ .resolveAck ack :: rest)).map (·.orderId)).Nodup)
    (hpending : (self.stateAfter before).pending.get? ack.order.orderId = some order)
    (hquote : (self.stateAfter before).quotes.get? order.instrument.symbol = some quote)
    (hmarketable : isMarketable order quote = true) :
    (∃ fills : List Fill, self.reply before (.resolveAck ack) = .ok (fills.map Event.fill) ∧
      (fills.map (·.baseQuantity)).sum = order.baseQuantity ∧
      printedBase (self.stateAfter (before ++ .resolveAck ack :: rest)) order.orderId =
        order.baseQuantity) ∨
    (∃ refusal, self.reply before (.resolveAck ack) = .ok [.reject refusal] ∧
      refusal.order = order ∧
      (viewOf (self.stateAfter (before ++ .resolveAck ack :: rest)) order.orderId).records = []) := by
  have hconsistent := consistent_stateAfter self before
  rw [submittedOf_append, List.map_append] at hids
  have hledgers := ledgers_stateAfter self before hids.of_append_left
  have hid := hconsistent.pendingKey _ _ hpending
  rw [← hid] at hpending
  have hview : (viewOf (self.stateAfter before) order.orderId).pending = some order := hpending
  obtain ⟨submitted, hsubmitted, hsame, hledger⟩ := hledgers.exists_order (fun hunseen => by
    rw [hunseen] at hview
    cases hview)
  obtain ⟨rfl, hresting, hrecords⟩ := hledger.of_pending hview
  rw [hid] at hpending
  -- the view just after the ack, which nothing later moves
  have hafter : ∀ events records, self.reply before (.resolveAck ack) = .ok events →
      (viewOf (self.stateAfter before) order.orderId).step self
          (.resolved quote (ack.occursAtUtc + self.costModel.latency.ackToFill)) =
        ⟨none, none, records⟩ →
      viewOf (self.stateAfter (before ++ .resolveAck ack :: rest)) order.orderId =
        ⟨none, none, records⟩ := by
    intro events records hreply hstep
    have hone : viewOf (self.stateAfter (before ++ [.resolveAck ack])) order.orderId =
        ⟨none, none, records⟩ := by
      rw [stateAfter_concat, viewOf_resolveAck hconsistent hpending hquote hreply, hstep]
    have hmem : order ∈ submittedOf (before ++ [.resolveAck ack]) := by
      rw [submittedOf_append]
      exact List.mem_append_left _ hsubmitted
    rw [List.append_cons]
    rw [closed_stays hmem (by simpa [submittedOf] using hids) (by rw [hone]) (by rw [hone]), hone]
  have hspec := self.resolveAck_spec ack hpending hquote (hconsistent.ranged _ _ hquote)
  generalize houtcome : self.resolution order quote _ = outcome at hspec
  generalize hrun : self.resolveAck ack (self.stateAfter before) = run at hspec
  cases hspec with
  | rests limit hunmarketable =>
    rw [hmarketable] at hunmarketable
    cases hunmarketable
  | crossed records hcrossed =>
    left
    have hreply : self.reply before (.resolveAck ack) =
        .ok ((records.map (·.fill)).map Event.fill) := by
      rw [reply, call, hrun, Ran.map_ok, List.map_map, List.map_map]
      rfl
    refine ⟨records.map (·.fill), hreply, ?_, ?_⟩
    · rw [List.map_map]
      exact hcrossed.quantity
    · have hstep := hafter _ records hreply (by
        simp [OrderView.step, hview, houtcome, hresting, hrecords])
      rw [printedBase, hstep]
      exact hcrossed.quantity
  | refused rejection refusal hrefusal =>
    right
    have hreply : self.reply before (.resolveAck ack) = .ok [.reject refusal] := by
      rw [reply, call, hrun]
      rfl
    refine ⟨refusal, hreply, by rw [hrefusal], ?_⟩
    rw [hafter _ [] hreply (by simp [OrderView.step, hview, houtcome, hresting, hrecords])]

/-- One call moves the queue ahead of a resting order and its remainder down only. -/
theorem resting_shrinks {submitted : List Order} (hconsistent : Consistent state)
    (h : Ledgers self submitted state) (c : VenueCall) {id : Uuid} {resting after : RestingOrder}
    (hresting : state.resting.get? id = some resting)
    (hafter : (self.call c state).2.resting.get? id = some after) :
    after.queueAheadBase ≤ resting.queueAheadBase ∧ after.remainingBase ≤ resting.remainingBase := by
  have hview : (viewOf state id).resting = some resting := hresting
  obtain ⟨order, _, _, hledger⟩ := h.exists_order (fun hunseen => by
    rw [hunseen] at hview
    cases hview)
  obtain ⟨hpending, _, hsound, _⟩ := hledger.of_resting hview
  have hmoved : (viewOf (self.call c state).2 id).resting = some after := hafter
  rw [self.viewOf_call hconsistent] at hmoved
  cases hcase : self.feedOf id state c (self.call c state).1 with
  | none =>
    rw [hcase, Option.elim_none, hview] at hmoved
    obtain rfl := Option.some.inj hmoved
    exact ⟨le_rfl, le_rfl⟩
  | some feed =>
    rw [hcase, Option.elim_some] at hmoved
    rcases self.feedOf_cases hconsistent _ _ _ _ hcase with ⟨bar, rfl⟩ |
      ⟨other, decidedAtUtc, rfl, _, rfl⟩ | ⟨quote, fillAtUtc, rfl, _⟩
    · simp only [OrderView.step, hview, Option.bind_some] at hmoved
      rcases self.bar_cases hsound bar with
        ⟨_, left, hleft, _, _, hremaining, _, hqueue⟩ | ⟨record, _, _, _, hdone⟩
      · obtain rfl := Option.some.inj (hleft.symm.trans hmoved)
        exact ⟨hqueue, hremaining.le⟩
      · rcases hdone with hnone | ⟨left, hleft, _, _, _, hremaining, hqueue⟩
        · rw [hnone] at hmoved
          cases hmoved
        · obtain rfl := Option.some.inj (hleft.symm.trans hmoved)
          refine ⟨hqueue, ?_⟩
          have hpositive := record.fill.baseQuantity_pos
          linarith
    · obtain rfl := Option.some.inj (hview.symm.trans hmoved)
      exact ⟨le_rfl, le_rfl⟩
    · simp only [OrderView.step, hpending] at hmoved
      obtain rfl := Option.some.inj (hview.symm.trans hmoved)
      exact ⟨le_rfl, le_rfl⟩

end Run

/-! ### The contract -/

/-- Fill conservation of one session. -/
structure Conserved (simulation : FillSimulation) (calls : List VenueCall) : Prop where
  within : ∀ order ∈ submittedOf calls,
    printedBase (simulation.stateAfter calls) order.orderId ≤ order.baseQuantity
  crossing : ∀ before ack rest order quote, calls = before ++ .resolveAck ack :: rest →
    (simulation.stateAfter before).pending.get? ack.order.orderId = some order →
    (simulation.stateAfter before).quotes.get? order.instrument.symbol = some quote →
    isMarketable order quote = true →
    (∃ fills : List Fill, simulation.reply before (.resolveAck ack) = .ok (fills.map Event.fill) ∧
      (fills.map (·.baseQuantity)).sum = order.baseQuantity ∧
      printedBase (simulation.stateAfter calls) order.orderId = order.baseQuantity) ∨
    (∃ refusal, simulation.reply before (.resolveAck ack) = .ok [.reject refusal] ∧
      refusal.order = order ∧ (viewOf (simulation.stateAfter calls) order.orderId).records = [])
  resting : ∀ id resting, (simulation.stateAfter calls).resting.get? id = some resting →
    resting.order ∈ submittedOf calls ∧ resting.order.orderId = id ∧
      printedBase (simulation.stateAfter calls) id + resting.remainingBase =
        resting.order.baseQuantity
  shrinking : ∀ before c rest, calls = before ++ c :: rest → ∀ id resting after,
    (simulation.stateAfter before).resting.get? id = some resting →
    (simulation.stateAfter (before ++ [c])).resting.get? id = some after →
    after.queueAheadBase ≤ resting.queueAheadBase ∧ after.remainingBase ≤ resting.remainingBase
  fillIds : ((submittedOf calls).map (·.clientOrderId)).Nodup →
    ((simulation.stateAfter calls).report.fills.map (·.fill.venueTradeId)).Nodup ∧
    (Set.InjOn (uuid5 fillNamespace)
        {name | name ∈ (simulation.stateAfter calls).report.fills.map (·.fill.venueTradeId)} →
      ((simulation.stateAfter calls).report.fills.map (·.fill.fillId)).Nodup)
  prices : ∀ before c rest events fill, calls = before ++ c :: rest →
    simulation.reply before c = .ok events → Event.fill fill ∈ events →
    ∃ bar, simulation.barFor before fill.instrument.symbol c = some bar ∧
      bar.lowQuotePrice ≤ fill.quotePrice ∧ fill.quotePrice ≤ bar.highQuotePrice
  counts : ∀ reason, (simulation.stateAfter calls).report.rejectionCounts reason =
    (eventsIn (simulation.transcript calls)).countP (isRefusalFor reason)

/-- Every session of calls with distinct order ids conserves its fills. -/
theorem session_conserved (self : FillSimulation) (calls : List VenueCall)
    (hids : ((submittedOf calls).map (·.orderId)).Nodup) : Conserved self calls := by
  have hledgers := ledgers_stateAfter self calls hids
  constructor
  case within => exact fun order horder => (hledgers.ledger order horder).quantity_le
  case crossing =>
    rintro before ack rest order quote rfl hpending hquote hmarketable
    exact crossing_conserved hids hpending hquote hmarketable
  case resting =>
    intro id resting hresting
    have hview : (viewOf (self.stateAfter calls) id).resting = some resting := hresting
    obtain ⟨order, horder, hid, hledger⟩ := hledgers.exists_order (fun hunseen => by
      rw [hunseen] at hview
      cases hview)
    obtain ⟨_, rfl, _, hquantity⟩ := hledger.of_resting hview
    exact ⟨horder, hid, hquantity⟩
  case shrinking =>
    rintro before c rest rfl id resting after hresting hafter
    rw [submittedOf_append, List.map_append] at hids
    rw [stateAfter_concat] at hafter
    exact resting_shrinks (consistent_stateAfter self before)
      (ledgers_stateAfter self before hids.of_append_left) c hresting hafter
  case fillIds =>
    intro hclients
    have hnodup := hledgers.nodup_tradeIds hclients
    refine ⟨hnodup, fun hinj => ?_⟩
    rw [SimulationState.report, hledgers.fillId_eq]
    exact hnodup.map_on fun name hname other hother heq => hinj hname hother heq
  case prices =>
    rintro before c rest events fill - hreply hfill
    exact self.price_mem_range before c hreply hfill
  case counts => exact self.rejectionCounts_eq calls

/-- A market buy that walks into the band, and a limit buy that rests and is paid by the next bar. -/
def sampleSession : List VenueCall :=
  let crossing : Order := ⟨sampleOrderFields 1 "a" (3 / 2) none, by decide +kernel⟩
  let resting : Order := ⟨sampleOrderFields 2 "b" 1 (some 104), by decide +kernel⟩
  [.observe (sampleBar 10 20), .submit crossing 10, .submit resting 10, .resolveAck ⟨crossing, 10⟩,
    .resolveAck ⟨resting, 10⟩, .observe (sampleBar 20 4)]

theorem session_conserved_sample : Conserved sample sampleSession ∧
    ((sample.stateAfter sampleSession).report.fills.map (·.fill.fillId)).Nodup := by
  have hconserved := session_conserved sample sampleSession (by decide)
  refine ⟨hconserved, (hconserved.fillIds (by decide)).2 ?_⟩
  have hinj : ∀ name ∈ (sample.stateAfter sampleSession).report.fills.map (·.fill.venueTradeId),
      ∀ other ∈ (sample.stateAfter sampleSession).report.fills.map (·.fill.venueTradeId),
      uuid5 fillNamespace name = uuid5 fillNamespace other → name = other := by decide +kernel
  exact hinj

/-- Two market buys under one client order id. -/
def sharedClientSession : List VenueCall :=
  let first : Order := ⟨sampleOrderFields 1 "a" 1 none, by decide +kernel⟩
  let second : Order := ⟨sampleOrderFields 2 "a" 1 none, by decide +kernel⟩
  [.observe (sampleBar 10 20), .submit first 10, .submit second 10, .resolveAck ⟨first, 10⟩,
    .resolveAck ⟨second, 10⟩]

/-- Distinct order ids alone do not make fill ids unique: the id is made from the client order id. -/
theorem not_nodup_fillIds_of_shared_client :
    ¬∀ (self : FillSimulation) (calls : List VenueCall),
      ((submittedOf calls).map (·.orderId)).Nodup →
      ((self.stateAfter calls).report.fills.map (·.fill.fillId)).Nodup := by
  intro hall
  exact absurd (hall sample sharedClientSession (by decide)) (by decide +kernel)

end FillSimulation

end FinanceKing.Backtest
