import FinanceKing.Backtest.Venue.SimulationSpec

/-! Sessions of calls against the simulator: every state one reaches is consistent, and from a
    consistent state everything a call can do is said once, in `Called`. -/

namespace FinanceKing.Backtest

open Lib

/-- One call of the simulated venue. -/
inductive VenueCall where
  | observe (bar : Bar)
  | submit (order : Order) (decidedAtUtc : DateTime)
  | resolveAck (ack : OrderAckEvent)
  deriving DecidableEq

def SubmitAnswer.event : SubmitAnswer → Event
  | .acknowledged ack => .orderAck ack
  | .refused refusal => .reject refusal

def AckOutcome.event : AckOutcome → Event
  | .printed fill => .fill fill
  | .refused refusal => .reject refusal

/-- The orders a session of calls submits. -/
def submittedOf (calls : List VenueCall) : List Order :=
  calls.filterMap (fun | .submit order _ => some order | _ => none)

@[simp] theorem submittedOf_append (before after : List VenueCall) :
    submittedOf (before ++ after) = submittedOf before ++ submittedOf after :=
  List.filterMap_append

namespace FillSimulation

variable (self : FillSimulation)

/-- Make one call; what it returns is the events it would schedule. -/
def call (c : VenueCall) (state : SimulationState) : Ran SimulationState (List Event) :=
  match c with
  | .observe bar => Ran.map (fun fills => fills.map Event.fill) (self.observe bar state)
  | .submit order decidedAtUtc =>
    Ran.map (fun answer => [answer.event]) (self.submit order decidedAtUtc state)
  | .resolveAck ack =>
    Ran.map (fun outcomes => outcomes.map AckOutcome.event) (self.resolveAck ack state)

/-- The state a session leaves, each raise caught by its caller. -/
def stateAfter (calls : List VenueCall) : SimulationState :=
  calls.foldl (fun state c => (self.call c state).2) SimulationState.initial

/-- What the next call of a session gives. -/
def reply (before : List VenueCall) (c : VenueCall) : PyResult (List Event) :=
  (self.call c (self.stateAfter before)).1

/-- The calls of a session, each with its reply, from a given state. -/
def history (self : FillSimulation) : SimulationState → List VenueCall →
    List (VenueCall × PyResult (List Event))
  | _, [] => []
  | state, c :: rest => (c, (self.call c state).1) :: history self (self.call c state).2 rest

/-- A session's calls, each with its reply. -/
def transcript (calls : List VenueCall) : List (VenueCall × PyResult (List Event)) :=
  self.history SimulationState.initial calls

/-- The events of the replies, in order; a call that raised gave none. -/
def eventsIn (transcript : List (VenueCall × PyResult (List Event))) : List Event :=
  transcript.flatMap (fun entry => match entry.2 with
    | .ok events => events
    | .error _ => [])

theorem eventsIn_append (left right : List (VenueCall × PyResult (List Event))) :
    eventsIn (left ++ right) = eventsIn left ++ eventsIn right := List.flatMap_append

theorem stateAfter_concat (calls : List VenueCall) (c : VenueCall) :
    self.stateAfter (calls ++ [c]) = (self.call c (self.stateAfter calls)).2 := by
  rw [stateAfter, List.foldl_append]
  rfl

theorem transcript_concat (calls : List VenueCall) (c : VenueCall) :
    self.transcript (calls ++ [c]) = self.transcript calls ++ [(c, self.reply calls c)] := by
  have happend : ∀ (calls : List VenueCall) (state : SimulationState),
      self.history state (calls ++ [c]) = self.history state calls ++
        [(c, (self.call c (calls.foldl (fun state c => (self.call c state).2) state)).1)] := by
    intro calls
    induction calls with
    | nil => intro state; rfl
    | cons d calls ih => intro state; rw [List.cons_append, history, ih, history]; rfl
  exact happend calls SimulationState.initial

/-! ### Consistency -/

/-- What holds of every state a session reaches: orders are held under their own ids, every quote has a
    range, and a pending order has a quote. -/
structure Consistent (state : SimulationState) : Prop where
  pendingKey : ∀ id order, state.pending.get? id = some order → order.orderId = id
  restingKey : ∀ id resting, state.resting.get? id = some resting → resting.order.orderId = id
  ranged : ∀ symbol quote, state.quotes.get? symbol = some quote → Ranged quote
  quoted : ∀ id order, state.pending.get? id = some order →
    ∃ quote, state.quotes.get? order.instrument.symbol = some quote

variable {self} {state : SimulationState}

theorem afterBar_order {bar : Bar} {resting after : RestingOrder}
    (h : afterBar bar resting = some after) : after.order = resting.order := by
  rw [afterBar] at h
  split at h
  · rw [← Option.some.inj h]
  split at h
  · cases h
  · rw [← Option.some.inj h, consume_order]

theorem consistent_initial : Consistent SimulationState.initial := by
  constructor <;> intro _ _ h <;> cases h

theorem consistent_observe (h : Consistent state) (bar : Bar) :
    Consistent (self.observe bar state).2 := by
  rcases self.observe_eq bar state with ⟨e, _, hrun⟩ | ⟨quote, resting, hquote, hrun, hget⟩
  · rw [hrun]
    exact h
  rw [hrun]
  refine ⟨h.pendingKey, fun id after hafter => ?_, fun symbol q hq => ?_, fun id order hpending => ?_⟩
  · rw [hget, Option.bind_eq_some_iff] at hafter
    obtain ⟨before, hbefore, hafter⟩ := hafter
    rw [afterBar_order hafter]
    exact h.restingKey id before hbefore
  · rw [Dict.get?_set] at hq
    split at hq
    · rw [← Option.some.inj hq]
      exact (ranged_of_quoteOf hquote).2.2
    · exact h.ranged symbol q hq
  · obtain ⟨held, hheld⟩ := h.quoted id order hpending
    simp only [Dict.get?_set]
    split
    · exact ⟨quote, rfl⟩
    · exact ⟨held, hheld⟩

theorem consistent_submit (h : Consistent state) (order : Order) (decidedAtUtc : DateTime) :
    Consistent (self.submit order decidedAtUtc state).2 := by
  generalize hrun : self.submit order decidedAtUtc state = run
  have hspec := self.submit_spec order decidedAtUtc state
  rw [hrun] at hspec
  cases hspec with
  | raised error recent => exact ⟨h.pendingKey, h.restingKey, h.ranged, h.quoted⟩
  | refused rejection refusal recent => exact ⟨h.pendingKey, h.restingKey, h.ranged, h.quoted⟩
  | acknowledged quote recent hcreated hquote =>
    refine ⟨fun id held hheld => ?_, h.restingKey, h.ranged, fun id held hheld => ?_⟩ <;>
    rw [Dict.get?_set] at hheld <;> split at hheld
    · next hid => rw [← Option.some.inj hheld, hid]
    · exact h.pendingKey id held hheld
    · rw [← Option.some.inj hheld]
      exact ⟨quote, hquote⟩
    · exact h.quoted id held hheld

theorem get?_pending_of_erase {id erased : Uuid} {order : Order}
    (h : (state.pending.erase erased).get? id = some order) : state.pending.get? id = some order := by
  rw [Dict.get?_erase] at h
  split at h
  · cases h
  · exact h

theorem consistent_resolveAck (h : Consistent state) (ack : OrderAckEvent) :
    Consistent (self.resolveAck ack state).2 := by
  cases hpending : state.pending.get? ack.order.orderId with
  | none =>
    obtain ⟨error, hrun⟩ := self.resolveAck_of_none ack hpending
    rw [hrun]
    exact h
  | some order =>
    obtain ⟨quote, hquote⟩ := h.quoted _ _ hpending
    have hspec := self.resolveAck_spec ack hpending hquote (h.ranged _ _ hquote)
    have hpop : Consistent { state with pending := state.pending.erase ack.order.orderId } :=
      ⟨fun id held hheld => h.pendingKey id held (get?_pending_of_erase hheld), h.restingKey, h.ranged,
        fun id held hheld => h.quoted id held (get?_pending_of_erase hheld)⟩
    generalize self.resolution order quote _ = outcome at hspec
    generalize self.resolveAck ack state = run at hspec
    cases hspec with
    | crossed records hcrossed =>
      exact ⟨hpop.pendingKey, hpop.restingKey, hpop.ranged, hpop.quoted⟩
    | refused rejection refusal =>
      exact ⟨hpop.pendingKey, hpop.restingKey, hpop.ranged, hpop.quoted⟩
    | rests limit hunmarketable =>
      refine ⟨hpop.pendingKey, fun id held hheld => ?_, hpop.ranged, hpop.quoted⟩
      rw [Dict.get?_set] at hheld
      split at hheld
      · next hid => rw [← Option.some.inj hheld, hid]; rfl
      · exact h.restingKey id held hheld

/-- Every session leaves a consistent state. -/
theorem consistent_stateAfter (self : FillSimulation) (calls : List VenueCall) :
    Consistent (self.stateAfter calls) := by
  induction calls using List.reverseRecOn with
  | nil => exact consistent_initial
  | append_singleton calls c ih =>
    rw [stateAfter_concat]
    cases c with
    | observe bar => simpa only [call, Ran.map_snd] using consistent_observe ih bar
    | submit order decidedAtUtc =>
      simpa only [call, Ran.map_snd] using consistent_submit ih order decidedAtUtc
    | resolveAck ack => simpa only [call, Ran.map_snd] using consistent_resolveAck ih ack

/-! ### One call -/

/-- Everything one call can do, from a consistent state. -/
inductive Called (self : FillSimulation) (state : SimulationState) :
    VenueCall → Ran SimulationState (List Event) → Prop
  | raised (c : VenueCall) (error : PyError) (recent : List DateTime) :
      Called self state c (.error error, { state with recentSubmissions := recent })
  | observed (bar : Bar) (quote : TouchQuote) (resting : Dict Uuid RestingOrder)
      (hquote : self.quoteOf bar = .ok quote)
      (hresting : ∀ k, resting.get? k = (state.resting.get? k).bind (afterBar bar)) :
      Called self state (.observe bar) (.ok ((self.paidBy bar state).map (Event.fill ·.fill)),
        { state with
          quotes := state.quotes.set bar.instrument.symbol quote
          resting := resting
          fills := state.fills ++ self.paidBy bar state })
  | refused (order : Order) (decidedAtUtc : DateTime) (rejection : Rejection) (refusal : RejectEvent)
      (recent : List DateTime)
      (hrefusal : refusal.toRejectEventFields =
        ⟨order, self.acknowledgedAt decidedAtUtc, rejection.asRejectText⟩) :
      Called self state (.submit order decidedAtUtc) (.ok [.reject refusal],
        { state with recentSubmissions := recent }.countRejection rejection.reason)
  | acknowledged (order : Order) (decidedAtUtc : DateTime) (quote : TouchQuote)
      (recent : List DateTime) (hquote : state.quotes.get? order.instrument.symbol = some quote) :
      Called self state (.submit order decidedAtUtc)
        (.ok [.orderAck ⟨order, self.acknowledgedAt decidedAtUtc⟩],
          { state with recentSubmissions := recent, pending := state.pending.set order.orderId order })
  | resolved (ack : OrderAckEvent) (order : Order) (quote : TouchQuote) (outcome : Resolution)
      (outcomes : List AckOutcome) (after : SimulationState)
      (hpending : state.pending.get? ack.order.orderId = some order)
      (hquote : state.quotes.get? order.instrument.symbol = some quote) (hrange : Ranged quote)
      (houtcome : outcome =
        self.resolution order quote (ack.occursAtUtc + self.costModel.latency.ackToFill))
      (hresolved : Resolved self order quote (ack.occursAtUtc + self.costModel.latency.ackToFill)
        { state with pending := state.pending.erase ack.order.orderId } outcome
        (.ok outcomes, after)) :
      Called self state (.resolveAck ack) (.ok (outcomes.map AckOutcome.event), after)

theorem call_spec (h : Consistent state) (c : VenueCall) : Called self state c (self.call c state) := by
  cases c with
  | observe bar =>
    rw [call]
    rcases self.observe_eq bar state with ⟨e, _, hrun⟩ | ⟨quote, resting, hquote, hrun, hget⟩
    · rw [hrun]
      exact .raised _ e state.recentSubmissions
    · rw [hrun, Ran.map_ok, List.map_map]
      exact .observed bar quote resting hquote hget
  | submit order decidedAtUtc =>
    rw [call]
    have hspec := self.submit_spec order decidedAtUtc state
    generalize self.submit order decidedAtUtc state = run at hspec
    cases hspec with
    | raised error recent => exact .raised _ error recent
    | refused rejection refusal recent hcreated hrefusal =>
      exact .refused order decidedAtUtc rejection refusal recent hrefusal
    | acknowledged quote recent hcreated hquote =>
      exact .acknowledged order decidedAtUtc quote recent hquote
  | resolveAck ack =>
    rw [call]
    cases hpending : state.pending.get? ack.order.orderId with
    | none =>
      obtain ⟨error, hrun⟩ := self.resolveAck_of_none ack hpending
      rw [hrun]
      exact .raised _ error state.recentSubmissions
    | some order =>
      obtain ⟨quote, hquote⟩ := h.quoted _ _ hpending
      have hspec := self.resolveAck_spec ack hpending hquote (h.ranged _ _ hquote)
      generalize houtcome : self.resolution order quote _ = outcome at hspec
      generalize self.resolveAck ack state = run at hspec ⊢
      have hspec' := hspec
      cases hspec with
      | crossed records hcrossed =>
        exact .resolved ack order quote _ _ _ hpending hquote (h.ranged _ _ hquote) houtcome.symm hspec'
      | refused rejection refusal hrefusal =>
        exact .resolved ack order quote _ _ _ hpending hquote (h.ranged _ _ hquote) houtcome.symm hspec'
      | rests limit hunmarketable =>
        exact .resolved ack order quote _ _ _ hpending hquote (h.ranged _ _ hquote) houtcome.symm hspec'

/-! ### A venue to evaluate -/

/-- One calibrated symbol, at zero latency and with one unit at the touch and two in the band. -/
def sample : FillSimulation where
  costModel :=
    { version := "v1"
      calibrationSource := "capture"
      fees := ⟨2, 5, by norm_num, by norm_num⟩
      latency := ⟨0, 0, 0, 0, le_rfl, le_rfl, le_rfl, le_rfl⟩
      partialFills := ⟨3, 0, by norm_num, le_rfl⟩
      spreads := Dict.empty.set "BTCUSDT" ⟨fun _ => ⟨2, 4, by norm_num, by norm_num⟩⟩
      depth := Dict.empty.set "BTCUSDT" ⟨1, 2, by norm_num, by norm_num⟩ }
  filters := Dict.empty.set "BTCUSDT"
    ⟨"BTCUSDT", 1 / 100, 1, 100000, 1 / 1000, 1 / 1000, 1000, 5, 2, 1 / 2, 2, 1 / 2⟩
  orderRateBudget := 50
  orderRateWindow := 10000000
  quantile := .p50
  sequentialFillGap := defaultSequentialFillGap
  checked := by decide

end FillSimulation

/-- A bar of the sample instrument from 100 to 110, closing at 105. -/
def sampleBar (closeTimeUtc : DateTime) (baseVolume : ℕ) : Bar where
  instrument := Instrument.sample
  openTimeUtc := closeTimeUtc - 1
  closeTimeUtc := closeTimeUtc
  openQuotePrice := 100
  highQuotePrice := 110
  lowQuotePrice := 100
  closeQuotePrice := 105
  baseVolume := baseVolume
  tradeCount := 1
  checked := by
    have hvolume : (0 : ℚ) ≤ baseVolume := Nat.cast_nonneg baseVolume
    simp [BarFields.postInit, requirePositiveDecimal, requireNonNegativeDecimal, raiseIf, hvolume]
    norm_num

/-- A buy of the sample instrument, at a limit or at market. -/
def sampleOrderFields (orderId : Uuid) (clientOrderId : String) (baseQuantity : Decimal)
    (limitQuotePrice : Option Decimal) : OrderFields where
  orderId := orderId
  clientOrderId := clientOrderId
  correlationId := 0
  instrument := Instrument.sample
  side := .buy
  orderType := if limitQuotePrice.isSome then .limit else .market
  timeInForce := .gtc
  baseQuantity := baseQuantity
  limitQuotePrice := limitQuotePrice
  createdAtUtc := 0

end FinanceKing.Backtest
