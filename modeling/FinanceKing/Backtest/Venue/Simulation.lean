import FinanceKing.Backtest.Venue.Filters
import FinanceKing.Backtest.Venue.Resting

/-! The fill simulator every simulated venue delegates to: latency scheduled, fills earned, rejections
    reported. What a simulation is built from never changes and is the structure `FillSimulation`; what
    it mutates is the `SimulationState` its calls pass along, which a raising call leaves as far as it
    had got. -/

namespace FinanceKing.Backtest

open Lib

/-- A call that may raise, and the state it leaves either way. -/
abbrev Ran (σ α : Type) := PyResult α × σ

/-- Go on with what a call returned, in the state it left; an exception goes on by itself. -/
def Ran.chain {σ α β : Type} : Ran σ α → (α → σ → Ran σ β) → Ran σ β
  | (.ok a, s), next => next a s
  | (.error e, s), _ => (.error e, s)

@[simp] theorem Ran.chain_ok {σ α β : Type} (a : α) (s : σ) (next : α → σ → Ran σ β) :
    Ran.chain (.ok a, s) next = next a s := rfl

/-- Change what a call returned. -/
def Ran.map {σ α β : Type} (f : α → β) : Ran σ α → Ran σ β
  | (.ok a, s) => (.ok (f a), s)
  | (.error e, s) => (.error e, s)

@[simp] theorem Ran.map_ok {σ α β : Type} (f : α → β) (a : α) (s : σ) :
    Ran.map f ((.ok a, s) : Ran σ α) = (.ok (f a), s) := rfl

@[simp] theorem Ran.map_error {σ α β : Type} (f : α → β) (e : PyError) (s : σ) :
    Ran.map f ((.error e, s) : Ran σ α) = (.error e, s) := rfl

@[simp] theorem Ran.map_snd {σ α β : Type} (f : α → β) (r : Ran σ α) : (Ran.map f r).2 = r.2 := by
  rcases r with ⟨_ | _, _⟩ <;> rfl

/-! ### Records -/

/-- The precision quote amounts are kept at: eight decimals. -/
def quoteExponent : Decimal := 1 / 100000000

def defaultSequentialFillGap : TimeDelta := 5000

def fillNamespace : Uuid := uuid5 namespaceUrl "https://fking.local/backtest/fill"

/-- One printed fill, with what made it passive and what that cost. -/
structure VenueFillRecord where
  fill : Fill
  isPassive : Bool
  passiveMarkoutQuote : Decimal
  deriving DecidableEq

/-- What the venue did over a run; every taxonomy member has a count, the zeroes included. -/
structure VenueReport where
  rejectionCounts : RejectReason → ℕ
  fills : List VenueFillRecord

/-- When a submitted order becomes visible to the venue, and when it could fill. -/
structure SubmissionSchedule where
  decidedAtUtc : DateTime
  arrivesAtUtc : DateTime
  acknowledgedAtUtc : DateTime
  earliestFillAtUtc : DateTime
  deriving DecidableEq

structure FillSimulationFields where
  costModel : CostModel
  filters : Dict String SymbolFilters
  orderRateBudget : ℤ
  orderRateWindow : TimeDelta
  quantile : SpreadQuantile
  sequentialFillGap : TimeDelta
  deriving DecidableEq

def FillSimulationFields.postInit (self : FillSimulationFields) : PyResult Unit := do
  raiseIf (self.orderRateBudget ≤ 0) .venueSimulation
    ["order_rate_budget must be positive; got ", .count self.orderRateBudget]
  raiseIf (self.orderRateWindow ≤ 0) .venueSimulation
    ["order_rate_window must be positive; got ", .span self.orderRateWindow]
  raiseIf (self.sequentialFillGap < 0) .venueSimulation
    ["sequential_fill_gap must not be negative; got ", .span self.sequentialFillGap]

/-- The fill model, as it is constructed. -/
structure FillSimulation extends FillSimulationFields where
  checked : toFillSimulationFields.postInit = .ok ()
  deriving DecidableEq

/-- What a simulation mutates: the quotes it has seen, the working and the unresolved orders, the
    submissions inside the rate window, the prints, and the refusals counted. -/
structure SimulationState where
  quotes : Dict String TouchQuote
  resting : Dict Uuid RestingOrder
  pending : Dict Uuid Order
  recentSubmissions : List DateTime
  fills : List VenueFillRecord
  rejections : Dict RejectReason ℕ
  deriving DecidableEq

def SimulationState.initial : SimulationState :=
  ⟨Dict.empty, Dict.empty, Dict.empty, [], [], Dict.empty⟩

/-- What this venue has done so far, including the reasons it refused. -/
def SimulationState.report (state : SimulationState) : VenueReport where
  rejectionCounts reason := (state.rejections.get? reason).getD 0
  fills := state.fills

/-- One more refusal for a reason. -/
def SimulationState.countRejection (state : SimulationState) (reason : RejectReason) :
    SimulationState :=
  { state with
    rejections := state.rejections.set reason ((state.rejections.get? reason).getD 0 + 1) }

/-- The venue's answer to one submission. -/
inductive SubmitAnswer where
  | acknowledged (ack : OrderAckEvent)
  | refused (refusal : RejectEvent)
  deriving DecidableEq

/-- What resolving an ack gives: prints and refusals. -/
inductive AckOutcome where
  | printed (fill : Fill)
  | refused (refusal : RejectEvent)
  deriving DecidableEq

namespace FillSimulation

variable (self : FillSimulation)

/-! ### Prints and refusals -/

/-- `.quantize(_QUOTE_EXPONENT, rounding=ROUND_HALF_EVEN)`. -/
def quantizeQuote (amount : Decimal) : Decimal := snapWith roundHalfEven quoteExponent amount

/-- `f"sim-{order.client_order_id}-{sequence}"`. -/
def venueTradeIdFor (clientOrderId : String) (sequence : ℕ) : String :=
  "sim-" ++ clientOrderId ++ "-" ++ toString sequence

/-- The fill printed for a quantity of an order. -/
def fillFieldsFor (order : Order) (baseQuantity quotePrice : Decimal) (eventTimeUtc : DateTime)
    (isPassive : Bool) (sequence : ℕ) : FillFields where
  fillId := uuid5 fillNamespace (venueTradeIdFor order.clientOrderId sequence)
  orderId := order.orderId
  venueTradeId := venueTradeIdFor order.clientOrderId sequence
  instrument := order.instrument
  side := order.side
  eventTimeUtc := eventTimeUtc
  quotePrice := quotePrice
  baseQuantity := baseQuantity
  feeQuote := quantizeQuote
    (baseQuantity * quotePrice * self.costModel.fees.feeBpsFor isPassive / bpsPerUnit)

/-- Adverse selection, charged against a passive print only. -/
def passiveMarkoutFor (baseQuantity quotePrice : Decimal) (isPassive : Bool) : Decimal :=
  if isPassive then
    quantizeQuote
      (baseQuantity * quotePrice * self.costModel.partialFills.passiveMarkoutBps / bpsPerUnit)
  else 0

/-- `_print_fill`: build the fill and keep its record. -/
def printFill (order : Order) (baseQuantity quotePrice : Decimal) (eventTimeUtc : DateTime)
    (isPassive : Bool) (sequence : ℕ) (state : SimulationState) : Ran SimulationState Fill :=
  match construct FillFields.postInit Fill.mk
    (self.fillFieldsFor order baseQuantity quotePrice eventTimeUtc isPassive sequence) with
  | .error e => (.error e, state)
  | .ok fill => (.ok fill, { state with
      fills := state.fills ++
        [⟨fill, isPassive, self.passiveMarkoutFor baseQuantity quotePrice isPassive⟩] })

/-- `_reject`: count the reason and build the event. -/
def reject (order : Order) (occursAtUtc : DateTime) (rejection : Rejection)
    (state : SimulationState) : Ran SimulationState RejectEvent :=
  (construct RejectEventFields.postInit RejectEvent.mk
      ⟨order, occursAtUtc, rejection.asRejectText⟩,
    state.countRejection rejection.reason)

/-! ### Market data -/

/-- The modelled quote of a closed bar. -/
def quoteOf (bar : Bar) : PyResult TouchQuote := do
  let profile ← self.costModel.spreadProfileFor bar.instrument.symbol
  let depth ← self.costModel.depthProfileFor bar.instrument.symbol
  quoteFromBar bar (profile.spreadBps (hourOf bar.closeTimeUtc) self.quantile) depth

/-- Print what a bar paid one resting order, if it paid anything. -/
def printProgress (bar : Bar) (progress : QueueProgress) (state : SimulationState) :
    Ran SimulationState (List Fill) :=
  match progress.fillQuotePrice with
  | none => (.ok [], state)
  | some price =>
    if 0 < progress.filledBaseQuantity then
      Ran.chain (self.printFill progress.resting.order progress.filledBaseQuantity price
        bar.closeTimeUtc true progress.resting.fillCount state) fun fill state => (.ok [fill], state)
    else (.ok [], state)

/-- One turn of the loop over the resting orders. -/
def payOrder (bar : Bar) (orderId : Uuid) (state : SimulationState) :
    Ran SimulationState (List Fill) :=
  match state.resting.get? orderId with
  | none => (.ok [], state)  -- every id of the snapshot is still held when its turn comes
  | some resting =>
    if resting.order.instrument.symbol ≠ bar.instrument.symbol then (.ok [], state)
    else
      let progress := consume resting bar
      Ran.chain (self.printProgress bar progress state) fun printed state =>
        (.ok printed, { state with
          resting := if progress.resting.isComplete then state.resting.erase orderId
            else state.resting.set orderId progress.resting })

/-- The loop over the resting orders. -/
def payQueue (bar : Bar) : List Uuid → SimulationState → Ran SimulationState (List Fill)
  | [], state => (.ok [], state)
  | orderId :: rest, state =>
    Ran.chain (self.payOrder bar orderId state) fun printed state =>
      Ran.chain (payQueue bar rest state) fun more state => (.ok (printed ++ more), state)

/-- Take a closed bar, update the modelled quote, and pay the queue what it earned. -/
def observe (bar : Bar) (state : SimulationState) : Ran SimulationState (List Fill) :=
  match self.quoteOf bar with
  | .error e => (.error e, state)
  | .ok quote =>
    self.payQueue bar (sortBy id state.resting.keys)
      { state with quotes := state.quotes.set bar.instrument.symbol quote }

/-! ### Order path -/

/-- The three latency stages applied to a decision. -/
def scheduleFor (decidedAtUtc : DateTime) : SubmissionSchedule :=
  let latency := self.costModel.latency
  let arrives := decidedAtUtc + latency.decisionToSend
  let acknowledged := arrives + latency.sendToAck
  ⟨decidedAtUtc, arrives, acknowledged, acknowledged + latency.ackToFill⟩

def scheduleOrRaise (order : Order) (decidedAtUtc : DateTime) : PyResult SubmissionSchedule := do
  raiseIf (decidedAtUtc < order.createdAtUtc) .venueSimulation
    [order.clientOrderId, " was decided at ", .instant decidedAtUtc, ", before it was created at ",
      .instant order.createdAtUtc]
  return self.scheduleFor decidedAtUtc

def quoteOrRaise (order : Order) (state : SimulationState) : PyResult TouchQuote :=
  match state.quotes.get? order.instrument.symbol with
  | some quote => .ok quote
  | none => raise .venueSimulation
      [order.clientOrderId, " arrived for ", order.instrument.symbol, " before any bar had " ++
        "closed; the venue has no book to price it against and will not invent one"]

/-- Whether the venue's new-order budget still has room at this instant; if it has, take a place. -/
def withinOrderRateBudget (arrivesAtUtc : DateTime) (state : SimulationState) :
    Bool × SimulationState :=
  let recent := state.recentSubmissions.filter (fun sent => arrivesAtUtc - self.orderRateWindow < sent)
  if self.orderRateBudget ≤ recent.length then
    (false, { state with recentSubmissions := recent })
  else
    (true, { state with recentSubmissions := recent ++ [arrivesAtUtc] })

/-- The filters, the quote and the screen of one order. -/
def screenAgainst (order : Order) (state : SimulationState) : PyResult (Option Rejection) :=
  match self.filters.get? order.instrument.symbol with
  | none => raise .venueSimulation
      ["no exchangeInfo filters loaded for ", .quoted order.instrument.symbol,
        "; loaded symbols are ", .texts (sortBy id self.filters.keys)]
  | some filters => do
    let quote ← quoteOrRaise order state
    screenOrder filters order ((quote.bidQuotePrice + quote.askQuotePrice) / 2)

/-- `_screen`: the order rate first, then the filters. -/
def screen (order : Order) (arrivesAtUtc : DateTime) (state : SimulationState) :
    Ran SimulationState (Option Rejection) :=
  match self.withinOrderRateBudget arrivesAtUtc state with
  | (false, state) => (.ok (some ⟨.orderRateBudget, [.count self.orderRateBudget,
      " new orders already sent within ", .span self.orderRateWindow]⟩), state)
  | (true, state) => (self.screenAgainst order state, state)

/-- Screen an order and schedule the venue's answer at the instant it would arrive. -/
def submit (order : Order) (decidedAtUtc : DateTime) (state : SimulationState) :
    Ran SimulationState SubmitAnswer :=
  Ran.chain (self.scheduleOrRaise order decidedAtUtc, state) fun schedule state =>
    Ran.chain (self.screen order schedule.arrivesAtUtc state) fun rejection state =>
      match rejection with
      | some rejection =>
        Ran.chain (reject order schedule.acknowledgedAtUtc rejection state) fun refusal state =>
          (.ok (.refused refusal), state)
      | none =>
        (.ok (.acknowledged ⟨order, schedule.acknowledgedAtUtc⟩),
          { state with pending := state.pending.set order.orderId order })

/-- Whether the order trades against the touch at once. -/
def isMarketable (order : Order) (quote : TouchQuote) : Bool :=
  match order.orderType, order.limitQuotePrice with
  | .market, _ => true
  | .limit, none => true
  | .limit, some limit =>
    match order.side with
    | .buy => quote.touchFor order.side ≤ limit
    | .sell => limit ≤ quote.touchFor order.side

/-- The part of a crossing order that fills at the touch. -/
def atTouchOf (order : Order) (quote : TouchQuote) : Decimal :=
  order.instrument.quantizeBaseQuantity (min order.baseQuantity quote.depth.depthAtTouchBase)

/-- The price of the part beyond the touch: the whole walk's slippage is carried by it. -/
def beyondQuotePrice (order : Order) (quote : TouchQuote) (walk : DepthWalk) (beyond : Decimal) :
    Decimal :=
  let walkBps := walk.depthSlippageBps * order.baseQuantity / beyond
  let displaced := bpsPerUnit + walkBps * order.side.signedMultiplier
  quote.clampIntoRange (quote.touchFor order.side * displaced / bpsPerUnit)

/-- Print a positive quantity of a crossing order; print nothing for the rest. -/
def printCross (order : Order) (baseQuantity quotePrice : Decimal) (eventTimeUtc : DateTime)
    (sequence : ℕ) (state : SimulationState) : Ran SimulationState (List AckOutcome) :=
  if 0 < baseQuantity then
    Ran.chain (self.printFill order baseQuantity quotePrice eventTimeUtc false sequence state)
      fun fill state => (.ok [.printed fill], state)
  else (.ok [], state)

/-- `_cross`: walk the modelled depth; what exceeds the band is refused whole. -/
def cross (order : Order) (quote : TouchQuote) (fillAtUtc : DateTime) (state : SimulationState) :
    Ran SimulationState (List AckOutcome) :=
  Ran.chain (walkDepth quote.depth order.baseQuantity, state) fun walk state =>
    if walk.isUnfillable then
      Ran.chain (reject order fillAtUtc ⟨.unfillableDepth, [.decimal order.baseQuantity,
        " beyond the modelled +-1% band of ", .decimal quote.depth.band1pctBase]⟩ state)
        fun refusal state => (.ok [.refused refusal], state)
    else
      let atTouch := atTouchOf order quote
      let beyond := order.baseQuantity - atTouch
      Ran.chain (self.printCross order atTouch (quote.clampIntoRange (quote.touchFor order.side))
        fillAtUtc 0 state) fun touched state =>
        Ran.chain (self.printCross order beyond (beyondQuotePrice order quote walk beyond)
          (fillAtUtc + self.sequentialFillGap) 1 state) fun walked state =>
          if touched ++ walked = [] then
            (raise .venueSimulation [order.clientOrderId, " crossed and produced no fill"], state)
          else (.ok (touched ++ walked), state)

/-- Refuse an unmarketable order that may not rest, or queue it at its limit. -/
def restOrRefuse (order : Order) (quote : TouchQuote) (fillAtUtc : DateTime)
    (state : SimulationState) : Ran SimulationState (List AckOutcome) :=
  match order.limitQuotePrice with
  | none => (raise .venueSimulation [order.clientOrderId, " is a limit order with no price"], state)
  | some limit =>
    if order.timeInForce = .ioc ∨ order.timeInForce = .fok then
      Ran.chain (reject order fillAtUtc ⟨.unfillableDepth, [order.timeInForce.value, " at ",
        .decimal limit, " did not cross a touch of ", .decimal (quote.touchFor order.side)]⟩ state)
        fun refusal state => (.ok [.refused refusal], state)
    else
      (.ok [], { state with resting := state.resting.set order.orderId (joinQueue order limit quote) })

/-- Turn an acknowledged order into prints, a resting entry, or a size rejection. -/
def resolveAck (ack : OrderAckEvent) (state : SimulationState) :
    Ran SimulationState (List AckOutcome) :=
  match state.pending.get? ack.order.orderId with
  | none => (raise .venueSimulation ["ack for ", ack.order.clientOrderId, " names an order the " ++
      "venue is not holding; either it was resolved twice or it was never submitted"], state)
  | some order =>
    let state := { state with pending := state.pending.erase ack.order.orderId }
    Ran.chain (quoteOrRaise order state, state) fun quote state =>
      let fillAt := ack.occursAtUtc + self.costModel.latency.ackToFill
      if isMarketable order quote then self.cross order quote fillAt state
      else restOrRefuse order quote fillAt state

end FillSimulation

end FinanceKing.Backtest
