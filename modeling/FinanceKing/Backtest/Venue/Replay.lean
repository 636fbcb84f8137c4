import FinanceKing.Backtest.Venue.Recording

/-! A recording served back through the venue's interface. Nothing is modelled: a submission is answered
    the way it was answered, an ack releases the recorded aggressive prints or the late refusal, and a
    bar releases every recorded passive print stamped at its close. -/

namespace FinanceKing.Backtest

open Lib

/-- What a replay mutates: the orders it acknowledged, the acks it has resolved, its prints and its
    refusals. -/
structure ReplayState where
  acknowledged : Dict String Order
  replayed : List String
  fills : List VenueFillRecord
  rejections : Dict RejectReason ℕ

def ReplayState.initial : ReplayState := ⟨Dict.empty, [], [], Dict.empty⟩

/-- What the recorded session did, as far as this replay has served it. -/
def ReplayState.report (state : ReplayState) : VenueReport where
  rejectionCounts reason := (state.rejections.get? reason).getD 0
  fills := state.fills

/-- A replay of one recording; it holds no cost model, no book and no filters. -/
structure ReplayVenue where
  recording : VenueRecording

namespace ReplayVenue

variable (self : ReplayVenue)

/-- `_print`: the recorded response paired with a live order. -/
def print (order : Order) (recorded : RecordedFill) (state : ReplayState) : Ran ReplayState Fill :=
  match construct FillFields.postInit Fill.mk
    { fillId := uuid5 fillNamespace recorded.venueTradeId
      orderId := order.orderId
      venueTradeId := recorded.venueTradeId
      instrument := order.instrument
      side := order.side
      eventTimeUtc := recorded.eventTimeUtc
      quotePrice := recorded.quotePrice
      baseQuantity := recorded.baseQuantity
      feeQuote := recorded.feeQuote } with
  | .error e => (.error e, state)
  | .ok fill => (.ok fill, { state with
      fills := state.fills ++ [⟨fill, recorded.isPassive, recorded.passiveMarkoutQuote⟩] })

/-- Print recorded fills of one order, in order. -/
def printAll (order : Order) : List RecordedFill → ReplayState → Ran ReplayState (List Fill)
  | [], state => (.ok [], state)
  | recorded :: rest, state =>
    Ran.chain (print order recorded state) fun fill state =>
      Ran.chain (printAll order rest state) fun fills state => (.ok (fill :: fills), state)

/-- `_reject`. -/
def reject (order : Order) (rejection : RecordedRejection) (state : ReplayState) :
    Ran ReplayState RejectEvent :=
  Ran.chain (rejection.reason, state) fun reason state =>
    (construct RejectEventFields.postInit RejectEvent.mk
        ⟨order, rejection.occursAtUtc, rejection.rejectText⟩,
      { state with
        rejections := state.rejections.set reason ((state.rejections.get? reason).getD 0 + 1) })

/-- One turn of the loop over the acknowledged orders. -/
def replayOrder (bar : Bar) (clientOrderId : String) (state : ReplayState) :
    Ran ReplayState (List Fill) :=
  match state.acknowledged.get? clientOrderId with
  | none => (.ok [], state)  -- the snapshot's ids are never dropped
  | some order =>
    if order.instrument.symbol ≠ bar.instrument.symbol then (.ok [], state)
    else
      Ran.chain (self.recording.responseFor clientOrderId, state) fun response state =>
        printAll order ((response.fillsInPhase .bar).filter
          (fun recorded => recorded.eventTimeUtc = bar.closeTimeUtc)) state

def replayOrders (bar : Bar) : List String → ReplayState → Ran ReplayState (List Fill)
  | [], state => (.ok [], state)
  | clientOrderId :: rest, state =>
    Ran.chain (self.replayOrder bar clientOrderId state) fun printed state =>
      Ran.chain (replayOrders bar rest state) fun more state => (.ok (printed ++ more), state)

/-- Replay every recorded resting print stamped at this bar's close. -/
def observe (bar : Bar) (state : ReplayState) : Ran ReplayState (List Fill) :=
  self.replayOrders bar
    (sortBy (fun clientOrderId => clientOrderId) state.acknowledged.keys) state

/-- Answer the submission the way the recorded session answered it. -/
def submit (order : Order) (decidedAtUtc : DateTime) (state : ReplayState) :
    Ran ReplayState SubmitAnswer :=
  Ran.chain (raiseIf (decidedAtUtc < order.createdAtUtc) .venueSimulation
      [order.clientOrderId, " was decided at ", .instant decidedAtUtc, ", before it was created at ",
        .instant order.createdAtUtc], state) fun _ state =>
    Ran.chain (self.recording.responseFor order.clientOrderId, state) fun response state =>
      match response.submitRejection, response.acknowledgedAtUtc with
      | some rejection, _ => Ran.map SubmitAnswer.refused (reject order rejection state)
      | none, none => (raise .venueRecording [order.clientOrderId, " records neither ack nor refusal"],
          state)
      | none, some acknowledgedAtUtc =>
        if acknowledgedAtUtc < decidedAtUtc then
          (raise .venueRecording [order.clientOrderId, " was acknowledged at ",
            .instant acknowledgedAtUtc, " in the recording but decided at ", .instant decidedAtUtc,
            " in this run; the recording belongs to a different session"], state)
        else
          (.ok (.acknowledged ⟨order, acknowledgedAtUtc⟩),
            { state with acknowledged := state.acknowledged.set order.clientOrderId order })

/-- Replay whatever the recorded session produced when this ack resolved. -/
def resolveAck (ack : OrderAckEvent) (state : ReplayState) : Ran ReplayState (List AckOutcome) :=
  let clientOrderId := ack.order.clientOrderId
  if clientOrderId ∉ state.acknowledged.keys then
    (raise .venueSimulation ["ack for ", clientOrderId, " names an order this replay is not " ++
      "holding; either it was resolved twice or it was never submitted"], state)
  else if clientOrderId ∈ state.replayed then
    (raise .venueSimulation ["ack for ", clientOrderId, " was resolved twice"], state)
  else
    Ran.chain (self.recording.responseFor clientOrderId,
      { state with replayed := clientOrderId :: state.replayed }) fun response state =>
      Ran.chain (printAll ack.order (response.fillsInPhase .ack) state) fun fills state =>
        match response.ackRejection with
        | none => (.ok (fills.map AckOutcome.printed), state)
        | some rejection =>
          Ran.map (fun refusal => fills.map AckOutcome.printed ++ [AckOutcome.refused refusal])
            (reject ack.order rejection state)

end ReplayVenue

end FinanceKing.Backtest
