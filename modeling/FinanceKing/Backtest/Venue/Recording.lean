import FinanceKing.Backtest.Venue.Simulation

/-! A session's recorded venue responses, and the recorder that captures them alongside the venue. A
    recording holds only what the venue said: prices, quantities, fees, trade ids and instants; the
    order's identity comes from the order a run submits. -/

namespace FinanceKing.Backtest

open Lib

/-- When in the order's life the venue produced a response, which is also its liquidity flag. -/
inductive ResponsePhase where
  | ack
  | bar
  deriving DecidableEq

structure RecordedFillFields where
  clientOrderId : String
  venueTradeId : String
  phase : ResponsePhase
  eventTimeUtc : DateTime
  quotePrice : Decimal
  baseQuantity : Decimal
  feeQuote : Decimal
  passiveMarkoutQuote : Decimal
  deriving DecidableEq

def RecordedFillFields.postInit (self : RecordedFillFields) : PyResult Unit := do
  requireText self.clientOrderId "client_order_id"
  requireText self.venueTradeId "venue_trade_id"
  raiseIf (self.baseQuantity ≤ 0) .venueRecording
    [self.venueTradeId, " records a base_quantity of ", .decimal self.baseQuantity,
      "; a print of nothing is not a print"]
  raiseIf (self.phase = .ack ∧ self.passiveMarkoutQuote ≠ 0) .venueRecording
    [self.venueTradeId, " is an aggressive print carrying a passive markout of ",
      .decimal self.passiveMarkoutQuote, "; adverse selection is what a resting order pays, and " ++
      "charging it to a taker double-counts the spread"]

/-- One print the venue made, as the venue described it: no instrument and no side. -/
structure RecordedFill extends RecordedFillFields where
  checked : toRecordedFillFields.postInit = .ok ()
  deriving DecidableEq

/-- Whether the print was earned by resting rather than by crossing. -/
def RecordedFill.isPassive (self : RecordedFill) : Bool := self.phase = .bar

structure RecordedRejectionFields where
  occursAtUtc : DateTime
  rejectText : Message
  deriving DecidableEq

def RecordedRejectionFields.postInit (self : RecordedRejectionFields) : PyResult Unit := do
  requireMessage self.rejectText "reject_text"
  let _ ← reasonFrom self.rejectText

/-- One refusal the venue made, with the text it carried into the trace. -/
structure RecordedRejection extends RecordedRejectionFields where
  checked : toRecordedRejectionFields.postInit = .ok ()
  deriving DecidableEq

/-- The taxonomy member this refusal belongs to. -/
def RecordedRejection.reason (self : RecordedRejection) : PyResult RejectReason :=
  reasonFrom self.rejectText

structure RecordedResponseFields where
  clientOrderId : String
  acknowledgedAtUtc : Option DateTime
  submitRejection : Option RecordedRejection
  ackRejection : Option RecordedRejection
  fills : List RecordedFill
  deriving DecidableEq

def RecordedResponseFields.postInit (self : RecordedResponseFields) : PyResult Unit := do
  requireText self.clientOrderId "client_order_id"
  raiseIf (self.acknowledgedAtUtc.isSome = self.submitRejection.isSome) .venueRecording
    [self.clientOrderId, " must record exactly one answer to its submission: an ack instant or a " ++
      "refusal, never both and never neither"]
  raiseIf (self.acknowledgedAtUtc = none ∧ (self.fills ≠ [] ∨ self.ackRejection ≠ none))
    .venueRecording
    [self.clientOrderId, " was refused at submission yet records outcomes after the ack it never " ++
      "received"]
  self.fills.forM (fun recorded => raiseIf (recorded.clientOrderId ≠ self.clientOrderId)
    .venueRecording [recorded.venueTradeId, " is filed under ", self.clientOrderId, " but names ",
      recorded.clientOrderId])

/-- Everything one venue said about one order. -/
structure RecordedResponse extends RecordedResponseFields where
  checked : toRecordedResponseFields.postInit = .ok ()
  deriving DecidableEq

/-- The prints this order earned in one phase, oldest first. -/
def RecordedResponse.fillsInPhase (self : RecordedResponse) (phase : ResponsePhase) :
    List RecordedFill :=
  sortBy (fun recorded => toLex (recorded.eventTimeUtc, recorded.venueTradeId))
    (self.fills.filter (fun recorded => recorded.phase = phase))

structure VenueRecordingFields where
  responses : List RecordedResponse
  deriving DecidableEq

/-- The scan for a client order id that appears twice, after those seen. -/
def refuseRepeatedResponse : List String → List RecordedResponse → PyResult Unit
  | _, [] => .ok ()
  | seen, response :: rest => do
    raiseIf (response.clientOrderId ∈ seen) .venueRecording
      [response.clientOrderId, " appears twice in the recording; a client order id is the " ++
        "venue-side idempotency key and cannot name two submissions"]
    refuseRepeatedResponse (response.clientOrderId :: seen) rest

def VenueRecordingFields.postInit (self : VenueRecordingFields) : PyResult Unit :=
  refuseRepeatedResponse [] self.responses

/-- A whole session's responses, addressable by the id the run will submit under. -/
structure VenueRecording extends VenueRecordingFields where
  checked : toVenueRecordingFields.postInit = .ok ()
  deriving DecidableEq

/-- The recorded answer for a client order id, or a refusal to guess. -/
def VenueRecording.responseFor (self : VenueRecording) (clientOrderId : String) :
    PyResult RecordedResponse :=
  match self.responses.find? (fun response => response.clientOrderId = clientOrderId) with
  | some response => .ok response
  | none => raise .venueRecording
      ["the recording holds no response for ", .quoted clientOrderId, "; the run has diverged " ++
        "from the session it is replaying, and a modelled substitute would hide that"]

/-! ### The recorder -/

/-- The order an answer is about. -/
def SubmitAnswer.order : SubmitAnswer → Order
  | .acknowledged ack => ack.order
  | .refused refusal => refusal.order

/-- What a recorder has captured so far. -/
structure VenueRecorder where
  responses : Dict String RecordedResponse
  clientOrderIds : Dict Uuid String
  fills : Dict String (List RecordedFill)

namespace VenueRecorder

def initial : VenueRecorder := ⟨Dict.empty, Dict.empty, Dict.empty⟩

variable (self : VenueRecorder)

def recordedRejectionOf (refusal : RejectEvent) : PyResult RecordedRejection :=
  construct RecordedRejectionFields.postInit RecordedRejection.mk
    ⟨refusal.occursAtUtc, refusal.reason⟩

def recordedResponseOf (fields : RecordedResponseFields) : PyResult RecordedResponse :=
  construct RecordedResponseFields.postInit RecordedResponse.mk fields

/-- Record the venue's answer to one submission. -/
def recordSubmission (answer : SubmitAnswer) : PyResult VenueRecorder := do
  let clientOrderId := answer.order.clientOrderId
  raiseIf (clientOrderId ∈ self.responses.keys) .venueRecording
    [clientOrderId, " was submitted twice in one session; a client order id is the venue-side " ++
      "idempotency key"]
  let response ← match answer with
    | .acknowledged ack => recordedResponseOf ⟨clientOrderId, some ack.occursAtUtc, none, none, []⟩
    | .refused refusal => do
      let rejection ← recordedRejectionOf refusal
      recordedResponseOf ⟨clientOrderId, none, some rejection, none, []⟩
  return ⟨self.responses.set clientOrderId response,
    self.clientOrderIds.set answer.order.orderId clientOrderId,
    self.fills.set clientOrderId []⟩

def clientOrderIdFor (orderId : Uuid) : PyResult String :=
  match self.clientOrderIds.get? orderId with
  | some clientOrderId => .ok clientOrderId
  | none => raise .venueRecording
      ["a fill arrived for order ", .uuid orderId, " whose submission was never recorded; the " ++
        "recorder was wired in after the session started"]

/-- `_record_fill`: the markout is replaced from the report in `build`. -/
def recordFill (phase : ResponsePhase) (fill : Fill) : PyResult VenueRecorder := do
  let clientOrderId ← self.clientOrderIdFor fill.orderId
  let recorded ← construct RecordedFillFields.postInit RecordedFill.mk
    ⟨clientOrderId, fill.venueTradeId, phase, fill.eventTimeUtc, fill.quotePrice, fill.baseQuantity,
      fill.feeQuote, 0⟩
  match self.fills.get? clientOrderId with
  | none => raise .keyError [.quoted clientOrderId]
  | some held => return { self with fills := self.fills.set clientOrderId (held ++ [recorded]) }

def recordLateRejection (refusal : RejectEvent) : PyResult VenueRecorder := do
  match self.responses.get? refusal.order.clientOrderId with
  | none => raise .keyError [.quoted refusal.order.clientOrderId]
  | some existing => do
    let rejection ← recordedRejectionOf refusal
    let response ← recordedResponseOf ⟨existing.clientOrderId, existing.acknowledgedAtUtc,
      existing.submitRejection, some rejection, existing.fills⟩
    return { self with responses := self.responses.set refusal.order.clientOrderId response }

/-- Record what resolving an ack produced: aggressive prints, or a late refusal. -/
def recordAckOutcome (outcomes : List AckOutcome) : PyResult VenueRecorder :=
  outcomes.foldlM (fun recorder outcome => match outcome with
    | .refused refusal => recorder.recordLateRejection refusal
    | .printed fill => recorder.recordFill .ack fill) self

/-- Record the passive prints a closing bar paid out. -/
def recordObserved (fills : List Fill) : PyResult VenueRecorder :=
  fills.foldlM (fun recorder fill => recorder.recordFill .bar fill) self

/-- The adverse selection the report carries under each trade id. -/
def markoutsOf (report : VenueReport) : Dict String Decimal :=
  report.fills.foldl (fun markouts record =>
    markouts.set record.fill.venueTradeId record.passiveMarkoutQuote) Dict.empty

def withMarkout (markouts : Dict String Decimal) (recorded : RecordedFill) : PyResult RecordedFill :=
  construct RecordedFillFields.postInit RecordedFill.mk
    { recorded.toRecordedFillFields with
      passiveMarkoutQuote := (markouts.get? recorded.venueTradeId).getD 0 }

/-- One response of the recording, its fills carrying their markouts. -/
def buildResponse (markouts : Dict String Decimal) (clientOrderId : String) :
    PyResult RecordedResponse :=
  match self.responses.get? clientOrderId, self.fills.get? clientOrderId with
  | some response, some held => do
    let fills ← held.mapM (withMarkout markouts)
    recordedResponseOf ⟨response.clientOrderId, response.acknowledgedAtUtc,
      response.submitRejection, response.ackRejection, fills⟩
  | _, _ => raise .keyError [.quoted clientOrderId]

/-- The recording, with adverse selection joined on from the report. -/
def build (report : VenueReport) : PyResult VenueRecording := do
  let responses ← (sortBy (fun clientOrderId => clientOrderId) self.responses.keys).mapM
    (self.buildResponse (markoutsOf report))
  construct VenueRecordingFields.postInit VenueRecording.mk ⟨responses⟩

end VenueRecorder

end FinanceKing.Backtest
