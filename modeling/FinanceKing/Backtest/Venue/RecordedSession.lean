import FinanceKing.Backtest.Venue.Recording
import FinanceKing.Backtest.Venue.SessionEvents

/-! A session with a recorder alongside the venue, and what the recorder holds after any session: each
    submitted order's prints, each the venue's record of it, and what the order heard of its submission
    and its ack. One call keeps it, so every session does, and the recording built at the end holds it
    all under the client order ids. -/

namespace FinanceKing.Backtest

open Lib

namespace FillSimulation

variable (self : FillSimulation)

/-- Make one call, and tell the recorder what the venue answered. -/
def recordCall (c : VenueCall) (state : SimulationState) (recorder : VenueRecorder) :
    PyResult (List Event × SimulationState × VenueRecorder) :=
  match c with
  | .observe bar =>
    match self.observe bar state with
    | (.error e, _) => .error e
    | (.ok fills, state) => do
      let recorder ← recorder.recordObserved fills
      return (fills.map Event.fill, state, recorder)
  | .submit order decidedAtUtc =>
    match self.submit order decidedAtUtc state with
    | (.error e, _) => .error e
    | (.ok answer, state) => do
      let recorder ← recorder.recordSubmission answer
      return ([answer.event], state, recorder)
  | .resolveAck ack =>
    match self.resolveAck ack state with
    | (.error e, _) => .error e
    | (.ok outcomes, state) => do
      let recorder ← recorder.recordAckOutcome outcomes
      return (outcomes.map AckOutcome.event, state, recorder)

def recordCalls : List VenueCall → SimulationState → VenueRecorder →
    PyResult (List (List Event) × SimulationState × VenueRecorder)
  | [], state, recorder => .ok ([], state, recorder)
  | c :: rest, state, recorder => do
    let (events, state, recorder) ← self.recordCall c state recorder
    let (more, state, recorder) ← recordCalls rest state recorder
    return (events :: more, state, recorder)

/-- A recorded session: what each call returned, the final report, and the recording. -/
def recordSession (calls : List VenueCall) :
    PyResult (List (List Event) × VenueReport × VenueRecording) := do
  let (events, state, recorder) ←
    self.recordCalls calls SimulationState.initial VenueRecorder.initial
  let recording ← recorder.build state.report
  return (events, state.report, recording)

end FillSimulation

/-! ### Records -/

/-- The phase a print belongs to. -/
def phaseOf (isPassive : Bool) : ResponsePhase := if isPassive then .bar else .ack

/-- A venue's record as the recording keeps it, under the order's client id. -/
def recordedFieldsOf (order : Order) (record : VenueFillRecord) : RecordedFillFields where
  clientOrderId := order.clientOrderId
  venueTradeId := record.fill.venueTradeId
  phase := phaseOf record.isPassive
  eventTimeUtc := record.fill.eventTimeUtc
  quotePrice := record.fill.quotePrice
  baseQuantity := record.fill.baseQuantity
  feeQuote := record.fill.feeQuote
  passiveMarkoutQuote := record.passiveMarkoutQuote

theorem strip_clientOrderId (order : Order) : strip order.clientOrderId ≠ [] := by
  have h := order.checked
  simp only [OrderFields.postInit, bind_eq_ok, requireText_eq_ok] at h
  exact h.choose_spec.1

theorem strip_venueTradeId (fill : Fill) : strip fill.venueTradeId ≠ [] := by
  have h := fill.checked
  simp only [FillFields.postInit, bind_eq_ok, requireText_eq_ok] at h
  exact h.choose_spec.1

theorem RecordedFillFields.checked_of {fields : RecordedFillFields}
    (hclient : strip fields.clientOrderId ≠ []) (htrade : strip fields.venueTradeId ≠ [])
    (hquantity : 0 < fields.baseQuantity)
    (hmarkout : fields.phase = .ack → fields.passiveMarkoutQuote = 0) : fields.postInit = .ok () := by
  simp [RecordedFillFields.postInit, requireText, hclient, htrade, hquantity]
  exact hmarkout

/-- A print's record is a valid one, under any markout that only a passive print carries. -/
theorem recordedFieldsOf_checked (order : Order) (record : VenueFillRecord) (markout : Decimal)
    (hmarkout : record.isPassive = false → markout = 0) :
    { recordedFieldsOf order record with passiveMarkoutQuote := markout }.postInit = .ok () := by
  refine RecordedFillFields.checked_of (strip_clientOrderId order) (strip_venueTradeId record.fill)
    record.fill.baseQuantity_pos fun hphase => hmarkout ?_
  cases hcase : record.isPassive with
  | false => rfl
  | true => simp [recordedFieldsOf, phaseOf, hcase] at hphase

theorem RecordedResponseFields.checked_of {fields : RecordedResponseFields}
    (hclient : strip fields.clientOrderId ≠ [])
    (hanswer : fields.acknowledgedAtUtc.isSome ≠ fields.submitRejection.isSome)
    (hunacknowledged : fields.acknowledgedAtUtc = none → fields.fills = [] ∧ fields.ackRejection = none)
    (hfills : ∀ recorded ∈ fields.fills, recorded.clientOrderId = fields.clientOrderId) :
    fields.postInit = .ok () := by
  simp only [RecordedResponseFields.postInit, requireText, bind_eq_ok, raiseIf_eq_ok, forM_eq_ok]
  refine ⟨(), by simpa using hclient, (), hanswer, (), ?_, fun recorded hrecorded => ?_⟩
  · rintro ⟨hnone, hlater⟩
    obtain ⟨hnil, hrejection⟩ := hunacknowledged hnone
    exact hlater.elim (fun h => h hnil) (fun h => h hrejection)
  · simpa using hfills recorded hrecorded

/-- What the check of a recorded response gives. -/
theorem RecordedResponse.facts (response : RecordedResponse) :
    response.acknowledgedAtUtc.isSome ≠ response.submitRejection.isSome ∧
      ∀ recorded ∈ response.fills, recorded.clientOrderId = response.clientOrderId := by
  have h := response.checked
  simp only [RecordedResponseFields.postInit, bind_eq_ok, raiseIf_eq_ok, forM_eq_ok] at h
  obtain ⟨_, _, _, hanswer, _, _, hfills⟩ := h
  exact ⟨hanswer, fun recorded hrecorded => not_not.mp (hfills recorded hrecorded)⟩

namespace VenueRecorder

open FillSimulation

/-- A recorded print is the venue's record of an order's print, its markout still to come. -/
def Notes (order : Order) (recorded : RecordedFill) (record : VenueFillRecord) : Prop :=
  recorded.toRecordedFillFields = { recordedFieldsOf order record with passiveMarkoutQuote := 0 }

/-- The recorder knows every submitted order, and holds exactly the order's part of the records. -/
structure Holds (submitted : List Order) (records : List VenueFillRecord) (recorder : VenueRecorder) :
    Prop where
  known : ∀ order ∈ submitted, recorder.clientOrderIds.get? order.orderId = some order.clientOrderId
  held : ∀ order ∈ submitted, ∃ held, recorder.fills.get? order.clientOrderId = some held ∧
    List.Forall₂ (Notes order) held
      (records.filter (fun record => record.fill.orderId = order.orderId))

section Fills

variable {submitted : List Order} {records : List VenueFillRecord} {recorder : VenueRecorder}
  (hids : (submitted.map (·.orderId)).Nodup) (hclients : (submitted.map (·.clientOrderId)).Nodup)
include hids hclients

/-- Recording one print of a submitted order. -/
theorem holds_recordFill (h : Holds submitted records recorder) {record : VenueFillRecord}
    {order : Order} (horder : order ∈ submitted) (hid : record.fill.orderId = order.orderId) :
    ∃ fills, recorder.recordFill (phaseOf record.isPassive) record.fill =
        .ok { recorder with fills := fills } ∧
      Holds submitted (records ++ [record]) { recorder with fills := fills } := by
  obtain ⟨held, hheld, hnotes⟩ := h.held order horder
  have hchecked := recordedFieldsOf_checked order record 0 fun _ => rfl
  have hconstruct : construct RecordedFillFields.postInit RecordedFill.mk
      ⟨order.clientOrderId, record.fill.venueTradeId, phaseOf record.isPassive,
        record.fill.eventTimeUtc, record.fill.quotePrice, record.fill.baseQuantity,
        record.fill.feeQuote, 0⟩ = .ok ⟨_, hchecked⟩ := construct_ok hchecked
  refine ⟨recorder.fills.set order.clientOrderId (held ++ [⟨_, hchecked⟩]), ?_, h.known, ?_⟩
  · simp only [recordFill, clientOrderIdFor, hid, h.known order horder, hconstruct, hheld, bind,
      Except.bind, pure, Except.pure]
  · intro other hother
    rw [Dict.get?_set, List.filter_append]
    by_cases hsame : other = order
    · subst hsame
      refine ⟨_, if_pos rfl, List.rel_append hnotes ?_⟩
      have hnote : Notes other ⟨_, hchecked⟩ record := rfl
      simpa [hid] using hnote
    · have hclient : other.clientOrderId ≠ order.clientOrderId := fun heq =>
        hsame (List.inj_on_of_nodup_map hclients hother horder heq)
      have hother' : record.fill.orderId ≠ other.orderId := fun heq =>
        hsame (List.inj_on_of_nodup_map hids hother horder (heq.symm.trans hid))
      obtain ⟨held', hheld', hnotes'⟩ := h.held other hother
      exact ⟨held', by rw [if_neg hclient, hheld'], by simpa [hother'] using hnotes'⟩

/-- Recording the prints of one phase, one after the other. -/
theorem holds_recordFills {phase : ResponsePhase} : ∀ {more : List VenueFillRecord}
    {records : List VenueFillRecord} {recorder : VenueRecorder}, Holds submitted records recorder →
    (∀ record ∈ more, phaseOf record.isPassive = phase ∧
      ∃ order ∈ submitted, record.fill.orderId = order.orderId) →
    ∃ fills, (more.map (·.fill)).foldlM (fun (recorder : VenueRecorder) fill =>
          recorder.recordFill phase fill) recorder = .ok { recorder with fills := fills } ∧
      Holds submitted (records ++ more) { recorder with fills := fills }
  | [], records, recorder, h, _ => ⟨recorder.fills, rfl, by rwa [List.append_nil]⟩
  | record :: more, records, recorder, h, hmore => by
    obtain ⟨hphase, order, horder, hid⟩ := hmore record List.mem_cons_self
    obtain ⟨fills, hrun, hone⟩ := holds_recordFill hids hclients h horder hid
    obtain ⟨fills', hrun', hall⟩ := holds_recordFills hone fun other hother =>
      hmore other (List.mem_cons_of_mem _ hother)
    refine ⟨fills', ?_, by simpa using hall⟩
    rw [hphase] at hrun
    rw [List.map_cons, List.foldlM_cons, hrun]
    exact hrun'

end Fills

/-! ### Answers -/

/-- The recording's form of a refusal. -/
def rejectionFieldsOf (refusal : RejectEvent) : RecordedRejectionFields :=
  ⟨refusal.occursAtUtc, refusal.reason⟩

/-- Every refusal of the venue can be recorded. -/
theorem recordedRejectionOf_ok {refusal : RejectEvent} {order : Order} {occursAtUtc : DateTime}
    {rejection : Rejection}
    (h : refusal.toRejectEventFields = ⟨order, occursAtUtc, rejection.asRejectText⟩) :
    ∃ recorded, recordedRejectionOf refusal = .ok recorded ∧
      recorded.toRecordedRejectionFields = rejectionFieldsOf refusal := by
  have hchecked : (rejectionFieldsOf refusal).postInit = .ok () := by
    simp [rejectionFieldsOf, h, RecordedRejectionFields.postInit, requireMessage,
      rejection.asRejectText_not_blank, reasonFrom_asRejectText]
  exact ⟨⟨_, hchecked⟩, construct_ok hchecked, rfl⟩

/-- A response holds what an order has heard: the answer to its submission, and the refusal after an
    ack, if there was one. -/
structure Answers (events : List Event) (order : Order) (response : RecordedResponseFields) : Prop where
  client : response.clientOrderId = order.clientOrderId
  acknowledged : response.acknowledgedAtUtc = (ackFor events order.orderId).map (·.occursAtUtc)
  submitRejection : response.submitRejection.map (·.toRecordedRejectionFields) =
    if (ackFor events order.orderId).isSome then none
    else (refusalFor events order.orderId).map rejectionFieldsOf
  ackRejection : response.ackRejection.map (·.toRecordedRejectionFields) =
    if (ackFor events order.orderId).isSome then (refusalFor events order.orderId).map rejectionFieldsOf
    else none

theorem Answers.of_eq {events events' : List Event} {order : Order} {response : RecordedResponseFields}
    (h : Answers events order response)
    (hack : ackFor events' order.orderId = ackFor events order.orderId)
    (hrefusal : refusalFor events' order.orderId = refusalFor events order.orderId) :
    Answers events' order response :=
  ⟨h.client, by rw [hack]; exact h.acknowledged, by rw [hack, hrefusal]; exact h.submitRejection, by
    rw [hack, hrefusal]; exact h.ackRejection⟩

/-- Recording the answer to a submission under a client order id not used yet. -/
theorem recordSubmission_acknowledged {recorder : VenueRecorder} (ack : OrderAckEvent)
    (hnew : ack.order.clientOrderId ∉ recorder.responses.keys) :
    ∃ response : RecordedResponse,
      response.toRecordedResponseFields =
        ⟨ack.order.clientOrderId, some ack.occursAtUtc, none, none, []⟩ ∧
      recorder.recordSubmission (.acknowledged ack) =
        .ok ⟨recorder.responses.set ack.order.clientOrderId response,
          recorder.clientOrderIds.set ack.order.orderId ack.order.clientOrderId,
          recorder.fills.set ack.order.clientOrderId []⟩ := by
  have hchecked : (⟨ack.order.clientOrderId, some ack.occursAtUtc, none, none, []⟩ :
      RecordedResponseFields).postInit = .ok () :=
    RecordedResponseFields.checked_of (strip_clientOrderId ack.order) (by simp) (by simp) (by simp)
  refine ⟨⟨_, hchecked⟩, rfl, ?_⟩
  simp only [recordSubmission, SubmitAnswer.order, bind_eq_ok, recordedResponseOf]
  exact ⟨(), raiseIf_eq_ok.mpr hnew, _, construct_ok hchecked, rfl⟩

theorem recordSubmission_refused {recorder : VenueRecorder} {refusal : RejectEvent}
    {recorded : RecordedRejection} (hrecorded : recordedRejectionOf refusal = .ok recorded)
    (hnew : refusal.order.clientOrderId ∉ recorder.responses.keys) :
    ∃ response : RecordedResponse,
      response.toRecordedResponseFields =
        ⟨refusal.order.clientOrderId, none, some recorded, none, []⟩ ∧
      recorder.recordSubmission (.refused refusal) =
        .ok ⟨recorder.responses.set refusal.order.clientOrderId response,
          recorder.clientOrderIds.set refusal.order.orderId refusal.order.clientOrderId,
          recorder.fills.set refusal.order.clientOrderId []⟩ := by
  have hchecked : (⟨refusal.order.clientOrderId, none, some recorded, none, []⟩ :
      RecordedResponseFields).postInit = .ok () :=
    RecordedResponseFields.checked_of (strip_clientOrderId refusal.order) (by simp) (by simp) (by simp)
  refine ⟨⟨_, hchecked⟩, rfl, ?_⟩
  simp only [recordSubmission, SubmitAnswer.order, bind_eq_ok, recordedResponseOf, hrecorded,
    Except.ok.injEq, exists_eq_left']
  exact ⟨(), raiseIf_eq_ok.mpr hnew, _, construct_ok hchecked, rfl⟩

/-- Recording the refusal of an acknowledged order. -/
theorem recordLateRejection_ok {recorder : VenueRecorder} {refusal : RejectEvent}
    {recorded : RecordedRejection} (hrecorded : recordedRejectionOf refusal = .ok recorded)
    {existing : RecordedResponse}
    (hexisting : recorder.responses.get? refusal.order.clientOrderId = some existing)
    (hacknowledged : existing.acknowledgedAtUtc ≠ none)
    (hclient : existing.clientOrderId = refusal.order.clientOrderId) :
    ∃ response : RecordedResponse,
      response.toRecordedResponseFields =
        { existing.toRecordedResponseFields with ackRejection := some recorded } ∧
      recorder.recordLateRejection refusal =
        .ok { recorder with
          responses := recorder.responses.set refusal.order.clientOrderId response } := by
  obtain ⟨hanswer, hfills⟩ := existing.facts
  have hchecked : { existing.toRecordedResponseFields with
      ackRejection := some recorded }.postInit = .ok () :=
    RecordedResponseFields.checked_of (by rw [hclient]; exact strip_clientOrderId refusal.order)
      hanswer (fun hnone => absurd hnone hacknowledged) hfills
  refine ⟨⟨_, hchecked⟩, rfl, ?_⟩
  simp only [recordLateRejection, hexisting, hrecorded, recordedResponseOf, bind_eq_ok,
    Except.ok.injEq, exists_eq_left']
  exact ⟨_, construct_ok hchecked, rfl⟩

end VenueRecorder

/-! ### The recorder along a session -/

namespace FillSimulation

open VenueRecorder

variable {self : FillSimulation} {before : List VenueCall} {recorder : VenueRecorder}

/-- What the recorder holds after a session's calls. -/
structure Captured (simulation : FillSimulation) (calls : List VenueCall) (recorder : VenueRecorder) :
    Prop where
  holds : recorder.Holds (submittedOf calls) (simulation.stateAfter calls).fills
  answers : ∀ order ∈ submittedOf calls, ∃ response,
    recorder.responses.get? order.clientOrderId = some response ∧
      Answers (simulation.heard calls) order response.toRecordedResponseFields
  keys : ∀ clientOrderId ∈ recorder.responses.keys,
    clientOrderId ∈ (submittedOf calls).map (·.clientOrderId)

theorem captured_initial (self : FillSimulation) : Captured self [] VenueRecorder.initial :=
  ⟨⟨by simp [submittedOf], by simp [submittedOf]⟩, by simp [submittedOf], by
    simp [VenueRecorder.initial, Dict.mem_keys_iff]⟩

theorem AckOutcome.event_injective : Function.Injective AckOutcome.event := by
  rintro (fill | refusal) (fill' | refusal') heq <;> simp_all [AckOutcome.event]

theorem Ran.eq_of_map {σ α β : Type} {f : α → β} (hf : Function.Injective f) {r : Ran σ α} {a : α}
    {s : σ} (h : Ran.map f r = (.ok (f a), s)) : r = (.ok a, s) := by
  rcases r with ⟨_ | b, s'⟩
  · cases h
  · simp only [Ran.map_ok, Prod.mk.injEq, Except.ok.injEq] at h
    rw [hf h.1, h.2]

section Step

variable {c : VenueCall}
  (hids : ((submittedOf (before ++ [c])).map (·.orderId)).Nodup)
  (hclients : ((submittedOf (before ++ [c])).map (·.clientOrderId)).Nodup)
include hids

/-- Calls that refuse no order leave what the earlier orders heard. -/
theorem answers_stay {order : Order} (horder : order ∈ submittedOf before)
    {response : RecordedResponseFields} (h : Answers (self.heard before) order response)
    (hquiet : ∀ events refusal, self.reply before c = .ok events → .reject refusal ∈ events →
      refusal.order.orderId ≠ order.orderId) :
    Answers (self.heard (before ++ [c])) order response := by
  refine h.of_eq (ackFor_stays horder hids) ?_
  rw [heard_concat, refusalFor_append, Option.or_eq_left_of_none]
  rw [refusalFor_eq_none]
  intro refusal hrefusal
  obtain ⟨events, hreply, hmem⟩ := mem_reply hrefusal
  exact hquiet events refusal hreply hmem

/-- A call that submits nothing and refuses nobody changes the prints alone. -/
theorem captured_printed (hsubmitted : submittedOf (before ++ [c]) = submittedOf before)
    (h : Captured self before recorder) {fills : Dict String (List RecordedFill)}
    (hholds : Holds (submittedOf before) (self.stateAfter (before ++ [c])).fills
      { recorder with fills := fills })
    (hquiet : ∀ events refusal, self.reply before c = .ok events → .reject refusal ∉ events) :
    Captured self (before ++ [c]) { recorder with fills := fills } := by
  refine ⟨?_, fun order horder => ?_, ?_⟩
  · rw [hsubmitted]
    exact hholds
  · rw [hsubmitted] at horder
    obtain ⟨response, hresponse, hanswers⟩ := h.answers order horder
    exact ⟨response, hresponse, answers_stay hids horder hanswers fun events refusal hreply hmem =>
      absurd hmem (hquiet events refusal hreply)⟩
  · rw [hsubmitted]
    exact h.keys

include hclients

/-- A bar's prints go to the orders the bar paid. -/
theorem captured_observe {bar : Bar} (hc : c = .observe bar) (h : Captured self before recorder)
    {events : List Event} (hreply : self.reply before c = .ok events) :
    ∃ recorder', self.recordCall c (self.stateAfter before) recorder =
        .ok (events, self.stateAfter (before ++ [c]), recorder') ∧
      Captured self (before ++ [c]) recorder' := by
  subst hc
  have hsubmitted : submittedOf (before ++ [.observe bar]) = submittedOf before := by
    simp [submittedOf]
  have hspec := self.call_spec (consistent_stateAfter self before) (.observe bar)
  have hafter := self.stateAfter_concat before (.observe bar)
  generalize hrun : self.call (.observe bar) (self.stateAfter before) = run at hspec hafter
  cases hspec with
  | raised _ error recent =>
    rw [reply, hrun] at hreply
    cases hreply
  | observed _ quote resting hquote hresting =>
    have hevents : self.reply before (.observe bar) =
        .ok ((self.paidBy bar (self.stateAfter before)).map (Event.fill ·.fill)) := by rw [reply, hrun]
    obtain rfl := Except.ok.inj (hevents.symm.trans hreply)
    have hpaid : ∀ record ∈ self.paidBy bar (self.stateAfter before),
        phaseOf record.isPassive = .bar ∧
          ∃ order ∈ submittedOf before, record.fill.orderId = order.orderId := by
      intro record hrecord
      obtain ⟨hpassive, horder⟩ := of_mem_paidBy hrecord
      exact ⟨by rw [hpassive]; rfl, horder⟩
    obtain ⟨fills, hrecorded, hholds⟩ := holds_recordFills (hsubmitted ▸ hids) (hsubmitted ▸ hclients)
      h.holds hpaid
    have hobserve : self.observe bar (self.stateAfter before) =
        (.ok ((self.paidBy bar (self.stateAfter before)).map (·.fill)),
          self.stateAfter (before ++ [.observe bar])) := by
      refine Ran.eq_of_map (List.map_injective_iff.mpr fun _ _ => Event.fill.inj) ?_
      rw [hafter, List.map_map]
      exact hrun
    refine ⟨_, ?_, captured_printed hids hsubmitted h (by rw [hafter]; exact hholds) ?_⟩
    · rw [recordCall, hobserve]
      simp only [recordObserved]
      rw [hrecorded, List.map_map]
      rfl
    · intro events refusal hreply'
      obtain rfl := Except.ok.inj (hevents.symm.trans hreply')
      simp

/-- A new order is known, has no prints, and its response is the one recorded. -/
theorem captured_submitted {order : Order} {decidedAtUtc : DateTime}
    (hc : c = .submit order decidedAtUtc) (h : Captured self before recorder)
    (hfills : (self.stateAfter (before ++ [c])).fills = (self.stateAfter before).fills)
    (response : RecordedResponse)
    (hanswers : Answers (self.heard (before ++ [c])) order response.toRecordedResponseFields)
    (hquiet : ∀ events refusal, self.reply before c = .ok events → .reject refusal ∈ events →
      refusal.order = order) :
    Captured self (before ++ [c]) ⟨recorder.responses.set order.clientOrderId response,
      recorder.clientOrderIds.set order.orderId order.clientOrderId,
      recorder.fills.set order.clientOrderId []⟩ := by
  have hsubmitted : submittedOf (before ++ [c]) = submittedOf before ++ [order] := by
    simp [hc, submittedOf]
  have hids' := hids
  rw [hsubmitted, List.map_append] at hids hclients
  have hid : ∀ other ∈ submittedOf before, other.orderId ≠ order.orderId := fun other hother heq =>
    List.disjoint_of_nodup_append hids (List.mem_map_of_mem hother) (by simp [heq])
  have hclient : ∀ other ∈ submittedOf before, other.clientOrderId ≠ order.clientOrderId :=
    fun other hother heq =>
      List.disjoint_of_nodup_append hclients (List.mem_map_of_mem hother) (by simp [heq])
  have hunseen : viewOf (self.stateAfter before) order.orderId = OrderView.unseen := by
    by_contra hknown
    obtain ⟨ack, hack, hsame⟩ := self.exists_ack before hknown
    exact hid ack.order (self.mem_submittedOf_of_ack before hack) hsame
  refine ⟨⟨fun other hother => ?_, fun other hother => ?_⟩, fun other hother => ?_, fun key hkey => ?_⟩
  · rw [hsubmitted, List.mem_append, List.mem_singleton] at hother
    rw [Dict.get?_set]
    rcases hother with hother | rfl
    · rw [if_neg (hid other hother), h.holds.known other hother]
    · rw [if_pos rfl]
  · rw [hsubmitted, List.mem_append, List.mem_singleton] at hother
    rw [Dict.get?_set, hfills]
    rcases hother with hother | rfl
    · rw [if_neg (hclient other hother)]
      exact h.holds.held other hother
    · have hnil : (self.stateAfter before).fills.filter
          (fun record => record.fill.orderId = other.orderId) = [] :=
        congrArg OrderView.records hunseen
      refine ⟨[], if_pos rfl, ?_⟩
      rw [hnil]
      exact List.Forall₂.nil
  · rw [hsubmitted, List.mem_append, List.mem_singleton] at hother
    rw [Dict.get?_set]
    rcases hother with hother | rfl
    · obtain ⟨held, hheld, hold⟩ := h.answers other hother
      refine ⟨held, by rw [if_neg (hclient other hother), hheld], answers_stay hids' hother hold ?_⟩
      intro events refusal hreply hrefusal
      rw [hquiet events refusal hreply hrefusal]
      exact (hid other hother).symm
    · exact ⟨response, if_pos rfl, hanswers⟩
  · rw [Dict.mem_keys_iff, Dict.get?_set] at hkey
    rw [hsubmitted, List.map_append, List.mem_append]
    split at hkey
    · next heq => exact Or.inr (by simp [heq])
    · exact Or.inl (h.keys key ((Dict.mem_keys_iff _ _).mpr hkey))

/-- The answer to a submission is recorded under its client order id. -/
theorem captured_submit {order : Order} {decidedAtUtc : DateTime}
    (hc : c = .submit order decidedAtUtc) (h : Captured self before recorder)
    {events : List Event} (hreply : self.reply before c = .ok events) :
    ∃ recorder', self.recordCall c (self.stateAfter before) recorder =
        .ok (events, self.stateAfter (before ++ [c]), recorder') ∧
      Captured self (before ++ [c]) recorder' := by
  have hsubmitted : submittedOf (before ++ [c]) = submittedOf before ++ [order] := by
    simp [hc, submittedOf]
  have hclients' := hclients
  rw [hsubmitted, List.map_append] at hclients'
  have hnew : order.clientOrderId ∉ recorder.responses.keys := fun hmem =>
    List.disjoint_of_nodup_append hclients' (h.keys _ hmem) (by simp)
  obtain ⟨hackNone, hrefusalNone, _⟩ := self.unheard_of_new (hc ▸ hids)
  have hheard := self.heard_concat before c
  have hspec := self.call_spec (consistent_stateAfter self before) c
  have hafter := self.stateAfter_concat before c
  generalize hrun : self.call c (self.stateAfter before) = run at hspec hafter
  have hinj : Function.Injective (fun answer : SubmitAnswer => [answer.event]) := by
    rintro (ack | refusal) (ack' | refusal') heq <;> simp_all [SubmitAnswer.event]
  cases hspec with
  | observed bar quote resting hquote hresting => cases hc
  | resolved ack held quote outcome outcomes after hpending hquote hrange houtcome hresolved => cases hc
  | raised _ error recent =>
    rw [reply, hrun] at hreply
    cases hreply
  | acknowledged held decided quote recent hquote =>
    obtain ⟨rfl, rfl⟩ := VenueCall.submit.inj hc
    have hevents : self.reply before (.submit held decided) =
        .ok [.orderAck ⟨held, self.acknowledgedAt decided⟩] := by rw [reply, hrun]
    obtain rfl := Except.ok.inj (hevents.symm.trans hreply)
    obtain ⟨response, hresponse, hrecord⟩ :=
      recordSubmission_acknowledged ⟨held, self.acknowledgedAt decided⟩ hnew
    have hsubmit : self.submit held decided (self.stateAfter before) =
        (.ok (.acknowledged ⟨held, self.acknowledgedAt decided⟩),
          self.stateAfter (before ++ [.submit held decided])) := by
      refine Ran.eq_of_map hinj ?_
      rw [hafter]
      exact hrun
    refine ⟨_, ?_, captured_submitted hids hclients rfl h (by rw [hafter]) response ?_ ?_⟩
    · rw [recordCall, hsubmit]
      simp only [hrecord]
      rfl
    · have hack : ackFor (self.heard (before ++ [.submit held decided])) held.orderId =
          some ⟨held, self.acknowledgedAt decided⟩ := by
        rw [hheard, ackFor_append, hackNone, hevents]
        simp [eventsIn, ackFor]
      have hrefusal : refusalFor (self.heard (before ++ [.submit held decided])) held.orderId = none := by
        rw [hheard, refusalFor_append, hrefusalNone, hevents]
        rfl
      constructor <;> rw [hresponse] <;> simp [hack, hrefusal]
    · intro events refusal hreply' hrefusal
      obtain rfl := Except.ok.inj (hevents.symm.trans hreply')
      simp at hrefusal
  | refused held decided rejection refusal recent hrefusal =>
    obtain ⟨rfl, rfl⟩ := VenueCall.submit.inj hc
    have hevents : self.reply before (.submit held decided) = .ok [.reject refusal] := by
      rw [reply, hrun]
    obtain rfl := Except.ok.inj (hevents.symm.trans hreply)
    have horder : refusal.order = held := by rw [hrefusal]
    obtain ⟨recorded, hrecorded, hfields⟩ := recordedRejectionOf_ok hrefusal
    obtain ⟨response, hresponse, hrecord⟩ := recordSubmission_refused hrecorded (by rwa [horder])
    have hsubmit : self.submit held decided (self.stateAfter before) =
        (.ok (.refused refusal), self.stateAfter (before ++ [.submit held decided])) := by
      refine Ran.eq_of_map hinj ?_
      rw [hafter]
      exact hrun
    rw [horder] at hresponse hrecord
    refine ⟨_, ?_, captured_submitted hids hclients rfl h ?_ response ?_ ?_⟩
    · rw [recordCall, hsubmit]
      simp only [hrecord]
      rfl
    · rw [hafter]
      rfl
    · have hack : ackFor (self.heard (before ++ [.submit held decided])) held.orderId = none := by
        rw [hheard, ackFor_append, hackNone, hevents]
        rfl
      have hrefused : refusalFor (self.heard (before ++ [.submit held decided])) held.orderId =
          some refusal := by
        rw [hheard, refusalFor_append, hrefusalNone, hevents]
        simp [eventsIn, refusalFor, horder]
      constructor <;> rw [hresponse] <;> simp [hack, hrefused, hfields]
    · intro events other hreply' hother
      obtain rfl := Except.ok.inj (hevents.symm.trans hreply')
      rw [Event.reject.inj (List.mem_singleton.mp hother), horder]

/-- The refusal of an acknowledged order is added to its response. -/
theorem captured_late (hsubmitted : submittedOf (before ++ [c]) = submittedOf before)
    (h : Captured self before recorder) {order : Order} (horder : order ∈ submittedOf before)
    (hpending : (self.stateAfter before).pending.get? order.orderId = some order)
    (hfills : (self.stateAfter (before ++ [c])).fills = (self.stateAfter before).fills)
    {refusal : RejectEvent} {occursAtUtc : DateTime} {rejection : Rejection}
    (hrefusal : refusal.toRejectEventFields = ⟨order, occursAtUtc, rejection.asRejectText⟩)
    (hevents : self.reply before c = .ok [.reject refusal]) :
    ∃ recorder', recorder.recordLateRejection refusal = .ok recorder' ∧
      Captured self (before ++ [c]) recorder' := by
  have hids' := hids
  rw [hsubmitted] at hids' hclients
  have hsame : refusal.order = order := by rw [hrefusal]
  have hknown : viewOf (self.stateAfter before) order.orderId ≠ OrderView.unseen := fun hunseen => by
    have hnone : (self.stateAfter before).pending.get? order.orderId = none :=
      congrArg OrderView.pending hunseen
    rw [hpending] at hnone
    cases hnone
  obtain ⟨recorded, hrecorded, hfields⟩ := recordedRejectionOf_ok hrefusal
  obtain ⟨existing, hexisting, hanswers⟩ := h.answers order horder
  obtain ⟨ack, hack, hackId⟩ := self.exists_ack before hknown
  have hacked : (ackFor (self.heard before) order.orderId).isSome := by
    rw [Option.isSome_iff_ne_none, ne_eq, ackFor_eq_none]
    exact fun hnone => hnone ack hack hackId
  have hacknowledged : existing.acknowledgedAtUtc ≠ none := by
    rw [hanswers.acknowledged, ← Option.isSome_iff_ne_none, Option.isSome_map]
    exact hacked
  obtain ⟨response, hresponse, hrecord⟩ := recordLateRejection_ok hrecorded
    (by rwa [hsame]) hacknowledged (by rw [hsame]; exact hanswers.client)
  rw [hsame] at hrecord
  refine ⟨_, hrecord, ?_, ?_, ?_⟩
  · rw [hsubmitted, hfills]
    exact ⟨h.holds.known, h.holds.held⟩
  · rw [hsubmitted]
    intro other hother
    rw [Dict.get?_set]
    by_cases hcase : other = order
    · subst hcase
      refine ⟨response, if_pos rfl, ?_⟩
      have hackSame : ackFor (self.heard (before ++ [c])) other.orderId =
          ackFor (self.heard before) other.orderId := ackFor_stays horder hids
      have hrefused : refusalFor (self.heard (before ++ [c])) other.orderId = some refusal := by
        rw [heard_concat, refusalFor_append, hevents,
          self.refusalFor_of_pending before hids' (Or.inr (by simp [hpending]))]
        simp [eventsIn, refusalFor, hsame]
      constructor <;> rw [hresponse]
      · exact hanswers.client
      · rw [hackSame]
        exact hanswers.acknowledged
      · have hold := hanswers.submitRejection
        rw [if_pos hacked] at hold
        rw [hackSame, if_pos hacked]
        exact hold
      · simp [hackSame, hacked, hrefused, hfields]
    · have hclient : other.clientOrderId ≠ order.clientOrderId := fun heq =>
        hcase (List.inj_on_of_nodup_map hclients hother horder heq)
      have hother' : order.orderId ≠ other.orderId := fun heq =>
        hcase (List.inj_on_of_nodup_map hids' hother horder heq.symm)
      obtain ⟨held, hheld, hold⟩ := h.answers other hother
      refine ⟨held, by rw [if_neg hclient, hheld], answers_stay hids hother hold ?_⟩
      intro events refused hreply hmem
      obtain rfl := Except.ok.inj (hevents.symm.trans hreply)
      rwa [Event.reject.inj (List.mem_singleton.mp hmem), hsame]
  · rw [hsubmitted]
    intro key hkey
    rw [Dict.mem_keys_iff, Dict.get?_set] at hkey
    split at hkey
    · next heq => exact heq ▸ List.mem_map_of_mem horder
    · exact h.keys key ((Dict.mem_keys_iff _ _).mpr hkey)

/-- What an ack releases goes to its order. -/
theorem captured_resolveAck {ack : OrderAckEvent} (hc : c = .resolveAck ack)
    (h : Captured self before recorder) {events : List Event}
    (hreply : self.reply before c = .ok events) :
    ∃ recorder', self.recordCall c (self.stateAfter before) recorder =
        .ok (events, self.stateAfter (before ++ [c]), recorder') ∧
      Captured self (before ++ [c]) recorder' := by
  subst hc
  have hsubmitted : submittedOf (before ++ [.resolveAck ack]) = submittedOf before := by
    simp [submittedOf]
  have hspec := self.call_spec (consistent_stateAfter self before) (.resolveAck ack)
  have hafter := self.stateAfter_concat before (.resolveAck ack)
  generalize hrun : self.call (.resolveAck ack) (self.stateAfter before) = run at hspec hafter
  cases hspec with
  | raised _ error recent =>
    rw [reply, hrun] at hreply
    cases hreply
  | resolved _ order quote outcome outcomes after hpending hquote hrange houtcome hresolved =>
    have hevents : self.reply before (.resolveAck ack) = .ok (outcomes.map AckOutcome.event) := by
      rw [reply, hrun]
    obtain rfl := Except.ok.inj (hevents.symm.trans hreply)
    have hresolve : self.resolveAck ack (self.stateAfter before) =
        (.ok outcomes, self.stateAfter (before ++ [.resolveAck ack])) := by
      refine Ran.eq_of_map (List.map_injective_iff.mpr AckOutcome.event_injective) ?_
      rw [hafter]
      exact hrun
    obtain ⟨hpending', horder⟩ := pending_submitted (hsubmitted ▸ hids) hpending
    cases hresolved with
    | crossed records hcrossed =>
      have hprinted : ∀ record ∈ records, phaseOf record.isPassive = .ack ∧
          ∃ order ∈ submittedOf before, record.fill.orderId = order.orderId := fun record hrecord =>
        ⟨by rw [hcrossed.not_passive record hrecord]; rfl, order, horder,
          hcrossed.orderId_eq record hrecord⟩
      obtain ⟨fills, hrecorded, hholds⟩ := holds_recordFills (hsubmitted ▸ hids)
        (hsubmitted ▸ hclients) h.holds hprinted
      refine ⟨_, ?_, captured_printed hids hsubmitted h (by rw [hafter]; exact hholds) ?_⟩
      · rw [List.foldlM_map] at hrecorded
        rw [recordCall, hresolve]
        simp only [recordAckOutcome, List.foldlM_map, hrecorded]
        rfl
      · intro events refusal hreply'
        obtain rfl := Except.ok.inj (hevents.symm.trans hreply')
        simp [AckOutcome.event]
    | rests limit hunmarketable =>
      refine ⟨recorder, by rw [recordCall, hresolve]; rfl, captured_printed hids hsubmitted h ?_ ?_⟩
      · rw [hafter]
        exact h.holds
      · intro events refusal hreply'
        obtain rfl := Except.ok.inj (hevents.symm.trans hreply')
        simp
    | refused rejection refusal hrefusal =>
      obtain ⟨recorder', hrecord, hcaptured⟩ := captured_late hids hclients hsubmitted h horder
        hpending' (by rw [hafter]; rfl) hrefusal hevents
      refine ⟨recorder', ?_, hcaptured⟩
      rw [recordCall, hresolve]
      simp only [recordAckOutcome, List.foldlM_cons, List.foldlM_nil, hrecord]
      rfl

/-- One call of a recorded session. -/
theorem captured_call (h : Captured self before recorder) {events : List Event}
    (hreply : self.reply before c = .ok events) :
    ∃ recorder', self.recordCall c (self.stateAfter before) recorder =
        .ok (events, self.stateAfter (before ++ [c]), recorder') ∧
      Captured self (before ++ [c]) recorder' := by
  cases hc : c with
  | observe bar => exact hc ▸ captured_observe hids hclients hc h hreply
  | submit order decidedAtUtc => exact hc ▸ captured_submit hids hclients hc h hreply
  | resolveAck ack => exact hc ▸ captured_resolveAck hids hclients hc h hreply

end Step

/-- Every call of the session returns. -/
def Returning (self : FillSimulation) (calls : List VenueCall) : Prop :=
  ∀ before c rest, calls = before ++ c :: rest → ∃ events, self.reply before c = .ok events

/-- What the rest of a session returns, call by call. -/
def repliesFrom (self : FillSimulation) (before : List VenueCall) : List VenueCall → List (List Event)
  | [] => []
  | c :: rest => eventsIn [(c, self.reply before c)] :: repliesFrom self (before ++ [c]) rest

/-- A returning session is recorded to its end. -/
theorem captured_calls {calls : List VenueCall} (hreturning : self.Returning calls)
    (hids : ((submittedOf calls).map (·.orderId)).Nodup)
    (hclients : ((submittedOf calls).map (·.clientOrderId)).Nodup) : ∀ {rest before : List VenueCall}
    {recorder : VenueRecorder}, calls = before ++ rest → Captured self before recorder →
    ∃ recorder', self.recordCalls rest (self.stateAfter before) recorder =
        .ok (self.repliesFrom before rest, self.stateAfter calls, recorder') ∧
      Captured self calls recorder'
  | [], before, recorder, hcalls, h => by
    rw [List.append_nil] at hcalls
    subst hcalls
    exact ⟨recorder, rfl, h⟩
  | c :: rest, before, recorder, hcalls, h => by
    obtain ⟨events, hreply⟩ := hreturning before c rest hcalls
    rw [List.append_cons] at hcalls
    have hids' := hids
    have hclients' := hclients
    rw [hcalls, submittedOf_append, List.map_append] at hids' hclients'
    obtain ⟨middle, hone, hcaptured⟩ := captured_call hids'.of_append_left hclients'.of_append_left h hreply
    obtain ⟨recorder', hmore, hall⟩ := captured_calls hreturning hids hclients hcalls hcaptured
    refine ⟨recorder', ?_, hall⟩
    simp only [recordCalls, bind_eq_ok]
    refine ⟨_, hone, _, hmore, ?_⟩
    simp [repliesFrom, eventsIn, hreply, pure, Except.pure]

end FillSimulation

end FinanceKing.Backtest
