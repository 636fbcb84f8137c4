import FinanceKing.Backtest.Venue.RecordedSession

/-! The recording a captured session builds: under every submitted order's client id, what the order
    heard and the venue's records of its prints, markouts joined on by trade id. -/

namespace FinanceKing.Backtest

open Lib FillSimulation

/-- A recorded print is the venue's whole record of an order's print. -/
def Keeps (order : Order) (recorded : RecordedFill) (record : VenueFillRecord) : Prop :=
  recorded.toRecordedFillFields = recordedFieldsOf order record

theorem Keeps.clientOrderId {order : Order} {recordeds : List RecordedFill}
    {records : List VenueFillRecord} (h : List.Forall₂ (Keeps order) recordeds records) :
    ∀ recorded ∈ recordeds, recorded.clientOrderId = order.clientOrderId := by
  induction h with
  | nil => simp
  | cons hkeeps _ ih =>
    rw [List.forall_mem_cons]
    exact ⟨by rw [hkeeps]; rfl, ih⟩

namespace VenueRecorder

variable {self : FillSimulation} {calls : List VenueCall} {recorder : VenueRecorder}

theorem withMarkout_ok {markouts : Dict String Decimal} {order : Order} {recorded : RecordedFill}
    {record : VenueFillRecord} (h : Notes order recorded record)
    (hmarkout : markouts.get? record.fill.venueTradeId = some record.passiveMarkoutQuote)
    (hpassive : record.isPassive = false → record.passiveMarkoutQuote = 0) :
    ∃ joined, withMarkout markouts recorded = .ok joined ∧ Keeps order joined record := by
  have hchecked := recordedFieldsOf_checked order record record.passiveMarkoutQuote hpassive
  refine ⟨⟨_, hchecked⟩, ?_, rfl⟩
  have hfields : { recorded.toRecordedFillFields with
      passiveMarkoutQuote := (markouts.get? recorded.venueTradeId).getD 0 } =
      { recordedFieldsOf order record with passiveMarkoutQuote := record.passiveMarkoutQuote } := by
    rw [h]
    simp [recordedFieldsOf, hmarkout]
  rw [withMarkout, hfields, construct_ok hchecked]

/-- A scan of distinct client order ids none of which has been seen passes. -/
theorem refuseRepeatedResponse_ok : ∀ {responses : List RecordedResponse} {seen : List String},
    (responses.map (·.clientOrderId)).Nodup → (∀ response ∈ responses, response.clientOrderId ∉ seen) →
    refuseRepeatedResponse seen responses = .ok ()
  | [], _, _, _ => rfl
  | response :: rest, seen, hnodup, hseen => by
    rw [List.map_cons, List.nodup_cons] at hnodup
    rw [refuseRepeatedResponse, bind_eq_ok]
    refine ⟨(), raiseIf_eq_ok.mpr (hseen response List.mem_cons_self), ?_⟩
    refine refuseRepeatedResponse_ok hnodup.2 fun other hother hmem => ?_
    rcases List.mem_cons.mp hmem with heq | hmem
    · exact hnodup.1 (heq ▸ List.mem_map_of_mem hother)
    · exact hseen other (List.mem_cons_of_mem _ hother) hmem

/-- A recorded response of an order, with its prints. -/
structure Response (simulation : FillSimulation) (calls : List VenueCall) (order : Order)
    (response : RecordedResponse) : Prop where
  answers : Answers (simulation.heard calls) order response.toRecordedResponseFields
  fills : List.Forall₂ (Keeps order) response.fills
    (viewOf (simulation.stateAfter calls) order.orderId).records

section Build

variable (hids : ((submittedOf calls).map (·.orderId)).Nodup)
  (hclients : ((submittedOf calls).map (·.clientOrderId)).Nodup) (h : Captured self calls recorder)
include hids hclients h

theorem buildResponse_ok {order : Order} (horder : order ∈ submittedOf calls) :
    ∃ response, recorder.buildResponse (markoutsOf (self.stateAfter calls).report)
      order.clientOrderId = .ok response ∧ Response self calls order response := by
  have hledgers := ledgers_stateAfter self calls hids
  obtain ⟨existing, hexisting, hanswers⟩ := h.answers order horder
  obtain ⟨held, hheld, hnotes⟩ := h.holds.held order horder
  obtain ⟨fills, hfills, hkeeps⟩ := forall₂_mapM (withMarkout
      (markoutsOf (self.stateAfter calls).report)) (Keeps order) hnotes
    fun recorded record hrecord hnote => by
      have hmem := List.mem_of_mem_filter hrecord
      obtain ⟨_, _, isPassive, _, hof⟩ := hledgers.exists_print hmem
      refine withMarkout_ok hnote (Dict.get?_foldl_set (fun record : VenueFillRecord =>
        record.fill.venueTradeId) _ (hledgers.nodup_tradeIds hclients) hmem) fun hactive => ?_
      rw [hof.passive] at hactive
      rw [hof.markout, hactive]
      rfl
  obtain ⟨hanswer, _⟩ := existing.facts
  have hnothing : existing.acknowledgedAtUtc = none → fills = [] ∧ existing.ackRejection = none := by
    intro hnone
    have hack : ackFor (self.heard calls) order.orderId = none := by
      rw [hanswers.acknowledged, Option.map_eq_none_iff] at hnone
      exact hnone
    have hunseen : viewOf (self.stateAfter calls) order.orderId = OrderView.unseen := by
      by_contra hknown
      obtain ⟨ack, hmem, hid⟩ := self.exists_ack calls hknown
      exact ackFor_eq_none.mp hack ack hmem hid
    have hrecords : (self.stateAfter calls).fills.filter
        (fun record => record.fill.orderId = order.orderId) = [] := congrArg OrderView.records hunseen
    rw [hrecords, List.forall₂_nil_right_iff] at hkeeps
    have hrejection := hanswers.ackRejection
    rw [hack] at hrejection
    simp only [Option.isSome_none, Bool.false_eq_true, if_false, Option.map_eq_none_iff] at hrejection
    exact ⟨hkeeps, hrejection⟩
  have hnames : ∀ recorded ∈ fills, recorded.clientOrderId = existing.clientOrderId := by
    rw [hanswers.client]
    exact Keeps.clientOrderId hkeeps
  have hchecked : (⟨existing.clientOrderId, existing.acknowledgedAtUtc, existing.submitRejection,
      existing.ackRejection, fills⟩ : RecordedResponseFields).postInit = .ok () :=
    RecordedResponseFields.checked_of (by rw [hanswers.client]; exact strip_clientOrderId order) hanswer
      hnothing hnames
  refine ⟨⟨_, hchecked⟩, ?_, ⟨hanswers.client, hanswers.acknowledged, hanswers.submitRejection,
    hanswers.ackRejection⟩, hkeeps⟩
  simp only [buildResponse, hexisting, hheld, bind_eq_ok]
  exact ⟨fills, hfills, construct_ok hchecked⟩

/-- A captured session's recording holds every submitted order's response. -/
theorem build_ok : ∃ recording, recorder.build (self.stateAfter calls).report = .ok recording ∧
    ∀ order ∈ submittedOf calls, ∃ response,
      recording.responseFor order.clientOrderId = .ok response ∧ Response self calls order response := by
  obtain ⟨responses, hresponses, hall⟩ := forall₂_mapM
    (recorder.buildResponse (markoutsOf (self.stateAfter calls).report))
    (fun response clientOrderId => ∃ order ∈ submittedOf calls, order.clientOrderId = clientOrderId ∧
      Response self calls order response)
    (List.forall₂_same.mpr fun clientOrderId (_ : clientOrderId ∈
      sortBy (fun clientOrderId => clientOrderId) recorder.responses.keys) => rfl)
    fun key clientOrderId hkey (heq : key = clientOrderId) => by
      obtain ⟨order, horder, rfl⟩ := List.mem_map.mp (h.keys _ ((mem_sortBy _).mp hkey))
      obtain ⟨response, hbuilt, hresponse⟩ := buildResponse_ok hids hclients h horder
      exact ⟨response, heq ▸ hbuilt, order, horder, rfl, hresponse⟩
  have hkey : ∀ response clientOrderId, (∃ order ∈ submittedOf calls,
      order.clientOrderId = clientOrderId ∧ Response self calls order response) →
      response.clientOrderId = clientOrderId := by
    rintro response _ ⟨order, _, rfl, hresponse⟩
    exact hresponse.answers.client
  have hkeys : responses.map (·.clientOrderId) =
      sortBy (fun clientOrderId => clientOrderId) recorder.responses.keys := by
    rw [← List.forall₂_eq_eq_eq, List.forall₂_map_left_iff]
    exact hall.imp hkey
  have hchecked : (⟨responses⟩ : VenueRecordingFields).postInit = .ok () := by
    refine refuseRepeatedResponse_ok ?_ (by simp)
    rw [hkeys]
    exact (perm_sortBy _ _).nodup_iff.mpr recorder.responses.nodupKeys
  refine ⟨⟨_, hchecked⟩, ?_, fun order horder => ?_⟩
  · simp only [build, bind_eq_ok]
    exact ⟨responses, hresponses, construct_ok hchecked⟩
  · obtain ⟨held, hheld, _⟩ := h.answers order horder
    have hmem : order.clientOrderId ∈
        sortBy (fun clientOrderId => clientOrderId) recorder.responses.keys := by
      rw [mem_sortBy, Dict.mem_keys_iff, hheld]
      rfl
    obtain ⟨response, hfound, other, hother, hsame, hresponse⟩ := find?_of_forall₂ hkey hall hmem
    obtain rfl := List.inj_on_of_nodup_map hclients hother horder hsame
    refine ⟨response, ?_, hresponse⟩
    rw [VenueRecording.responseFor, hfound]

end Build

end VenueRecorder

end FinanceKing.Backtest
