import FinanceKing.Backtest.Venue.RecordingBuild
import FinanceKing.Backtest.Venue.Replay

/-! Recording a session and replaying the recording with the same calls. What the replay holds after any
    prefix is what the venue's state says, so each call returns the same events, as long as the orders
    that one bar pays stand in the order of their client ids, and no other bar of the symbol closes at the
    same instant while one of them is known. -/

namespace FinanceKing.Backtest

open Lib FillSimulation VenueRecorder

namespace ReplayVenue

variable (self : ReplayVenue)

/-- Make one call of the replay; what it returns is the events it would schedule. -/
def call (c : VenueCall) (state : ReplayState) : Ran ReplayState (List Event) :=
  match c with
  | .observe bar => Ran.map (fun fills => fills.map Event.fill) (self.observe bar state)
  | .submit order decidedAtUtc =>
    Ran.map (fun answer => [answer.event]) (self.submit order decidedAtUtc state)
  | .resolveAck ack =>
    Ran.map (fun outcomes => outcomes.map AckOutcome.event) (self.resolveAck ack state)

def replayCalls : List VenueCall → ReplayState → PyResult (List (List Event) × ReplayState)
  | [], state => .ok ([], state)
  | c :: rest, state =>
    match self.call c state with
    | (.error e, _) => .error e
    | (.ok events, state) => do
      let (more, state) ← replayCalls rest state
      return (events :: more, state)

/-- A replayed session: what each call returned, and the final report. -/
def replaySession (calls : List VenueCall) : PyResult (List (List Event) × VenueReport) := do
  let (events, state) ← self.replayCalls calls ReplayState.initial
  return (events, state.report)

end ReplayVenue

/-! ### Serving prints -/

section Serving

variable {simulation : FillSimulation} {order : Order}

theorem isPassive_of_keeps {recorded : RecordedFill} {record : VenueFillRecord}
    (h : Keeps order recorded record) : recorded.isPassive = record.isPassive := by
  rw [RecordedFill.isPassive, h]
  cases hpassive : record.isPassive <;> simp [recordedFieldsOf, phaseOf, hpassive]

/-- A recorded print, paired with its order, is the print the venue made. -/
theorem print_ok {recorded : RecordedFill} {record : VenueFillRecord} {isPassive : Bool} {sequence : ℕ}
    (h : Keeps order recorded record) (hof : PrintOf simulation order isPassive sequence record)
    (state : ReplayState) :
    ReplayVenue.print order recorded state =
      (.ok record.fill, { state with fills := state.fills ++ [record] }) := by
  have hinstrument : record.fill.instrument = order.instrument := by rw [hof.fields]; rfl
  have hside : record.fill.side = order.side := by rw [hof.fields]; rfl
  have hpassive := isPassive_of_keeps h
  have hfields : (⟨uuid5 fillNamespace recorded.venueTradeId, order.orderId, recorded.venueTradeId,
      order.instrument, order.side, recorded.eventTimeUtc, recorded.quotePrice, recorded.baseQuantity,
      recorded.feeQuote⟩ : FillFields) = record.fill.toFillFields := by
    rw [h, ← hinstrument, ← hside, ← hof.orderId_eq]
    simp only [recordedFieldsOf]
    rw [← hof.fillId_eq]
  have hmarkout : recorded.passiveMarkoutQuote = record.passiveMarkoutQuote := by rw [h]; rfl
  rw [ReplayVenue.print, hfields, construct_ok record.fill.checked, hpassive, hmarkout]

/-- Prints of one order, served one after the other. -/
theorem printAll_ok {recordeds : List RecordedFill} {records : List VenueFillRecord}
    (h : List.Forall₂ (Keeps order) recordeds records)
    (hof : ∀ record ∈ records, ∃ isPassive sequence, PrintOf simulation order isPassive sequence record)
    (state : ReplayState) :
    ReplayVenue.printAll order recordeds state =
      (.ok (records.map (·.fill)), { state with fills := state.fills ++ records }) := by
  induction h generalizing state with
  | nil => simp [ReplayVenue.printAll]
  | @cons recorded record recordeds records hkeeps _ ih =>
    obtain ⟨_, _, hone⟩ := hof record List.mem_cons_self
    rw [ReplayVenue.printAll, print_ok hkeeps hone, Ran.chain_ok,
      ih fun other hother => hof other (List.mem_cons_of_mem _ hother)]
    simp

/-- The recorded prints of one phase are the venue's records of it. -/
theorem filter_phase {recordeds : List RecordedFill} {records : List VenueFillRecord}
    (h : List.Forall₂ (Keeps order) recordeds records) (phase : ResponsePhase) :
    List.Forall₂ (Keeps order) (recordeds.filter (fun recorded => recorded.phase = phase))
      (records.filter (fun record => phaseOf record.isPassive = phase)) := by
  refine List.rel_filter (fun recorded record hkeeps => ?_) h
  have hphase : recorded.phase = phaseOf record.isPassive := by rw [hkeeps]; rfl
  simp [hphase]

theorem filter_instant {recordeds : List RecordedFill} {records : List VenueFillRecord}
    (h : List.Forall₂ (Keeps order) recordeds records) (instant : DateTime) :
    List.Forall₂ (Keeps order) (recordeds.filter (fun recorded => recorded.eventTimeUtc = instant))
      (records.filter (fun record => record.fill.eventTimeUtc = instant)) := by
  refine List.rel_filter (fun recorded record hkeeps => ?_) h
  have htime : recorded.eventTimeUtc = record.fill.eventTimeUtc := by rw [hkeeps]; rfl
  simp [htime]

end Serving

/-! ### Sessions that replay -/

/-- A bar of the same symbol that closes at the same instant. -/
def SameClose (bar other : Bar) : Prop :=
  other.instrument.symbol = bar.instrument.symbol ∧ other.closeTimeUtc = bar.closeTimeUtc

/-- A bar fills some of a resting order. -/
def Pays (bar : Bar) (resting : RestingOrder) : Prop :=
  resting.order.instrument.symbol = bar.instrument.symbol ∧ 0 < (consume resting bar).filledBaseQuantity

/-- A session as its callers make it: every call returns, ids are used once, and an ack that is resolved
    is one the venue returned. -/
structure WellFormed (simulation : FillSimulation) (calls : List VenueCall) : Prop where
  returning : simulation.Returning calls
  orderIds : ((submittedOf calls).map (·.orderId)).Nodup
  clientOrderIds : ((submittedOf calls).map (·.clientOrderId)).Nodup
  acks : ∀ before ack rest, calls = before ++ .resolveAck ack :: rest →
    .orderAck ack ∈ simulation.heard before

/-- The orders each bar pays ascend alike by order id and by client id, and no other bar of the symbol
    closes at the same instant once one of them has been submitted. -/
structure Unambiguous (simulation : FillSimulation) (calls : List VenueCall) : Prop where
  aligned : ∀ before bar rest, calls = before ++ .observe bar :: rest → ∀ id resting id' resting',
    (simulation.stateAfter before).resting.get? id = some resting → Pays bar resting →
    (simulation.stateAfter before).resting.get? id' = some resting' → Pays bar resting' →
    id < id' → resting.order.clientOrderId < resting'.order.clientOrderId
  alone : ∀ before bar rest, calls = before ++ .observe bar :: rest → ∀ id resting,
    (simulation.stateAfter before).resting.get? id = some resting → Pays bar resting →
    (∀ other, .observe other ∈ rest → ¬SameClose bar other) ∧
    ∀ earlier decidedAtUtc between, before = earlier ++ .submit resting.order decidedAtUtc :: between →
      ∀ other, .observe other ∈ between → ¬SameClose bar other

theorem pays_of_paid {simulation : FillSimulation} {bar : Bar} {resting : RestingOrder}
    {record : VenueFillRecord} (h : simulation.paid bar resting = some record) : Pays bar resting := by
  obtain ⟨_, hsymbol, _, hquantity, _⟩ := paid_printOf h
  exact ⟨hsymbol, hquantity ▸ record.fill.baseQuantity_pos⟩

section Split

variable {simulation : FillSimulation} {calls before rest : List VenueCall} {order : Order}

theorem WellFormed.prefix_ids (h : WellFormed simulation calls) (hcalls : calls = before ++ rest) :
    ((submittedOf before).map (·.orderId)).Nodup := by
  have hids := h.orderIds
  rw [hcalls, submittedOf_append, List.map_append] at hids
  exact hids.of_append_left

theorem mem_submittedOf_left (hcalls : calls = before ++ rest) (h : order ∈ submittedOf before) :
    order ∈ submittedOf calls := by
  rw [hcalls, submittedOf_append]
  exact List.mem_append_left _ h

/-- The order of a passive print, and the bar that paid it. -/
theorem of_paid (hwell : WellFormed simulation calls) (hcalls : calls = before ++ rest) {bar : Bar}
    {record : VenueFillRecord} (hrecord : record ∈ simulation.paidBy bar (simulation.stateAfter before))
    (horder : order ∈ submittedOf calls) (hid : record.fill.orderId = order.orderId) :
    ∃ resting, (simulation.stateAfter before).resting.get? order.orderId = some resting ∧
      resting.order = order ∧ simulation.paid bar resting = some record := by
  obtain ⟨id, resting, hresting, hpaid⟩ := mem_paidBy hrecord
  obtain ⟨hkey, hsubmitted⟩ := resting_submitted (hwell.prefix_ids hcalls) hresting
  have hsame : resting.order.orderId = order.orderId := by
    rw [← (paid_printOf hpaid).1.orderId_eq, hid]
  refine ⟨resting, by rw [← hsame, hkey, hresting], ?_, hpaid⟩
  exact List.inj_on_of_nodup_map hwell.orderIds (mem_submittedOf_left hcalls hsubmitted) horder hsame

/-- All an order ever has printed passively at the close of a bar of its symbol is what that bar paid. -/
theorem records_at_close (hwell : WellFormed simulation calls) (hclear : Unambiguous simulation calls)
    {bar : Bar} (hcalls : calls = before ++ .observe bar :: rest) (horder : order ∈ submittedOf before)
    (hsymbol : order.instrument.symbol = bar.instrument.symbol) :
    (((viewOf (simulation.stateAfter calls) order.orderId).records.filter
        (fun record => phaseOf record.isPassive = .bar)).filter
      (fun record => record.fill.eventTimeUtc = bar.closeTimeUtc)) =
      (simulation.paidAt bar (simulation.stateAfter before) order.orderId).toList := by
  have hmem := mem_submittedOf_left hcalls horder
  obtain ⟨earlier, decidedAtUtc, between, hsplit⟩ : ∃ earlier decidedAtUtc between,
      before = earlier ++ .submit order decidedAtUtc :: between := by
    obtain ⟨c, hc, hsome⟩ := List.mem_filterMap.mp horder
    obtain ⟨earlier, between, hsplit⟩ := List.append_of_mem hc
    cases c with
    | submit other decidedAtUtc => exact ⟨earlier, decidedAtUtc, between, Option.some.inj hsome ▸ hsplit⟩
    | observe bar => cases hsome
    | resolveAck ack => cases hsome
  have hnothing : ∀ {records : List VenueFillRecord}, (∀ record ∈ records, record.isPassive = true →
      record.fill.orderId = order.orderId → record.fill.eventTimeUtc ≠ bar.closeTimeUtc) →
      ((records.filter (fun record => record.fill.orderId = order.orderId)).filter
        (fun record => phaseOf record.isPassive = .bar)).filter
        (fun record => record.fill.eventTimeUtc = bar.closeTimeUtc) = [] := by
    intro records hnone
    rw [List.filter_eq_nil_iff]
    intro record hrecord htime
    rw [List.mem_filter, List.mem_filter] at hrecord
    obtain ⟨⟨hrecord, hid⟩, hphase⟩ := hrecord
    have hpassive : record.isPassive = true := by
      cases hcase : record.isPassive with
      | true => rfl
      | false => simp [hcase, phaseOf] at hphase
    exact hnone record hrecord hpassive (by simpa using hid) (by simpa using htime)
  obtain ⟨old, hold, hfromOld⟩ := simulation.fills_append [] before
  obtain ⟨more, hmore, hfromMore⟩ := simulation.fills_append (before ++ [.observe bar]) rest
  have hnil : (simulation.stateAfter []).fills = [] := rfl
  rw [List.nil_append, hnil, List.nil_append] at hold
  obtain ⟨events, hreply⟩ := hwell.returning _ _ _ hcalls
  obtain ⟨_, hfills, _⟩ := of_reply_observe hreply
  have hfirst : ∀ record ∈ (simulation.stateAfter before).fills, record.isPassive = true →
      record.fill.orderId = order.orderId → record.fill.eventTimeUtc ≠ bar.closeTimeUtc := by
    intro record hrecord hpassive hid htime
    rw [hold] at hrecord
    obtain ⟨sooner, other, later, rfl, hpaid⟩ := hfromOld record hrecord hpassive
    rw [List.nil_append] at hpaid
    have hcalls' : calls = sooner ++ .observe other :: (later ++ .observe bar :: rest) := by
      rw [hcalls]
      simp
    obtain ⟨resting, hresting, rfl, hpaid⟩ := of_paid hwell hcalls' hpaid hmem hid
    obtain ⟨_, hother, hclose, _⟩ := paid_printOf hpaid
    refine (hclear.alone _ _ _ hcalls' _ _ hresting (pays_of_paid hpaid)).1 bar (by simp) ?_
    exact ⟨hsymbol.symm.trans hother, htime.symm.trans hclose⟩
  have hlast : ∀ record ∈ more, record.isPassive = true →
      record.fill.orderId = order.orderId → record.fill.eventTimeUtc ≠ bar.closeTimeUtc := by
    intro record hrecord hpassive hid htime
    obtain ⟨sooner, other, later, rfl, hpaid⟩ := hfromMore record hrecord hpassive
    have hcalls' : calls = (before ++ [.observe bar] ++ sooner) ++ .observe other :: later := by
      rw [hcalls]
      simp
    obtain ⟨resting, hresting, rfl, hpaid⟩ := of_paid hwell hcalls' hpaid hmem hid
    obtain ⟨_, hother, hclose, _⟩ := paid_printOf hpaid
    refine (hclear.alone _ _ _ hcalls' _ _ hresting (pays_of_paid hpaid)).2 earlier decidedAtUtc
      (between ++ .observe bar :: sooner) (by simp [hsplit]) bar (by simp) ?_
    exact ⟨hsymbol.symm.trans hother, htime.symm.trans hclose⟩
  have hall : (simulation.stateAfter calls).fills = (simulation.stateAfter before).fills ++
      simulation.paidBy bar (simulation.stateAfter before) ++ more := by
    rw [← hfills, ← hmore, hcalls]
    simp
  have hmiddle : (simulation.paidBy bar (simulation.stateAfter before)).filter
      (fun record => record.fill.orderId = order.orderId) =
      (simulation.paidAt bar (simulation.stateAfter before) order.orderId).toList :=
    filter_paidBy (consistent_stateAfter simulation before) bar order.orderId
  rw [viewOf, hall]
  simp only [List.filter_append]
  rw [hnothing hfirst, hnothing hlast, hmiddle, List.nil_append, List.append_nil]
  cases hpaid : simulation.paidAt bar (simulation.stateAfter before) order.orderId with
  | none => rfl
  | some record =>
    rw [paidAt, Option.bind_eq_some_iff] at hpaid
    obtain ⟨resting, _, hpaid⟩ := hpaid
    obtain ⟨hof, _, hclose, _⟩ := paid_printOf hpaid
    simp [hof.passive, hclose, phaseOf]

/-- All an acknowledged order ever prints at its ack is what resolving it gave. -/
theorem records_at_ack (hwell : WellFormed simulation calls) {ack : OrderAckEvent}
    (hcalls : calls = before ++ .resolveAck ack :: rest)
    (hpending : (simulation.stateAfter before).pending.get? ack.order.orderId = some order)
    {quote : TouchQuote} (hquote : (simulation.stateAfter before).quotes.get? order.instrument.symbol =
      some quote) {events : List Event} (hreply : simulation.reply before (.resolveAck ack) = .ok events)
    {outcome : Resolution} (houtcome : outcome =
      simulation.resolution order quote (ack.occursAtUtc + simulation.costModel.latency.ackToFill)) :
    (viewOf (simulation.stateAfter (before ++ [.resolveAck ack])) order.orderId).pending = none ∧
    (viewOf (simulation.stateAfter calls) order.orderId).records.filter
        (fun record => phaseOf record.isPassive = .ack) =
      outcome.records.filter (fun record => phaseOf record.isPassive = .ack) := by
  have hids := hwell.prefix_ids hcalls
  have hconsistent := consistent_stateAfter simulation before
  have hview := viewOf_resolveAck hconsistent hpending hquote hreply
  rw [← stateAfter_concat] at hview
  obtain ⟨hheld, horder⟩ := pending_submitted hids hpending
  have hheldView : (viewOf (simulation.stateAfter before) order.orderId).pending = some order := hheld
  obtain ⟨_, hresting, hrecords⟩ :=
    ((ledgers_stateAfter simulation before hids).ledger order horder).of_pending hheldView
  have hmem : order ∈ submittedOf (before ++ [.resolveAck ack]) := by
    rw [submittedOf_append]
    exact List.mem_append_left _ horder
  have hids' := hwell.orderIds
  rw [List.append_cons] at hcalls
  rw [hcalls] at hids'
  simp only [OrderView.step, hheldView, ← houtcome] at hview
  cases outcome with
  | crossed records =>
    simp only [hresting, hrecords, List.nil_append] at hview
    rw [hcalls, closed_stays hmem hids' (by rw [hview]) (by rw [hview]), hview]
    exact ⟨rfl, rfl⟩
  | refused rejection =>
    simp only [hresting, hrecords] at hview
    rw [hcalls, closed_stays hmem hids' (by rw [hview]) (by rw [hview]), hview]
    exact ⟨rfl, rfl⟩
  | rests resting =>
    simp only [hrecords] at hview
    refine ⟨by rw [hview], ?_⟩
    -- from here on bars alone print, and passively
    have hstays : ∀ record ∈ (viewOf (simulation.stateAfter calls) order.orderId).records,
        record.isPassive = true := by
      have hstart : (viewOf (simulation.stateAfter (before ++ [.resolveAck ack]))
          order.orderId).pending = none ∧
          ∀ record ∈ (viewOf (simulation.stateAfter (before ++ [.resolveAck ack])) order.orderId).records,
            record.isPassive = true := by
        rw [hview]
        exact ⟨rfl, by simp⟩
      rw [hcalls]
      refine (viewOf_stays (fun view => view.pending = none ∧
        ∀ record ∈ view.records, record.isPassive = true) hmem hids' ?_ ?_ hstart).2
      · rintro view bar ⟨hnone, hpassive⟩
        refine ⟨hnone, fun record hrecord => ?_⟩
        rcases List.mem_append.mp hrecord with hrecord | hrecord
        · exact hpassive record hrecord
        · rw [Option.mem_toList, Option.bind_eq_some_iff] at hrecord
          obtain ⟨_, _, hpaid⟩ := hrecord
          exact (paid_printOf hpaid).1.passive
      · rintro view quote fillAtUtc ⟨hnone, hpassive⟩
        have hsame : view.step simulation (.resolved quote fillAtUtc) = view := by
          simp only [OrderView.step, hnone]
        rw [hsame]
        exact ⟨hnone, hpassive⟩
    refine List.filter_eq_nil_iff.mpr fun record hrecord => ?_
    simp [hstays record hrecord, phaseOf]

end Split

/-! ### The replay along a session -/

/-- What the replay holds after a prefix of the session's calls. -/
structure Served (simulation : FillSimulation) (calls : List VenueCall) (state : ReplayState) : Prop where
  acknowledged : ∀ clientOrderId order, state.acknowledged.get? clientOrderId = some order ↔
    order.clientOrderId = clientOrderId ∧ order ∈ acknowledgedOf (simulation.heard calls)
  replayed : ∀ clientOrderId ∈ state.replayed, ∃ order ∈ submittedOf calls,
    order.clientOrderId = clientOrderId ∧
      (simulation.stateAfter calls).pending.get? order.orderId = none
  fills : state.fills = (simulation.stateAfter calls).fills
  rejections : state.rejections = (simulation.stateAfter calls).rejections

theorem served_initial (simulation : FillSimulation) : Served simulation [] ReplayState.initial where
  acknowledged clientOrderId order := by simp [ReplayState.initial, heard, transcript, history,
    eventsIn, acknowledgedOf]
  replayed clientOrderId hserved := by cases hserved
  fills := rfl
  rejections := rfl

section Step

variable {simulation : FillSimulation} {calls before rest : List VenueCall} {venue : ReplayVenue}
  {state : ReplayState}

theorem acknowledgedOf_append (left right : List Event) :
    acknowledgedOf (left ++ right) = acknowledgedOf left ++ acknowledgedOf right := List.filterMap_append

/-- An acknowledged order was submitted. -/
theorem submitted_of_acknowledged {order : Order}
    (h : order ∈ acknowledgedOf (simulation.heard before)) : order ∈ submittedOf before := by
  obtain ⟨ack, hack, rfl⟩ := mem_acknowledgedOf.mp h
  exact simulation.mem_submittedOf_of_ack before hack

/-- A submitted order the state knows of has been acknowledged. -/
theorem acknowledged_of_known (hids : ((submittedOf before).map (·.orderId)).Nodup) {order : Order}
    (horder : order ∈ submittedOf before)
    (hknown : viewOf (simulation.stateAfter before) order.orderId ≠ OrderView.unseen) :
    order ∈ acknowledgedOf (simulation.heard before) := by
  obtain ⟨ack, hack, hid⟩ := simulation.exists_ack before hknown
  have hsubmitted := simulation.mem_submittedOf_of_ack before hack
  exact mem_acknowledgedOf.mpr ⟨ack, hack, List.inj_on_of_nodup_map hids hsubmitted horder hid⟩

/-- The recording holds every submitted order's response. -/
def RecordingOf (simulation : FillSimulation) (calls : List VenueCall) (venue : ReplayVenue) : Prop :=
  ∀ order ∈ submittedOf calls, ∃ response,
    venue.recording.responseFor order.clientOrderId = .ok response ∧
      Response simulation calls order response

/-- The records of an order are its prints. -/
theorem printOf_of_mem (hwell : WellFormed simulation calls) {order : Order}
    (horder : order ∈ submittedOf calls) {record : VenueFillRecord}
    (hrecord : record ∈ (viewOf (simulation.stateAfter calls) order.orderId).records) :
    ∃ isPassive sequence, PrintOf simulation order isPassive sequence record := by
  obtain ⟨sequences, _, hprinted⟩ :=
    ((ledgers_stateAfter simulation calls hwell.orderIds).ledger order horder).printedAs
  exact hprinted.of_mem hrecord

/-- Serving a bar to one acknowledged order prints what the bar paid it. -/
theorem replayOrder_ok (hwell : WellFormed simulation calls) (hclear : Unambiguous simulation calls)
    (hrecording : RecordingOf simulation calls venue) {bar : Bar}
    (hcalls : calls = before ++ .observe bar :: rest) {order : Order} {clientOrderId : String}
    (horder : order ∈ submittedOf before) (hclient : order.clientOrderId = clientOrderId)
    (hheld : state.acknowledged.get? clientOrderId = some order) :
    venue.replayOrder bar clientOrderId state =
      (.ok ((simulation.paidAt bar (simulation.stateAfter before) order.orderId).toList.map (·.fill)),
        { state with fills := state.fills ++
          (simulation.paidAt bar (simulation.stateAfter before) order.orderId).toList }) := by
  subst hclient
  rw [ReplayVenue.replayOrder, hheld]
  dsimp only
  by_cases hsymbol : order.instrument.symbol = bar.instrument.symbol
  · obtain ⟨response, hfound, hresponse⟩ :=
      hrecording order (mem_submittedOf_left hcalls horder)
    have hclose := records_at_close hwell hclear hcalls horder hsymbol
    have hserved := filter_instant (filter_phase hresponse.fills .bar) bar.closeTimeUtc
    rw [hclose] at hserved
    have hsorted : ((response.fillsInPhase .bar).filter
        (fun recorded => recorded.eventTimeUtc = bar.closeTimeUtc)) =
        ((response.fills.filter (fun recorded => recorded.phase = .bar)).filter
          (fun recorded => recorded.eventTimeUtc = bar.closeTimeUtc)) := by
      rw [RecordedResponse.fillsInPhase, filter_sortBy]
      have hone := hserved.length_eq
      generalize (response.fills.filter _).filter _ = served at hone
      cases hpaid : simulation.paidAt bar (simulation.stateAfter before) order.orderId with
      | none =>
        rw [hpaid] at hone
        rw [List.eq_nil_of_length_eq_zero hone]
        rfl
      | some record =>
        rw [hpaid] at hone
        obtain ⟨only, rfl⟩ := List.length_eq_one_iff.mp hone
        rfl
    have hof : ∀ record ∈
        (simulation.paidAt bar (simulation.stateAfter before) order.orderId).toList,
        ∃ isPassive sequence, PrintOf simulation order isPassive sequence record := by
      intro record hrecord
      rw [← hclose] at hrecord
      exact printOf_of_mem hwell (mem_submittedOf_left hcalls horder)
        (List.mem_of_mem_filter (List.mem_of_mem_filter hrecord))
    rw [if_neg (not_not.mpr hsymbol), hfound, Ran.chain_ok, hsorted]
    exact printAll_ok hserved hof state
  · have hnone : simulation.paidAt bar (simulation.stateAfter before) order.orderId = none := by
      rw [Option.eq_none_iff_forall_ne_some]
      intro record hpaid
      rw [paidAt, Option.bind_eq_some_iff] at hpaid
      obtain ⟨resting, hresting, hpaid⟩ := hpaid
      obtain ⟨hkey, hsubmitted⟩ := resting_submitted (hwell.prefix_ids hcalls) hresting
      obtain rfl := List.inj_on_of_nodup_map (hwell.prefix_ids hcalls) hsubmitted horder hkey
      exact hsymbol (paid_printOf hpaid).2.1
    rw [if_pos hsymbol, hnone]
    simp

/-- Serving a bar to acknowledged orders, one after the other. -/
theorem replayOrders_ok (hwell : WellFormed simulation calls) (hclear : Unambiguous simulation calls)
    (hrecording : RecordingOf simulation calls venue) {bar : Bar}
    (hcalls : calls = before ++ .observe bar :: rest) : ∀ (clientOrderIds : List String)
    (state : ReplayState), (∀ clientOrderId ∈ clientOrderIds, ∃ order ∈ submittedOf before,
      order.clientOrderId = clientOrderId ∧
        state.acknowledged.get? clientOrderId = some order) →
    venue.replayOrders bar clientOrderIds state =
      (.ok (((clientOrderIds.filterMap state.acknowledged.get?).filterMap (fun order =>
          simulation.paidAt bar (simulation.stateAfter before) order.orderId)).map (·.fill)),
        { state with fills := state.fills ++
          (clientOrderIds.filterMap state.acknowledged.get?).filterMap (fun order =>
            simulation.paidAt bar (simulation.stateAfter before) order.orderId) })
  | [], state, _ => by simp [ReplayVenue.replayOrders]
  | clientOrderId :: more, state, hknown => by
    obtain ⟨order, horder, hclient, hheld⟩ := hknown clientOrderId List.mem_cons_self
    have hrest := replayOrders_ok hwell hclear hrecording hcalls more { state with
      fills := state.fills ++
        (simulation.paidAt bar (simulation.stateAfter before) order.orderId).toList }
      fun other hother => hknown other (List.mem_cons_of_mem _ hother)
    rw [ReplayVenue.replayOrders, replayOrder_ok hwell hclear hrecording hcalls horder hclient hheld,
      Ran.chain_ok, hrest, Ran.chain_ok, List.filterMap_cons_some hheld]
    cases hpaid : simulation.paidAt bar (simulation.stateAfter before) order.orderId with
    | none => simp [hpaid]
    | some record => simp [hpaid]

/-- The orders in the order of their client ids give what the resting orders give in the order of
    theirs. -/
theorem served_eq_paidBy (hwell : WellFormed simulation calls) (hclear : Unambiguous simulation calls)
    {bar : Bar} (hcalls : calls = before ++ .observe bar :: rest) (h : Served simulation before state) :
    ((sortBy (fun clientOrderId => clientOrderId) state.acknowledged.keys).filterMap
        state.acknowledged.get?).filterMap
      (fun order => simulation.paidAt bar (simulation.stateAfter before) order.orderId) =
      simulation.paidBy bar (simulation.stateAfter before) := by
  have hids := hwell.prefix_ids hcalls
  have hbyId : simulation.paidBy bar (simulation.stateAfter before) =
      ((sortBy (fun id => id) (simulation.stateAfter before).resting.keys).filterMap
        (fun id => ((simulation.stateAfter before).resting.get? id).map (·.order))).filterMap
        (fun order => simulation.paidAt bar (simulation.stateAfter before) order.orderId) := by
    rw [List.filterMap_filterMap]
    refine List.filterMap_congr fun id _ => ?_
    cases hresting : (simulation.stateAfter before).resting.get? id with
    | none => simp [paidAt, hresting]
    | some resting => simp [paidAt, (resting_submitted hids hresting).1]
  rw [hbyId]
  refine filterMap_eq_of_ascending (fun order : Order => order.clientOrderId) _ ?_ ?_ ?_
  · -- what the bar pays is resting, and what is resting has been acknowledged
    intro order hpaid
    obtain ⟨record, hpaid⟩ := Option.isSome_iff_exists.mp hpaid
    rw [paidAt, Option.bind_eq_some_iff] at hpaid
    obtain ⟨resting, hresting, _⟩ := hpaid
    obtain ⟨hkey, hsubmitted⟩ := resting_submitted hids hresting
    have hknown : viewOf (simulation.stateAfter before) order.orderId ≠ OrderView.unseen := by
      intro hunseen
      have hnone : (simulation.stateAfter before).resting.get? order.orderId = none :=
        congrArg OrderView.resting hunseen
      rw [hresting] at hnone
      cases hnone
    simp only [List.mem_filterMap, mem_sortBy, Dict.mem_keys_iff, Option.map_eq_some_iff]
    constructor
    · rintro ⟨clientOrderId, _, hheld⟩
      have hacknowledged := ((h.acknowledged _ _).mp hheld).2
      have hsame := List.inj_on_of_nodup_map hids hsubmitted
        (submitted_of_acknowledged hacknowledged) hkey
      exact ⟨order.orderId, by rw [hresting]; rfl, resting, hresting, hsame⟩
    · rintro ⟨id, _, other, hother, rfl⟩
      obtain ⟨hotherKey, hotherSubmitted⟩ := resting_submitted hids hother
      have hheld := (h.acknowledged other.order.clientOrderId other.order).mpr
        ⟨rfl, acknowledged_of_known hids hotherSubmitted hknown⟩
      exact ⟨other.order.clientOrderId, by rw [hheld]; rfl, hheld⟩
  · rw [List.pairwise_filterMap]
    refine (pairwise_lt_sortBy state.acknowledged.nodupKeys).imp fun {clientOrderId other} hlt => ?_
    intro order hheld order' hheld' _ _
    rw [((h.acknowledged _ _).mp hheld).1, ((h.acknowledged _ _).mp hheld').1]
    exact hlt
  · rw [List.pairwise_filterMap]
    refine (pairwise_lt_sortBy (simulation.stateAfter before).resting.nodupKeys).imp fun {id id'} hlt => ?_
    simp only [Option.map_eq_some_iff]
    rintro _ ⟨resting, hresting, rfl⟩ _ ⟨resting', hresting', rfl⟩ hpaid hpaid'
    have hpays : ∀ {id : Uuid} {resting : RestingOrder},
        (simulation.stateAfter before).resting.get? id = some resting →
        (simulation.paidAt bar (simulation.stateAfter before) resting.order.orderId).isSome →
        Pays bar resting := by
      intro id resting hresting hsome
      obtain ⟨record, hrecord⟩ := Option.isSome_iff_exists.mp hsome
      rw [paidAt, (resting_submitted hids hresting).1, hresting, Option.bind_some] at hrecord
      exact pays_of_paid hrecord
    exact hclear.aligned _ _ _ hcalls _ _ _ _ hresting (hpays hresting hpaid) hresting'
      (hpays hresting' hpaid') hlt

/-- A bar. -/
theorem served_observe (hwell : WellFormed simulation calls) (hclear : Unambiguous simulation calls)
    (hrecording : RecordingOf simulation calls venue) {bar : Bar}
    (hcalls : calls = before ++ .observe bar :: rest) (h : Served simulation before state)
    {events : List Event} (hreply : simulation.reply before (.observe bar) = .ok events) :
    ∃ state', venue.call (.observe bar) state = (.ok events, state') ∧
      Served simulation (before ++ [.observe bar]) state' := by
  obtain ⟨rfl, hfills, hpending, hrejections⟩ := of_reply_observe hreply
  have hrun := replayOrders_ok hwell hclear hrecording hcalls
    (sortBy (fun clientOrderId => clientOrderId) state.acknowledged.keys) state fun clientOrderId hmem => by
      rw [mem_sortBy, Dict.mem_keys_iff] at hmem
      obtain ⟨order, hheld⟩ := Option.isSome_iff_exists.mp hmem
      obtain ⟨hclient, hacknowledged⟩ := (h.acknowledged _ _).mp hheld
      exact ⟨order, submitted_of_acknowledged hacknowledged, hclient, hheld⟩
  rw [served_eq_paidBy hwell hclear hcalls h] at hrun
  refine ⟨{ state with fills := state.fills ++ simulation.paidBy bar (simulation.stateAfter before) },
    ?_, ?_, ?_, ?_, ?_⟩
  · rw [ReplayVenue.call, ReplayVenue.observe, hrun, Ran.map_ok, List.map_map]
    rfl
  · intro clientOrderId order
    have hnoAck : acknowledgedOf ((simulation.paidBy bar (simulation.stateAfter before)).map
        (Event.fill ·.fill)) = [] := by
      simp [acknowledgedOf]
    rw [heard_concat, hreply, acknowledgedOf_append]
    simp only [eventsIn, List.flatMap_cons, List.flatMap_nil, List.append_nil, hnoAck]
    exact h.acknowledged clientOrderId order
  · rw [hpending]
    simpa [submittedOf] using h.replayed
  · rw [hfills, h.fills]
  · rw [hrejections, h.rejections]

theorem created_le_of_reply {order : Order} {decidedAtUtc : DateTime} {events : List Event}
    (hreply : simulation.reply before (.submit order decidedAtUtc) = .ok events) :
    order.createdAtUtc ≤ decidedAtUtc := by
  have hspec := simulation.submit_spec order decidedAtUtc (simulation.stateAfter before)
  rw [reply, FillSimulation.call] at hreply
  generalize simulation.submit order decidedAtUtc (simulation.stateAfter before) = run at hspec hreply
  cases hspec with
  | raised error recent => cases hreply
  | refused rejection refusal recent hcreated hrefusal => exact hcreated
  | acknowledged quote recent hcreated hquote => exact hcreated

/-- A recorded refusal, served again, is the refusal and is counted alike. -/
theorem reject_ok {order : Order} {refusal : RejectEvent} {recorded : RecordedRejection}
    {occursAtUtc : DateTime} {rejection : Rejection}
    (hrefusal : refusal.toRejectEventFields = ⟨order, occursAtUtc, rejection.asRejectText⟩)
    (horder : refusal.order = order)
    (hfields : recorded.toRecordedRejectionFields = rejectionFieldsOf refusal) (state : ReplayState) :
    ReplayVenue.reject order recorded state = (.ok refusal, { state with
      rejections := state.rejections.set rejection.reason
        ((state.rejections.get? rejection.reason).getD 0 + 1) }) := by
  have hreason : recorded.reason = .ok rejection.reason := by
    rw [RecordedRejection.reason, hfields, rejectionFieldsOf, hrefusal]
    exact reasonFrom_asRejectText rejection
  have hevent : (⟨order, recorded.occursAtUtc, recorded.rejectText⟩ : RejectEventFields) =
      refusal.toRejectEventFields := by
    rw [hfields, ← horder]
    rfl
  rw [ReplayVenue.reject, hreason, Ran.chain_ok, hevent, construct_ok refusal.checked]

/-- A submission. -/
theorem served_submit (hwell : WellFormed simulation calls)
    (hrecording : RecordingOf simulation calls venue) {order : Order} {decidedAtUtc : DateTime}
    (hcalls : calls = before ++ .submit order decidedAtUtc :: rest) (h : Served simulation before state)
    {events : List Event} (hreply : simulation.reply before (.submit order decidedAtUtc) = .ok events) :
    ∃ state', venue.call (.submit order decidedAtUtc) state = (.ok events, state') ∧
      Served simulation (before ++ [.submit order decidedAtUtc]) state' := by
  have hcreated := created_le_of_reply hreply
  have hsplit : calls = (before ++ [.submit order decidedAtUtc]) ++ rest := by rw [hcalls]; simp
  have hids := hwell.prefix_ids hsplit
  have hmem : order ∈ submittedOf (before ++ [.submit order decidedAtUtc]) := by simp [submittedOf]
  have hmemAll := mem_submittedOf_left hsplit hmem
  obtain ⟨hackNone, hrefusalNone, hpendingNone⟩ := simulation.unheard_of_new hids
  obtain ⟨response, hfound, hresponse⟩ := hrecording order hmemAll
  have hheard := simulation.heard_concat before (.submit order decidedAtUtc)
  have hackStays : ackFor (simulation.heard calls) order.orderId =
      ackFor (simulation.heard (before ++ [.submit order decidedAtUtc])) order.orderId := by
    rw [hsplit]
    exact ackFor_stays hmem (by rw [← hsplit]; exact hwell.orderIds)
  have hspec := simulation.call_spec (consistent_stateAfter simulation before)
    (.submit order decidedAtUtc)
  have hafter := simulation.stateAfter_concat before (.submit order decidedAtUtc)
  have hreply' := hreply
  rw [reply] at hreply
  generalize simulation.call (.submit order decidedAtUtc) (simulation.stateAfter before) = run
    at hspec hafter hreply
  have hadmitted : (raiseIf (decidedAtUtc < order.createdAtUtc) .venueSimulation
      [order.clientOrderId, " was decided at ", .instant decidedAtUtc, ", before it was created at ",
        .instant order.createdAtUtc]) = .ok () := raiseIf_eq_ok.mpr (not_lt.mpr hcreated)
  cases hspec with
  | raised _ error recent => cases hreply
  | acknowledged _ _ quote recent hquote =>
    obtain rfl := Except.ok.inj hreply
    have hack : ackFor (simulation.heard calls) order.orderId =
        some ⟨order, simulation.acknowledgedAt decidedAtUtc⟩ := by
      rw [hackStays, hheard, ackFor_append, hackNone, hreply']
      simp [eventsIn, ackFor]
    have hnoRejection : response.submitRejection = none := by
      have hrejection := hresponse.answers.submitRejection
      rw [hack] at hrejection
      simpa using hrejection
    have hacknowledged : response.acknowledgedAtUtc = some (simulation.acknowledgedAt decidedAtUtc) := by
      rw [hresponse.answers.acknowledged, hack]
      rfl
    refine ⟨{ state with acknowledged := state.acknowledged.set order.clientOrderId order }, ?_, ?_, ?_,
      ?_, ?_⟩
    · rw [ReplayVenue.call, ReplayVenue.submit, hadmitted, Ran.chain_ok, hfound, Ran.chain_ok]
      simp only [hnoRejection, hacknowledged]
      rw [if_neg (not_lt.mpr (simulation.le_acknowledgedAt decidedAtUtc))]
      rfl
    · intro clientOrderId other
      rw [hheard, hreply', acknowledgedOf_append, List.mem_append, Dict.get?_set]
      have hone : other ∈ acknowledgedOf (eventsIn [(VenueCall.submit order decidedAtUtc,
          .ok [Event.orderAck ⟨order, simulation.acknowledgedAt decidedAtUtc⟩])]) ↔ other = order := by
        simp [eventsIn, acknowledgedOf]
      rw [hone]
      split
      · next hclient =>
        constructor
        · rintro heq
          obtain rfl := Option.some.inj heq
          exact ⟨hclient.symm, Or.inr rfl⟩
        · rintro ⟨hsame, hold | rfl⟩
          · have hother := mem_submittedOf_left hcalls (submitted_of_acknowledged hold)
            rw [List.inj_on_of_nodup_map hwell.clientOrderIds hother hmemAll (hsame.trans hclient)]
          · rfl
      · next hclient =>
        rw [h.acknowledged]
        constructor
        · rintro ⟨hsame, hold⟩
          exact ⟨hsame, Or.inl hold⟩
        · rintro ⟨hsame, hold | rfl⟩
          · exact ⟨hsame, hold⟩
          · exact absurd hsame.symm hclient
    · intro clientOrderId hserved
      obtain ⟨other, hother, hclient, hnone⟩ := h.replayed clientOrderId hserved
      refine ⟨other, by simp [submittedOf_append, hother], hclient, ?_⟩
      have hne : other.orderId ≠ order.orderId := by
        rw [submittedOf_append, List.map_append] at hids
        exact fun heq => List.disjoint_of_nodup_append hids (List.mem_map_of_mem hother)
          (by simp [submittedOf, heq])
      rw [hafter, Dict.get?_set, if_neg hne, hnone]
    · rw [hafter, h.fills]
    · rw [hafter, h.rejections]
  | refused _ _ rejection refusal recent hrefusal =>
    obtain rfl := Except.ok.inj hreply
    have horder : refusal.order = order := by rw [hrefusal]
    have hack : ackFor (simulation.heard calls) order.orderId = none := by
      rw [hackStays, hheard, ackFor_append, hackNone, hreply']
      rfl
    have hrefused : refusalFor (simulation.heard calls) order.orderId = some refusal := by
      have hstays : refusalFor (simulation.heard calls) order.orderId =
          refusalFor (simulation.heard (before ++ [.submit order decidedAtUtc])) order.orderId := by
        rw [hsplit]
        refine refusalFor_stays hmem (by rw [← hsplit]; exact hwell.orderIds) ?_
        rw [hafter]
        exact hpendingNone
      rw [hstays, hheard, refusalFor_append, hrefusalNone, hreply']
      simp [eventsIn, refusalFor, horder]
    obtain ⟨recorded, hrecorded, hfields⟩ : ∃ recorded, response.submitRejection = some recorded ∧
        recorded.toRecordedRejectionFields = rejectionFieldsOf refusal := by
      have hrejection := hresponse.answers.submitRejection
      rw [hack, hrefused] at hrejection
      simpa [Option.map_eq_some_iff] using hrejection
    refine ⟨{ state with
      rejections := state.rejections.set rejection.reason
        ((state.rejections.get? rejection.reason).getD 0 + 1) }, ?_, ?_, ?_, ?_, ?_⟩
    · rw [ReplayVenue.call, ReplayVenue.submit, hadmitted, Ran.chain_ok, hfound, Ran.chain_ok]
      simp only [hrecorded, reject_ok hrefusal horder hfields state]
      rfl
    · intro clientOrderId other
      rw [hheard, hreply', acknowledgedOf_append, h.acknowledged]
      simp [eventsIn, acknowledgedOf]
    · intro clientOrderId hserved
      obtain ⟨other, hother, hclient, hnone⟩ := h.replayed clientOrderId hserved
      exact ⟨other, by simp [submittedOf_append, hother], hclient, by rw [hafter]; exact hnone⟩
    · rw [hafter, h.fills]
      rfl
    · rw [hafter]
      simp only [SimulationState.countRejection, h.rejections]

/-- The trade id of the first leg sorts before that of the second. -/
theorem venueTradeIdFor_le (clientOrderId : String) :
    venueTradeIdFor clientOrderId 0 ≤ venueTradeIdFor clientOrderId 1 := by
  have hchars : ∀ sequence, (venueTradeIdFor clientOrderId sequence).toList =
      ("sim-".toList ++ clientOrderId.toList ++ "-".toList) ++ (toString sequence).toList := by
    intro sequence
    simp [venueTradeIdFor, String.toList_append]
  rw [String.le_iff_toList_le, hchars, hchars]
  exact le_of_lt (List.append_left_lt (by decide))

theorem sequentialFillGap_nonneg (simulation : FillSimulation) : 0 ≤ simulation.sequentialFillGap := by
  have h := simulation.checked
  simp only [FillSimulationFields.postInit, bind_eq_ok, raiseIf_eq_ok, not_lt] at h
  obtain ⟨_, _, _, _, hgap⟩ := h
  exact hgap

/-- The ack prints stand in the order of their instants and trade ids. -/
theorem sorted_crossed {order : Order} {quote : TouchQuote} {fillAtUtc : DateTime}
    {records : List VenueFillRecord} (hcrossed : Crossed simulation order quote fillAtUtc records)
    {recordeds : List RecordedFill} (h : List.Forall₂ (Keeps order) recordeds records) :
    sortBy (fun recorded => toLex (recorded.eventTimeUtc, recorded.venueTradeId)) recordeds =
      recordeds := by
  obtain ⟨touched, walked, rfl, htouched, hwalked⟩ := hcrossed.legs
  cases touched with
  | none =>
    have hlength := h.length_eq
    cases walked with
    | none => rw [List.eq_nil_of_length_eq_zero hlength]; rfl
    | some second =>
      obtain ⟨only, rfl⟩ := List.length_eq_one_iff.mp hlength
      rfl
  | some first =>
    cases walked with
    | none =>
      obtain ⟨only, rfl⟩ := List.length_eq_one_iff.mp h.length_eq
      rfl
    | some second =>
      obtain ⟨hofFirst, htimeFirst⟩ := htouched first rfl
      obtain ⟨hofSecond, htimeSecond⟩ := hwalked second rfl
      simp only [Option.toList_some, List.singleton_append] at h
      cases h with
      | @cons left _ _ _ hleft hmore =>
        cases hmore with
        | @cons right _ _ _ hright hnil =>
          cases hnil
          have hgap := sequentialFillGap_nonneg simulation
          have hle : toLex (left.eventTimeUtc, left.venueTradeId) ≤
              toLex (right.eventTimeUtc, right.venueTradeId) := by
            rw [hleft, hright]
            simp only [recordedFieldsOf, htimeFirst, htimeSecond, hofFirst.tradeId_eq,
              hofSecond.tradeId_eq, Prod.Lex.toLex_le_toLex]
            rcases hgap.eq_or_lt with heq | hlt
            · exact Or.inr ⟨by rw [← heq, add_zero], venueTradeIdFor_le order.clientOrderId⟩
            · exact Or.inl (lt_add_of_pos_right _ hlt)
          rw [sortBy, List.insertionSort_cons, List.insertionSort_cons, List.insertionSort_nil]
          simp [List.orderedInsert, hle]

theorem acknowledgedOf_outcomes (outcomes : List AckOutcome) :
    acknowledgedOf (outcomes.map AckOutcome.event) = [] := by
  rw [acknowledgedOf, List.filterMap_eq_nil_iff]
  intro e he
  obtain ⟨outcome, _, rfl⟩ := List.mem_map.mp he
  cases outcome <;> rfl

/-- What an ack answers once its fills are printed: them, and the recorded rejection of the rest. -/
def ReplayVenue.answerAck (order : Order) (ackRejection : Option RecordedRejection) (fills : List Fill)
    (state : ReplayState) : Ran ReplayState (List AckOutcome) :=
  match ackRejection with
  | none => (.ok (fills.map AckOutcome.printed), state)
  | some rejection =>
    Ran.map (fun refusal => fills.map AckOutcome.printed ++ [AckOutcome.refused refusal])
      (ReplayVenue.reject order rejection state)

/-- An ack. -/
theorem served_resolveAck (hwell : WellFormed simulation calls)
    (hrecording : RecordingOf simulation calls venue) {ack : OrderAckEvent}
    (hcalls : calls = before ++ .resolveAck ack :: rest) (h : Served simulation before state)
    {events : List Event} (hreply : simulation.reply before (.resolveAck ack) = .ok events) :
    ∃ state', venue.call (.resolveAck ack) state = (.ok events, state') ∧
      Served simulation (before ++ [.resolveAck ack]) state' := by
  have hsplit : calls = (before ++ [.resolveAck ack]) ++ rest := by rw [hcalls]; simp
  have hids := hwell.prefix_ids hcalls
  have hheardAck := hwell.acks _ _ _ hcalls
  have hheard := simulation.heard_concat before (.resolveAck ack)
  have hspec := simulation.call_spec (consistent_stateAfter simulation before) (.resolveAck ack)
  have hafter := simulation.stateAfter_concat before (.resolveAck ack)
  have hreply' := hreply
  rw [reply] at hreply
  generalize simulation.call (.resolveAck ack) (simulation.stateAfter before) = run at hspec hafter hreply
  cases hspec with
  | raised _ error recent => cases hreply
  | resolved _ order quote outcome outcomes after hpending hquote hrange houtcome hresolved =>
    obtain rfl := Except.ok.inj hreply
    obtain ⟨hheld, hsubmitted⟩ := pending_submitted hids hpending
    have hsame : ack.order = order := by
      have hid := (consistent_stateAfter simulation before).pendingKey _ _ hpending
      exact List.inj_on_of_nodup_map hids (simulation.mem_submittedOf_of_ack before hheardAck)
        hsubmitted hid.symm
    have hmem : order ∈ submittedOf (before ++ [.resolveAck ack]) := by simp [hsubmitted]
    have hmemAll := mem_submittedOf_left hsplit hmem
    obtain ⟨response, hfound, hresponse⟩ := hrecording order hmemAll
    obtain ⟨hresolvedPending, hrecords⟩ :=
      records_at_ack hwell hcalls hpending hquote hreply' houtcome
    have hacked : (ackFor (simulation.heard calls) order.orderId).isSome := by
      have hstays : ackFor (simulation.heard calls) order.orderId =
          ackFor (simulation.heard before) order.orderId := by
        rw [hcalls]
        exact ackFor_stays hsubmitted (by rw [← hcalls]; exact hwell.orderIds)
      rw [hstays, Option.isSome_iff_ne_none, ne_eq, ackFor_eq_none]
      exact fun hnone => hnone ack hheardAck (by rw [hsame])
    have hrefusal : refusalFor (simulation.heard calls) order.orderId =
        refusalFor (outcomes.map AckOutcome.event) order.orderId := by
      rw [hsplit, refusalFor_stays hmem (by rw [← hsplit]; exact hwell.orderIds) hresolvedPending, hheard,
        refusalFor_append, hreply',
        simulation.refusalFor_of_pending before hids (Or.inr (by simp [hheld]))]
      simp [eventsIn]
    have hserved := filter_phase hresponse.fills .ack
    rw [hrecords] at hserved
    have hacknowledged : state.acknowledged.get? order.clientOrderId = some order :=
      (h.acknowledged _ _).mpr ⟨rfl, mem_acknowledgedOf.mpr ⟨ack, hheardAck, hsame⟩⟩
    have hfresh : order.clientOrderId ∉ state.replayed := by
      intro hmemReplayed
      obtain ⟨other, hother, hclient, hnone⟩ := h.replayed _ hmemReplayed
      obtain rfl := List.inj_on_of_nodup_map hwell.clientOrderIds
        (mem_submittedOf_left hcalls hother) hmemAll hclient
      rw [hheld] at hnone
      cases hnone
    have hstart : venue.call (.resolveAck ack) state = Ran.map (fun outcomes => outcomes.map AckOutcome.event)
        (Ran.chain (ReplayVenue.printAll order (response.fillsInPhase .ack)
          { state with replayed := order.clientOrderId :: state.replayed }) fun fills state =>
          ReplayVenue.answerAck order response.ackRejection fills state) := by
      rw [ReplayVenue.call, ReplayVenue.resolveAck, hsame, if_neg (by simp [Dict.mem_keys_iff, hacknowledged]),
        if_neg hfresh, hfound]
      rfl
    have hdone : ∀ fills rejections, fills = after.fills → rejections = after.rejections →
        Served simulation (before ++ [.resolveAck ack])
          ⟨state.acknowledged, order.clientOrderId :: state.replayed, fills, rejections⟩ := by
      rintro _ _ rfl rfl
      refine ⟨fun clientOrderId other => ?_, fun clientOrderId hmemReplayed => ?_, by rw [hafter],
        by rw [hafter]⟩
      · rw [hheard, hreply', acknowledgedOf_append, h.acknowledged]
        simp [eventsIn, acknowledgedOf_outcomes]
      · rcases List.mem_cons.mp hmemReplayed with rfl | hold
        · exact ⟨order, hmem, rfl, hresolvedPending⟩
        · obtain ⟨other, hother, hclient, hnone⟩ := h.replayed clientOrderId hold
          refine ⟨other, by simp [hother], hclient, ?_⟩
          rw [hafter, hresolved.pending_eq, Dict.get?_erase, hnone]
          split <;> rfl
    have hrejection := hresponse.answers.ackRejection
    rw [if_pos hacked, hrefusal] at hrejection
    cases hresolved with
    | crossed records hcrossed =>
      have hall : records.filter (fun record => phaseOf record.isPassive = .ack) = records := by
        refine List.filter_eq_self.mpr fun record hrecord => ?_
        simp [hcrossed.not_passive record hrecord, phaseOf]
      simp only [Resolution.records, hall] at hserved hrecords
      have hof : ∀ record ∈ records, ∃ isPassive sequence,
          PrintOf simulation order isPassive sequence record := fun record hrecord => by
        rw [← hrecords] at hrecord
        exact printOf_of_mem hwell hmemAll (List.mem_of_mem_filter hrecord)
      have hnoRefusal : refusalFor ((records.map (AckOutcome.printed ·.fill)).map AckOutcome.event)
          order.orderId = none := refusalFor_eq_none.mpr (by simp [AckOutcome.event])
      rw [hnoRefusal, Option.map_none, Option.map_eq_none_iff] at hrejection
      refine ⟨_, ?_, hdone (state.fills ++ records) state.rejections ?_ ?_⟩
      · rw [hstart, RecordedResponse.fillsInPhase, sorted_crossed hcrossed hserved,
          printAll_ok hserved hof, Ran.chain_ok, hrejection]
        simp [ReplayVenue.answerAck]
      · rw [h.fills]
      · rw [h.rejections]
    | rests limit hunmarketable =>
      simp only [Resolution.records, List.filter_nil, List.forall₂_nil_right_iff] at hserved
      rw [List.map_nil, refusalFor_eq_none.mpr (by simp), Option.map_none,
        Option.map_eq_none_iff] at hrejection
      refine ⟨_, ?_, hdone state.fills state.rejections ?_ ?_⟩
      · rw [hstart, RecordedResponse.fillsInPhase, hserved, hrejection]
        rfl
      · rw [h.fills]
      · rw [h.rejections]
    | refused rejection refusal hfields =>
      have horder : refusal.order = order := by rw [hfields]
      simp only [Resolution.records, List.filter_nil, List.forall₂_nil_right_iff] at hserved
      obtain ⟨recorded, hrecorded, hrecordedFields⟩ : ∃ recorded, response.ackRejection = some recorded ∧
          recorded.toRecordedRejectionFields = rejectionFieldsOf refusal := by
        have hone : refusalFor [Event.reject refusal] order.orderId = some refusal := by
          simp [refusalFor, horder]
        simp only [List.map_cons, List.map_nil, AckOutcome.event, hone, Option.map_some,
          Option.map_eq_some_iff] at hrejection
        exact hrejection
      refine ⟨_, ?_, hdone state.fills (state.rejections.set rejection.reason
        ((state.rejections.get? rejection.reason).getD 0 + 1)) ?_ ?_⟩
      · rw [hstart, RecordedResponse.fillsInPhase, hserved, hrecorded]
        simp only [sortBy, List.insertionSort_nil, ReplayVenue.printAll, Ran.chain_ok,
          ReplayVenue.answerAck, reject_ok hfields horder hrecordedFields]
        rfl
      · rw [h.fills]
        rfl
      · simp only [SimulationState.countRejection, h.rejections]

/-- Replaying the rest of a session. -/
theorem replayCalls_ok (hwell : WellFormed simulation calls) (hclear : Unambiguous simulation calls)
    (hrecording : RecordingOf simulation calls venue) : ∀ {rest before : List VenueCall}
    {state : ReplayState}, calls = before ++ rest → Served simulation before state →
    ∃ state', venue.replayCalls rest state = .ok (simulation.repliesFrom before rest, state') ∧
      Served simulation calls state'
  | [], before, state, hcalls, h => by
    rw [List.append_nil] at hcalls
    subst hcalls
    exact ⟨state, rfl, h⟩
  | c :: rest, before, state, hcalls, h => by
    obtain ⟨events, hreply⟩ := hwell.returning before c rest hcalls
    obtain ⟨middle, hone, hserved⟩ : ∃ state', venue.call c state = (.ok events, state') ∧
        Served simulation (before ++ [c]) state' := by
      cases c with
      | observe bar => exact served_observe hwell hclear hrecording hcalls h hreply
      | submit order decidedAtUtc => exact served_submit hwell hrecording hcalls h hreply
      | resolveAck ack => exact served_resolveAck hwell hrecording hcalls h hreply
    rw [List.append_cons] at hcalls
    obtain ⟨state', hmore, hall⟩ := replayCalls_ok hwell hclear hrecording hcalls hserved
    refine ⟨state', ?_, hall⟩
    simp only [ReplayVenue.replayCalls, hone, hmore, repliesFrom, eventsIn, hreply,
      List.flatMap_cons, List.flatMap_nil, List.append_nil]
    rfl

end Step

/-! ### Record, then replay -/

/-- Recording a session and replaying the recording with the same calls returns the same events, call by
    call, and the same report. -/
def ReplaysItself (simulation : FillSimulation) (calls : List VenueCall) : Prop :=
  ∃ events report recording, simulation.recordSession calls = .ok (events, report, recording) ∧
    ReplayVenue.replaySession ⟨recording⟩ calls = .ok (events, report)

/-- The ack a call resolves. -/
def ackOf : VenueCall → Option OrderAckEvent
  | .resolveAck ack => some ack
  | _ => none

/-- The bar a call observes. -/
def barOf : VenueCall → Option Bar
  | .observe bar => some bar
  | _ => none

/-- It is enough that client ids ascend with order ids, and that no two bars of a symbol close at one
    instant. -/
theorem unambiguous_of_ascending {simulation : FillSimulation} {calls : List VenueCall}
    (hids : ((submittedOf calls).map (·.orderId)).Nodup)
    (hascending : ∀ order ∈ submittedOf calls, ∀ other ∈ submittedOf calls,
      order.orderId < other.orderId → order.clientOrderId < other.clientOrderId)
    (hcloses : ((calls.filterMap barOf).map
      (fun bar => (bar.instrument.symbol, bar.closeTimeUtc))).Nodup) :
    Unambiguous simulation calls where
  aligned := by
    rintro before bar rest hcalls id resting id' resting' hresting _ hresting' _ hlt
    have hids' := hids
    rw [hcalls, submittedOf_append, List.map_append] at hids'
    obtain ⟨rfl, hmem⟩ := resting_submitted hids'.of_append_left hresting
    obtain ⟨rfl, hmem'⟩ := resting_submitted hids'.of_append_left hresting'
    exact hascending _ (mem_submittedOf_left hcalls hmem) _ (mem_submittedOf_left hcalls hmem') hlt
  alone := by
    rintro before bar rest rfl id resting _ _
    have hone : barOf (.observe bar) = some bar := rfl
    rw [List.filterMap_append, List.map_append, List.filterMap_cons_some hone, List.map_cons,
      List.nodup_append, List.nodup_cons] at hcloses
    obtain ⟨_, ⟨hrest, _⟩, hbefore⟩ := hcloses
    constructor
    · rintro other hother ⟨hsymbol, hclose⟩
      refine hrest (List.mem_map.mpr ⟨other, List.mem_filterMap.mpr ⟨_, hother, rfl⟩, ?_⟩)
      rw [hsymbol, hclose]
    · rintro earlier decidedAtUtc between rfl other hother ⟨hsymbol, hclose⟩
      refine hbefore (other.instrument.symbol, other.closeTimeUtc) (List.mem_map.mpr
        ⟨other, List.mem_filterMap.mpr ⟨.observe other, by simp [hother], rfl⟩, rfl⟩) _
        List.mem_cons_self ?_
      rw [hsymbol, hclose]

/-- A session can be checked position by position. -/
theorem wellFormed_of_positions {simulation : FillSimulation} {calls : List VenueCall}
    (hids : ((submittedOf calls).map (·.orderId)).Nodup)
    (hclients : ((submittedOf calls).map (·.clientOrderId)).Nodup)
    (hreturns : ∀ i (h : i < calls.length), (simulation.reply (calls.take i) calls[i]).isOk)
    (hacks : ∀ i (h : i < calls.length), ∀ ack ∈ ackOf calls[i],
      .orderAck ack ∈ simulation.heard (calls.take i)) : WellFormed simulation calls where
  orderIds := hids
  clientOrderIds := hclients
  returning := by
    rintro before c rest rfl
    have h := hreturns before.length (by simp)
    rw [List.take_left, List.getElem_append_right le_rfl] at h
    simp only [Nat.sub_self, List.getElem_cons_zero] at h
    cases hreply : simulation.reply before c with
    | error e => simp [hreply, Except.isOk, Except.toBool] at h
    | ok events => exact ⟨events, rfl⟩
  acks := by
    rintro before ack rest rfl
    have h := hacks before.length (by simp)
    rw [List.take_left, List.getElem_append_right le_rfl] at h
    simp only [Nat.sub_self, List.getElem_cons_zero] at h
    exact h ack rfl

theorem record_replay (simulation : FillSimulation) (calls : List VenueCall)
    (hwell : WellFormed simulation calls) (hclear : Unambiguous simulation calls) :
    ReplaysItself simulation calls := by
  obtain ⟨recorder, hrun, hcaptured⟩ := captured_calls hwell.returning hwell.orderIds
    hwell.clientOrderIds (List.nil_append calls).symm (captured_initial simulation)
  obtain ⟨recording, hbuild, hrecording⟩ := build_ok hwell.orderIds hwell.clientOrderIds hcaptured
  obtain ⟨state, hreplay, hserved⟩ : ∃ state', ReplayVenue.replayCalls ⟨recording⟩ calls
      ReplayState.initial = .ok (simulation.repliesFrom [] calls, state') ∧
      Served simulation calls state' :=
    replayCalls_ok hwell hclear hrecording (List.nil_append calls).symm (served_initial simulation)
  refine ⟨simulation.repliesFrom [] calls, (simulation.stateAfter calls).report, recording, ?_, ?_⟩
  · simp only [recordSession, bind_eq_ok]
    exact ⟨_, hrun, recording, hbuild, rfl⟩
  · have hreport : state.report = (simulation.stateAfter calls).report := by
      rw [ReplayState.report, SimulationState.report, hserved.fills, hserved.rejections]
    simp only [ReplayVenue.replaySession, bind_eq_ok]
    exact ⟨_, hreplay, by rw [hreport]; rfl⟩

/-- Two orders submitted and acknowledged on one bar, and the next bar. -/
def pairSession (one other : Order) : List VenueCall :=
  [.observe (sampleBar 10 20), .submit one 10, .submit other 10, .resolveAck ⟨one, 10⟩,
    .resolveAck ⟨other, 10⟩, .observe (sampleBar 20 10)]

theorem pairSecond_checked : (sampleOrderFields 2 "b" 1 (some 104)).postInit = .ok () := by
  with_unfolding_all decide

theorem record_replay_pair :
    ReplaysItself sample (pairSession ⟨sampleOrderFields 1 "a" 1 (some 104), by decide +kernel⟩
      ⟨sampleOrderFields 2 "b" 1 (some 104), pairSecond_checked⟩) :=
  record_replay _ _
    (wellFormed_of_positions (by decide) (by decide) (by decide +kernel) (by decide +kernel))
    (unambiguous_of_ascending (by decide) (by decide) (by decide +kernel))

/-- One bar pays two orders whose client ids stand the other way round than their order ids: the session
    reports them by order id, its replay by client id. -/
theorem not_replaysItself_of_crossed_ids :
    ¬∀ (simulation : FillSimulation) (calls : List VenueCall), WellFormed simulation calls →
      ReplaysItself simulation calls := by
  intro hall
  let calls := pairSession ⟨sampleOrderFields 1 "b" 1 (some 104), by decide +kernel⟩
    ⟨sampleOrderFields 2 "a" 1 (some 104), by decide +kernel⟩
  obtain ⟨events, report, recording, hrecord, hreplay⟩ := hall sample calls
    (wellFormed_of_positions (by decide) (by decide) (by decide +kernel) (by decide +kernel))
  have hdiffer : ((sample.recordSession calls).toOption.bind fun recorded =>
      (ReplayVenue.replaySession ⟨recorded.2.2⟩ calls).toOption.map (·.1)) ≠
      (sample.recordSession calls).toOption.map (·.1) := by decide +kernel
  rw [hrecord] at hdiffer
  simp only [Except.toOption, Option.bind_some, Option.map_some] at hdiffer
  rw [hreplay] at hdiffer
  exact hdiffer rfl

end FinanceKing.Backtest
