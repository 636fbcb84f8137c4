import FinanceKing.Backtest.Venue.OrderLedger

/-! The events a session's calls return: which call each comes from, which orders they acknowledge, and
    what each order has heard. An order hears one answer to its submission and, if that was an ack, at
    most one refusal after it. -/

namespace FinanceKing.Backtest

open Lib

namespace FillSimulation

variable {self : FillSimulation} {before rest : List VenueCall} {c : VenueCall} {events : List Event}

/-- The events of a session so far. -/
def heard (self : FillSimulation) (calls : List VenueCall) : List Event :=
  eventsIn (self.transcript calls)

theorem heard_concat (self : FillSimulation) (calls : List VenueCall) (c : VenueCall) :
    self.heard (calls ++ [c]) = self.heard calls ++ eventsIn [(c, self.reply calls c)] := by
  rw [heard, transcript_concat, eventsIn_append]
  rfl

theorem mem_reply {e : Event} (h : e ∈ eventsIn [(c, self.reply before c)]) :
    ∃ events, self.reply before c = .ok events ∧ e ∈ events := by
  cases hreply : self.reply before c with
  | error error => simp [eventsIn, hreply] at h
  | ok events => exact ⟨events, rfl, by simpa [eventsIn, hreply] using h⟩

/-! ### The call an event comes from -/

/-- An ack answers the submission of its order. -/
theorem of_mem_orderAck (hreply : self.reply before c = .ok events) {ack : OrderAckEvent}
    (hack : .orderAck ack ∈ events) :
    ∃ decidedAtUtc, c = .submit ack.order decidedAtUtc ∧
      ack = ⟨ack.order, self.acknowledgedAt decidedAtUtc⟩ := by
  have hspec := self.call_spec (consistent_stateAfter self before) c
  rw [reply] at hreply
  generalize self.call c (self.stateAfter before) = run at hspec hreply
  cases hspec with
  | raised c error recent => cases hreply
  | observed bar quote resting hquote hresting =>
    obtain rfl := Except.ok.inj hreply
    simp at hack
  | refused order decidedAtUtc rejection refusal recent hrefusal =>
    obtain rfl := Except.ok.inj hreply
    simp at hack
  | acknowledged order decidedAtUtc quote recent hquote =>
    obtain rfl := Except.ok.inj hreply
    obtain rfl := Event.orderAck.inj (List.mem_singleton.mp hack)
    exact ⟨decidedAtUtc, rfl, rfl⟩
  | resolved ack' order quote outcome outcomes after hpending hquote hrange houtcome hresolved =>
    obtain rfl := Except.ok.inj hreply
    obtain ⟨outcome, _, hsame⟩ := List.mem_map.mp hack
    cases outcome <;> cases hsame

/-- A refusal answers the submission of its order, or the ack of an order that was pending. -/
theorem of_mem_reject (hreply : self.reply before c = .ok events) {refusal : RejectEvent}
    (hrefusal : .reject refusal ∈ events) :
    (∃ decidedAtUtc, c = .submit refusal.order decidedAtUtc) ∨
      ∃ ack, c = .resolveAck ack ∧
        (self.stateAfter before).pending.get? ack.order.orderId = some refusal.order := by
  have hspec := self.call_spec (consistent_stateAfter self before) c
  rw [reply] at hreply
  generalize self.call c (self.stateAfter before) = run at hspec hreply
  cases hspec with
  | raised c error recent => cases hreply
  | observed bar quote resting hquote hresting =>
    obtain rfl := Except.ok.inj hreply
    simp at hrefusal
  | refused order decidedAtUtc rejection refusal' recent hfields =>
    obtain rfl := Except.ok.inj hreply
    obtain rfl := Event.reject.inj (List.mem_singleton.mp hrefusal)
    exact Or.inl ⟨decidedAtUtc, by rw [hfields]⟩
  | acknowledged order decidedAtUtc quote recent hquote =>
    obtain rfl := Except.ok.inj hreply
    simp at hrefusal
  | resolved ack order quote outcome outcomes after hpending hquote hrange houtcome hresolved =>
    obtain rfl := Except.ok.inj hreply
    right
    refine ⟨ack, rfl, ?_⟩
    cases hresolved with
    | crossed records hcrossed => simp [AckOutcome.event] at hrefusal
    | rests limit hunmarketable => simp at hrefusal
    | refused rejection refusal' hfields =>
      simp only [List.map_cons, List.map_nil, AckOutcome.event, List.mem_singleton] at hrefusal
      rw [Event.reject.inj hrefusal, hfields]
      exact hpending

/-- Resolving an ack whose order is not pending returns nothing. -/
theorem reply_resolveAck_of_none {ack : OrderAckEvent}
    (hpending : (self.stateAfter before).pending.get? ack.order.orderId = none) :
    ∃ error, self.reply before (.resolveAck ack) = .error error := by
  obtain ⟨error, hrun⟩ := self.resolveAck_of_none ack hpending
  exact ⟨error, by rw [reply, call, hrun]; rfl⟩

/-! ### What an order has heard -/

/-- The orders that events acknowledge. -/
def acknowledgedOf (events : List Event) : List Order :=
  events.filterMap (fun | .orderAck ack => some ack.order | _ => none)

/-- The ack of an order among events. -/
def ackFor (events : List Event) (id : Uuid) : Option OrderAckEvent :=
  events.findSome? (fun
    | .orderAck ack => if ack.order.orderId = id then some ack else none
    | _ => none)

/-- The refusal of an order among events. -/
def refusalFor (events : List Event) (id : Uuid) : Option RejectEvent :=
  events.findSome? (fun
    | .reject refusal => if refusal.order.orderId = id then some refusal else none
    | _ => none)

variable {left right : List Event} {id : Uuid}

theorem mem_acknowledgedOf {order : Order} :
    order ∈ acknowledgedOf events ↔ ∃ ack, .orderAck ack ∈ events ∧ ack.order = order := by
  rw [acknowledgedOf, List.mem_filterMap]
  constructor
  · rintro ⟨e, he, hsome⟩
    cases e <;> simp at hsome
    exact ⟨_, he, hsome⟩
  · rintro ⟨ack, hack, rfl⟩
    exact ⟨.orderAck ack, hack, rfl⟩

theorem ackFor_append : ackFor (left ++ right) id = (ackFor left id).or (ackFor right id) :=
  List.findSome?_append

theorem refusalFor_append :
    refusalFor (left ++ right) id = (refusalFor left id).or (refusalFor right id) :=
  List.findSome?_append

theorem ackFor_eq_none : ackFor events id = none ↔ ∀ ack, .orderAck ack ∈ events → ack.order.orderId ≠ id := by
  rw [ackFor, List.findSome?_eq_none_iff]
  constructor
  · intro h ack hack
    simpa using h _ hack
  · intro h e he
    cases e <;> simp
    exact h _ he

theorem refusalFor_eq_none :
    refusalFor events id = none ↔ ∀ refusal, .reject refusal ∈ events → refusal.order.orderId ≠ id := by
  rw [refusalFor, List.findSome?_eq_none_iff]
  constructor
  · intro h refusal hrefusal
    simpa using h _ hrefusal
  · intro h e he
    cases e <;> simp
    exact h _ he

theorem of_ackFor {ack : OrderAckEvent} (h : ackFor events id = some ack) :
    .orderAck ack ∈ events ∧ ack.order.orderId = id := by
  obtain ⟨e, he, hsome⟩ := List.exists_of_findSome?_eq_some h
  cases e <;> simp at hsome
  obtain ⟨hid, rfl⟩ := hsome
  exact ⟨he, hid⟩

/-- Only submitted orders are acknowledged. -/
theorem mem_submittedOf_of_ack (self : FillSimulation) (calls : List VenueCall) {ack : OrderAckEvent}
    (h : .orderAck ack ∈ self.heard calls) : ack.order ∈ submittedOf calls := by
  induction calls using List.reverseRecOn with
  | nil => cases h
  | append_singleton calls c ih =>
    rw [heard_concat, List.mem_append] at h
    rw [submittedOf_append, List.mem_append]
    rcases h with h | h
    · exact Or.inl (ih h)
    · obtain ⟨events, hreply, hack⟩ := mem_reply h
      obtain ⟨decidedAtUtc, rfl, _⟩ := of_mem_orderAck hreply hack
      exact Or.inr (by simp [submittedOf])

/-- An order the state knows of has been acknowledged. -/
theorem exists_ack (self : FillSimulation) (calls : List VenueCall)
    (hknown : viewOf (self.stateAfter calls) id ≠ OrderView.unseen) :
    ∃ ack, .orderAck ack ∈ self.heard calls ∧ ack.order.orderId = id := by
  induction calls using List.reverseRecOn with
  | nil => exact absurd rfl hknown
  | append_singleton calls c ih =>
    rw [heard_concat]
    by_cases hbefore : viewOf (self.stateAfter calls) id = OrderView.unseen
    · -- only an acknowledgement moves the view of an order not seen before
      rw [stateAfter_concat, self.viewOf_call (consistent_stateAfter self calls), hbefore] at hknown
      revert hknown
      rw [reply, feedOf.eq_def]
      split
      · exact fun hknown => absurd rfl hknown
      · next order decidedAtUtc ack hreply =>
        split
        · next hid =>
          intro _
          have hmem : Event.orderAck ack ∈ [Event.orderAck ack] := List.mem_singleton_self _
          have hreturned : self.reply calls (.submit order decidedAtUtc) = .ok [.orderAck ack] := hreply
          obtain ⟨_, hsubmit, _⟩ := of_mem_orderAck hreturned hmem
          refine ⟨ack, List.mem_append_right _ (by simp [eventsIn, hreply]), ?_⟩
          rw [← hid, (VenueCall.submit.inj hsubmit).1]
        · exact fun hknown => absurd rfl hknown
      · split
        · have hnone : (self.stateAfter calls).pending.get? id = none :=
            congrArg OrderView.pending hbefore
          rw [hnone]
          exact fun hknown => absurd rfl hknown
        · exact fun hknown => absurd rfl hknown
      · exact fun hknown => absurd rfl hknown
    · obtain ⟨ack, hack, hid⟩ := ih hbefore
      exact ⟨ack, List.mem_append_left _ hack, hid⟩

/-- A pending order was submitted. -/
theorem mem_ids_of_pending (self : FillSimulation) (calls : List VenueCall)
    (hpending : (self.stateAfter calls).pending.get? id ≠ none) :
    id ∈ (submittedOf calls).map (·.orderId) := by
  have hknown : viewOf (self.stateAfter calls) id ≠ OrderView.unseen :=
    fun hunseen => hpending (congrArg OrderView.pending hunseen)
  obtain ⟨ack, hack, rfl⟩ := self.exists_ack calls hknown
  exact List.mem_map_of_mem (self.mem_submittedOf_of_ack calls hack)

/-- What a bar pays is a passive print of an order the session submitted. -/
theorem of_mem_paidBy {bar : Bar} {record : VenueFillRecord}
    (h : record ∈ self.paidBy bar (self.stateAfter before)) :
    record.isPassive = true ∧ ∃ order ∈ submittedOf before, record.fill.orderId = order.orderId := by
  obtain ⟨held, resting, hresting, hpaid⟩ := mem_paidBy h
  obtain ⟨hof, _⟩ := paid_printOf hpaid
  have hkey := (consistent_stateAfter self before).restingKey _ _ hresting
  have hknown : viewOf (self.stateAfter before) held ≠ OrderView.unseen := fun hunseen => by
    have hnone : (self.stateAfter before).resting.get? held = none :=
      congrArg OrderView.resting hunseen
    rw [hresting] at hnone
    cases hnone
  obtain ⟨ack, hack, hid⟩ := self.exists_ack before hknown
  exact ⟨hof.passive, ack.order, self.mem_submittedOf_of_ack before hack, by
    rw [hof.orderId_eq, hkey, hid]⟩

/-- A pending order is one of the submitted ones, held under its own id. -/
theorem pending_submitted (hids : ((submittedOf before).map (·.orderId)).Nodup) {order : Order}
    {id : Uuid} (hpending : (self.stateAfter before).pending.get? id = some order) :
    (self.stateAfter before).pending.get? order.orderId = some order ∧ order ∈ submittedOf before := by
  rw [← (consistent_stateAfter self before).pendingKey _ _ hpending] at hpending
  have hview : (viewOf (self.stateAfter before) order.orderId).pending = some order := hpending
  obtain ⟨other, hother, _, hledger⟩ := (ledgers_stateAfter self before hids).exists_order
    fun hunseen => by
      rw [hunseen] at hview
      cases hview
  obtain ⟨rfl, _, _⟩ := hledger.of_pending hview
  exact ⟨hpending, hother⟩

/-- A resting order is one of the submitted ones, held under its own id. -/
theorem resting_submitted (hids : ((submittedOf before).map (·.orderId)).Nodup)
    {resting : RestingOrder} (hresting : (self.stateAfter before).resting.get? id = some resting) :
    resting.order.orderId = id ∧ resting.order ∈ submittedOf before := by
  have hkey := (consistent_stateAfter self before).restingKey _ _ hresting
  have hview : (viewOf (self.stateAfter before) id).resting = some resting := hresting
  obtain ⟨other, hother, _, hledger⟩ := (ledgers_stateAfter self before hids).exists_order
    fun hunseen => by
      rw [hunseen] at hview
      cases hview
  obtain ⟨_, rfl, _⟩ := hledger.of_resting hview
  exact ⟨hkey, hother⟩

/-- A resolution takes its order out of the pending ones, whatever it gives. -/
theorem Resolved.pending_eq {order : Order} {quote : TouchQuote} {fillAtUtc : DateTime}
    {state after : SimulationState} {outcome : Resolution} {outcomes : List AckOutcome}
    (h : Resolved self order quote fillAtUtc state outcome (.ok outcomes, after)) :
    after.pending = state.pending := by
  cases h <;> rfl

/-- An order not submitted yet, or still pending, has not been refused. -/
theorem refusalFor_of_pending (self : FillSimulation) (calls : List VenueCall)
    (hids : ((submittedOf calls).map (·.orderId)).Nodup)
    (h : id ∉ (submittedOf calls).map (·.orderId) ∨ (self.stateAfter calls).pending.get? id ≠ none) :
    refusalFor (self.heard calls) id = none := by
  induction calls using List.reverseRecOn with
  | nil => rfl
  | append_singleton calls c ih =>
    rw [submittedOf_append, List.map_append] at hids h
    replace ih := ih hids.of_append_left
    have hsubmitted : (self.stateAfter calls).pending.get? id ≠ none →
        id ∈ (submittedOf calls).map (·.orderId) := self.mem_ids_of_pending calls
    have hspec := self.call_spec (consistent_stateAfter self calls) c
    rw [heard_concat, refusalFor_append, Option.or_eq_none_iff]
    rw [List.mem_append, not_or, stateAfter_concat] at h
    rw [reply]
    generalize self.call c (self.stateAfter calls) = run at hspec h
    cases hspec with
    | raised c error recent => exact ⟨ih (h.imp_left And.left), rfl⟩
    | observed bar quote resting hquote hresting =>
      exact ⟨ih (h.imp_left And.left), refusalFor_eq_none.mpr (by simp [eventsIn])⟩
    | refused order decidedAtUtc rejection refusal recent hrefusal =>
      refine ⟨ih (h.imp_left And.left), refusalFor_eq_none.mpr fun other hother hid => ?_⟩
      simp only [eventsIn, List.flatMap_cons, List.flatMap_nil, List.append_nil,
        List.mem_singleton, Event.reject.injEq] at hother
      have hsame : id ∈ (submittedOf [.submit order decidedAtUtc]).map (·.orderId) := by
        simp [submittedOf, ← hid, hother, hrefusal]
      rcases h with h | h
      · exact h.2 hsame
      · exact List.disjoint_of_nodup_append hids (hsubmitted h) hsame
    | acknowledged order decidedAtUtc quote recent hquote =>
      refine ⟨ih ?_, refusalFor_eq_none.mpr (by simp [eventsIn])⟩
      by_cases hid : order.orderId = id
      · exact Or.inl fun hmem => List.disjoint_of_nodup_append hids hmem (by simp [submittedOf, hid])
      · rw [Dict.get?_set, if_neg (Ne.symm hid)] at h
        exact h.imp_left And.left
    | resolved ack order quote outcome outcomes after hpending hquote hrange houtcome hresolved =>
      have hid := (consistent_stateAfter self calls).pendingKey _ _ hpending
      rw [hresolved.pending_eq, Dict.get?_erase] at h
      have hother : id ≠ ack.order.orderId := by
        rintro rfl
        rcases h with h | h
        · exact h.1 (hsubmitted (by simp [hpending]))
        · simp at h
      rw [if_neg hother] at h
      refine ⟨ih (h.imp_left And.left), refusalFor_eq_none.mpr fun refusal hrefusal hsame => ?_⟩
      cases hresolved with
      | crossed records hcrossed => simp [eventsIn, AckOutcome.event] at hrefusal
      | rests limit hunmarketable => simp [eventsIn] at hrefusal
      | refused rejection refusal' hfields =>
        simp only [eventsIn, List.flatMap_cons, List.flatMap_nil, List.append_nil, List.map_cons,
          List.map_nil, AckOutcome.event, List.mem_singleton, Event.reject.injEq] at hrefusal
        rw [hrefusal, hfields] at hsame
        exact hother (hsame.symm.trans hid)

/-- Before an order id is submitted nothing is known of it. -/
theorem unheard_of_new (self : FillSimulation) {order : Order} {decidedAtUtc : DateTime}
    (hids : ((submittedOf (before ++ [.submit order decidedAtUtc])).map (·.orderId)).Nodup) :
    ackFor (self.heard before) order.orderId = none ∧
      refusalFor (self.heard before) order.orderId = none ∧
      (self.stateAfter before).pending.get? order.orderId = none := by
  rw [submittedOf_append, List.map_append] at hids
  have hnew : order.orderId ∉ (submittedOf before).map (·.orderId) := fun hmem =>
    List.disjoint_of_nodup_append hids hmem (by simp [submittedOf])
  refine ⟨ackFor_eq_none.mpr fun ack hack hid => ?_, ?_, ?_⟩
  · exact hnew (hid ▸ List.mem_map_of_mem (self.mem_submittedOf_of_ack before hack))
  · exact self.refusalFor_of_pending before hids.of_append_left (Or.inl hnew)
  · by_contra hpending
    exact hnew (self.mem_ids_of_pending before hpending)

section Later

variable {order : Order} (horder : order ∈ submittedOf before)
  (hids : ((submittedOf (before ++ rest)).map (·.orderId)).Nodup)
include horder hids

theorem not_submitted_again {other : Order} {decidedAtUtc : DateTime} {between after : List VenueCall}
    (hrest : rest = between ++ .submit other decidedAtUtc :: after) : other.orderId ≠ order.orderId := by
  intro hid
  rw [submittedOf_append, List.map_append] at hids
  exact List.disjoint_of_nodup_append hids (List.mem_map_of_mem horder)
    (by simp [hrest, submittedOf, hid])

/-- A submitted order's ack is the one it has by then. -/
theorem ackFor_stays :
    ackFor (self.heard (before ++ rest)) order.orderId = ackFor (self.heard before) order.orderId := by
  induction rest using List.reverseRecOn with
  | nil => rw [List.append_nil]
  | append_singleton rest c ih =>
    have hnew := fun other d (hc : c = VenueCall.submit other d) =>
      not_submitted_again horder hids (congrArg (fun c => rest ++ c :: []) hc)
    rw [← List.append_assoc, submittedOf_append, List.map_append] at hids
    rw [← List.append_assoc, heard_concat, ackFor_append, ih hids.of_append_left, Option.or_eq_left_of_none]
    rw [ackFor_eq_none]
    intro ack hack hid
    obtain ⟨events, hreply, hack⟩ := mem_reply hack
    obtain ⟨d, hc, _⟩ := of_mem_orderAck hreply hack
    exact hnew _ d hc hid

/-- Once a submitted order is not pending, the refusal it has had by then is the only one. -/
theorem refusalFor_stays (hpending : (self.stateAfter before).pending.get? order.orderId = none) :
    refusalFor (self.heard (before ++ rest)) order.orderId =
      refusalFor (self.heard before) order.orderId := by
  induction rest using List.reverseRecOn with
  | nil => rw [List.append_nil]
  | append_singleton rest c ih =>
    have hnew := fun other d (hc : c = VenueCall.submit other d) =>
      not_submitted_again horder hids (congrArg (fun c => rest ++ c :: []) hc)
    rw [← List.append_assoc, submittedOf_append, List.map_append] at hids
    have hnone : (viewOf (self.stateAfter (before ++ rest)) order.orderId).pending = none := by
      refine viewOf_stays (fun view => view.pending = none) horder hids.of_append_left ?_ ?_ hpending
      · exact fun _ _ h => h
      · intro view quote fillAtUtc h
        simp [OrderView.step, h]
    rw [← List.append_assoc, heard_concat, refusalFor_append, ih hids.of_append_left,
      Option.or_eq_left_of_none]
    rw [refusalFor_eq_none]
    intro refusal hrefusal hid
    obtain ⟨events, hreply, hrefusal⟩ := mem_reply hrefusal
    rcases of_mem_reject hreply hrefusal with ⟨d, hc⟩ | ⟨ack, rfl, hheld⟩
    · exact hnew _ d hc hid
    · have hkey := (consistent_stateAfter self (before ++ rest)).pendingKey _ _ hheld
      rw [← hkey, hid] at hheld
      exact absurd (hheld.symm.trans hnone) (by simp)

end Later

/-- What a bar that returns does. -/
theorem of_reply_observe {bar : Bar} (hreply : self.reply before (.observe bar) = .ok events) :
    events = (self.paidBy bar (self.stateAfter before)).map (Event.fill ·.fill) ∧
      (self.stateAfter (before ++ [.observe bar])).fills =
        (self.stateAfter before).fills ++ self.paidBy bar (self.stateAfter before) ∧
      (self.stateAfter (before ++ [.observe bar])).pending = (self.stateAfter before).pending ∧
      (self.stateAfter (before ++ [.observe bar])).rejections = (self.stateAfter before).rejections := by
  have hspec := self.call_spec (consistent_stateAfter self before) (.observe bar)
  rw [stateAfter_concat]
  rw [reply] at hreply
  generalize self.call (.observe bar) (self.stateAfter before) = run at hspec hreply
  cases hspec with
  | raised _ error recent => cases hreply
  | observed _ quote resting hquote hresting =>
    exact ⟨(Except.ok.inj hreply).symm, rfl, rfl, rfl⟩

/-! ### Where a print comes from -/

theorem Crossed.not_passive {order : Order} {quote : TouchQuote} {fillAtUtc : DateTime}
    {records : List VenueFillRecord} (h : Crossed self order quote fillAtUtc records) :
    ∀ record ∈ records, record.isPassive = false := by
  obtain ⟨touched, walked, rfl, htouched, hwalked⟩ := h.legs
  intro record hrecord
  rcases List.mem_append.mp hrecord with hrecord | hrecord
  · exact (htouched record (by simpa using hrecord)).1.passive
  · exact (hwalked record (by simpa using hrecord)).1.passive

/-- What a session goes on to print: at acks, prints that are not passive; at a bar, what it pays. -/
theorem fills_append (self : FillSimulation) (before rest : List VenueCall) :
    ∃ more, (self.stateAfter (before ++ rest)).fills = (self.stateAfter before).fills ++ more ∧
      ∀ record ∈ more, record.isPassive = true → ∃ between bar after,
        rest = between ++ .observe bar :: after ∧
          record ∈ self.paidBy bar (self.stateAfter (before ++ between)) := by
  induction rest using List.reverseRecOn with
  | nil => exact ⟨[], by simp, by simp⟩
  | append_singleton rest c ih =>
    obtain ⟨more, hmore, hfrom⟩ := ih
    have hold : ∀ record ∈ more, record.isPassive = true → ∃ between bar after,
        rest ++ [c] = between ++ .observe bar :: after ∧
          record ∈ self.paidBy bar (self.stateAfter (before ++ between)) := by
      intro record hrecord hpassive
      obtain ⟨between, bar, after, rfl, hpaid⟩ := hfrom record hrecord hpassive
      exact ⟨between, bar, after ++ [c], by simp, hpaid⟩
    rw [← List.append_assoc, stateAfter_concat]
    have hspec := self.call_spec (consistent_stateAfter self (before ++ rest)) c
    generalize self.call c (self.stateAfter (before ++ rest)) = run at hspec
    cases hspec with
    | raised c error recent => exact ⟨more, hmore, hold⟩
    | refused order decidedAtUtc rejection refusal recent hrefusal => exact ⟨more, hmore, hold⟩
    | acknowledged order decidedAtUtc quote recent hquote => exact ⟨more, hmore, hold⟩
    | observed bar quote resting hquote hresting =>
      refine ⟨more ++ self.paidBy bar (self.stateAfter (before ++ rest)), ?_, ?_⟩
      · rw [hmore, List.append_assoc]
      · intro record hrecord hpassive
        rcases List.mem_append.mp hrecord with hrecord | hrecord
        · exact hold record hrecord hpassive
        · exact ⟨rest, bar, [], rfl, hrecord⟩
    | resolved ack order quote outcome outcomes after hpending hquote hrange houtcome hresolved =>
      cases hresolved with
      | refused rejection refusal hfields => exact ⟨more, hmore, hold⟩
      | rests limit hunmarketable => exact ⟨more, hmore, hold⟩
      | crossed records hcrossed =>
        refine ⟨more ++ records, ?_, ?_⟩
        · rw [← List.append_assoc, ← hmore]
        · intro record hrecord hpassive
          rcases List.mem_append.mp hrecord with hrecord | hrecord
          · exact hold record hrecord hpassive
          · rw [hcrossed.not_passive record hrecord] at hpassive
            cases hpassive

end FillSimulation

end FinanceKing.Backtest
