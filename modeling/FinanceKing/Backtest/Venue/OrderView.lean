import FinanceKing.Backtest.Venue.Session
import FinanceKing.Lib.Fold

/-! What the venue's state says about one order. Its view, whether it is pending, what rests of it and
    what it has printed, is moved only by the bars and by the calls that name it, so each order can be
    followed on its own through any session. -/

namespace FinanceKing.Backtest

open Lib

namespace FillSimulation

variable {self : FillSimulation} {state : SimulationState}

/-- What the venue's state says about one order id. -/
structure OrderView where
  pending : Option Order
  resting : Option RestingOrder
  records : List VenueFillRecord

def viewOf (state : SimulationState) (id : Uuid) : OrderView where
  pending := state.pending.get? id
  resting := state.resting.get? id
  records := state.fills.filter (fun record => record.fill.orderId = id)

/-- What moves one order's view. -/
inductive Feed where
  | bar (bar : Bar)
  | acknowledged (order : Order)
  | resolved (quote : TouchQuote) (fillAtUtc : DateTime)

def OrderView.step (self : FillSimulation) (view : OrderView) : Feed → OrderView
  | .bar bar => ⟨view.pending, view.resting.bind (afterBar bar),
      view.records ++ (view.resting.bind (self.paid bar)).toList⟩
  | .acknowledged order => { view with pending := some order }
  | .resolved quote fillAtUtc =>
    match view.pending with
    | none => view
    | some order =>
      match self.resolution order quote fillAtUtc with
      | .crossed records => ⟨none, view.resting, view.records ++ records⟩
      | .refused _ => ⟨none, view.resting, view.records⟩
      | .rests resting => ⟨none, some resting, view.records⟩

/-- What a call feeds one order: a bar reaches every order, the rest only the order it names. -/
def feedOf (self : FillSimulation) (id : Uuid) (state : SimulationState) (c : VenueCall)
    (reply : PyResult (List Event)) : Option Feed :=
  match c, reply with
  | .observe bar, .ok _ => some (.bar bar)
  | .submit order _, .ok [.orderAck _] => if order.orderId = id then some (.acknowledged order) else none
  | .resolveAck ack, .ok _ =>
    if ack.order.orderId = id then
      (state.pending.get? id).bind fun order =>
        (state.quotes.get? order.instrument.symbol).map fun quote =>
          .resolved quote (ack.occursAtUtc + self.costModel.latency.ackToFill)
    else none
  | _, _ => none

theorem paid_printOf {bar : Bar} {resting : RestingOrder} {record : VenueFillRecord}
    (h : self.paid bar resting = some record) :
    PrintOf self resting.order true (consume resting bar).resting.fillCount record ∧
      resting.order.instrument.symbol = bar.instrument.symbol ∧
      record.fill.eventTimeUtc = bar.closeTimeUtc ∧
      record.fill.baseQuantity = (consume resting bar).filledBaseQuantity ∧
      (consume resting bar).fillQuotePrice = some record.fill.quotePrice := by
  rw [paid] at h
  split at h
  · cases h
  next hsymbol =>
  rw [Option.bind_eq_some_iff] at h
  obtain ⟨price, hprice, h⟩ := h
  split at h
  · obtain ⟨hof, hbase, hat, htime⟩ := record?_eq_some h
    exact ⟨hof, not_not.mp hsymbol, htime, hbase, hat ▸ hprice⟩
  · cases h

theorem mem_paidBy {bar : Bar} {record : VenueFillRecord} (h : record ∈ self.paidBy bar state) :
    ∃ id resting, state.resting.get? id = some resting ∧ self.paid bar resting = some record := by
  obtain ⟨id, _, hrecord⟩ := List.mem_filterMap.mp h
  rw [paidAt, Option.bind_eq_some_iff] at hrecord
  obtain ⟨resting, hheld, hpaid⟩ := hrecord
  exact ⟨id, resting, hheld, hpaid⟩

/-- A bar's prints at one id are what it pays the order held there. -/
theorem filter_paidBy (h : Consistent state) (bar : Bar) (id : Uuid) :
    (self.paidBy bar state).filter (fun record => record.fill.orderId = id) =
      (self.paidAt bar state id).toList := by
  have hnodup : (sortBy (fun k => k) state.resting.keys).Nodup :=
    (perm_sortBy _ _).nodup_iff.mpr state.resting.nodupKeys
  have hkey : ∀ k ∈ sortBy (fun k => k) state.resting.keys, ∀ record,
      self.paidAt bar state k = some record → record.fill.orderId = k := by
    intro k _ record hrecord
    rw [paidAt, Option.bind_eq_some_iff] at hrecord
    obtain ⟨resting, hheld, hpaid⟩ := hrecord
    rw [(paid_printOf hpaid).1.orderId_eq, h.restingKey k resting hheld]
  have hfilter := filter_filterMap_key (self.paidAt bar state) (fun r => r.fill.orderId) id _ hnodup hkey
  refine hfilter.trans ?_
  split
  · rfl
  · next hk =>
    rw [mem_sortBy, Dict.mem_keys_iff, Option.not_isSome_iff_eq_none] at hk
    rw [paidAt, hk]
    rfl

theorem filter_eq_nil_of_order {records : List VenueFillRecord} {order : Order} {id : Uuid}
    (h : ∀ record ∈ records, record.fill.orderId = order.orderId) (hid : order.orderId ≠ id) :
    records.filter (fun record => record.fill.orderId = id) = [] := by
  rw [List.filter_eq_nil_iff]
  intro record hrecord
  simpa [h record hrecord] using hid

theorem filter_eq_self_of_order {records : List VenueFillRecord} {order : Order}
    (h : ∀ record ∈ records, record.fill.orderId = order.orderId) :
    records.filter (fun record => record.fill.orderId = order.orderId) = records := by
  rw [List.filter_eq_self]
  intro record hrecord
  simpa using h record hrecord

theorem Crossed.orderId_eq {order : Order} {quote : TouchQuote} {fillAtUtc : DateTime}
    {records : List VenueFillRecord} (h : Crossed self order quote fillAtUtc records) :
    ∀ record ∈ records, record.fill.orderId = order.orderId := by
  obtain ⟨touched, walked, rfl, htouched, hwalked⟩ := h.legs
  intro record hrecord
  rcases List.mem_append.mp hrecord with hrecord | hrecord
  · exact (htouched record (by simpa using hrecord)).1.orderId_eq
  · exact (hwalked record (by simpa using hrecord)).1.orderId_eq

/-- A call moves an order's view by what it feeds the order, and by nothing else. -/
theorem viewOf_call (self : FillSimulation) (h : Consistent state) (c : VenueCall) (id : Uuid) :
    viewOf (self.call c state).2 id =
      (self.feedOf id state c (self.call c state).1).elim (viewOf state id)
        ((viewOf state id).step self) := by
  have hspec := self.call_spec h c
  generalize self.call c state = run at hspec ⊢
  cases hspec with
  | raised error recent => cases c <;> rfl
  | observed bar quote resting hquote hresting =>
    simp only [feedOf, Option.elim_some, OrderView.step, viewOf, List.filter_append,
      filter_paidBy h, hresting]
    rfl
  | refused order decidedAtUtc rejection refusal recent hrefusal => rfl
  | acknowledged order decidedAtUtc quote recent hquote =>
    simp only [feedOf, viewOf, Dict.get?_set]
    split
    · next hid => rw [if_pos hid.symm]; rfl
    · next hid => rw [if_neg (Ne.symm hid)]; rfl
  | resolved ack order quote outcome outcomes after hpending hquote hrange houtcome hresolved =>
    have hid := h.pendingKey _ _ hpending
    by_cases hack : ack.order.orderId = id
    · simp only [hack] at hpending hid hresolved
      simp only [feedOf, hack, if_true, hpending, Option.bind_some, hquote, Option.map_some, Option.elim_some,
        OrderView.step, viewOf, ← houtcome]
      subst hid
      cases hresolved with
      | crossed records hcrossed =>
        simp [Dict.get?_erase, filter_eq_self_of_order hcrossed.orderId_eq]
      | refused rejection refusal hrefusal =>
        simp [Dict.get?_erase, SimulationState.countRejection]
      | rests limit hunmarketable => simp [Dict.get?_erase]
    · have hne : order.orderId ≠ id := fun heq => hack (hid.symm.trans heq)
      have hne' : id ≠ ack.order.orderId := Ne.symm hack
      simp only [feedOf, hack, if_false, Option.elim_none, viewOf]
      cases hresolved with
      | crossed records hcrossed =>
        simp [Dict.get?_erase, hne', filter_eq_nil_of_order hcrossed.orderId_eq hne]
      | refused rejection refusal hrefusal =>
        simp [Dict.get?_erase, hne', SimulationState.countRejection]
      | rests limit hunmarketable => simp [Dict.get?_erase, Dict.get?_set, hne', Ne.symm hne]

/-- The view a resolved ack leaves of its order. -/
theorem viewOf_resolveAck {order : Order} {ack : OrderAckEvent} {quote : TouchQuote} {events : List Event}
    (hconsistent : Consistent state)
    (hpending : state.pending.get? ack.order.orderId = some order)
    (hquote : state.quotes.get? order.instrument.symbol = some quote)
    (hreply : (self.call (.resolveAck ack) state).1 = .ok events) :
    viewOf (self.call (.resolveAck ack) state).2 order.orderId =
      (viewOf state order.orderId).step self
        (.resolved quote (ack.occursAtUtc + self.costModel.latency.ackToFill)) := by
  have hid := hconsistent.pendingKey _ _ hpending
  rw [self.viewOf_call hconsistent, hreply]
  rw [← hid] at hpending
  simp only [feedOf, hid, if_true]
  rw [← hid, hpending, Option.bind_some, hquote]
  rfl

end FillSimulation

end FinanceKing.Backtest
