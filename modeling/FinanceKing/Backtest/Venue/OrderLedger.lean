import FinanceKing.Backtest.Venue.OrderView

/-! The ledger of an order over any session: nothing printed while it is pending, prints and remainder
    adding up to its quantity while it rests, never more than its quantity once it is closed, and a
    sequence number used at most once. One feed keeps it, so every session does. -/

namespace FinanceKing.Backtest

open Lib

namespace FillSimulation

variable {self : FillSimulation} {state : SimulationState} {order : Order} {view : OrderView}

def baseOf (records : List VenueFillRecord) : Decimal := (records.map (·.fill.baseQuantity)).sum

theorem baseOf_append (left right : List VenueFillRecord) :
    baseOf (left ++ right) = baseOf left + baseOf right := by
  rw [baseOf, List.map_append, List.sum_append]
  rfl

/-- The records are the order's prints, under these sequence numbers. -/
def PrintedAs (self : FillSimulation) (order : Order) (records : List VenueFillRecord)
    (sequences : List ℕ) : Prop :=
  List.Forall₂ (fun record sequence => ∃ isPassive, PrintOf self order isPassive sequence record)
    records sequences

theorem PrintedAs.append {left right : List VenueFillRecord} {sequences sequences' : List ℕ}
    (h : PrintedAs self order left sequences) (h' : PrintedAs self order right sequences') :
    PrintedAs self order (left ++ right) (sequences ++ sequences') := List.rel_append h h'

/-- Where an order stands, with what it has printed. -/
inductive Ledger (self : FillSimulation) (order : Order) : OrderView → Prop
  | pending : Ledger self order ⟨some order, none, []⟩
  | resting (resting : RestingOrder) (records : List VenueFillRecord) (horder : resting.order = order)
      (hsound : resting.Sound) (hquantity : baseOf records + resting.remainingBase = order.baseQuantity)
      (hprinted : PrintedAs self order records (List.range' 1 resting.fillCount)) :
      Ledger self order ⟨none, some resting, records⟩
  | closed (records : List VenueFillRecord) (sequences : List ℕ)
      (hquantity : baseOf records ≤ order.baseQuantity) (hnodup : sequences.Nodup)
      (hprinted : PrintedAs self order records sequences) : Ledger self order ⟨none, none, records⟩

theorem ledger_unseen : Ledger self order ⟨none, none, []⟩ :=
  .closed [] [] order.baseQuantity_pos.le List.nodup_nil List.Forall₂.nil

/-- What one bar does to a resting order of its symbol, in the terms of the view. -/
theorem bar_cases (self : FillSimulation) {resting : RestingOrder} (h : resting.Sound) (bar : Bar) :
    (self.paid bar resting = none ∧ ∃ after, afterBar bar resting = some after ∧ after.Sound ∧
      after.order = resting.order ∧ after.remainingBase = resting.remainingBase ∧
      after.fillCount = resting.fillCount ∧ after.queueAheadBase ≤ resting.queueAheadBase) ∨
    (∃ record, self.paid bar resting = some record ∧
      PrintOf self resting.order true (resting.fillCount + 1) record ∧
      record.fill.baseQuantity ≤ resting.remainingBase ∧
      (afterBar bar resting = none ∨ ∃ after, afterBar bar resting = some after ∧ after.Sound ∧
        after.order = resting.order ∧ after.fillCount = resting.fillCount + 1 ∧
        after.remainingBase = resting.remainingBase - record.fill.baseQuantity ∧
        after.queueAheadBase ≤ resting.queueAheadBase)) := by
  by_cases hsymbol : resting.order.instrument.symbol = bar.instrument.symbol
  · rcases consume_cases h bar with ⟨queue, hnonneg, hle, hconsume⟩ |
      ⟨quantity, price, hpos, hle, hlow, hhigh, hconsume⟩
    · left
      have hsound : ({ resting with queueAheadBase := queue } : RestingOrder).Sound :=
        ⟨hnonneg, h.remaining, h.within⟩
      refine ⟨?_, { resting with queueAheadBase := queue }, ?_, hsound, rfl, rfl, rfl, hle⟩
      · rw [paid, if_neg (not_not.mpr hsymbol), hconsume]
        rfl
      · rw [afterBar, if_neg (not_not.mpr hsymbol), hconsume, if_neg]
        simpa [RestingOrder.isComplete] using h.remaining
    · right
      have hprice := bar.postInit_facts.2.1.trans_le hlow
      obtain ⟨record, hrecord, _⟩ := self.record?_of_pos resting.order bar.closeTimeUtc true
        (resting.fillCount + 1) hpos hprice
      obtain ⟨hof, hbase, _, _⟩ := record?_eq_some hrecord
      refine ⟨record, ?_, hof, hbase.trans_le hle, ?_⟩
      · rw [paid, if_neg (not_not.mpr hsymbol), hconsume]
        simpa [hpos] using hrecord
      · rw [afterBar, if_neg (not_not.mpr hsymbol), hconsume]
        split
        · exact Or.inl rfl
        · next hcomplete =>
          right
          simp only [RestingOrder.isComplete, decide_eq_true_eq, not_le] at hcomplete
          refine ⟨_, rfl, ⟨le_rfl, hcomplete, ?_⟩, rfl, rfl, by rw [hbase], h.queue⟩
          have hwithin := h.within
          simp only
          linarith
  · left
    refine ⟨by rw [paid, if_pos hsymbol], resting, by rw [afterBar, if_pos hsymbol], h, rfl, rfl, rfl,
      le_rfl⟩

theorem ledger_bar (h : Ledger self order view) (bar : Bar) :
    Ledger self order (view.step self (.bar bar)) := by
  cases h with
  | pending => exact .pending
  | closed records sequences hquantity hnodup hprinted =>
    simpa [OrderView.step] using Ledger.closed records sequences hquantity hnodup hprinted
  | resting resting records horder hsound hquantity hprinted =>
    simp only [OrderView.step, Option.bind_some]
    rcases self.bar_cases hsound bar with
      ⟨hpaid, after, hafter, hsound', horder', hremaining, hcount, _⟩ | ⟨record, hpaid, hof, hle, hafter⟩
    · rw [hpaid, hafter, Option.toList_none, List.append_nil]
      exact .resting after records (horder'.trans horder) hsound' (hremaining ▸ hquantity)
        (hcount ▸ hprinted)
    · rw [horder] at hof
      have hprinted' : PrintedAs self order (records ++ [record])
          (List.range' 1 (resting.fillCount + 1)) := by
        rw [List.range'_concat, one_mul, add_comm 1]
        exact hprinted.append (List.Forall₂.cons ⟨true, hof⟩ List.Forall₂.nil)
      have hbase : baseOf [record] = record.fill.baseQuantity := by simp [baseOf]
      rw [hpaid, Option.toList_some]
      rcases hafter with hafter | ⟨after, hafter, hsound', horder', hcount, hremaining, _⟩
      · rw [hafter]
        refine .closed _ _ ?_ List.nodup_range' hprinted'
        rw [baseOf_append, hbase]
        linarith
      · rw [hafter]
        refine .resting after _ (horder'.trans horder) hsound' ?_ (hcount ▸ hprinted')
        rw [baseOf_append, hbase, hremaining]
        linarith

/-- The prints of a crossing order are its prints 0 and 1, or one of them. -/
theorem Crossed.printedAs {quote : TouchQuote} {fillAtUtc : DateTime}
    {records : List VenueFillRecord} (h : Crossed self order quote fillAtUtc records) :
    ∃ sequences : List ℕ, sequences.Nodup ∧ PrintedAs self order records sequences := by
  obtain ⟨touched, walked, rfl, htouched, hwalked⟩ := h.legs
  cases touched with
  | none =>
    cases walked with
    | none => exact ⟨[], List.nodup_nil, List.Forall₂.nil⟩
    | some second =>
      exact ⟨[1], List.nodup_singleton 1, .cons ⟨false, (hwalked second rfl).1⟩ .nil⟩
  | some first =>
    cases walked with
    | none => exact ⟨[0], List.nodup_singleton 0, .cons ⟨false, (htouched first rfl).1⟩ .nil⟩
    | some second =>
      exact ⟨[0, 1], by decide, .cons ⟨false, (htouched first rfl).1⟩
        (.cons ⟨false, (hwalked second rfl).1⟩ .nil)⟩

/-- What an acknowledged order can turn into. -/
theorem resolution_cases (self : FillSimulation) (order : Order) {quote : TouchQuote} (hrange : Ranged quote) (fillAtUtc : DateTime) :
    (∃ records, self.resolution order quote fillAtUtc = .crossed records ∧
      Crossed self order quote fillAtUtc records) ∨
    (∃ rejection, self.resolution order quote fillAtUtc = .refused rejection) ∨
    (∃ limit, self.resolution order quote fillAtUtc = .rests (joinQueue order limit quote) ∧
      isMarketable order quote = false) := by
  obtain ⟨run, hspec⟩ : ∃ run, Resolved self order quote fillAtUtc SimulationState.initial
      (self.resolution order quote fillAtUtc) run := ⟨_, resolved_of_ranged hrange _⟩
  generalize self.resolution order quote fillAtUtc = outcome at hspec ⊢
  cases hspec with
  | crossed records hcrossed => exact Or.inl ⟨records, rfl, hcrossed⟩
  | refused rejection refusal hrefusal => exact Or.inr (Or.inl ⟨rejection, rfl⟩)
  | rests limit hunmarketable => exact Or.inr (Or.inr ⟨limit, rfl, hunmarketable⟩)

theorem ledger_resolved {quote : TouchQuote} (h : Ledger self order view) (hrange : Ranged quote)
    (fillAtUtc : DateTime) : Ledger self order (view.step self (.resolved quote fillAtUtc)) := by
  cases h with
  | closed records sequences hquantity hnodup hprinted =>
    exact .closed records sequences hquantity hnodup hprinted
  | resting resting records horder hsound hquantity hprinted =>
    exact .resting resting records horder hsound hquantity hprinted
  | pending =>
    rcases self.resolution_cases order hrange fillAtUtc with
      ⟨records, houtcome, hcrossed⟩ | ⟨rejection, houtcome⟩ | ⟨limit, houtcome, _⟩
    · obtain ⟨sequences, hnodup, hprinted⟩ := hcrossed.printedAs
      simp only [OrderView.step, houtcome, List.nil_append]
      exact .closed records sequences hcrossed.quantity.le hnodup hprinted
    · simp only [OrderView.step, houtcome]
      exact ledger_unseen
    · simp only [OrderView.step, houtcome]
      exact .resting _ [] rfl (joinQueue_sound order limit quote) (zero_add _) List.Forall₂.nil

/-! ### The ledgers of a run -/

/-- The view of an order nobody has submitted. -/
def OrderView.unseen : OrderView := ⟨none, none, []⟩

/-- Every submitted order has its ledger, and no other id has anything. -/
structure Ledgers (simulation : FillSimulation) (submitted : List Order) (state : SimulationState) :
    Prop where
  ledger : ∀ order ∈ submitted, Ledger simulation order (viewOf state order.orderId)
  unseen : ∀ id, id ∉ submitted.map (·.orderId) → viewOf state id = OrderView.unseen

/-- What a call feeds an id is a bar, the acknowledgement of the order it submits under that id, or a
    resolution at a quote with a range. -/
theorem feedOf_cases (self : FillSimulation) (h : Consistent state) (id : Uuid) (c : VenueCall)
    (reply : PyResult (List Event)) (feed : Feed) (hfeed : self.feedOf id state c reply = some feed) :
    (∃ bar, feed = .bar bar) ∨
    (∃ order decidedAtUtc, c = .submit order decidedAtUtc ∧ order.orderId = id ∧
      feed = .acknowledged order) ∨
    (∃ quote fillAtUtc, feed = .resolved quote fillAtUtc ∧ Ranged quote) := by
  rw [feedOf.eq_def] at hfeed
  split at hfeed
  · exact Or.inl ⟨_, (Option.some.inj hfeed).symm⟩
  · split at hfeed
    · next hid => exact Or.inr (Or.inl ⟨_, _, rfl, hid, (Option.some.inj hfeed).symm⟩)
    · cases hfeed
  · split at hfeed
    · simp only [Option.bind_eq_some_iff, Option.map_eq_some_iff] at hfeed
      obtain ⟨order, _, quote, hquote, rfl⟩ := hfeed
      exact Or.inr (Or.inr ⟨quote, _, rfl, h.ranged _ _ hquote⟩)
    · cases hfeed
  · cases hfeed

theorem step_unseen_bar (bar : Bar) :
    OrderView.unseen.step self (.bar bar) = OrderView.unseen := rfl

theorem step_unseen_resolved (quote : TouchQuote) (fillAtUtc : DateTime) :
    OrderView.unseen.step self (.resolved quote fillAtUtc) = OrderView.unseen := rfl

/-- The order a call submits, if it submits one. -/
theorem submittedOf_singleton (c : VenueCall) :
    (∃ order decidedAtUtc, c = .submit order decidedAtUtc ∧ submittedOf [c] = [order]) ∨
      submittedOf [c] = [] := by
  cases c with
  | submit order decidedAtUtc => exact Or.inl ⟨order, decidedAtUtc, rfl, rfl⟩
  | observe bar => exact Or.inr rfl
  | resolveAck ack => exact Or.inr rfl

/-- One call keeps the ledgers, as long as it submits no id a second time. -/
theorem ledgers_call {submitted : List Order} (hconsistent : Consistent state)
    (h : Ledgers self submitted state) (c : VenueCall)
    (hids : ((submitted ++ submittedOf [c]).map (·.orderId)).Nodup) :
    Ledgers self (submitted ++ submittedOf [c]) (self.call c state).2 := by
  have hview := fun id => self.viewOf_call hconsistent c id
  have hfeed := fun id feed => self.feedOf_cases hconsistent id c (self.call c state).1 feed
  have hsubmits : ∀ order decidedAtUtc, c = .submit order decidedAtUtc →
      order.orderId ∉ submitted.map (·.orderId) := by
    rintro order decidedAtUtc rfl
    simp only [submittedOf, List.map_append, List.nodup_append] at hids
    exact fun hmem => hids.2.2 _ hmem _ (by simp) rfl
  constructor
  · intro order horder
    rw [hview]
    rcases List.mem_append.mp horder with hold | hnew
    · cases hcase : self.feedOf order.orderId state c (self.call c state).1 with
      | none => exact h.ledger order hold
      | some feed =>
        rcases hfeed _ _ hcase with ⟨bar, rfl⟩ | ⟨other, decidedAtUtc, hc, hid, rfl⟩ |
          ⟨quote, fillAtUtc, rfl, hrange⟩
        · exact ledger_bar (h.ledger order hold) bar
        · -- the id would be submitted twice
          have hnot := hsubmits other decidedAtUtc hc
          rw [hid] at hnot
          exact absurd (List.mem_map_of_mem hold) hnot
        · exact ledger_resolved (h.ledger order hold) hrange fillAtUtc
    · rcases submittedOf_singleton c with ⟨submittedOrder, decidedAtUtc, hc, hsingle⟩ | hnone
      · obtain rfl : order = submittedOrder := by simpa [hsingle] using hnew
        have hfresh := h.unseen order.orderId (hsubmits order decidedAtUtc hc)
        rw [hfresh]
        cases hcase : self.feedOf order.orderId state c (self.call c state).1 with
        | none => exact ledger_unseen
        | some feed =>
          rcases hfeed _ _ hcase with ⟨bar, rfl⟩ | ⟨other, decidedAtUtc', hc', _, rfl⟩ |
            ⟨quote, fillAtUtc, rfl, _⟩
          · exact ledger_unseen
          · obtain ⟨rfl, _⟩ := VenueCall.submit.inj (hc.symm.trans hc')
            exact .pending
          · exact ledger_unseen
      · rw [hnone] at hnew
        cases hnew
  · intro id hid
    rw [List.map_append, List.mem_append, not_or] at hid
    rw [hview, h.unseen id hid.1]
    cases hcase : self.feedOf id state c (self.call c state).1 with
    | none => rfl
    | some feed =>
      rcases hfeed _ _ hcase with ⟨bar, rfl⟩ | ⟨other, decidedAtUtc, rfl, hother, rfl⟩ |
        ⟨quote, fillAtUtc, rfl, _⟩
      · rfl
      · exact absurd (by simp [submittedOf, hother]) hid.2
      · rfl

theorem ledgers_stateAfter (self : FillSimulation) (calls : List VenueCall)
    (hids : ((submittedOf calls).map (·.orderId)).Nodup) :
    Ledgers self (submittedOf calls) (self.stateAfter calls) := by
  induction calls using List.reverseRecOn with
  | nil => exact ⟨fun order horder => (by cases horder), fun id _ => rfl⟩
  | append_singleton calls c ih =>
    rw [submittedOf_append] at hids ⊢
    rw [stateAfter_concat]
    refine ledgers_call (consistent_stateAfter self calls) (ih ?_) c hids
    rw [List.map_append, List.nodup_append] at hids
    exact hids.1

/-! ### Reading the ledgers -/

/-- What has been printed of an order. -/
def printedBase (state : SimulationState) (id : Uuid) : Decimal := baseOf (viewOf state id).records

theorem Ledger.quantity_le (h : Ledger self order view) : baseOf view.records ≤ order.baseQuantity := by
  cases h with
  | pending => exact order.baseQuantity_pos.le
  | resting resting records horder hsound hquantity hprinted =>
    have hremaining := hsound.remaining
    linarith
  | closed records sequences hquantity hnodup hprinted => exact hquantity

theorem Ledger.of_resting (h : Ledger self order view) {resting : RestingOrder}
    (hresting : view.resting = some resting) : view.pending = none ∧ resting.order = order ∧
      resting.Sound ∧ baseOf view.records + resting.remainingBase = order.baseQuantity := by
  cases h with
  | pending => cases hresting
  | closed records sequences hquantity hnodup hprinted => cases hresting
  | resting held records horder hsound hquantity hprinted =>
    obtain rfl := Option.some.inj hresting
    exact ⟨rfl, horder, hsound, hquantity⟩

theorem Ledger.of_pending (h : Ledger self order view) {held : Order}
    (hpending : view.pending = some held) :
    held = order ∧ view.resting = none ∧ view.records = [] := by
  cases h with
  | pending => exact ⟨(Option.some.inj hpending).symm, rfl, rfl⟩
  | resting resting records horder hsound hquantity hprinted => cases hpending
  | closed records sequences hquantity hnodup hprinted => cases hpending

/-- The records of an order are its prints, under sequence numbers it uses once. -/
theorem Ledger.printedAs (h : Ledger self order view) :
    ∃ sequences : List ℕ, sequences.Nodup ∧ PrintedAs self order view.records sequences := by
  cases h with
  | pending => exact ⟨[], List.nodup_nil, List.Forall₂.nil⟩
  | resting resting records horder hsound hquantity hprinted =>
    exact ⟨_, List.nodup_range', hprinted⟩
  | closed records sequences hquantity hnodup hprinted => exact ⟨sequences, hnodup, hprinted⟩

theorem PrintedAs.tradeIds {records : List VenueFillRecord} {sequences : List ℕ}
    (h : PrintedAs self order records sequences) :
    records.map (·.fill.venueTradeId) = sequences.map (venueTradeIdFor order.clientOrderId) := by
  induction h with
  | nil => rfl
  | cons hprint _ ih =>
    obtain ⟨_, hof⟩ := hprint
    rw [List.map_cons, List.map_cons, ih, hof.tradeId_eq]

theorem PrintedAs.of_mem {records : List VenueFillRecord} {sequences : List ℕ}
    (h : PrintedAs self order records sequences) {record : VenueFillRecord} (hmem : record ∈ records) :
    ∃ isPassive sequence, PrintOf self order isPassive sequence record := by
  induction h with
  | nil => cases hmem
  | cons hprint _ ih =>
    rcases List.mem_cons.mp hmem with rfl | hmem
    · obtain ⟨isPassive, hof⟩ := hprint
      exact ⟨isPassive, _, hof⟩
    · exact ih hmem

section Run

variable {calls : List VenueCall} {submitted : List Order}

/-- An order the state knows of was submitted. -/
theorem Ledgers.exists_order (h : Ledgers self submitted state) {id : Uuid}
    (hknown : viewOf state id ≠ OrderView.unseen) :
    ∃ order ∈ submitted, order.orderId = id ∧ Ledger self order (viewOf state id) := by
  by_cases hmem : id ∈ submitted.map (·.orderId)
  · obtain ⟨order, horder, rfl⟩ := List.mem_map.mp hmem
    exact ⟨order, horder, rfl, h.ledger order horder⟩
  · exact absurd (h.unseen id hmem) hknown

/-- Every print is a print of a submitted order. -/
theorem Ledgers.exists_print (h : Ledgers self submitted state) {record : VenueFillRecord}
    (hrecord : record ∈ state.fills) :
    ∃ order ∈ submitted, ∃ isPassive sequence, PrintOf self order isPassive sequence record := by
  have hview : record ∈ (viewOf state record.fill.orderId).records :=
    List.mem_filter.mpr ⟨hrecord, by simp⟩
  have hknown : viewOf state record.fill.orderId ≠ OrderView.unseen := by
    intro hunseen
    rw [hunseen] at hview
    cases hview
  obtain ⟨order, horder, _, hledger⟩ := h.exists_order hknown
  obtain ⟨sequences, _, hprinted⟩ := hledger.printedAs
  exact ⟨order, horder, hprinted.of_mem hview⟩

/-- Distinct client order ids give every print a trade id of its own. -/
theorem Ledgers.nodup_tradeIds (h : Ledgers self submitted state)
    (hclients : (submitted.map (·.clientOrderId)).Nodup) :
    (state.fills.map (·.fill.venueTradeId)).Nodup := by
  refine nodup_map_of_filter (fun record : VenueFillRecord => record.fill.venueTradeId)
    (fun record => record.fill.orderId) ?_ ?_
  · intro record hrecord other hother heq
    obtain ⟨order, horder, _, sequence, hof⟩ := h.exists_print hrecord
    obtain ⟨order', horder', _, sequence', hof'⟩ := h.exists_print hother
    rw [hof.tradeId_eq, hof'.tradeId_eq] at heq
    have hsame := List.inj_on_of_nodup_map hclients horder horder' (venueTradeIdFor_inj heq).1
    rw [hof.orderId_eq, hof'.orderId_eq, hsame]
  · intro id
    by_cases hunseen : viewOf state id = OrderView.unseen
    · have hnil : state.fills.filter (fun record => record.fill.orderId = id) = [] :=
        congrArg OrderView.records hunseen
      rw [hnil]
      exact List.nodup_nil
    · obtain ⟨order, _, _, hledger⟩ := h.exists_order hunseen
      obtain ⟨sequences, hnodup, hprinted⟩ := hledger.printedAs
      have hids : ((viewOf state id).records.map (·.fill.venueTradeId)).Nodup := by
        rw [hprinted.tradeIds]
        exact hnodup.map fun n n' heq => (venueTradeIdFor_inj heq).2
      exact hids

theorem Ledgers.fillId_eq (h : Ledgers self submitted state) :
    state.fills.map (·.fill.fillId) =
      (state.fills.map (·.fill.venueTradeId)).map (uuid5 fillNamespace) := by
  rw [List.map_map]
  refine List.map_congr_left fun record hrecord => ?_
  obtain ⟨_, _, _, _, hof⟩ := h.exists_print hrecord
  exact hof.fillId_eq

/-- What the bars and the resolutions keep of a submitted order, the rest of the session keeps. -/
theorem viewOf_stays (P : OrderView → Prop) {before rest : List VenueCall} {order : Order}
    (horder : order ∈ submittedOf before)
    (hids : ((submittedOf (before ++ rest)).map (·.orderId)).Nodup)
    (hbar : ∀ view bar, P view → P (view.step self (.bar bar)))
    (hresolved : ∀ view quote fillAtUtc, P view → P (view.step self (.resolved quote fillAtUtc)))
    (h : P (viewOf (self.stateAfter before) order.orderId)) :
    P (viewOf (self.stateAfter (before ++ rest)) order.orderId) := by
  induction rest using List.reverseRecOn with
  | nil => rwa [List.append_nil]
  | append_singleton rest c ih =>
    rw [← List.append_assoc] at hids ⊢
    rw [submittedOf_append, List.map_append] at hids
    have hkept := ih hids.of_append_left
    have hconsistent := consistent_stateAfter self (before ++ rest)
    rw [stateAfter_concat, self.viewOf_call hconsistent c]
    cases hcase : self.feedOf order.orderId (self.stateAfter (before ++ rest)) c
        (self.call c (self.stateAfter (before ++ rest))).1 with
    | none => exact hkept
    | some feed =>
      rcases self.feedOf_cases hconsistent _ _ _ _ hcase with ⟨bar, rfl⟩ |
        ⟨other, decidedAtUtc, rfl, hother, rfl⟩ | ⟨quote, fillAtUtc, rfl, _⟩
      · exact hbar _ _ hkept
      · have hold : order.orderId ∈ (submittedOf (before ++ rest)).map (·.orderId) := by
          rw [submittedOf_append, List.map_append]
          exact List.mem_append_left _ (List.mem_map_of_mem horder)
        exact (List.disjoint_of_nodup_append hids hold (by simp [submittedOf, hother])).elim
      · exact hresolved _ _ _ hkept

/-- An order that is neither pending nor resting stays as it is. -/
theorem closed_stays {before rest : List VenueCall} {order : Order} (horder : order ∈ submittedOf before)
    (hids : ((submittedOf (before ++ rest)).map (·.orderId)).Nodup)
    (hpending : (viewOf (self.stateAfter before) order.orderId).pending = none)
    (hresting : (viewOf (self.stateAfter before) order.orderId).resting = none) :
    viewOf (self.stateAfter (before ++ rest)) order.orderId =
      viewOf (self.stateAfter before) order.orderId := by
  generalize hview : viewOf (self.stateAfter before) order.orderId = view at hpending hresting ⊢
  obtain ⟨pending, resting, records⟩ := view
  obtain rfl : pending = none := hpending
  obtain rfl : resting = none := hresting
  refine viewOf_stays (fun view => view = ⟨none, none, records⟩) horder hids ?_ ?_ hview
  · rintro view bar rfl
    simp [OrderView.step]
  · rintro view quote fillAtUtc rfl
    rfl

end Run

end FillSimulation

end FinanceKing.Backtest
