import FinanceKing.Backtest.Venue.Simulation

/-! What each call of the simulator does, once: a bar pays every resting order of its symbol on its own,
    a submission is screened and pends or is refused, and a resolved ack becomes prints, a refusal or
    a resting entry as a function of the order, the quote and the instant alone. -/

namespace FinanceKing.Backtest

open Lib

namespace FillSimulation

variable (self : FillSimulation) {state state' : SimulationState}

/-! ### Prints -/

theorem strip_venueTradeIdFor (clientOrderId : String) (sequence : ℕ) :
    strip (venueTradeIdFor clientOrderId sequence) ≠ [] := by
  -- the id starts with a character that is not whitespace, which stripping keeps
  have hchars : (venueTradeIdFor clientOrderId sequence).toList =
      's' :: ('i' :: 'm' :: '-' :: clientOrderId.toList ++ '-' :: (toString sequence).toList) := by
    simp [venueTradeIdFor, String.toList_append]
  have hspace : isSpace 's' = false := by decide
  rw [strip, stripChars, hchars, List.dropWhile_cons_of_neg (by simp [hspace])]
  intro h
  rw [List.reverse_eq_nil_iff, List.dropWhile_eq_nil_iff] at h
  exact absurd (h 's' (by simp)) (by simp [hspace])

/-- The last `-` of a trade id stands before its sequence number. -/
theorem split_at_last {x₁ x₂ z₁ z₂ : List Char} {a : Char} (h₁ : a ∉ z₁) (h₂ : a ∉ z₂)
    (h : x₁ ++ a :: z₁ = x₂ ++ a :: z₂) : x₁ = x₂ ∧ z₁ = z₂ := by
  rcases List.append_eq_append_iff.mp h with ⟨c, rfl, hc⟩ | ⟨c, rfl, hc⟩
  · cases c with
    | nil => simpa using hc
    | cons b d =>
      obtain ⟨_, rfl⟩ := List.cons.inj hc
      simp at h₁
  · cases c with
    | nil => simpa using hc.symm
    | cons b d =>
      obtain ⟨_, rfl⟩ := List.cons.inj hc
      simp at h₂

/-- A trade id determines the client order id and the sequence number it was made from. -/
theorem venueTradeIdFor_inj {c c' : String} {n n' : ℕ}
    (h : venueTradeIdFor c n = venueTradeIdFor c' n') : c = c' ∧ n = n' := by
  have hchars : c.toList ++ '-' :: Nat.toDigits 10 n = c'.toList ++ '-' :: Nat.toDigits 10 n' := by
    simpa [venueTradeIdFor, String.toList_append] using congrArg String.toList h
  have hdigits : ∀ m, '-' ∉ Nat.toDigits 10 m := fun m hm => by
    have hdigit := Nat.isDigit_of_mem_toDigits (by decide) (by decide) hm
    exact absurd hdigit (by decide)
  obtain ⟨hclient, hsequence⟩ := split_at_last (hdigits n) (hdigits n') hchars
  refine ⟨String.toList_inj.mp hclient, ?_⟩
  rw [← Nat.ofDigitChars_ten_toDigits (n := n), hsequence, Nat.ofDigitChars_ten_toDigits]

/-- The record of a print, when its fill is a valid one. -/
def record? (order : Order) (baseQuantity quotePrice : Decimal) (eventTimeUtc : DateTime)
    (isPassive : Bool) (sequence : ℕ) : Option VenueFillRecord :=
  (construct FillFields.postInit Fill.mk
    (self.fillFieldsFor order baseQuantity quotePrice eventTimeUtc isPassive sequence)).toOption.map
    fun fill => ⟨fill, isPassive, self.passiveMarkoutFor baseQuantity quotePrice isPassive⟩

variable {self} {order : Order} {baseQuantity quotePrice : Decimal} {eventTimeUtc : DateTime}
  {isPassive : Bool} {sequence : ℕ}

/-- A positive quantity at a positive price is always printed. -/
theorem record?_of_pos (self : FillSimulation) (order : Order) (eventTimeUtc : DateTime)
    (isPassive : Bool) (sequence : ℕ) (hquantity : 0 < baseQuantity) (hprice : 0 < quotePrice) :
    ∃ record, self.record? order baseQuantity quotePrice eventTimeUtc isPassive sequence =
        some record ∧
      ∀ state, self.printFill order baseQuantity quotePrice eventTimeUtc isPassive sequence state =
        (.ok record.fill, { state with fills := state.fills ++ [record] }) := by
  have hfee : 0 ≤ quantizeQuote (baseQuantity * quotePrice *
      self.costModel.fees.feeBpsFor isPassive / bpsPerUnit) := by
    refine snapHalfEven_nonneg (by norm_num [quoteExponent]) (div_nonneg ?_ (by norm_num [bpsPerUnit]))
    exact mul_nonneg (mul_pos hquantity hprice).le (self.costModel.fees.feeBpsFor_nonneg isPassive)
  have hchecked : (self.fillFieldsFor order baseQuantity quotePrice eventTimeUtc isPassive
      sequence).postInit = .ok () := by
    simp [FillFields.postInit, fillFieldsFor, strip_venueTradeIdFor, hquantity, hprice, hfee]
  refine ⟨⟨⟨_, hchecked⟩, isPassive, self.passiveMarkoutFor baseQuantity quotePrice isPassive⟩, ?_, ?_⟩
  · rw [record?, construct_ok hchecked]
    rfl
  · intro state
    rw [printFill, construct_ok hchecked]

/-- A record is the print of a sequence number of an order, and charged as that. -/
structure PrintOf (simulation : FillSimulation) (order : Order) (isPassive : Bool) (sequence : ℕ)
    (record : VenueFillRecord) : Prop where
  fields : record.fill.toFillFields = simulation.fillFieldsFor order record.fill.baseQuantity
    record.fill.quotePrice record.fill.eventTimeUtc isPassive sequence
  passive : record.isPassive = isPassive
  markout : record.passiveMarkoutQuote =
    simulation.passiveMarkoutFor record.fill.baseQuantity record.fill.quotePrice isPassive

namespace PrintOf

variable {record : VenueFillRecord} (h : PrintOf self order isPassive sequence record)
include h

theorem orderId_eq : record.fill.orderId = order.orderId := by rw [h.fields]; rfl

theorem tradeId_eq : record.fill.venueTradeId = venueTradeIdFor order.clientOrderId sequence := by
  rw [h.fields]; rfl

theorem fillId_eq : record.fill.fillId = uuid5 fillNamespace record.fill.venueTradeId := by
  rw [h.fields]; rfl

end PrintOf

/-- What a record says of its print. -/
theorem record?_eq_some {record : VenueFillRecord}
    (h : self.record? order baseQuantity quotePrice eventTimeUtc isPassive sequence = some record) :
    PrintOf self order isPassive sequence record ∧ record.fill.baseQuantity = baseQuantity ∧
      record.fill.quotePrice = quotePrice ∧ record.fill.eventTimeUtc = eventTimeUtc := by
  rw [record?, Option.map_eq_some_iff] at h
  obtain ⟨fill, hfill, rfl⟩ := h
  rcases hresult : construct FillFields.postInit Fill.mk
    (self.fillFieldsFor order baseQuantity quotePrice eventTimeUtc isPassive sequence) with e | fill'
  · rw [hresult] at hfill
    cases hfill
  · rw [hresult] at hfill
    obtain rfl := Option.some.inj hfill
    obtain ⟨_, rfl⟩ := construct_eq_ok hresult
    exact ⟨⟨rfl, rfl, rfl⟩, rfl, rfl, rfl⟩

/-- A refusal is counted and its event is always built. -/
theorem reject_eq (order : Order) (occursAtUtc : DateTime) (rejection : Rejection)
    (state : SimulationState) :
    ∃ refusal : RejectEvent, refusal.toRejectEventFields =
        ⟨order, occursAtUtc, rejection.asRejectText⟩ ∧
      reject order occursAtUtc rejection state =
        (.ok refusal, state.countRejection rejection.reason) := by
  have hchecked : (⟨order, occursAtUtc, rejection.asRejectText⟩ : RejectEventFields).postInit =
      .ok () := by
    simp [RejectEventFields.postInit, requireMessage, rejection.asRejectText_not_blank]
  refine ⟨⟨⟨order, occursAtUtc, rejection.asRejectText⟩, hchecked⟩, rfl, ?_⟩
  rw [reject, construct_ok hchecked]

/-! ### A bar -/

variable (self)

/-- What a bar pays one resting order. -/
def paid (bar : Bar) (resting : RestingOrder) : Option VenueFillRecord :=
  if resting.order.instrument.symbol ≠ bar.instrument.symbol then none
  else
    (consume resting bar).fillQuotePrice.bind fun price =>
      if 0 < (consume resting bar).filledBaseQuantity then
        self.record? resting.order (consume resting bar).filledBaseQuantity price bar.closeTimeUtc
          true (consume resting bar).resting.fillCount
      else none

/-- What a bar leaves of one resting order. -/
def afterBar (bar : Bar) (resting : RestingOrder) : Option RestingOrder :=
  if resting.order.instrument.symbol ≠ bar.instrument.symbol then some resting
  else if (consume resting bar).resting.isComplete then none
  else some (consume resting bar).resting

end FillSimulation

theorem consume_order (resting : RestingOrder) (bar : Bar) :
    (consume resting bar).resting.order = resting.order := by
  simp only [consume]
  split_ifs <;> rfl

/-- A print's price lies in the range of the bar that paid it. -/
theorem consume_price_mem {resting : RestingOrder} {bar : Bar} {price : Decimal}
    (h : (consume resting bar).fillQuotePrice = some price) :
    bar.lowQuotePrice ≤ price ∧ price ≤ bar.highQuotePrice := by
  simp only [consume] at h
  split at h
  · cases h
  next havailable =>
  split at h
  · cases h
  split at h
  · cases h
  obtain rfl := Option.some.inj h
  exact restingFillQuotePrice_mem (reaches_of_volume_pos (not_le.mp havailable))

namespace FillSimulation

variable {self : FillSimulation} {state state' : SimulationState} {order : Order} {bar : Bar}

theorem printProgress_eq (resting : RestingOrder) (state : SimulationState)
    (hsymbol : resting.order.instrument.symbol = bar.instrument.symbol) :
    self.printProgress bar (consume resting bar) state =
      (.ok ((self.paid bar resting).toList.map (·.fill)),
        { state with fills := state.fills ++ (self.paid bar resting).toList }) := by
  rw [printProgress, paid, if_neg (not_not.mpr hsymbol), consume_order]
  cases hprice : (consume resting bar).fillQuotePrice with
  | none => simp
  | some price =>
    simp only [Option.bind_some]
    split
    · next hfilled =>
      obtain ⟨hlow, _⟩ := consume_price_mem hprice
      obtain ⟨record, hrecord, hprint⟩ := self.record?_of_pos resting.order bar.closeTimeUtc true
        (consume resting bar).resting.fillCount hfilled (bar.postInit_facts.2.1.trans_le hlow)
      rw [hrecord, hprint]
      simp
    · simp

/-- What a bar pays the order held under an id. -/
def paidAt (self : FillSimulation) (bar : Bar) (state : SimulationState) (orderId : Uuid) :
    Option VenueFillRecord :=
  (state.resting.get? orderId).bind (self.paid bar)

theorem payOrder_eq (self : FillSimulation) (bar : Bar) (orderId : Uuid) (state : SimulationState) :
    ∃ resting, self.payOrder bar orderId state =
        (.ok ((self.paidAt bar state orderId).toList.map (·.fill)), { state with
          resting := resting
          fills := state.fills ++ (self.paidAt bar state orderId).toList }) ∧
      ∀ k, resting.get? k =
        if k = orderId then (state.resting.get? k).bind (afterBar bar) else state.resting.get? k := by
  rw [payOrder, paidAt]
  cases hheld : state.resting.get? orderId with
  | none =>
    refine ⟨state.resting, by simp, fun k => ?_⟩
    split
    · next hk => rw [hk, hheld]; rfl
    · rfl
  | some resting =>
    simp only [Option.bind_some]
    split
    · next hsymbol =>
      refine ⟨state.resting, by simp [paid, hsymbol], fun k => ?_⟩
      split
      · next hk => rw [hk, hheld, Option.bind_some, afterBar, if_pos hsymbol]
      · rfl
    · next hsymbol =>
      rw [printProgress_eq resting state (not_not.mp hsymbol), Ran.chain_ok]
      refine ⟨_, rfl, fun k => ?_⟩
      by_cases hk : k = orderId
      · rw [if_pos hk, hk, hheld, Option.bind_some, afterBar, if_neg hsymbol]
        split
        · rw [Dict.get?_erase, if_pos rfl]
        · rw [Dict.get?_set, if_pos rfl]
      · rw [if_neg hk]
        split
        · rw [Dict.get?_erase, if_neg hk]
        · rw [Dict.get?_set, if_neg hk]

theorem payQueue_eq (self : FillSimulation) (bar : Bar) : ∀ (orderIds : List Uuid)
    (state : SimulationState), orderIds.Nodup →
    ∃ resting, self.payQueue bar orderIds state =
        (.ok ((orderIds.filterMap (self.paidAt bar state)).map (·.fill)), { state with
          resting := resting
          fills := state.fills ++ orderIds.filterMap (self.paidAt bar state) }) ∧
      ∀ k, resting.get? k =
        if k ∈ orderIds then (state.resting.get? k).bind (afterBar bar) else state.resting.get? k
  | [], state, _ => ⟨state.resting, by simp [payQueue], fun k => by simp⟩
  | orderId :: rest, state, hnodup => by
    obtain ⟨hnotin, hrest⟩ := List.nodup_cons.mp hnodup
    obtain ⟨first, hfirst, hfirstGet⟩ := self.payOrder_eq bar orderId state
    rw [payQueue, hfirst, Ran.chain_ok]
    obtain ⟨resting, hmore, hget⟩ := self.payQueue_eq bar rest { state with
      resting := first
      fills := state.fills ++ (self.paidAt bar state orderId).toList } hrest
    -- paying one order leaves every other one as it stood
    have hsame : rest.filterMap (self.paidAt bar { state with
        resting := first
        fills := state.fills ++ (self.paidAt bar state orderId).toList }) =
        rest.filterMap (self.paidAt bar state) := by
      refine List.filterMap_congr fun k hk => ?_
      have hne : k ≠ orderId := fun h => hnotin (h ▸ hk)
      simp only [paidAt, hfirstGet k, if_neg hne]
    rw [hsame] at hmore
    rw [hmore, Ran.chain_ok]
    refine ⟨resting, ?_, fun k => ?_⟩
    · rw [List.filterMap_cons]
      cases self.paidAt bar state orderId <;> simp
    · rw [hget k, hfirstGet k]
      by_cases hk : k = orderId
      · simp [hk, hnotin]
      · simp [hk]

/-- What a bar pays, in the order of the resting ids. -/
def paidBy (self : FillSimulation) (bar : Bar) (state : SimulationState) : List VenueFillRecord :=
  (sortBy id state.resting.keys).filterMap (self.paidAt bar state)

/-- Observing a bar raises only where the bar cannot be quoted, and then changes nothing; otherwise it
    keeps the quote and pays every resting order on its own. -/
theorem observe_eq (self : FillSimulation) (bar : Bar) (state : SimulationState) :
    (∃ e, self.quoteOf bar = .error e ∧ self.observe bar state = (.error e, state)) ∨
    (∃ quote resting, self.quoteOf bar = .ok quote ∧
      self.observe bar state = (.ok ((self.paidBy bar state).map (·.fill)), { state with
        quotes := state.quotes.set bar.instrument.symbol quote
        resting := resting
        fills := state.fills ++ self.paidBy bar state }) ∧
      ∀ k, resting.get? k = (state.resting.get? k).bind (afterBar bar)) := by
  rw [observe]
  cases hquote : self.quoteOf bar with
  | error e => exact Or.inl ⟨e, rfl, rfl⟩
  | ok quote =>
    right
    have hnodup : (sortBy id state.resting.keys).Nodup :=
      (perm_sortBy id _).nodup_iff.mpr state.resting.nodupKeys
    obtain ⟨resting, hpaid, hget⟩ := self.payQueue_eq bar (sortBy id state.resting.keys)
      { state with quotes := state.quotes.set bar.instrument.symbol quote } hnodup
    refine ⟨quote, resting, rfl, hpaid, fun k => ?_⟩
    rw [hget k]
    split
    · rfl
    · next hk =>
      rw [mem_sortBy, Dict.mem_keys_iff, Option.not_isSome_iff_eq_none] at hk
      rw [hk]
      rfl

/-! ### A submission -/

/-- The instant the venue answers a decision at. -/
def acknowledgedAt (self : FillSimulation) (decidedAtUtc : DateTime) : DateTime :=
  (self.scheduleFor decidedAtUtc).acknowledgedAtUtc

theorem le_acknowledgedAt (self : FillSimulation) (decidedAtUtc : DateTime) :
    decidedAtUtc ≤ self.acknowledgedAt decidedAtUtc := by
  have hsend := self.costModel.latency.decisionToSend_nonneg
  have hack := self.costModel.latency.sendToAck_nonneg
  simp only [acknowledgedAt, scheduleFor]
  linarith

/-- How a submission ends, with the state it leaves: it raises, is refused, or pends on its ack. -/
inductive Submitted (self : FillSimulation) (order : Order) (decidedAtUtc : DateTime)
    (state : SimulationState) : Ran SimulationState SubmitAnswer → Prop
  | raised (error : PyError) (recent : List DateTime) :
      Submitted self order decidedAtUtc state
        (.error error, { state with recentSubmissions := recent })
  | refused (rejection : Rejection) (refusal : RejectEvent) (recent : List DateTime)
      (hcreated : order.createdAtUtc ≤ decidedAtUtc)
      (hrefusal : refusal.toRejectEventFields =
        ⟨order, self.acknowledgedAt decidedAtUtc, rejection.asRejectText⟩) :
      Submitted self order decidedAtUtc state (.ok (.refused refusal),
        { state with recentSubmissions := recent }.countRejection rejection.reason)
  | acknowledged (quote : TouchQuote) (recent : List DateTime)
      (hcreated : order.createdAtUtc ≤ decidedAtUtc)
      (hquote : state.quotes.get? order.instrument.symbol = some quote) :
      Submitted self order decidedAtUtc state
        (.ok (.acknowledged ⟨order, self.acknowledgedAt decidedAtUtc⟩),
          { state with recentSubmissions := recent, pending := state.pending.set order.orderId order })

/-- An order that passes its screen had a book to be priced against. -/
theorem quote_of_screenAgainst {verdict : Option Rejection}
    (h : self.screenAgainst order state = .ok verdict) :
    ∃ quote, state.quotes.get? order.instrument.symbol = some quote := by
  rw [screenAgainst] at h
  split at h
  · exact absurd h raise_ne_ok
  · rw [bind_eq_ok] at h
    obtain ⟨quote, hquote, _⟩ := h
    rw [quoteOrRaise] at hquote
    split at hquote
    · next held hheld => exact ⟨held, hheld⟩
    · exact absurd hquote raise_ne_ok

/-- The screen moves the rate window and nothing else. -/
theorem screen_cases (self : FillSimulation) (order : Order) (arrivesAtUtc : DateTime)
    (state : SimulationState) :
    ∃ verdict recent, self.screen order arrivesAtUtc state =
        (verdict, { state with recentSubmissions := recent }) ∧
      (verdict = .ok none → ∃ quote, state.quotes.get? order.instrument.symbol = some quote) := by
  rw [screen, withinOrderRateBudget]
  split
  · next after hbudget =>
    split at hbudget
    · obtain rfl := (Prod.mk.inj hbudget).2
      exact ⟨_, _, rfl, fun h => by cases h⟩
    · cases (Prod.mk.inj hbudget).1
  · next after hbudget =>
    split at hbudget
    · cases (Prod.mk.inj hbudget).1
    · obtain rfl := (Prod.mk.inj hbudget).2
      exact ⟨_, _, rfl, quote_of_screenAgainst⟩

theorem submit_spec (self : FillSimulation) (order : Order) (decidedAtUtc : DateTime)
    (state : SimulationState) :
    Submitted self order decidedAtUtc state (self.submit order decidedAtUtc state) := by
  rw [submit]
  rcases hschedule : self.scheduleOrRaise order decidedAtUtc with e | schedule
  · exact .raised e state.recentSubmissions
  simp only [scheduleOrRaise, bind_eq_ok, raiseIf_eq_ok, pure_eq_ok, not_lt] at hschedule
  obtain ⟨_, hcreated, rfl⟩ := hschedule
  obtain ⟨verdict, recent, hscreen, hquoted⟩ :=
    self.screen_cases order (self.scheduleFor decidedAtUtc).arrivesAtUtc state
  rw [Ran.chain_ok, hscreen]
  rcases verdict with e | _ | rejection
  · exact .raised e recent
  · obtain ⟨quote, hquote⟩ := hquoted rfl
    exact .acknowledged quote recent hcreated hquote
  · obtain ⟨refusal, hrefusal, hreject⟩ := reject_eq order
      (self.scheduleFor decidedAtUtc).acknowledgedAtUtc rejection
      { state with recentSubmissions := recent }
    simp only [Ran.chain_ok, hreject]
    exact .refused rejection refusal recent hcreated hrefusal

/-- The answer to a submission depends on the quotes and the rate window alone. -/
theorem submit_congr (self : FillSimulation) (order : Order) (decidedAtUtc : DateTime)
    {left right : SimulationState} (hquotes : left.quotes = right.quotes)
    (hrecent : left.recentSubmissions = right.recentSubmissions) :
    (self.submit order decidedAtUtc left).1 = (self.submit order decidedAtUtc right).1 ∧
      (self.submit order decidedAtUtc left).2.recentSubmissions =
        (self.submit order decidedAtUtc right).2.recentSubmissions := by
  have hverdict : ∀ arrivesAtUtc, (self.screen order arrivesAtUtc left).1 =
        (self.screen order arrivesAtUtc right).1 ∧
      (self.screen order arrivesAtUtc left).2.recentSubmissions =
        (self.screen order arrivesAtUtc right).2.recentSubmissions := by
    intro arrivesAtUtc
    simp only [screen, withinOrderRateBudget, hrecent]
    by_cases hbudget : self.orderRateBudget ≤ (right.recentSubmissions.filter
        (fun sent => arrivesAtUtc - self.orderRateWindow < sent)).length
    · rw [if_pos hbudget, if_pos hbudget]
      exact ⟨rfl, rfl⟩
    · rw [if_neg hbudget, if_neg hbudget]
      refine ⟨?_, rfl⟩
      simp only [screenAgainst, quoteOrRaise, hquotes]
  rw [submit, submit]
  rcases self.scheduleOrRaise order decidedAtUtc with e | schedule
  · exact ⟨rfl, hrecent⟩
  obtain ⟨hfst, hsnd⟩ := hverdict schedule.arrivesAtUtc
  rw [Ran.chain_ok, Ran.chain_ok]
  rcases hleft : self.screen order schedule.arrivesAtUtc left with ⟨verdict, after⟩
  rcases hright : self.screen order schedule.arrivesAtUtc right with ⟨verdict', after'⟩
  rw [hleft, hright] at hfst hsnd
  obtain rfl : verdict = verdict' := hfst
  rcases verdict with e | _ | rejection
  · exact ⟨rfl, hsnd⟩
  · exact ⟨rfl, hsnd⟩
  · obtain ⟨refusal, hrefusal, hreject⟩ := reject_eq order schedule.acknowledgedAtUtc rejection after
    obtain ⟨refusal', hrefusal', hreject'⟩ :=
      reject_eq order schedule.acknowledgedAtUtc rejection after'
    obtain rfl : refusal = refusal' := by
      cases refusal
      cases refusal'
      simp_all
    simp only [Ran.chain_ok, hreject, hreject']
    exact ⟨trivial, hsnd⟩

/-! ### A resolution -/

/-- What an acknowledged order turns into. -/
inductive Resolution where
  | crossed (records : List VenueFillRecord)
  | refused (rejection : Rejection)
  | rests (resting : RestingOrder)

/-- What a resolution prints. -/
def Resolution.records : Resolution → List VenueFillRecord
  | .crossed records => records
  | .refused _ => []
  | .rests _ => []

/-- The record of one leg of a crossing order; a leg of nothing prints nothing. -/
def legRecord (self : FillSimulation) (order : Order) (baseQuantity quotePrice : Decimal)
    (eventTimeUtc : DateTime) (sequence : ℕ) : Option VenueFillRecord :=
  if 0 < baseQuantity then
    self.record? order baseQuantity quotePrice eventTimeUtc false sequence
  else none

/-- The prints of an order that crosses: its part at the touch, then its part beyond. -/
def crossRecords (self : FillSimulation) (order : Order) (quote : TouchQuote) (walk : DepthWalk)
    (fillAtUtc : DateTime) : List VenueFillRecord :=
  let atTouch := atTouchOf order quote
  let beyond := order.baseQuantity - atTouch
  (self.legRecord order atTouch (quote.clampIntoRange (quote.touchFor order.side)) fillAtUtc 0).toList ++
    (self.legRecord order beyond (beyondQuotePrice order quote walk beyond)
      (fillAtUtc + self.sequentialFillGap) 1).toList

/-- The outcome of an ack, as a function of the order, the quote and the instant. -/
def resolution (self : FillSimulation) (order : Order) (quote : TouchQuote)
    (fillAtUtc : DateTime) : Resolution :=
  if isMarketable order quote then
    match walkDepth quote.depth order.baseQuantity with
    | .error _ => .crossed []
    | .ok walk =>
      if walk.isUnfillable then
        .refused ⟨.unfillableDepth, [.decimal order.baseQuantity,
          " beyond the modelled +-1% band of ", .decimal quote.depth.band1pctBase]⟩
      else .crossed (self.crossRecords order quote walk fillAtUtc)
  else
    match order.limitQuotePrice with
    | none => .crossed []
    | some limit =>
      if order.timeInForce = .ioc ∨ order.timeInForce = .fok then
        .refused ⟨.unfillableDepth, [order.timeInForce.value, " at ", .decimal limit,
          " did not cross a touch of ", .decimal (quote.touchFor order.side)]⟩
      else .rests (joinQueue order limit quote)

/-! ### Crossing -/

variable {quote : TouchQuote} {walk : DepthWalk} {fillAtUtc : DateTime} {record : VenueFillRecord}

/-- A quote whose range is one a bar can have. -/
def Ranged (quote : TouchQuote) : Prop :=
  0 < quote.lowQuotePrice ∧ quote.lowQuotePrice ≤ quote.highQuotePrice

theorem ranged_of_quoteOf (h : self.quoteOf bar = .ok quote) :
    quote.lowQuotePrice = bar.lowQuotePrice ∧ quote.highQuotePrice = bar.highQuotePrice ∧
      Ranged quote := by
  simp only [quoteOf, bind_eq_ok] at h
  obtain ⟨_, _, _, _, h⟩ := h
  obtain ⟨hlow, hhigh⟩ := quoteFromBar_range h
  refine ⟨hlow, hhigh, ?_⟩
  rw [Ranged, hlow, hhigh]
  exact ⟨bar.postInit_facts.2.1, bar.low_le_high⟩

/-- The part at the touch is a part of the order. -/
theorem atTouchOf_mem (order : Order) (quote : TouchQuote) :
    0 ≤ atTouchOf order quote ∧ atTouchOf order quote ≤ order.baseQuantity := by
  have hlot := order.instrument.lotStep_pos
  have hmin : 0 ≤ min order.baseQuantity quote.depth.depthAtTouchBase :=
    le_min order.baseQuantity_pos.le quote.depth.touch_pos.le
  exact ⟨snapTowardZero_nonneg hlot hmin, (snapTowardZero_le hlot hmin).trans (min_le_left _ _)⟩

/-- A leg at a positive price prints its quantity, unless there is nothing of it. -/
theorem legRecord_cases (self : FillSimulation) (order : Order) (baseQuantity : Decimal)
    {quotePrice : Decimal} (eventTimeUtc : DateTime) (sequence : ℕ) (hprice : 0 < quotePrice) :
    (baseQuantity ≤ 0 ∧
      self.legRecord order baseQuantity quotePrice eventTimeUtc sequence = none ∧
      ∀ state, self.printCross order baseQuantity quotePrice eventTimeUtc sequence state =
        (.ok [], state)) ∨
    (0 < baseQuantity ∧ ∃ record,
      self.legRecord order baseQuantity quotePrice eventTimeUtc sequence = some record ∧
      PrintOf self order false sequence record ∧ record.fill.baseQuantity = baseQuantity ∧
      record.fill.quotePrice = quotePrice ∧ record.fill.eventTimeUtc = eventTimeUtc ∧
      ∀ state, self.printCross order baseQuantity quotePrice eventTimeUtc sequence state =
        (.ok [.printed record.fill], { state with fills := state.fills ++ [record] })) := by
  by_cases hquantity : 0 < baseQuantity
  · right
    obtain ⟨record, hrecord, hprint⟩ := self.record?_of_pos order eventTimeUtc false sequence hquantity hprice
    obtain ⟨hof, hbase, hat, htime⟩ := record?_eq_some hrecord
    refine ⟨hquantity, record, ?_, hof, hbase, hat, htime, fun state => ?_⟩
    · rw [legRecord, if_pos hquantity, hrecord]
    · rw [printCross, if_pos hquantity, hprint, Ran.chain_ok]
  · left
    refine ⟨not_lt.mp hquantity, ?_, fun state => ?_⟩
    · rw [legRecord, if_neg hquantity]
    · rw [printCross, if_neg hquantity]

/-- What the prints of a crossing order are: at most one a sequence number, in the quote's range, and
    together the whole order. -/
structure Crossed (simulation : FillSimulation) (order : Order) (quote : TouchQuote)
    (fillAtUtc : DateTime) (records : List VenueFillRecord) : Prop where
  legs : ∃ touched walked : Option VenueFillRecord, records = touched.toList ++ walked.toList ∧
    (∀ record ∈ touched, PrintOf simulation order false 0 record ∧ record.fill.eventTimeUtc = fillAtUtc) ∧
    ∀ record ∈ walked, PrintOf simulation order false 1 record ∧
      record.fill.eventTimeUtc = fillAtUtc + simulation.sequentialFillGap
  range : ∀ record ∈ records, quote.lowQuotePrice ≤ record.fill.quotePrice ∧
    record.fill.quotePrice ≤ quote.highQuotePrice
  quantity : (records.map (·.fill.baseQuantity)).sum = order.baseQuantity

/-- The imperative crossing prints exactly the crossing's records. -/
theorem cross_eq (self : FillSimulation) (fillAtUtc : DateTime) (hrange : Ranged quote) (hwalk : walkDepth quote.depth order.baseQuantity = .ok walk)
    (hfillable : walk.isUnfillable = false) (state : SimulationState) :
    Crossed self order quote fillAtUtc (self.crossRecords order quote walk fillAtUtc) ∧
      self.cross order quote fillAtUtc state =
        (.ok ((self.crossRecords order quote walk fillAtUtc).map (AckOutcome.printed ·.fill)),
          { state with fills := state.fills ++ self.crossRecords order quote walk fillAtUtc }) := by
  obtain ⟨hpos, hle⟩ := hrange
  obtain ⟨hnonneg, hpart⟩ := atTouchOf_mem order quote
  have hbase := order.baseQuantity_pos
  have htouch := quote.clampIntoRange_mem hle (quote.touchFor order.side)
  have hbeyond : quote.lowQuotePrice ≤
        beyondQuotePrice order quote walk (order.baseQuantity - atTouchOf order quote) ∧
      beyondQuotePrice order quote walk (order.baseQuantity - atTouchOf order quote) ≤
        quote.highQuotePrice := quote.clampIntoRange_mem hle _
  rw [cross, hwalk, Ran.chain_ok, hfillable]
  simp only [Bool.false_eq_true, if_false, crossRecords]
  -- both legs at their own price, each printing or not
  rcases self.legRecord_cases order (atTouchOf order quote) fillAtUtc 0 (hpos.trans_le htouch.1) with
    ⟨hzero, hnone, hskip⟩ | ⟨hone, first, hfirst, hof, hquantity, hprice, htime, hprint⟩ <;>
  rcases self.legRecord_cases order (order.baseQuantity - atTouchOf order quote)
      (fillAtUtc + self.sequentialFillGap) 1 (hpos.trans_le hbeyond.1) with
    ⟨hzero', hnone', hskip'⟩ | ⟨hone', second, hsecond, hof', hquantity', hprice', htime', hprint'⟩
  · linarith
  · rw [hskip, hnone, Ran.chain_ok, hprint', hsecond, Ran.chain_ok]
    refine ⟨⟨⟨none, some second, rfl, by simp, by simpa using ⟨hof', htime'⟩⟩, ?_, ?_⟩, by simp⟩
    · simpa [hprice'] using hbeyond
    · simp only [Option.toList_none, Option.toList_some, List.nil_append, List.map_cons, List.map_nil,
        List.sum_cons, List.sum_nil, hquantity']
      linarith
  · rw [hprint, hfirst, Ran.chain_ok, hskip', hnone', Ran.chain_ok]
    refine ⟨⟨⟨some first, none, rfl, by simpa using ⟨hof, htime⟩, by simp⟩, ?_, ?_⟩, by simp⟩
    · simpa [hprice] using htouch
    · simp only [Option.toList_none, Option.toList_some, List.append_nil, List.map_cons, List.map_nil,
        List.sum_cons, List.sum_nil, hquantity]
      linarith
  · rw [hprint, hfirst, Ran.chain_ok, hprint', hsecond, Ran.chain_ok]
    refine ⟨⟨⟨some first, some second, rfl, by simpa using ⟨hof, htime⟩,
      by simpa using ⟨hof', htime'⟩⟩, ?_, ?_⟩, by simp⟩
    · simpa [hprice, hprice'] using ⟨htouch, hbeyond⟩
    · simp [hquantity, hquantity']

/-! ### Resolving -/

/-- How the resolution of an order the venue holds ends, from the state that no longer holds it. -/
inductive Resolved (self : FillSimulation) (order : Order) (quote : TouchQuote)
    (fillAtUtc : DateTime) (state : SimulationState) :
    Resolution → Ran SimulationState (List AckOutcome) → Prop
  | crossed (records : List VenueFillRecord) (hcrossed : Crossed self order quote fillAtUtc records) :
      Resolved self order quote fillAtUtc state (.crossed records)
        (.ok (records.map (AckOutcome.printed ·.fill)),
          { state with fills := state.fills ++ records })
  | refused (rejection : Rejection) (refusal : RejectEvent)
      (hrefusal : refusal.toRejectEventFields = ⟨order, fillAtUtc, rejection.asRejectText⟩) :
      Resolved self order quote fillAtUtc state (.refused rejection)
        (.ok [.refused refusal], state.countRejection rejection.reason)
  | rests (limit : Decimal) (hunmarketable : isMarketable order quote = false) :
      Resolved self order quote fillAtUtc state (.rests (joinQueue order limit quote))
        (.ok [], { state with
          resting := state.resting.set order.orderId (joinQueue order limit quote) })

/-- A limit order that is not marketable has a price. -/
theorem exists_limit_of_unmarketable (h : isMarketable order quote = false) :
    ∃ limit, order.limitQuotePrice = some limit := by
  cases hlimit : order.limitQuotePrice with
  | some limit => exact ⟨limit, rfl⟩
  | none =>
    cases htype : order.orderType <;> simp [isMarketable, hlimit, htype] at h

theorem resolved_of_ranged (hrange : Ranged quote) (state : SimulationState) :
    Resolved self order quote fillAtUtc state (self.resolution order quote fillAtUtc)
      (if isMarketable order quote then self.cross order quote fillAtUtc state
        else restOrRefuse order quote fillAtUtc state) := by
  rw [resolution]
  cases hmarketable : isMarketable order quote with
  | true =>
    obtain ⟨walk, hwalk, _⟩ := walkDepth_of_pos quote.depth order.baseQuantity_pos
    simp only [if_true, hwalk]
    cases hunfillable : walk.isUnfillable with
    | true =>
      obtain ⟨refusal, hrefusal, hreject⟩ := reject_eq order fillAtUtc ⟨.unfillableDepth,
        [.decimal order.baseQuantity, " beyond the modelled +-1% band of ",
          .decimal quote.depth.band1pctBase]⟩ state
      simp only [cross, hwalk, Ran.chain_ok, hunfillable, if_true, hreject]
      exact .refused _ refusal hrefusal
    | false =>
      obtain ⟨hcrossed, hrun⟩ := self.cross_eq fillAtUtc hrange hwalk hunfillable state
      rw [hrun]
      exact .crossed _ hcrossed
  | false =>
    obtain ⟨limit, hlimit⟩ := exists_limit_of_unmarketable hmarketable
    simp only [Bool.false_eq_true, if_false, hlimit, restOrRefuse]
    split
    · obtain ⟨refusal, hrefusal, hreject⟩ := reject_eq order fillAtUtc ⟨.unfillableDepth,
        [order.timeInForce.value, " at ", .decimal limit, " did not cross a touch of ",
          .decimal (quote.touchFor order.side)]⟩ state
      rw [hreject, Ran.chain_ok]
      exact .refused _ refusal hrefusal
    · exact .rests limit hmarketable

/-- Resolving an ack takes its order out of the pending ones and gives its resolution. -/
theorem resolveAck_spec (self : FillSimulation) (ack : OrderAckEvent)
    (hpending : state.pending.get? ack.order.orderId = some order)
    (hquote : state.quotes.get? order.instrument.symbol = some quote) (hrange : Ranged quote) :
    Resolved self order quote (ack.occursAtUtc + self.costModel.latency.ackToFill)
      { state with pending := state.pending.erase ack.order.orderId }
      (self.resolution order quote (ack.occursAtUtc + self.costModel.latency.ackToFill))
      (self.resolveAck ack state) := by
  simp only [resolveAck, hpending, quoteOrRaise, hquote, Ran.chain_ok]
  exact resolved_of_ranged hrange _

theorem resolveAck_of_none (self : FillSimulation) (ack : OrderAckEvent)
    (h : state.pending.get? ack.order.orderId = none) :
    ∃ error, self.resolveAck ack state = (.error error, state) := by
  rw [resolveAck, h]
  exact ⟨_, rfl⟩

end FillSimulation

end FinanceKing.Backtest
