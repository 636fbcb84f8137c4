import FinanceKing.Backtest.Venue.OrderView

/-! Limit prices. What rests is paid no worse than its limit, and so is what crosses at the touch; the
    part of a crossing order beyond the touch is priced off the touch and clamped into the bar's range,
    and nothing compares that price with the limit. -/

namespace FinanceKing.Backtest

open Lib

/-- A price no worse than the limit, for the side of the order. -/
def WithinLimit (side : Side) (limitQuotePrice quotePrice : Decimal) : Prop :=
  match side with
  | .buy => quotePrice ≤ limitQuotePrice
  | .sell => limitQuotePrice ≤ quotePrice

instance (side : Side) (limitQuotePrice quotePrice : Decimal) :
    Decidable (WithinLimit side limitQuotePrice quotePrice) :=
  match side with
  | .buy => inferInstanceAs (Decidable (quotePrice ≤ limitQuotePrice))
  | .sell => inferInstanceAs (Decidable (limitQuotePrice ≤ quotePrice))

theorem restingFillQuotePrice_within (bar : Bar) (side : Side) (limitQuotePrice : Decimal) :
    WithinLimit side limitQuotePrice (restingFillQuotePrice bar side limitQuotePrice) := by
  cases side with
  | buy => exact min_le_left _ _
  | sell => exact le_max_left _ _

theorem consume_price_within {resting : RestingOrder} {bar : Bar} {price : Decimal}
    (h : (consume resting bar).fillQuotePrice = some price) :
    WithinLimit resting.order.side resting.limitQuotePrice price := by
  simp only [consume] at h
  split_ifs at h
  obtain rfl := Option.some.inj h
  exact restingFillQuotePrice_within bar resting.order.side resting.limitQuotePrice

/-! ### The touch -/

theorem le_snapAwayFromZero {step x : Decimal} (hs : 0 < step) (hx : 0 ≤ x) :
    x ≤ snapWith roundAwayFromZero step x := by
  have hceil : x / step ≤ (⌈x / step⌉ : ℚ) := Int.le_ceil _
  rw [snapWith, roundAwayFromZero, if_pos (div_nonneg hx hs.le)]
  exact (div_le_iff₀ hs).mp hceil

/-- The bid does not lie above the range the quote carries, nor the ask below it. -/
structure TouchesRange (quote : TouchQuote) : Prop where
  bid : quote.bidQuotePrice ≤ quote.highQuotePrice
  ask : quote.lowQuotePrice ≤ quote.askQuotePrice

theorem quoteFromBar_touchesRange {bar : Bar} {spreadBps : Decimal} {depth : DepthProfile}
    {quote : TouchQuote} (h : quoteFromBar bar spreadBps depth = .ok quote) : TouchesRange quote := by
  obtain ⟨_, hlow, _, _, htop, hbottom⟩ := bar.postInit_facts
  have hclose : bar.lowQuotePrice ≤ bar.closeQuotePrice := hbottom.trans (min_le_right _ _)
  have hclose' : bar.closeQuotePrice ≤ bar.highQuotePrice := (le_max_right _ _).trans htop
  have hpos : 0 < bar.closeQuotePrice := hlow.trans_le hclose
  have htick := bar.instrument.tickSize_pos
  simp only [quoteFromBar, bind_eq_ok, raiseIf_eq_ok, not_lt] at h
  obtain ⟨_, hspread, h⟩ := h
  obtain ⟨_, rfl⟩ := construct_eq_ok h
  have hhalf : 0 ≤ bar.closeQuotePrice * spreadBps / bpsPerUnit / 2 :=
    div_nonneg (div_nonneg (mul_nonneg hpos.le hspread) (by norm_num [bpsPerUnit])) zero_le_two
  constructor
  · rcases snapTowardZero_between htick
      (bar.closeQuotePrice - bar.closeQuotePrice * spreadBps / bpsPerUnit / 2) with
      ⟨_, hbid⟩ | ⟨_, hbid⟩
    · exact hbid.trans (by linarith)
    · exact hbid.trans (hpos.le.trans hclose')
  · exact (hclose.trans (by linarith)).trans (le_snapAwayFromZero htick (by linarith))

/-- The end of the quoted range an order can be priced at worst. -/
def TouchQuote.farEdge (quote : TouchQuote) : Side → Decimal
  | .buy => quote.highQuotePrice
  | .sell => quote.lowQuotePrice

/-- A price at least as bad as the touch is clamped from its far side only. -/
theorem clampIntoRange_within_iff {quote : TouchQuote} (limit : Decimal)
    (htouches : TouchesRange quote) {side : Side} {price : Decimal} (h : WithinLimit side price (quote.touchFor side)) :
    WithinLimit side limit (quote.clampIntoRange price) ↔
      WithinLimit side limit (quote.farEdge side) ∨ WithinLimit side limit price := by
  cases side with
  | buy =>
    have hlow : ¬price < quote.lowQuotePrice := not_lt.mpr (htouches.ask.trans h)
    have hclamp : quote.clampIntoRange price = min quote.highQuotePrice price := by
      rw [TouchQuote.clampIntoRange, if_neg hlow, min_def]
      split_ifs with hhigh hle hle <;> linarith
    rw [hclamp]
    exact min_le_iff
  | sell =>
    have hhigh : ¬quote.highQuotePrice < price := not_lt.mpr (le_trans h htouches.bid)
    have hclamp : quote.clampIntoRange price = max quote.lowQuotePrice price := by
      rw [TouchQuote.clampIntoRange, if_neg hhigh, max_def]
      split_ifs with hlow hle hle <;> linarith
    rw [hclamp]
    exact le_max_iff

namespace FillSimulation

variable {self : FillSimulation} {order : Order} {quote : TouchQuote} {walk : DepthWalk}
  {limit : Decimal} {fillAtUtc : DateTime} {record : VenueFillRecord}

/-! ### Crossing -/

/-- An order that carries a limit is a limit order at a positive one. -/
theorem limit_facts (hlimit : order.limitQuotePrice = some limit) :
    order.orderType = .limit ∧ 0 < limit := by
  have hchecked := order.checked
  simp only [OrderFields.postInit, bind_eq_ok, hlimit] at hchecked
  obtain ⟨_, _, _, _, hkind⟩ := hchecked
  cases htype : order.orderType with
  | limit =>
    rw [htype] at hkind
    exact ⟨rfl, requirePositiveDecimal_eq_ok.mp hkind⟩
  | market =>
    rw [htype] at hkind
    cases hkind

theorem touch_within (hmarketable : isMarketable order quote = true)
    (hlimit : order.limitQuotePrice = some limit) :
    WithinLimit order.side limit (quote.touchFor order.side) := by
  rw [isMarketable, (limit_facts hlimit).1, hlimit] at hmarketable
  cases hside : order.side <;> rw [hside] at hmarketable <;> exact of_decide_eq_true hmarketable

/-- What the part beyond the touch pays over it, in basis points of the touch: the average walk into
    the band, carried by the lots that did not fit the touch. -/
def beyondTouchBps (order : Order) (quote : TouchQuote) : Decimal :=
  let walked := order.baseQuantity - quote.depth.depthAtTouchBase
  let bandDepth := quote.depth.band1pctBase - quote.depth.depthAtTouchBase
  bandWidthBps * (walked / bandDepth) / 2 * walked / (order.baseQuantity - atTouchOf order quote)

def displacedTouch (order : Order) (quote : TouchQuote) : Decimal :=
  quote.touchFor order.side *
    (bpsPerUnit + beyondTouchBps order quote * order.side.signedMultiplier) / bpsPerUnit

/-- An order larger than the touch, and within the band, walks at the displaced touch. -/
theorem beyondQuotePrice_eq (htouch : quote.depth.depthAtTouchBase < order.baseQuantity)
    (hband : order.baseQuantity ≤ quote.depth.band1pctBase)
    (hwalk : walkDepth quote.depth order.baseQuantity = .ok walk) :
    beyondQuotePrice order quote walk (order.baseQuantity - atTouchOf order quote) =
      quote.clampIntoRange (displacedTouch order quote) := by
  have hpos := order.baseQuantity_pos
  simp only [walkDepth, abs_of_pos hpos, if_neg (not_le.mpr hpos), if_neg (not_le.mpr htouch),
    if_neg (not_lt.mpr hband)] at hwalk
  obtain rfl := Except.ok.inj hwalk
  simp only [beyondQuotePrice, displacedTouch, beyondTouchBps]
  rw [div_mul_cancel₀ _ hpos.ne']

/-- An order the touch holds pays the touch for what is less than a lot of it. -/
theorem beyondQuotePrice_of_le (htouch : order.baseQuantity ≤ quote.depth.depthAtTouchBase)
    (hwalk : walkDepth quote.depth order.baseQuantity = .ok walk) (beyond : Decimal) :
    beyondQuotePrice order quote walk beyond = quote.clampIntoRange (quote.touchFor order.side) := by
  have hpos := order.baseQuantity_pos
  simp only [walkDepth, abs_of_pos hpos, if_neg (not_le.mpr hpos), if_pos htouch] at hwalk
  obtain rfl := Except.ok.inj hwalk
  have hbps : bpsPerUnit ≠ 0 := by norm_num [bpsPerUnit]
  simp only [beyondQuotePrice, zero_mul, zero_div, add_zero]
  rw [mul_div_cancel_right₀ _ hbps]

/-- The displaced touch is no better than the touch. -/
theorem touch_within_displaced (hrange : Ranged quote) (htouches : TouchesRange quote)
    (hmarketable : isMarketable order quote = true) (hlimit : order.limitQuotePrice = some limit)
    (htouch : quote.depth.depthAtTouchBase < order.baseQuantity)
    (hband : order.baseQuantity ≤ quote.depth.band1pctBase) :
    WithinLimit order.side (displacedTouch order quote) (quote.touchFor order.side) := by
  have hwithin := touch_within hmarketable hlimit
  have hlimitpos := (limit_facts hlimit).2
  have hbps : 0 ≤ beyondTouchBps order quote := by
    have hwalked : 0 ≤ order.baseQuantity - quote.depth.depthAtTouchBase := by linarith
    have hdepth : 0 ≤ quote.depth.band1pctBase - quote.depth.depthAtTouchBase := by linarith
    have hbeyond : 0 ≤ order.baseQuantity - atTouchOf order quote :=
      sub_nonneg.mpr (atTouchOf_mem order quote).2
    have hwidth : (0 : Decimal) ≤ bandWidthBps := by norm_num [bandWidthBps]
    exact div_nonneg (mul_nonneg (div_nonneg (mul_nonneg hwidth (div_nonneg hwalked hdepth))
      zero_le_two) hwalked) hbeyond
  have hunit : (0 : Decimal) < bpsPerUnit := by norm_num [bpsPerUnit]
  have htouchpos : 0 ≤ quote.touchFor order.side := by
    cases hside : order.side with
    | buy => exact hrange.1.le.trans htouches.ask
    | sell =>
      rw [hside] at hwithin
      exact hlimitpos.le.trans hwithin
  have hproduct := mul_nonneg htouchpos hbps
  cases hside : order.side with
  | buy =>
    change quote.touchFor .buy ≤ displacedTouch order quote
    rw [hside] at hproduct
    rw [displacedTouch, hside, le_div_iff₀ hunit, Side.signedMultiplier]
    linarith
  | sell =>
    change displacedTouch order quote ≤ quote.touchFor .sell
    rw [hside] at hproduct
    rw [displacedTouch, hside, div_le_iff₀ hunit, Side.signedMultiplier]
    linarith

/-- Where an order's limit survives its crossing: it fits the touch, exceeds the band and is refused,
    or what it walks to stays within the limit, clamped to the range or not. -/
def LimitSurvives (order : Order) (quote : TouchQuote) (limit : Decimal) : Prop :=
  order.baseQuantity ≤ quote.depth.depthAtTouchBase ∨ quote.depth.band1pctBase < order.baseQuantity ∨
    WithinLimit order.side limit (quote.farEdge order.side) ∨
    WithinLimit order.side limit (displacedTouch order quote)

/-- The prices a crossing order's prints carry. -/
theorem price_of_mem_crossRecords (h : record ∈ self.crossRecords order quote walk fillAtUtc) :
    record.fill.orderId = order.orderId ∧
      (record.fill.quotePrice = quote.clampIntoRange (quote.touchFor order.side) ∨
        record.fill.quotePrice =
          beyondQuotePrice order quote walk (order.baseQuantity - atTouchOf order quote)) := by
  have hleg : ∀ {baseQuantity quotePrice : Decimal} {eventTimeUtc : DateTime} {sequence : ℕ},
      self.legRecord order baseQuantity quotePrice eventTimeUtc sequence = some record →
      record.fill.orderId = order.orderId ∧ record.fill.quotePrice = quotePrice := by
    intro baseQuantity quotePrice eventTimeUtc sequence hrecord
    rw [legRecord] at hrecord
    split at hrecord
    · obtain ⟨hof, _, hprice, _⟩ := record?_eq_some hrecord
      exact ⟨hof.orderId_eq, hprice⟩
    · cases hrecord
  rcases List.mem_append.mp h with htouched | hwalked
  · obtain ⟨hid, hprice⟩ := hleg (Option.mem_toList.mp htouched)
    exact ⟨hid, .inl hprice⟩
  · obtain ⟨hid, hprice⟩ := hleg (Option.mem_toList.mp hwalked)
    exact ⟨hid, .inr hprice⟩

/-- An order the touch does not hold has a print beyond it. -/
theorem exists_beyond (self : FillSimulation) (hrange : Ranged quote)
    (htouch : quote.depth.depthAtTouchBase < order.baseQuantity) (walk : DepthWalk)
    (fillAtUtc : DateTime) : ∃ record ∈ self.crossRecords order quote walk fillAtUtc,
      record.fill.orderId = order.orderId ∧ record.fill.quotePrice =
        beyondQuotePrice order quote walk (order.baseQuantity - atTouchOf order quote) := by
  have hmin : 0 ≤ min order.baseQuantity quote.depth.depthAtTouchBase :=
    le_min order.baseQuantity_pos.le quote.depth.touch_pos.le
  have hpart : atTouchOf order quote ≤ quote.depth.depthAtTouchBase :=
    (snapTowardZero_le order.instrument.lotStep_pos hmin).trans (min_le_right _ _)
  have hprice : 0 < beyondQuotePrice order quote walk (order.baseQuantity - atTouchOf order quote) :=
    hrange.1.trans_le (quote.clampIntoRange_mem hrange.2 _).1
  rcases self.legRecord_cases order (order.baseQuantity - atTouchOf order quote)
      (fillAtUtc + self.sequentialFillGap) 1 hprice with
    ⟨hnone, _⟩ | ⟨_, record, hrecord, hof, _, hat, _, _⟩
  · linarith
  · refine ⟨record, ?_, hof.orderId_eq, hat⟩
    exact List.mem_append_right _ (Option.mem_toList.mpr hrecord)

/-- The prints of a crossing order keep its limit exactly where it survives. -/
theorem crossRecords_within_iff (hrange : Ranged quote) (htouches : TouchesRange quote)
    (hmarketable : isMarketable order quote = true) (hlimit : order.limitQuotePrice = some limit)
    (hwalk : walkDepth quote.depth order.baseQuantity = .ok walk)
    (hfillable : walk.isUnfillable = false) :
    (∀ record ∈ self.crossRecords order quote walk fillAtUtc,
      WithinLimit order.side limit record.fill.quotePrice) ↔ LimitSurvives order quote limit := by
  have hwithin := touch_within hmarketable hlimit
  have hself : WithinLimit order.side (quote.touchFor order.side) (quote.touchFor order.side) := by
    cases order.side <;> exact le_rfl
  have htouchprice : WithinLimit order.side limit
      (quote.clampIntoRange (quote.touchFor order.side)) :=
    (clampIntoRange_within_iff _ htouches hself).mpr (.inr hwithin)
  have hband : order.baseQuantity ≤ quote.depth.band1pctBase := by
    obtain ⟨walk', hwalk', hunfillable⟩ := walkDepth_of_pos quote.depth order.baseQuantity_pos
    obtain rfl := Except.ok.inj (hwalk'.symm.trans hwalk)
    exact not_lt.mp fun hlt => Bool.false_ne_true (hfillable.symm.trans (hunfillable.mpr hlt))
  rcases le_or_gt order.baseQuantity quote.depth.depthAtTouchBase with htouch | htouch
  · refine iff_of_true (fun record hrecord => ?_) (.inl htouch)
    obtain ⟨_, hprice | hprice⟩ := price_of_mem_crossRecords hrecord
    · rw [hprice]
      exact htouchprice
    · rw [hprice, beyondQuotePrice_of_le htouch hwalk]
      exact htouchprice
  · have hdisplaced := clampIntoRange_within_iff limit htouches
      (touch_within_displaced hrange htouches hmarketable hlimit htouch hband)
    rw [← beyondQuotePrice_eq htouch hband hwalk] at hdisplaced
    constructor
    · intro hall
      obtain ⟨record, hrecord, _, hprice⟩ := self.exists_beyond hrange htouch walk fillAtUtc
      have hkept := hall record hrecord
      rw [hprice] at hkept
      exact .inr (.inr (hdisplaced.mp hkept))
    · rintro (hsmall | hlarge | hkept) record hrecord
      · exact absurd hsmall (not_le.mpr htouch)
      · exact absurd hlarge (not_lt.mpr hband)
      · obtain ⟨_, hprice | hprice⟩ := price_of_mem_crossRecords hrecord
        · rw [hprice]
          exact htouchprice
        · rw [hprice]
          exact hdisplaced.mpr hkept

/-! ### Sessions -/

/-- What holds of every state a session reaches: a quote touches its range, and what rests does so at
    its order's limit. -/
structure Priced (state : SimulationState) : Prop where
  quotes : ∀ symbol quote, state.quotes.get? symbol = some quote → TouchesRange quote
  resting : ∀ id resting, state.resting.get? id = some resting →
    resting.order.limitQuotePrice = some resting.limitQuotePrice

theorem afterBar_limit {bar : Bar} {resting after : RestingOrder}
    (h : afterBar bar resting = some after) : after.limitQuotePrice = resting.limitQuotePrice := by
  rw [afterBar] at h
  split_ifs at h
  · rw [← Option.some.inj h]
  · rw [← Option.some.inj h]
    simp only [consume]
    split_ifs <;> rfl

theorem quoteOf_touchesRange {bar : Bar} (h : self.quoteOf bar = .ok quote) : TouchesRange quote := by
  simp only [quoteOf, bind_eq_ok] at h
  obtain ⟨_, _, _, _, h⟩ := h
  exact quoteFromBar_touchesRange h

/-- What comes to rest does so at its order's limit. -/
theorem limit_of_rests {resting : RestingOrder}
    (h : self.resolution order quote fillAtUtc = .rests resting) :
    resting.order.limitQuotePrice = some resting.limitQuotePrice := by
  rw [resolution] at h
  split at h
  · split at h
    · cases h
    · split at h <;> cases h
  · split at h
    · cases h
    · next limit hlimit =>
      split at h
      · cases h
      · cases h
        exact hlimit

theorem priced_stateAfter (self : FillSimulation) (calls : List VenueCall) :
    Priced (self.stateAfter calls) := by
  induction calls using List.reverseRecOn with
  | nil => constructor <;> intro _ _ h <;> cases h
  | append_singleton calls c ih =>
    have hspec := self.call_spec (consistent_stateAfter self calls) c
    rw [stateAfter_concat]
    generalize self.call c (self.stateAfter calls) = run at hspec
    cases hspec with
    | raised c error recent => exact ⟨ih.quotes, ih.resting⟩
    | refused order decidedAtUtc rejection refusal recent hrefusal => exact ⟨ih.quotes, ih.resting⟩
    | acknowledged order decidedAtUtc quote recent hquote => exact ⟨ih.quotes, ih.resting⟩
    | observed bar quote resting hquote hresting =>
      constructor
      · intro symbol held hheld
        rw [Dict.get?_set] at hheld
        split at hheld
        · rw [← Option.some.inj hheld]
          exact quoteOf_touchesRange hquote
        · exact ih.quotes symbol held hheld
      · intro id after hafter
        rw [hresting, Option.bind_eq_some_iff] at hafter
        obtain ⟨before, hbefore, hafter⟩ := hafter
        rw [afterBar_order hafter, afterBar_limit hafter]
        exact ih.resting id before hbefore
    | resolved ack order quote outcome outcomes after hpending hquote hrange houtcome hresolved =>
      cases hresolved with
      | crossed records hcrossed => exact ⟨ih.quotes, ih.resting⟩
      | refused rejection refusal hrefusal => exact ⟨ih.quotes, ih.resting⟩
      | rests limit hunmarketable =>
        refine ⟨ih.quotes, fun id held hheld => ?_⟩
        rw [Dict.get?_set] at hheld
        split at hheld
        · rw [← Option.some.inj hheld]
          exact limit_of_rests houtcome.symm
        · exact ih.resting id held hheld

/-- The order a call prints a fill for: the resting one a bar pays, or the pending one an ack resolves. -/
def printedFor (state : SimulationState) (c : VenueCall) (fill : Fill) : Option Order :=
  match c with
  | .observe _ => (state.resting.get? fill.orderId).map (·.order)
  | .submit _ _ => none
  | .resolveAck _ => state.pending.get? fill.orderId

/-- Every print of a session for an order with a limit is no worse than it. -/
def KeepsLimits (self : FillSimulation) (calls : List VenueCall) : Prop :=
  ∀ before c rest events fill order limit, calls = before ++ c :: rest →
    self.reply before c = .ok events → Event.fill fill ∈ events →
    printedFor (self.stateAfter before) c fill = some order → order.limitQuotePrice = some limit →
    WithinLimit order.side limit fill.quotePrice

/-- A bar pays a resting order no worse than its limit. -/
theorem observe_within {before : List VenueCall} {bar : Bar} {events : List Event} {fill : Fill}
    (hreply : self.reply before (.observe bar) = .ok events) (hfill : Event.fill fill ∈ events)
    (horder : printedFor (self.stateAfter before) (.observe bar) fill = some order)
    (hlimit : order.limitQuotePrice = some limit) : WithinLimit order.side limit fill.quotePrice := by
  have hconsistent := consistent_stateAfter self before
  have hspec := self.call_spec hconsistent (.observe bar)
  rw [reply] at hreply
  generalize self.call (.observe bar) (self.stateAfter before) = run at hspec hreply
  cases hspec with
  | raised c error recent => cases hreply
  | observed bar quote resting hquote hresting =>
    obtain rfl := Except.ok.inj hreply
    obtain ⟨record, hrecord, hsame⟩ := List.mem_map.mp hfill
    obtain rfl := Event.fill.inj hsame
    obtain ⟨id, held, hheld, hpaid⟩ := mem_paidBy hrecord
    obtain ⟨hof, _, _, _, hprice⟩ := paid_printOf hpaid
    have hid : record.fill.orderId = id := hof.orderId_eq.trans (hconsistent.restingKey id held hheld)
    rw [printedFor, hid, hheld, Option.map_some, Option.some.injEq] at horder
    have hat := (priced_stateAfter self before).resting id held hheld
    rw [horder, hlimit, Option.some.injEq] at hat
    rw [hat, ← horder]
    exact consume_price_within hprice

/-- What a resolved order prints, when it prints at all, are the prints of its crossing. -/
theorem records_of_crossed {records : List VenueFillRecord}
    (h : self.resolution order quote fillAtUtc = .crossed records) (hrecord : record ∈ records) :
    isMarketable order quote = true ∧ ∃ walk, walkDepth quote.depth order.baseQuantity = .ok walk ∧
      walk.isUnfillable = false ∧ records = self.crossRecords order quote walk fillAtUtc := by
  rw [resolution] at h
  split at h
  · next hmarketable =>
    split at h
    · cases h
      cases hrecord
    · next walk hwalk =>
      split at h
      · cases h
      · next hfillable =>
        cases h
        exact ⟨hmarketable, walk, hwalk, Bool.not_eq_true _ ▸ hfillable, rfl⟩
  · split at h
    · cases h
      cases hrecord
    · split at h <;> cases h

/-- A crossing order's prints are the reply to its ack. -/
theorem reply_of_marketable {before : List VenueCall} {ack : OrderAckEvent}
    (hpending : (self.stateAfter before).pending.get? ack.order.orderId = some order)
    (hquote : (self.stateAfter before).quotes.get? order.instrument.symbol = some quote)
    (hmarketable : isMarketable order quote = true)
    (hwalk : walkDepth quote.depth order.baseQuantity = .ok walk)
    (hfillable : walk.isUnfillable = false) :
    ∃ fillAtUtc, self.reply before (.resolveAck ack) =
      .ok ((self.crossRecords order quote walk fillAtUtc).map (Event.fill ·.fill)) := by
  have hrange := (consistent_stateAfter self before).ranged _ _ hquote
  have hspec := self.resolveAck_spec ack hpending hquote hrange
  rw [resolution, if_pos hmarketable, hwalk] at hspec
  simp only [hfillable, Bool.false_eq_true, if_false] at hspec
  refine ⟨ack.occursAtUtc + self.costModel.latency.ackToFill, ?_⟩
  rw [reply, call]
  generalize self.resolveAck ack (self.stateAfter before) = run at hspec
  cases hspec with
  | crossed records hcrossed =>
    rw [Ran.map_ok, List.map_map]
    rfl

/-- A buy of one and a half, limited to the ask of a touch that holds one. -/
def limitBuy : Order := ⟨sampleOrderFields 1 "a" (3 / 2) (some (10502 / 100)), by decide +kernel⟩

def limitBuySession : List VenueCall :=
  [.observe (sampleBar 10 20), .submit limitBuy 10, .resolveAck ⟨limitBuy, 10⟩]

end FillSimulation

end FinanceKing.Backtest
