import FinanceKing.Backtest.Costs
import FinanceKing.Domain.Market
import FinanceKing.Domain.Order

/-! The modelled book: a touch quote built from a bar that has closed and a calibrated spread, with the
    range that bar traded in. A fill price is clamped into the range; a quote is not. -/

namespace FinanceKing.Backtest

open Lib

structure TouchQuoteFields where
  instrument : Instrument
  asOfUtc : DateTime
  bidQuotePrice : Decimal
  askQuotePrice : Decimal
  lowQuotePrice : Decimal
  highQuotePrice : Decimal
  baseVolume : Decimal
  depth : DepthProfile
  deriving DecidableEq

def TouchQuoteFields.postInit (self : TouchQuoteFields) : PyResult Unit :=
  raiseIf (self.askQuotePrice < self.bidQuotePrice) .venueSimulation
    [self.instrument.symbol, " quote at ", .instant self.asOfUtc, " is crossed: bid ",
      .decimal self.bidQuotePrice, " above ask ", .decimal self.askQuotePrice]

/-- The top of the modelled book as of one closed bar, and that bar's traded range. -/
structure TouchQuote extends TouchQuoteFields where
  checked : toTouchQuoteFields.postInit = .ok ()
  deriving DecidableEq

namespace TouchQuote

variable (self : TouchQuote)

/-- The price an aggressor pays: a buy lifts the ask, a sell hits the bid. -/
def touchFor : Side → Decimal
  | .buy => self.askQuotePrice
  | .sell => self.bidQuotePrice

/-- Pull a modelled fill price back inside the bar's traded range. -/
def clampIntoRange (quotePrice : Decimal) : Decimal :=
  if quotePrice < self.lowQuotePrice then self.lowQuotePrice
  else if self.highQuotePrice < quotePrice then self.highQuotePrice
  else quotePrice

/-- A clamped price lies in the traded range. -/
theorem clampIntoRange_mem (hrange : self.lowQuotePrice ≤ self.highQuotePrice)
    (quotePrice : Decimal) : self.lowQuotePrice ≤ self.clampIntoRange quotePrice ∧
      self.clampIntoRange quotePrice ≤ self.highQuotePrice := by
  rw [clampIntoRange]
  split
  · exact ⟨le_rfl, hrange⟩
  · next hlow =>
    split
    · exact ⟨hrange, le_rfl⟩
    · next hhigh => exact ⟨not_lt.mp hlow, not_lt.mp hhigh⟩

end TouchQuote

/-- Build the modelled touch: the close as mid, half the spread on each side, each side snapped away
    from the mid. -/
def quoteFromBar (bar : Bar) (spreadBps : Decimal) (depth : DepthProfile) : PyResult TouchQuote := do
  raiseIf (spreadBps < 0) .venueSimulation
    ["spread_bps must not be negative; got ", .decimal spreadBps]
  let halfSpread := bar.closeQuotePrice * spreadBps / bpsPerUnit / 2
  let tick := bar.instrument.tickSize
  construct TouchQuoteFields.postInit TouchQuote.mk
    { instrument := bar.instrument
      asOfUtc := bar.closeTimeUtc
      bidQuotePrice := snapWith roundTowardZero tick (bar.closeQuotePrice - halfSpread)
      askQuotePrice := snapWith roundAwayFromZero tick (bar.closeQuotePrice + halfSpread)
      lowQuotePrice := bar.lowQuotePrice
      highQuotePrice := bar.highQuotePrice
      baseVolume := bar.baseVolume
      depth := depth }

/-- A quote carries the range of the bar it is built from. -/
theorem quoteFromBar_range {bar : Bar} {spreadBps : Decimal} {depth : DepthProfile}
    {quote : TouchQuote} (h : quoteFromBar bar spreadBps depth = .ok quote) :
    quote.lowQuotePrice = bar.lowQuotePrice ∧ quote.highQuotePrice = bar.highQuotePrice := by
  simp only [quoteFromBar, bind_eq_ok] at h
  obtain ⟨_, _, h⟩ := h
  obtain ⟨_, rfl⟩ := construct_eq_ok h
  exact ⟨rfl, rfl⟩

end FinanceKing.Backtest

/-! Queue position for a resting limit order. It joins the back of the quantity quoted when it came to
    rest, and volume traded at or beyond its price consumes the queue ahead first; only the surplus
    fills it, a whole number of lots at a time. -/

namespace FinanceKing.Backtest

open Lib

/-- A limit order working at the venue, and where it stands in the queue. -/
structure RestingOrder where
  order : Order
  limitQuotePrice : Decimal
  queueAheadBase : Decimal
  remainingBase : Decimal
  fillCount : ℕ
  deriving DecidableEq

/-- Whether nothing is left working. -/
def RestingOrder.isComplete (self : RestingOrder) : Bool := self.remainingBase ≤ 0

/-- What one bar did to one resting order. -/
structure QueueProgress where
  resting : RestingOrder
  filledBaseQuantity : Decimal
  fillQuotePrice : Option Decimal
  deriving DecidableEq

/-- The share of the bar's range at or beyond the limit, before it is capped at the whole. -/
def rangeShare (bar : Bar) (side : Side) (limitQuotePrice : Decimal) : Decimal :=
  match side with
  | .buy => (limitQuotePrice - bar.lowQuotePrice) / (bar.highQuotePrice - bar.lowQuotePrice)
  | .sell => (bar.highQuotePrice - limitQuotePrice) / (bar.highQuotePrice - bar.lowQuotePrice)

/-- Whether the bar traded at the limit or through it. -/
def reaches (bar : Bar) (side : Side) (limitQuotePrice : Decimal) : Bool :=
  match side with
  | .buy => bar.lowQuotePrice ≤ limitQuotePrice
  | .sell => limitQuotePrice ≤ bar.highQuotePrice

/-- The share of the bar's volume attributable to prints at or beyond the limit. -/
def volumeAtOrBeyond (bar : Bar) (side : Side) (limitQuotePrice : Decimal) : Decimal :=
  if ¬reaches bar side limitQuotePrice then 0
  else if bar.highQuotePrice - bar.lowQuotePrice = 0 then bar.baseVolume
  else
    let share := rangeShare bar side limitQuotePrice
    bar.baseVolume * (if 1 < share then 1 else share)

/-- The price a resting order fills at on this bar: its limit, capped into the range. -/
def restingFillQuotePrice (bar : Bar) (side : Side) (limitQuotePrice : Decimal) : Decimal :=
  match side with
  | .buy => min limitQuotePrice bar.highQuotePrice
  | .sell => max limitQuotePrice bar.lowQuotePrice

/-- Place an order at the back of the quantity quoted at the touch. -/
def joinQueue (order : Order) (limitQuotePrice : Decimal) (quote : TouchQuote) : RestingOrder where
  order := order
  limitQuotePrice := limitQuotePrice
  queueAheadBase := quote.depth.depthAtTouchBase
  remainingBase := order.baseQuantity
  fillCount := 0

/-- Apply one closed bar's traded volume to a resting order. -/
def consume (resting : RestingOrder) (bar : Bar) : QueueProgress :=
  let available := volumeAtOrBeyond bar resting.order.side resting.limitQuotePrice
  if available ≤ 0 then ⟨resting, 0, none⟩
  else if available ≤ resting.queueAheadBase then
    ⟨{ resting with queueAheadBase := resting.queueAheadBase - available }, 0, none⟩
  else
    let surplus := available - resting.queueAheadBase
    let filled := min surplus resting.remainingBase
    let quantized := resting.order.instrument.quantizeBaseQuantity filled
    if quantized ≤ 0 then
      -- less than one lot step: the queue moved, nothing is printed
      ⟨{ resting with queueAheadBase := 0 }, 0, none⟩
    else
      ⟨{ resting with
          queueAheadBase := 0
          remainingBase := resting.remainingBase - quantized
          fillCount := resting.fillCount + 1 },
        quantized, some (restingFillQuotePrice bar resting.order.side resting.limitQuotePrice)⟩

/-! ### What one bar can do -/

/-- A resting order with a queue and a remainder that are not negative, within its quantity. -/
structure RestingOrder.Sound (resting : RestingOrder) : Prop where
  queue : 0 ≤ resting.queueAheadBase
  remaining : 0 < resting.remainingBase
  within : resting.remainingBase ≤ resting.order.baseQuantity

theorem joinQueue_sound (order : Order) (limitQuotePrice : Decimal) (quote : TouchQuote) :
    (joinQueue order limitQuotePrice quote).Sound :=
  ⟨quote.depth.touch_pos.le, order.baseQuantity_pos, le_rfl⟩

/-- A bar that reaches the limit prices the fill inside its own range. -/
theorem restingFillQuotePrice_mem {bar : Bar} {side : Side} {limitQuotePrice : Decimal}
    (h : reaches bar side limitQuotePrice) :
    bar.lowQuotePrice ≤ restingFillQuotePrice bar side limitQuotePrice ∧
      restingFillQuotePrice bar side limitQuotePrice ≤ bar.highQuotePrice := by
  have hrange := bar.low_le_high
  cases side with
  | buy => exact ⟨le_min (by simpa [reaches] using h) hrange, min_le_right _ _⟩
  | sell => exact ⟨le_max_right _ _, max_le (by simpa [reaches] using h) hrange⟩

/-- A bar credits volume only if it reaches the limit. -/
theorem reaches_of_volume_pos {bar : Bar} {side : Side} {limitQuotePrice : Decimal}
    (h : 0 < volumeAtOrBeyond bar side limitQuotePrice) : reaches bar side limitQuotePrice := by
  by_contra hnot
  rw [volumeAtOrBeyond, if_pos hnot] at h
  exact lt_irrefl _ h

/-- What one bar can do to a resting order: leave the quantity alone and let the queue shrink, or
    print a positive part of what remained, in the bar's range, and take it off the remainder. -/
theorem consume_cases {resting : RestingOrder} (h : resting.Sound) (bar : Bar) :
    (∃ queue, 0 ≤ queue ∧ queue ≤ resting.queueAheadBase ∧
      consume resting bar = ⟨{ resting with queueAheadBase := queue }, 0, none⟩) ∨
    (∃ quantity price, 0 < quantity ∧ quantity ≤ resting.remainingBase ∧
      bar.lowQuotePrice ≤ price ∧ price ≤ bar.highQuotePrice ∧
      consume resting bar = ⟨{ resting with
        queueAheadBase := 0
        remainingBase := resting.remainingBase - quantity
        fillCount := resting.fillCount + 1 }, quantity, some price⟩) := by
  have hqueue := h.queue
  have hremaining := h.remaining
  simp only [consume]
  split
  · exact Or.inl ⟨resting.queueAheadBase, hqueue, le_rfl, rfl⟩
  next havailable =>
  rw [not_le] at havailable
  split
  · next hwithin => exact Or.inl ⟨_, sub_nonneg.mpr hwithin, by linarith, rfl⟩
  next hsurplus =>
  rw [not_le] at hsurplus
  split
  · exact Or.inl ⟨0, le_rfl, hqueue, rfl⟩
  next hquantized =>
  rw [not_le] at hquantized
  obtain ⟨hlow, hhigh⟩ := restingFillQuotePrice_mem (reaches_of_volume_pos havailable)
  have hfilled : 0 ≤ min (volumeAtOrBeyond bar resting.order.side resting.limitQuotePrice -
      resting.queueAheadBase) resting.remainingBase :=
    le_min (sub_nonneg.mpr hsurplus.le) hremaining.le
  have hle := snapTowardZero_le resting.order.instrument.lotStep_pos hfilled
  exact Or.inr ⟨_, _, hquantized, hle.trans (min_le_right _ _), hlow, hhigh, rfl⟩

end FinanceKing.Backtest
