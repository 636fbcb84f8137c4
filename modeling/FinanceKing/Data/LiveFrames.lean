import FinanceKing.Data.RowGrammar

/-! Stream frames to canonical records. Every decimal arrives as a JSON string, every time in milliseconds, and
    a frame that is still open is no bar. -/

namespace FinanceKing.Data

/-- `STREAM_EPOCH_UNIT`: both feeds emit milliseconds, on every date. -/
def streamEpochUnit : EpochUnit := .milliseconds

/-- The stream has no equivalent of the archive's trailing always-zero column. -/
def noIgnoredField : String := ""

/-- `VenueDecimal`: a JSON number is refused, and so is a string that is no finite decimal. -/
def venueDecimal (eventType field : String) (raw : JsonValue) : PyResult Decimal :=
  let failed (why : Message) : PyResult Decimal := raise .dataIntegrity
    (([eventType, " frame failed validation: ", field, ": "] : Message) ++ why)
  match raw with
  | .text text => match decimalOf text with
    | .finite value => .ok value
    | .notFinite => failed ["Input should be a finite number"]
    | .invalid => failed ["Value error, ", .quoted text, " is not a decimal"]
  | _ => failed ["Value error, expected a string-encoded decimal; a JSON number has already lost precision in ",
      "the parser"]

/-! ### Klines -/

/-- The `k` object inside a kline frame, by the type of its decimals: JSON before validation, numbers after. -/
structure KlinePayload (α : Type) where
  openTimeMs : ℤ
  closeTimeMs : ℤ
  symbol : String
  interval : String
  openQuotePrice : α
  closeQuotePrice : α
  highQuotePrice : α
  lowQuotePrice : α
  baseVolume : α
  tradeCount : ℤ
  isClosed : Bool
  quoteVolume : α
  takerBuyBaseVolume : α
  takerBuyQuoteVolume : α

/-- A `<symbol>@kline_1m` frame, open or closed. -/
structure KlineFrame (α : Type) where
  eventTimeMs : ℤ
  symbol : String
  kline : KlinePayload α

namespace KlineFrame

/-- `KlineFrame.model_validate`: each decimal field by its alias, in the order declared. -/
def modelValidate (payload : KlineFrame JsonValue) : PyResult (KlineFrame Decimal) := do
  let kline := payload.kline
  let openQuotePrice ← venueDecimal "kline" "k.o" kline.openQuotePrice
  let closeQuotePrice ← venueDecimal "kline" "k.c" kline.closeQuotePrice
  let highQuotePrice ← venueDecimal "kline" "k.h" kline.highQuotePrice
  let lowQuotePrice ← venueDecimal "kline" "k.l" kline.lowQuotePrice
  let baseVolume ← venueDecimal "kline" "k.v" kline.baseVolume
  let quoteVolume ← venueDecimal "kline" "k.q" kline.quoteVolume
  let takerBuyBaseVolume ← venueDecimal "kline" "k.V" kline.takerBuyBaseVolume
  let takerBuyQuoteVolume ← venueDecimal "kline" "k.Q" kline.takerBuyQuoteVolume
  return ⟨payload.eventTimeMs, payload.symbol, kline.openTimeMs, kline.closeTimeMs, kline.symbol, kline.interval,
    openQuotePrice, closeQuotePrice, highQuotePrice, lowQuotePrice, baseVolume, kline.tradeCount, kline.isClosed,
    quoteVolume, takerBuyBaseVolume, takerBuyQuoteVolume⟩

/-- The canonical bar, or a refusal while the frame is still open. -/
def toRecord (self : KlineFrame Decimal) (nowUtc : DateTime) : PyResult KlineRecord := do
  raiseIf (¬ self.kline.isClosed) .dataIntegrity
    [self.symbol, " ", self.kline.interval, " kline opening at ", .count self.kline.openTimeMs, " is still open ",
      "(k.x is false); an open kline is a partial aggregate that will change, and storing one turns replay into ",
      "a lie"]
  let openTimeUtc ← epochToUtc self.kline.openTimeMs streamEpochUnit nowUtc
  let closeTimeUtc ← epochToUtc self.kline.closeTimeMs streamEpochUnit nowUtc
  return ⟨openTimeUtc, closeTimeUtc, self.kline.openQuotePrice, self.kline.highQuotePrice, self.kline.lowQuotePrice,
    self.kline.closeQuotePrice, self.kline.baseVolume, self.kline.quoteVolume, self.kline.tradeCount,
    self.kline.takerBuyBaseVolume, self.kline.takerBuyQuoteVolume, noIgnoredField⟩

/-- One frame as it arrived, read into a bar. -/
def read (nowUtc : DateTime) (payload : KlineFrame JsonValue) : PyResult KlineRecord := do
  let frame ← payload.modelValidate
  frame.toRecord nowUtc

end KlineFrame

/-! ### Trades -/

/-- A `<symbol>@aggTrade` frame. -/
structure AggTradeFrame (α : Type) where
  eventTimeMs : ℤ
  symbol : String
  aggregateTradeId : ℤ
  quotePrice : α
  baseQuantity : α
  firstTradeId : ℤ
  lastTradeId : ℤ
  tradeTimeMs : ℤ
  isBuyerMaker : Bool

namespace AggTradeFrame

def modelValidate (payload : AggTradeFrame JsonValue) : PyResult (AggTradeFrame Decimal) := do
  let quotePrice ← venueDecimal "aggTrade" "p" payload.quotePrice
  let baseQuantity ← venueDecimal "aggTrade" "q" payload.baseQuantity
  return ⟨payload.eventTimeMs, payload.symbol, payload.aggregateTradeId, quotePrice, baseQuantity,
    payload.firstTradeId, payload.lastTradeId, payload.tradeTimeMs, payload.isBuyerMaker⟩

/-- The canonical print, keyed on the trade's own time; the stream carries no best-match flag. -/
def toRecord (self : AggTradeFrame Decimal) (nowUtc : DateTime) : PyResult TradeRecord := do
  let eventTimeUtc ← epochToUtc self.tradeTimeMs streamEpochUnit nowUtc
  return ⟨toString self.aggregateTradeId, eventTimeUtc, self.quotePrice, self.baseQuantity,
    self.quotePrice * self.baseQuantity, self.isBuyerMaker, true⟩

def read (nowUtc : DateTime) (payload : AggTradeFrame JsonValue) : PyResult TradeRecord := do
  let frame ← payload.modelValidate
  frame.toRecord nowUtc

end AggTradeFrame

/-! ### What a frame says -/

/-- A JSON string whose decimal this is. -/
def DecimalJson (raw : JsonValue) (x : Decimal) : Prop := ∃ text, raw = .text text ∧ decimalOf text = .finite x

theorem venueDecimal_eq_ok {eventType field : String} {raw : JsonValue} {x : Decimal} :
    venueDecimal eventType field raw = .ok x ↔ DecimalJson raw x := by
  rw [DecimalJson]
  cases raw with
  | text text =>
    rw [venueDecimal]
    cases hreading : decimalOf text <;> simp [hreading]
  | _ => simp [venueDecimal]

/-- Milliseconds that name this instant, inside a plausible window that ends while there are instants. -/
structure EpochMs (nowUtc : DateTime) (raw : ℤ) (moment : DateTime) : Prop where
  window : nowUtc + oneDay ≤ latestUtc
  names : moment = raw * 1000
  earliest : earliestPlausibleUtc ≤ moment
  latest : moment < plausibleUntil nowUtc

theorem epochToUtc_ms {nowUtc moment : DateTime} {raw : ℤ} :
    epochToUtc raw streamEpochUnit nowUtc = .ok moment ↔ EpochMs nowUtc raw moment := by
  have hscale : (1000000 / streamEpochUnit.divisor : ℤ) = 1000 := by decide
  have hwindow := inWindow_iff raw streamEpochUnit nowUtc
  rw [hscale] at hwindow
  simp only [epochToUtc, bind_eq_ok, raiseIf_eq_ok, pure_eq_ok, Unique.exists_iff, not_not, not_lt, hwindow, hscale]
  constructor
  · rintro ⟨hnow, ⟨hearliest, hlatest⟩, rfl⟩
    exact ⟨hnow, rfl, hearliest, hlatest⟩
  · rintro ⟨hnow, rfl, hearliest, hlatest⟩
    exact ⟨hnow, ⟨hearliest, hlatest⟩, rfl⟩

/-- What a closed kline frame says. -/
structure KlineFrame.Says (nowUtc : DateTime) (frame : KlineFrame JsonValue) (record : KlineRecord) : Prop where
  closed : frame.kline.isClosed
  openTime : EpochMs nowUtc frame.kline.openTimeMs record.openTimeUtc
  closeTime : EpochMs nowUtc frame.kline.closeTimeMs record.closeTimeUtc
  openPrice : DecimalJson frame.kline.openQuotePrice record.openQuotePrice
  high : DecimalJson frame.kline.highQuotePrice record.highQuotePrice
  low : DecimalJson frame.kline.lowQuotePrice record.lowQuotePrice
  close : DecimalJson frame.kline.closeQuotePrice record.closeQuotePrice
  volume : DecimalJson frame.kline.baseVolume record.baseVolume
  quoteVolume : DecimalJson frame.kline.quoteVolume record.quoteVolume
  count : record.tradeCount = frame.kline.tradeCount
  takerBuyBase : DecimalJson frame.kline.takerBuyBaseVolume record.takerBuyBaseVolume
  takerBuyQuote : DecimalJson frame.kline.takerBuyQuoteVolume record.takerBuyQuoteVolume
  ignored : record.ignoredField = noIgnoredField

/-- A frame is read into a bar exactly where it says one. -/
theorem KlineFrame.read_eq_ok {nowUtc : DateTime} {frame : KlineFrame JsonValue} {record : KlineRecord} :
    frame.read nowUtc = .ok record ↔ KlineFrame.Says nowUtc frame record := by
  simp only [read, modelValidate, toRecord, bind_eq_ok, raiseIf_eq_ok, pure_eq_ok, Unique.exists_iff, not_not,
    venueDecimal_eq_ok, epochToUtc_ms]
  constructor
  · rintro ⟨_, ⟨_, hopen, _, hclose, _, hhigh, _, hlow, _, hvolume, _, hquote, _, htakerBase, _, htakerQuote, rfl⟩,
      hclosed, _, hopenTime, _, hcloseTime, rfl⟩
    exact ⟨hclosed, hopenTime, hcloseTime, hopen, hhigh, hlow, hclose, hvolume, hquote, rfl, htakerBase, htakerQuote,
      rfl⟩
  · intro h
    refine ⟨_, ⟨_, h.openPrice, _, h.close, _, h.high, _, h.low, _, h.volume, _, h.quoteVolume, _, h.takerBuyBase, _,
      h.takerBuyQuote, rfl⟩, h.closed, _, h.openTime, _, h.closeTime, ?_⟩
    rw [← h.count, ← h.ignored]

/-- What a trade frame says: the print's own numbers, its quote quantity their product. -/
structure AggTradeFrame.Says (nowUtc : DateTime) (frame : AggTradeFrame JsonValue) (record : TradeRecord) : Prop where
  tradeId : record.venueTradeId = toString frame.aggregateTradeId
  time : EpochMs nowUtc frame.tradeTimeMs record.eventTimeUtc
  price : DecimalJson frame.quotePrice record.quotePrice
  quantity : DecimalJson frame.baseQuantity record.baseQuantity
  quoteQuantity : record.quoteQuantity = record.quotePrice * record.baseQuantity
  isBuyerMaker : record.isBuyerMaker = frame.isBuyerMaker
  isBestMatch : record.isBestMatch = true

theorem AggTradeFrame.read_eq_ok {nowUtc : DateTime} {frame : AggTradeFrame JsonValue} {record : TradeRecord} :
    frame.read nowUtc = .ok record ↔ AggTradeFrame.Says nowUtc frame record := by
  simp only [read, modelValidate, toRecord, bind_eq_ok, pure_eq_ok, venueDecimal_eq_ok, epochToUtc_ms]
  constructor
  · rintro ⟨_, ⟨_, hprice, _, hquantity, rfl⟩, _, htime, rfl⟩
    exact ⟨rfl, htime, hprice, hquantity, rfl, rfl, rfl⟩
  · intro h
    refine ⟨_, ⟨_, h.price, _, h.quantity, rfl⟩, _, h.time, ?_⟩
    rw [← h.tradeId, ← h.quoteQuantity, ← h.isBuyerMaker, ← h.isBestMatch]

end FinanceKing.Data
