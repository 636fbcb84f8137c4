import FinanceKing.Data.FieldGrammar

/-! The grammar of a row. A row becomes a record exactly where it has its columns, each text is in its
    column's grammar and the conditions across columns hold; it stops the parse exactly where its checks
    reach a text that stops it. -/

namespace FinanceKing.Data

open Lib

/-! ### Declared formats -/

/-- A spec whose format is one of those declared for the dataset. -/
structure DeclaredSpec (dataset : Dataset) extends IngestionSpec where
  declared : ∃ segments, declaredFormats archiveFormat.market dataset = some segments ∧
    archiveFormat ∈ segments

theorem DeclaredSpec.kline_unit (spec : DeclaredSpec .klines) :
    ∃ unit, spec.archiveFormat.requireEpochUnit = .ok unit := by
  obtain ⟨segments, hsegments, hmem⟩ := spec.declared
  cases hmarket : spec.archiveFormat.market with
  | spot =>
    rw [hmarket] at hsegments
    obtain rfl := Option.some.inj hsegments
    rcases List.mem_pair.mp hmem with hformat | hformat
    · exact ⟨.milliseconds, by rw [hformat]; rfl⟩
    · exact ⟨.microseconds, by rw [hformat]; rfl⟩
  | futuresUm =>
    rw [hmarket] at hsegments
    obtain rfl := Option.some.inj hsegments
    rw [List.mem_singleton.mp hmem]
    exact ⟨.milliseconds, rfl⟩

theorem DeclaredSpec.trade_unit (spec : DeclaredSpec .trades) :
    ∃ unit, spec.archiveFormat.requireEpochUnit = .ok unit ∧
      spec.archiveFormat.booleanEncoding = some .python := by
  obtain ⟨segments, hsegments, hmem⟩ := spec.declared
  cases hmarket : spec.archiveFormat.market with
  | spot =>
    rw [hmarket] at hsegments
    obtain rfl := Option.some.inj hsegments
    rcases List.mem_pair.mp hmem with hformat | hformat
    · exact ⟨.milliseconds, by rw [hformat]; exact ⟨rfl, rfl⟩⟩
    · exact ⟨.microseconds, by rw [hformat]; exact ⟨rfl, rfl⟩⟩
  | futuresUm =>
    rw [hmarket] at hsegments
    cases hsegments

/-! ### Kline rows -/

/-- The texts of a kline row, by column. -/
structure KlineTexts where
  openTime : String
  openPrice : String
  high : String
  low : String
  close : String
  volume : String
  closeTime : String
  quoteVolume : String
  count : String
  takerBuyBase : String
  takerBuyQuote : String
  ignored : String

namespace KlineTexts

variable (texts : KlineTexts) (unit : EpochUnit) (nowUtc : DateTime) (record : KlineRecord)

def row : List String :=
  [texts.openTime, texts.openPrice, texts.high, texts.low, texts.close, texts.volume, texts.closeTime,
    texts.quoteVolume, texts.count, texts.takerBuyBase, texts.takerBuyQuote, texts.ignored]

/-- The columns read before the trade count: the interval, its prices and its volumes. -/
structure ReadsBar : Prop where
  openTime : EpochText unit nowUtc texts.openTime record.openTimeUtc
  closeTime : EpochText unit nowUtc texts.closeTime record.closeTimeUtc
  forward : record.openTimeUtc < record.closeTimeUtc
  openPrice : PriceText texts.openPrice record.openQuotePrice
  high : PriceText texts.high record.highQuotePrice
  low : PriceText texts.low record.lowQuotePrice
  close : PriceText texts.close record.closeQuotePrice
  bracket : max record.openQuotePrice record.closeQuotePrice ≤ record.highQuotePrice ∧
    record.lowQuotePrice ≤ min record.openQuotePrice record.closeQuotePrice
  volume : VolumeText texts.volume record.baseVolume
  quoteVolume : VolumeText texts.quoteVolume record.quoteVolume

/-- Every column in its grammar. -/
structure ReadsRecord : Prop extends ReadsBar texts unit nowUtc record where
  count : CountText texts.count record.tradeCount
  takerBuyBase : VolumeText texts.takerBuyBase record.takerBuyBaseVolume
  takerBuyQuote : VolumeText texts.takerBuyQuote record.takerBuyQuoteVolume
  ignored : record.ignoredField = texts.ignored

/-- A conversion is reached that stops the row: of the open time, of the close time behind a good open time,
    or of the trade count behind a good bar. -/
def Stops : Prop :=
  EpochStops nowUtc texts.openTime ∨
    (∃ moment, EpochText unit nowUtc texts.openTime moment) ∧ EpochStops nowUtc texts.closeTime ∨
    (∃ record, texts.ReadsBar unit nowUtc record) ∧ CountStops texts.count

end KlineTexts

theorem KlineTexts.row_injective {texts other : KlineTexts} (h : texts.row = other.row) : texts = other := by
  cases texts
  cases other
  simpa [row] using h

theorem exists_klineTexts : ∀ {row : List String}, row.length = klineColumns.length →
    ∃ texts : KlineTexts, row = texts.row
  | [a, b, c, d, e, f, g, h, i, j, k, l], _ => ⟨⟨a, b, c, d, e, f, g, h, i, j, k, l⟩, rfl⟩

/-- What a kline row says under a spec. -/
def KlineRow (spec : IngestionSpec) (row : List String) (record : KlineRecord) : Prop :=
  ∃ texts : KlineTexts, ∃ unit, row = texts.row ∧ spec.archiveFormat.requireEpochUnit = .ok unit ∧
    texts.ReadsRecord unit spec.nowUtc record

def KlineRowStops (spec : IngestionSpec) (row : List String) : Prop :=
  ∃ texts : KlineTexts, ∃ unit, row = texts.row ∧ spec.archiveFormat.requireEpochUnit = .ok unit ∧
    texts.Stops unit spec.nowUtc

/-! ### Trade rows -/

/-- The texts of a trade row, by column. -/
structure TradeTexts where
  tradeId : String
  price : String
  quantity : String
  quoteQuantity : String
  time : String
  isBuyerMaker : String
  isBestMatch : String

namespace TradeTexts

variable (texts : TradeTexts) (unit : EpochUnit) (encoding : BooleanEncoding) (nowUtc : DateTime)
  (record : TradeRecord)

def row : List String :=
  [texts.tradeId, texts.price, texts.quantity, texts.quoteQuantity, texts.time, texts.isBuyerMaker,
    texts.isBestMatch]

/-- Every column in its grammar. -/
structure ReadsRecord : Prop where
  tradeId : strip texts.tradeId ≠ [] ∧ record.venueTradeId = texts.tradeId
  time : EpochText unit nowUtc texts.time record.eventTimeUtc
  price : PriceText texts.price record.quotePrice
  quantity : PriceText texts.quantity record.baseQuantity
  quoteQuantity : PriceText texts.quoteQuantity record.quoteQuantity
  isBuyerMaker : BooleanText encoding texts.isBuyerMaker record.isBuyerMaker
  isBestMatch : BooleanText encoding texts.isBestMatch record.isBestMatch

/-- The time of an identified print is reached and stops the row. -/
def Stops : Prop := strip texts.tradeId ≠ [] ∧ EpochStops nowUtc texts.time

end TradeTexts

theorem TradeTexts.row_injective {texts other : TradeTexts} (h : texts.row = other.row) : texts = other := by
  cases texts
  cases other
  simpa [row] using h

theorem exists_tradeTexts : ∀ {row : List String}, row.length = tradeColumns.length →
    ∃ texts : TradeTexts, row = texts.row
  | [a, b, c, d, e, f, g], _ => ⟨⟨a, b, c, d, e, f, g⟩, rfl⟩

/-- What a trade row says under a spec. -/
def TradeRow (spec : IngestionSpec) (row : List String) (record : TradeRecord) : Prop :=
  ∃ texts : TradeTexts, ∃ unit encoding, row = texts.row ∧
    spec.archiveFormat.requireEpochUnit = .ok unit ∧ spec.archiveFormat.booleanEncoding = some encoding ∧
    texts.ReadsRecord unit encoding spec.nowUtc record

def TradeRowStops (spec : IngestionSpec) (row : List String) : Prop :=
  ∃ texts : TradeTexts, row = texts.row ∧ texts.Stops spec.nowUtc

/-! ### Row parsers -/

section Rows

variable {escapes : RowFault → Prop} (hescapes : Escaping escapes)

include hescapes

theorem parseKlineTexts_reads (texts : KlineTexts) {spec : IngestionSpec} {unit : EpochUnit}
    (hunit : spec.archiveFormat.requireEpochUnit = .ok unit) :
    Reads escapes (parseKlineRow texts.row spec) (texts.ReadsRecord unit spec.nowUtc)
      (texts.Stops unit spec.nowUtc) := by
  rw [KlineTexts.row, parseKlineRow]
  rw [hunit]
  refine ((rejectIf_reads hescapes).bind fun _ => (Reads.pure unit).bind fun unit =>
    (parseEpoch_reads hescapes texts.openTime unit spec.nowUtc).bind fun openTime =>
    (parseEpoch_reads hescapes texts.closeTime unit spec.nowUtc).bind fun closeTime =>
    (rejectIf_reads hescapes).bind fun _ =>
    (parsePositiveDecimal_reads hescapes texts.openPrice).bind fun openPrice =>
    (parsePositiveDecimal_reads hescapes texts.high).bind fun high =>
    (parsePositiveDecimal_reads hescapes texts.low).bind fun low =>
    (parsePositiveDecimal_reads hescapes texts.close).bind fun close =>
    (rejectIf_reads hescapes).bind fun _ =>
    (parseNonNegativeDecimal_reads hescapes texts.volume).bind fun volume =>
    (parseNonNegativeDecimal_reads hescapes texts.quoteVolume).bind fun quoteVolume =>
    (parseNonNegativeInt_reads hescapes texts.count).bind fun count =>
    (parseNonNegativeDecimal_reads hescapes texts.takerBuyBase).bind fun takerBuyBase =>
    (parseNonNegativeDecimal_reads hescapes texts.takerBuyQuote).bind fun takerBuyQuote =>
    Reads.pure _).congr (fun record => ?_) ?_
  · constructor
    · rintro ⟨_, _, _, rfl, _, hopenTime, _, hcloseTime, _, hforward, _, hopen, _, hhigh, _, hlow, _, hclose,
        _, hbracket, _, hvolume, _, hquote, _, hcount, _, htakerBase, _, htakerQuote, rfl⟩
      rw [not_or, not_lt, not_lt] at hbracket
      exact ⟨⟨hopenTime, hcloseTime, not_le.mp hforward, hopen, hhigh, hlow, hclose, hbracket, hvolume, hquote⟩,
        hcount, htakerBase, htakerQuote, rfl⟩
    · intro h
      have hbracket := h.bracket
      rw [← not_lt, ← not_lt, ← not_or] at hbracket
      refine ⟨(), by simp [klineColumns], unit, rfl, _, h.openTime, _, h.closeTime, (), not_le.mpr h.forward, _,
        h.openPrice, _, h.high, _, h.low, _, h.close, (), hbracket, _, h.volume, _, h.quoteVolume, _, h.count, _,
        h.takerBuyBase, _, h.takerBuyQuote, ?_⟩
      rw [← h.ignored]
  · simp only [false_or, and_false, exists_false, or_false]
    constructor
    · rintro ⟨_, _, _, rfl, hstops | ⟨openTime, hopenTime, hstops | ⟨closeTime, hcloseTime, _, hforward,
        openPrice, hopen, high, hhigh, low, hlow, close, hclose, _, hbracket, volume, hvolume, quote, hquote,
        hstops⟩⟩⟩
      · exact .inl hstops
      · exact .inr (.inl ⟨⟨openTime, hopenTime⟩, hstops⟩)
      · rw [not_or, not_lt, not_lt] at hbracket
        refine .inr (.inr ⟨⟨⟨openTime, closeTime, openPrice, high, low, close, volume, quote, 0, 0, 0, ""⟩, ?_⟩,
          hstops⟩)
        exact ⟨hopenTime, hcloseTime, not_le.mp hforward, hopen, hhigh, hlow, hclose, hbracket, hvolume, hquote⟩
    · intro hstops
      refine ⟨(), by simp [klineColumns], unit, rfl, ?_⟩
      rcases hstops with hstops | ⟨⟨openTime, hopenTime⟩, hstops⟩ | ⟨⟨record, h⟩, hstops⟩
      · exact .inl hstops
      · exact .inr ⟨openTime, hopenTime, .inl hstops⟩
      · have hbracket := h.bracket
        rw [← not_lt, ← not_lt, ← not_or] at hbracket
        exact .inr ⟨_, h.openTime, .inr ⟨_, h.closeTime, (), not_le.mpr h.forward, _, h.openPrice, _, h.high, _,
          h.low, _, h.close, (), hbracket, _, h.volume, _, h.quoteVolume, hstops⟩⟩

/-- A kline row is read exactly where the grammar reads it, and stops the parse exactly where the grammar
    says it does. -/
theorem parseKlineRow_reads (row : List String) {spec : IngestionSpec} {unit : EpochUnit}
    (hunit : spec.archiveFormat.requireEpochUnit = .ok unit) :
    Reads escapes (parseKlineRow row spec) (KlineRow spec row) (KlineRowStops spec row) := by
  by_cases hlength : row.length = klineColumns.length
  · obtain ⟨texts, rfl⟩ := exists_klineTexts hlength
    refine (parseKlineTexts_reads hescapes texts hunit).congr (fun record => ?_) ?_
    · constructor
      · exact fun h => ⟨texts, unit, rfl, hunit, h⟩
      · rintro ⟨texts', unit', hrow, hunit', h⟩
        obtain rfl := KlineTexts.row_injective hrow
        obtain rfl := Except.ok.inj (hunit.symm.trans hunit')
        exact h
    · constructor
      · exact fun h => ⟨texts, unit, rfl, hunit, h⟩
      · rintro ⟨texts', unit', hrow, hunit', h⟩
        obtain rfl := KlineTexts.row_injective hrow
        obtain rfl := Except.ok.inj (hunit.symm.trans hunit')
        exact h
  · have hrejected : parseKlineRow row spec = reject .fieldCount := by
      rw [parseKlineRow.eq_def, requireFieldCount, rejectIf, if_pos hlength]
      rfl
    rw [hrejected]
    refine (reject_reads hescapes).congr (fun record => iff_of_false id ?_) (iff_of_false id ?_)
    · rintro ⟨texts, _, rfl, _⟩
      exact hlength rfl
    · rintro ⟨texts, _, rfl, _⟩
      exact hlength rfl

theorem parseTradeTexts_reads (texts : TradeTexts) {spec : IngestionSpec} {unit : EpochUnit}
    {encoding : BooleanEncoding} (hunit : spec.archiveFormat.requireEpochUnit = .ok unit)
    (hencoding : spec.archiveFormat.booleanEncoding = some encoding) :
    Reads escapes (parseTradeRow texts.row spec) (texts.ReadsRecord unit encoding spec.nowUtc)
      (texts.Stops spec.nowUtc) := by
  have hrequired : requireBooleanEncoding spec.archiveFormat = .ok encoding := by
    rw [requireBooleanEncoding, hencoding]
  rw [TradeTexts.row, parseTradeRow, hunit, hrequired]
  refine ((rejectIf_reads hescapes).bind fun _ => (Reads.pure encoding).bind fun encoding =>
    (rejectIf_reads hescapes).bind fun _ => (Reads.pure unit).bind fun unit =>
    (parseEpoch_reads hescapes texts.time unit spec.nowUtc).bind fun time =>
    (parsePositiveDecimal_reads hescapes texts.price).bind fun price =>
    (parsePositiveDecimal_reads hescapes texts.quantity).bind fun quantity =>
    (parsePositiveDecimal_reads hescapes texts.quoteQuantity).bind fun quoteQuantity =>
    (parseBoolean_reads hescapes texts.isBuyerMaker encoding).bind fun isBuyerMaker =>
    (parseBoolean_reads hescapes texts.isBestMatch encoding).bind fun isBestMatch =>
    Reads.pure _).congr (fun record => ?_) ?_
  · constructor
    · rintro ⟨_, _, _, rfl, _, hid, _, rfl, _, htime, _, hprice, _, hquantity, _, hquote, _, hmaker, _, hmatch,
        rfl⟩
      exact ⟨⟨hid, rfl⟩, htime, hprice, hquantity, hquote, hmaker, hmatch⟩
    · intro h
      refine ⟨(), by simp [tradeColumns], encoding, rfl, (), h.tradeId.1, unit, rfl, _, h.time, _, h.price, _,
        h.quantity, _, h.quoteQuantity, _, h.isBuyerMaker, _, h.isBestMatch, ?_⟩
      rw [← h.tradeId.2]
  · simp only [false_or, and_false, exists_false, or_false]
    constructor
    · rintro ⟨_, _, _, rfl, _, hid, _, rfl, hstops⟩
      exact ⟨hid, hstops⟩
    · rintro ⟨hid, hstops⟩
      exact ⟨(), by simp [tradeColumns], encoding, rfl, (), hid, unit, rfl, hstops⟩

/-- A trade row is read exactly where the grammar reads it, and stops the parse exactly where the grammar
    says it does. -/
theorem parseTradeRow_reads (row : List String) {spec : IngestionSpec} {unit : EpochUnit}
    {encoding : BooleanEncoding} (hunit : spec.archiveFormat.requireEpochUnit = .ok unit)
    (hencoding : spec.archiveFormat.booleanEncoding = some encoding) :
    Reads escapes (parseTradeRow row spec) (TradeRow spec row) (TradeRowStops spec row) := by
  by_cases hlength : row.length = tradeColumns.length
  · obtain ⟨texts, rfl⟩ := exists_tradeTexts hlength
    refine (parseTradeTexts_reads hescapes texts hunit hencoding).congr (fun record => ?_) ?_
    · constructor
      · exact fun h => ⟨texts, unit, encoding, rfl, hunit, hencoding, h⟩
      · rintro ⟨texts', unit', encoding', hrow, hunit', hencoding', h⟩
        obtain rfl := TradeTexts.row_injective hrow
        obtain rfl := Except.ok.inj (hunit.symm.trans hunit')
        obtain rfl := Option.some.inj (hencoding.symm.trans hencoding')
        exact h
    · constructor
      · exact fun h => ⟨texts, rfl, h⟩
      · rintro ⟨texts', hrow, h⟩
        obtain rfl := TradeTexts.row_injective hrow
        exact h
  · have hrejected : parseTradeRow row spec = reject .fieldCount := by
      rw [parseTradeRow.eq_def, requireFieldCount, rejectIf, if_pos hlength]
      rfl
    rw [hrejected]
    refine (reject_reads hescapes).congr (fun record => iff_of_false id ?_) (iff_of_false id ?_)
    · rintro ⟨texts, _, _, rfl, _⟩
      exact hlength rfl
    · rintro ⟨texts, rfl, _⟩
      exact hlength rfl

end Rows

end FinanceKing.Data
