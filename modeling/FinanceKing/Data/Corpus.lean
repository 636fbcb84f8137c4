import FinanceKing.Data.Loaders

/-! The Parquet corpus of one project: a file for each month of a kline series, the writer that replaces
    a file whole, and the reader that hands a series back to the backtest. -/

namespace FinanceKing.Data

open Lib

/-- What one column of a row holds when it is read back: an instant, a raw epoch, or neither. -/
inductive StoredMoment where
  | instant (moment : DateTime)
  | epoch (raw : ℤ)
  | foreign
  deriving DecidableEq

/-- The instant a column holds, where it was normalised before it was stored. -/
def StoredMoment.moment? : StoredMoment → Option DateTime
  | .instant moment => some moment
  | _ => none

/-- A kline row of the corpus, as the feed projects it; a column of another type holds `none`. -/
structure CorpusRow where
  openTimeUtc : StoredMoment
  closeTimeUtc : StoredMoment
  openQuotePrice : Option Decimal
  highQuotePrice : Option Decimal
  lowQuotePrice : Option Decimal
  closeQuotePrice : Option Decimal
  baseVolume : Option Decimal
  tradeCount : Option ℤ
  deriving DecidableEq

/-- `_row_of`, in the columns the feed reads. -/
def KlineRecord.row (self : KlineRecord) : CorpusRow where
  openTimeUtc := .instant self.openTimeUtc
  closeTimeUtc := .instant self.closeTimeUtc
  openQuotePrice := some self.openQuotePrice
  highQuotePrice := some self.highQuotePrice
  lowQuotePrice := some self.lowQuotePrice
  closeQuotePrice := some self.closeQuotePrice
  baseVolume := some self.baseVolume
  tradeCount := some self.tradeCount

/-- Which path a row reached the corpus by. -/
inductive RecordSource where
  | archive
  | stream
  | restBackfill
  deriving DecidableEq

/-- One Parquet file, with the digest its metadata carries. -/
structure PartitionFile where
  rows : List CorpusRow
  contentDigestHex : String
  ingestedAtUtc : DateTime
  deriving DecidableEq

/-- The directory a monthly file lies in. -/
abbrev PartitionKey := SeriesKey × YearMonth

abbrev Corpus := Dict PartitionKey PartitionFile

/-- The directory of the file a coordinate's records belong in. -/
def partitionKey (coordinate : ArchiveCoordinate) : PartitionKey :=
  (SeriesKey.fromCoordinate coordinate, yearMonth coordinate.archiveDate)

/-! ### The writer -/

/-- The code a write rests on: the digest of a batch, and whether its values fit the declared schema. -/
structure ParquetTools where
  contentDigest : List KlineRecord → RecordSource → String
  toTable : List KlineRecord → PyResult Unit

structure WriteOutcome where
  path : PartitionKey
  rowsWritten : ℤ
  contentDigestHex : String
  wasRewritten : Bool
  deriving DecidableEq

/-- No record may fall outside the period its file claims to cover. -/
def requireInsidePartition (coordinate : ArchiveCoordinate) (record : KlineRecord) : PyResult Unit :=
  raiseIf (yearMonth (dateOf record.eventTimeUtc) ≠ yearMonth coordinate.archiveDate) .dataIntegrity
    ["record at ", .instant record.eventTimeUtc, " falls outside the partition ",
      coordinate.market.value, "/", coordinate.dataset.value, " ", coordinate.symbol, " ",
      .date coordinate.archiveDate, " (monthly). The partition key is read from the path, not from ",
      "the row, so a stray record is filed under a period it does not belong to and every filtered ",
      "query agrees"]

namespace Corpus

variable (self : Corpus)

def alreadyHolds (key : PartitionKey) (digestHex : String) : Bool :=
  (self.get? key).any fun file => file.contentDigestHex = digestHex

/-- `write_records`, for a kline batch: sorted, checked, and written whole unless the file already
    carries the digest. -/
def writeRecords (tools : ParquetTools) (records : List KlineRecord) (coordinate : ArchiveCoordinate)
    (source : RecordSource) (ingestedAtUtc : DateTime) : Corpus × PyResult WriteOutcome :=
  let ordered := sortBy KlineRecord.eventTimeUtc records
  let key := partitionKey coordinate
  let digestHex := tools.contentDigest ordered source
  let checks : PyResult Unit := do
    raiseIf (records = []) .dataIntegrity
      ["refusing to write an empty batch for ", coordinate.dataset.value, " ", coordinate.symbol, " ",
        .date coordinate.archiveDate, ". Once on disk a zero-row file is indistinguishable from a gap, ",
        "and a later scan reads it as 'we have this period'"]
    ordered.forM (requireInsidePartition coordinate)
  match checks with
  | .error e => (self, .error e)
  | .ok () =>
    if self.alreadyHolds key digestHex then
      (self, .ok ⟨key, ordered.length, digestHex, false⟩)
    else
      match tools.toTable ordered with
      | .error e => (self, .error e)
      | .ok () =>
        (self.set key ⟨ordered.map KlineRecord.row, digestHex, ingestedAtUtc⟩,
          .ok ⟨key, ordered.length, digestHex, true⟩)

end Corpus

/-! ### The reader -/

/-- One bar as the corpus holds it, normalised. -/
structure ArchiveBar where
  openTimeUtc : DateTime
  closeTimeUtc : DateTime
  openQuotePrice : Decimal
  highQuotePrice : Decimal
  lowQuotePrice : Decimal
  closeQuotePrice : Decimal
  baseVolume : Decimal
  tradeCount : ℤ
  deriving DecidableEq

/-- The epoch unit resolved for one month a read touched. -/
structure PartitionFormat where
  yearMonth : YearMonth
  epochUnit : EpochUnit
  deriving DecidableEq

structure SeriesRead where
  bars : List ArchiveBar
  partitionFormats : List PartitionFormat
  deriving DecidableEq

/-- The declared unit of a month, resolved at both of its ends, or a refusal. -/
def resolvePartitionEpochUnit (market : Market) (period : YearMonth) : PyResult EpochUnit :=
  match resolveArchiveFormat market .klines (firstDayOf period),
      resolveArchiveFormat market .klines (lastDayOf period) with
  | .ok opening, .ok closing =>
    if opening.timestampEncoding ≠ closing.timestampEncoding then
      raise .ambiguousEpochUnit [market.value, "/klines ", .count period.1, "-", .count period.2,
        " spans two declared timestamp encodings (", opening.timestampEncoding.value, " then ",
        closing.timestampEncoding.value, "); a monthly partition read under either one is wrong for ",
        "half its rows. Split the partition at the cutover"]
    else
      match opening.requireEpochUnit with
      | .ok unit => .ok unit
      | .error notAnEpoch => raise .ambiguousEpochUnit
          (([market.value, "/klines ", .count period.1, "-", .count period.2, " is declared as ",
            opening.timestampEncoding.value, ", which is not an epoch: "] : Message) ++
              notAnEpoch.message)
  | .error undeclared, _ | _, .error undeclared => raise .ambiguousEpochUnit
      ((["no archive format is declared for ", market.value, "/klines covering ",
        .date (firstDayOf period), "..", .date (lastDayOf period), ", so the unit its timestamps were ",
        "normalised in is unknown: "] : Message) ++ undeclared.message ++
        ([". The partition is refused rather than read under the neighbouring month's divisor -- spot ",
          "and futures differ by a factor of a thousand for part of history"] : Message))

/-- The place of a month among all months. -/
def monthIndex (period : YearMonth) : ℤ := period.1 * 12 + period.2

/-- Every month a half-open window on open times can touch. -/
def monthsBetween (fromUtc untilUtc : DateTime) : List YearMonth :=
  let first := yearMonth (dateOf fromUtc)
  let last := yearMonth (dateOf (untilUtc - 1))
  (List.range (monthIndex last + 1 - monthIndex first).toNat).map fun n => nextMonth^[n] first

/-- How the scan happened to order the rows it returned: any order of the rows it was given. -/
structure ScanOrder where
  arrange : List (YearMonth × CorpusRow) → List (YearMonth × CorpusRow)
  perm : ∀ rows, (arrange rows).Perm rows

/-- An instant, whether the column holds a normalised timestamp or a raw epoch. -/
def asMoment (field : StoredMoment) (column located : String) (unit : EpochUnit) (nowUtc : DateTime) :
    PyResult DateTime :=
  match field with
  | .instant moment => .ok moment
  | .epoch raw => epochToUtc raw unit nowUtc
  | .foreign => raise .corpusIntegrity
      [located, " column ", .quoted column, " is neither a timestamp nor an integer epoch"]

def asColumn {α : Type} (field : Option α) (column located expected : String) : PyResult α :=
  match field with
  | some value => .ok value
  | none => raise .corpusIntegrity [located, " column ", .quoted column, " is not ", expected]

def barFrom (row : CorpusRow) (located : String) (unit : EpochUnit) (nowUtc : DateTime) :
    PyResult ArchiveBar := do
  let openTimeUtc ← asMoment row.openTimeUtc "open_time_utc" located unit nowUtc
  let closeTimeUtc ← asMoment row.closeTimeUtc "close_time_utc" located unit nowUtc
  let openQuotePrice ← asColumn row.openQuotePrice "open_quote_price" located "a Decimal"
  let highQuotePrice ← asColumn row.highQuotePrice "high_quote_price" located "a Decimal"
  let lowQuotePrice ← asColumn row.lowQuotePrice "low_quote_price" located "a Decimal"
  let closeQuotePrice ← asColumn row.closeQuotePrice "close_quote_price" located "a Decimal"
  let baseVolume ← asColumn row.baseVolume "base_volume" located "a Decimal"
  let tradeCount ← asColumn row.tradeCount "trade_count" located "an integer"
  return ⟨openTimeUtc, closeTimeUtc, openQuotePrice, highQuotePrice, lowQuotePrice, closeQuotePrice,
    baseVolume, tradeCount⟩

/-- Two rows at one open time are two answers to one question; `bars` is in order of open time. -/
def requireDistinctOpenTimes (located : String) : List ArchiveBar → PyResult Unit
  | [] => .ok ()
  | bar :: bars => do
    raiseIf (bar.openTimeUtc ∈ bars.map ArchiveBar.openTimeUtc) .corpusIntegrity
      [located, " holds two bars opening at ", .instant bar.openTimeUtc, ". The corpus is keyed on ",
        "(instrument, timeframe, open_time) and a duplicate means two partitions claim the same ",
        "period -- dispatching both would double every count derived from that instant"]
    requireDistinctOpenTimes located bars

/-- The unit of every month a read covers. -/
def resolveUnits (market : Market) (months : List YearMonth) : PyResult (List (YearMonth × EpochUnit)) :=
  months.mapM fun period => do
    let unit ← resolvePartitionEpochUnit market period
    return (period, unit)

/-- The unit resolved for a month. -/
def unitOf (units : List (YearMonth × EpochUnit)) (period : YearMonth) : EpochUnit :=
  (units.lookup period).getD .milliseconds

def readRows (located : String) (units : List (YearMonth × EpochUnit)) (nowUtc : DateTime)
    (rows : List (YearMonth × CorpusRow)) : PyResult (List ArchiveBar) :=
  rows.mapM fun row => barFrom row.2 located (unitOf units row.1) nowUtc

/-- The bars that open inside the window, by open time. -/
def barsInside (fromUtc untilUtc : DateTime) (bars : List ArchiveBar) : List ArchiveBar :=
  sortBy ArchiveBar.openTimeUtc
    (bars.filter fun bar => fromUtc ≤ bar.openTimeUtc ∧ bar.openTimeUtc < untilUtc)

/-- The months the bars touch, each with the unit it was read in. -/
def touchedFormats (units : List (YearMonth × EpochUnit)) (bars : List ArchiveBar) :
    List PartitionFormat :=
  (units.map Prod.fst |>.filter fun period =>
    period ∈ bars.map fun bar => yearMonth (dateOf bar.openTimeUtc)).map fun period =>
      ⟨period, unitOf units period⟩

theorem requireDistinctOpenTimes_eq_ok {located : String} {u : Unit} : ∀ {bars : List ArchiveBar},
    requireDistinctOpenTimes located bars = .ok u ↔ (bars.map ArchiveBar.openTimeUtc).Nodup
  | [] => by simp [requireDistinctOpenTimes]
  | bar :: bars => by
    have hrest : requireDistinctOpenTimes located bars = .ok u ↔ _ := requireDistinctOpenTimes_eq_ok
    simp only [requireDistinctOpenTimes, bind_eq_ok, raiseIf_eq_ok, List.map_cons, List.nodup_cons, hrest]
    constructor
    · rintro ⟨_, hfresh, hdistinct⟩
      exact ⟨hfresh, hdistinct⟩
    · rintro ⟨hfresh, hdistinct⟩
      exact ⟨(), hfresh, hdistinct⟩

namespace Corpus

variable (self : Corpus)

/-- The rows of the months a read covers, each with the month of its directory. -/
def scan (series : SeriesKey) (months : List YearMonth) : List (YearMonth × CorpusRow) :=
  self.entries.flatMap fun entry =>
    if entry.1.1 = series ∧ entry.1.2 ∈ months then entry.2.rows.map fun row => (entry.1.2, row) else []

def hasSeries (series : SeriesKey) : Bool := self.entries.any fun entry => entry.1.1 = series

/-- `read_series`: the bars of one series that open in `[from, until)`, by open time. A series nothing was
    ever ingested for is read as empty. -/
def readSeries (order : ScanOrder) (market : Market) (symbol barInterval : String)
    (fromUtc untilUtc nowUtc : DateTime) : PyResult SeriesRead := do
  let series : SeriesKey := ⟨market, .klines, symbol, barInterval⟩
  if ¬ self.hasSeries series then return ⟨[], []⟩
  let months := monthsBetween fromUtc untilUtc
  let units ← resolveUnits market months
  ArchiveCoordinateFields.postInit ⟨market, .klines, symbol, dateOf fromUtc, some barInterval⟩
  let located := market.value ++ "/" ++ symbol
  let bars ← readRows located units nowUtc (order.arrange (self.scan series months))
  let ordered := barsInside fromUtc untilUtc bars
  requireDistinctOpenTimes located ordered
  return ⟨ordered, touchedFormats units ordered⟩

/-- A read of a series the corpus holds, step by step. -/
theorem readSeries_eq {market : Market} {symbol barInterval : String}
    (h : self.hasSeries ⟨market, .klines, symbol, barInterval⟩) (order : ScanOrder)
    (fromUtc untilUtc nowUtc : DateTime) :
    self.readSeries order market symbol barInterval fromUtc untilUtc nowUtc =
      (resolveUnits market (monthsBetween fromUtc untilUtc) >>= fun units =>
        ArchiveCoordinateFields.postInit ⟨market, .klines, symbol, dateOf fromUtc, some barInterval⟩ >>= fun _ =>
        readRows (market.value ++ "/" ++ symbol) units nowUtc (order.arrange
          (self.scan ⟨market, .klines, symbol, barInterval⟩ (monthsBetween fromUtc untilUtc))) >>= fun bars =>
        requireDistinctOpenTimes (market.value ++ "/" ++ symbol) (barsInside fromUtc untilUtc bars) >>= fun _ =>
        pure ⟨barsInside fromUtc untilUtc bars, touchedFormats units (barsInside fromUtc untilUtc bars)⟩) := by
  rw [readSeries, if_neg (not_not.mpr h)]

end Corpus

end FinanceKing.Data
