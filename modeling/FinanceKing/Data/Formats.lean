import FinanceKing.Data.Archive
import FinanceKing.Lib.DecimalFloat

/-! How an archive is spelled, resolved per market, dataset and date and never assumed: the unit of its
    epochs, whether it opens with a header, and the window an instant must fall in to be plausible. -/

namespace FinanceKing.Data

/-! ### The calendar -/

/-- One UTC day, in microseconds. -/
def oneDay : TimeDelta := TimeDelta.ofSeconds 86400

/-- `datetime.date()`. -/
def dateOf (moment : DateTime) : Date := moment / oneDay

/-- A month of a year, as `(year, month)`; Python compares the pairs in this order. -/
abbrev YearMonth := ℤ × ℤ

/-- The Gregorian year and month of a day counted from the epoch; years turn over in March. -/
def yearMonth (day : Date) : YearMonth :=
  let shifted := day + 719468
  let dayOfEra := shifted % 146097
  let yearOfEra := (dayOfEra - dayOfEra / 1460 + dayOfEra / 36524 - dayOfEra / 146096) / 365
  let dayOfYear := dayOfEra - (365 * yearOfEra + yearOfEra / 4 - yearOfEra / 100)
  let month := (5 * dayOfYear + 2) / 153
  let year := yearOfEra + shifted / 146097 * 400
  if month < 10 then (year, month + 3) else (year + 1, month - 9)

/-- `date(year, month, 1)`. -/
def firstDayOf (period : YearMonth) : Date :=
  let year := if period.2 ≤ 2 then period.1 - 1 else period.1
  let yearOfEra := year % 400
  let dayOfYear := (153 * (if period.2 > 2 then period.2 - 3 else period.2 + 9) + 2) / 5
  year / 400 * 146097 + yearOfEra * 365 + yearOfEra / 4 - yearOfEra / 100 + dayOfYear - 719468

def nextMonth (period : YearMonth) : YearMonth :=
  if period.2 = 12 then (period.1 + 1, 1) else (period.1, period.2 + 1)

/-- `date(year, month, monthrange(year, month)[1])`. -/
def lastDayOf (period : YearMonth) : Date := firstDayOf (nextMonth period) - 1

/-- `date.isoformat()`. -/
def isoformat (day : Date) : String :=
  let period := yearMonth day
  String.ofList (Lib.DecimalFloat.paddedDigits 4 period.1.toNat) ++ "-" ++
    String.ofList (Lib.DecimalFloat.paddedDigits 2 period.2.toNat) ++ "-" ++
    String.ofList (Lib.DecimalFloat.paddedDigits 2 (day - firstDayOf period + 1).toNat)

example : (yearMonth 19783, firstDayOf (2024, 2), lastDayOf (2024, 2)) = ((2024, 3), 19754, 19782) := by
  decide

example : isoformat 19783 = "2024-03-01" := by decide +kernel

/-! ### Declared formats -/

/-- The unit a raw integer timestamp is expressed in. -/
inductive EpochUnit where
  | milliseconds
  | microseconds
  deriving DecidableEq

def EpochUnit.value : EpochUnit → String
  | .milliseconds => "ms"
  | .microseconds => "us"

/-- How an archive spells the instant of a row. -/
inductive TimestampEncoding where
  | epochMilliseconds
  | epochMicroseconds
  | naiveUtcDatetime
  deriving DecidableEq

def TimestampEncoding.value : TimestampEncoding → String
  | .epochMilliseconds => "epoch_ms"
  | .epochMicroseconds => "epoch_us"
  | .naiveUtcDatetime => "naive_utc_datetime"

/-- How a boolean column is serialised. -/
inductive BooleanEncoding where
  | python
  | json
  | numeric
  deriving DecidableEq

def BooleanEncoding.value : BooleanEncoding → String
  | .python => "python"
  | .json => "json"
  | .numeric => "numeric"

/-- Every format decision for one market and dataset over one half-open range of dates. -/
structure ArchiveFormat where
  market : Market
  dataset : Dataset
  timestampEncoding : TimestampEncoding
  hasHeaderRow : Bool
  booleanEncoding : Option BooleanEncoding
  declaredFromDate : Date
  declaredUntilDate : Option Date
  deriving DecidableEq

namespace ArchiveFormat

variable (self : ArchiveFormat)

def covers (archiveDate : Date) : Bool :=
  self.declaredFromDate ≤ archiveDate && self.declaredUntilDate.all (archiveDate < ·)

/-- The unit of this format's timestamps, or a refusal where they are not epochs at all. -/
def requireEpochUnit : PyResult EpochUnit :=
  match self.timestampEncoding with
  | .epochMilliseconds => .ok .milliseconds
  | .epochMicroseconds => .ok .microseconds
  | .naiveUtcDatetime => raise .dataIntegrity
      ["market=", .quoted self.market.value, " dataset=", .quoted self.dataset.value, " stamps ",
        .quoted self.timestampEncoding.value, ", which is not an epoch, so there is no unit to read ",
        "it in. Use fking.data.format_resolver.parse_naive_utc_datetime"]

end ArchiveFormat

/-- 2025-01-01. -/
def spotMicrosecondCutover : Date := 20089

/-- 2017-08-17. -/
def spotArchiveGenesis : Date := 17395

/-- 2019-09-08. -/
def futuresUmArchiveGenesis : Date := 18147

/-- `DECLARED_FORMATS`. -/
def declaredFormats : Market → Dataset → Option (List ArchiveFormat)
  | .spot, .klines => some
      [⟨.spot, .klines, .epochMilliseconds, false, none, spotArchiveGenesis, some spotMicrosecondCutover⟩,
        ⟨.spot, .klines, .epochMicroseconds, false, none, spotMicrosecondCutover, none⟩]
  | .spot, .trades => some
      [⟨.spot, .trades, .epochMilliseconds, false, some .python, spotArchiveGenesis,
          some spotMicrosecondCutover⟩,
        ⟨.spot, .trades, .epochMicroseconds, false, some .python, spotMicrosecondCutover, none⟩]
  | .futuresUm, .klines => some
      [⟨.futuresUm, .klines, .epochMilliseconds, true, none, futuresUmArchiveGenesis, none⟩]
  | .futuresUm, .fundingRate => some
      [⟨.futuresUm, .fundingRate, .epochMilliseconds, true, none, futuresUmArchiveGenesis, none⟩]
  | .futuresUm, .metrics => some
      [⟨.futuresUm, .metrics, .naiveUtcDatetime, true, none, futuresUmArchiveGenesis, none⟩]
  | _, _ => none

/-- The declared format of one archive; an undeclared one is refused rather than inferred. -/
def resolveArchiveFormat (market : Market) (dataset : Dataset) (archiveDate : Date) :
    PyResult ArchiveFormat :=
  match declaredFormats market dataset with
  | none => raise .dataIntegrity
      ["no archive format is declared for market=", .quoted market.value, " dataset=",
        .quoted dataset.value, "; declaring one requires reading a real archive, not inferring from a ",
        "neighbouring dataset -- see docs/adr/0013"]
  | some segments =>
    match segments.find? (·.covers archiveDate) with
    | some segment => .ok segment
    | none => raise .dataIntegrity
        ["archive format for market=", .quoted market.value, " dataset=", .quoted dataset.value,
          " is declared only from ",
          .date ((segments.head?.map (·.declaredFromDate)).getD spotArchiveGenesis), "; ",
          .date archiveDate, " falls outside every declared segment"]

/-! ### Epochs -/

/-- 2010-01-01T00:00:00Z. -/
def earliestPlausibleUtc : DateTime := TimeDelta.ofSeconds 1262304000

/-- Ticks of this unit in a second. -/
def EpochUnit.divisor : EpochUnit → ℤ
  | .milliseconds => 1000
  | .microseconds => 1000000

/-- The instant an out-of-range epoch names, where a `datetime` reaches that far. -/
def describe (rawEpoch : ℤ) (unit : EpochUnit) : Piece :=
  let moment := rawEpoch * (1000000 / unit.divisor)
  if -62135596800000000 ≤ moment ∧ moment < 253402300800000000 then .instant moment
  else .text "an instant no datetime can represent"

/-- The last instant a `datetime` holds. -/
def latestUtc : DateTime := 253402300799999999

/-- The instant a raw epoch names, or a refusal where it lies outside `[2010-01-01, now + 1 day)`. The
    bounds are compared in the raw unit, whole seconds each. -/
def epochToUtc (rawEpoch : ℤ) (unit : EpochUnit) (nowUtc : DateTime) : PyResult DateTime := do
  raiseIf (latestUtc < nowUtc + oneDay) .overflowError ["date value out of range"]
  let lowerRaw := earliestPlausibleUtc.tdiv 1000000 * unit.divisor
  let upperRaw := (nowUtc + oneDay).tdiv 1000000 * unit.divisor
  raiseIf (¬(lowerRaw ≤ rawEpoch ∧ rawEpoch < upperRaw)) .dataIntegrity
    ["epoch ", .count rawEpoch, " read as ", .quoted unit.value, " normalises to ",
      describe rawEpoch unit, ", outside the plausible window [", .instant earliestPlausibleUtc, ", ",
      .instant (nowUtc + oneDay), "); the unit is wrong, not the data -- fix the declaration in ",
      "fking.data.format_resolver"]
  return rawEpoch * (1000000 / unit.divisor)

end FinanceKing.Data
