import FinanceKing.Data.Archive
import FinanceKing.Lib.Fold
import FinanceKing.Lib.SortBy
import FinanceKing.Lib.Spans

/-! The coverage and gap registry: what the corpus holds, what it does not, and since when. A partition
    row is upserted; a gap row is inserted once, by its bounds, and rewritten only in its resolution. -/

namespace FinanceKing.Data

open Lib

/-- The bar interval of a dataset that is not keyed by one. -/
def noInterval : String := ""

/-- Why a period holds no rows. -/
inductive GapKind where
  | cadence
  | seam
  | absentArchive
  | sequence
  | disconnect
  deriving DecidableEq

/-- What became of a gap once a backfill reached it. -/
inductive GapResolution where
  | backfilled
  | superseded
  deriving DecidableEq

/-- The four columns every registry statement identifies a series by. -/
structure SeriesKey where
  market : Market
  dataset : Dataset
  symbol : String
  barInterval : String
  deriving DecidableEq

def SeriesKey.fromCoordinate (coordinate : ArchiveCoordinate) : SeriesKey :=
  ⟨coordinate.market, coordinate.dataset, coordinate.symbol, coordinate.interval.getD noInterval⟩

/-- A period the corpus does not hold, in half-open event time. -/
structure RecordedGap where
  gapStartUtc : DateTime
  gapEndUtc : DateTime
  gapKind : GapKind
  missingBarCount : Option ℤ
  deriving DecidableEq

/-- The half of a gap its row is identified by. -/
def RecordedGap.bounds (gap : RecordedGap) : DateTime × DateTime := (gap.gapStartUtc, gap.gapEndUtc)

/-- One unresolved gap, with the instant it was first discovered. -/
structure OpenGap where
  series : SeriesKey
  gap : RecordedGap
  discoveredAtUtc : DateTime
  deriving DecidableEq

/-- The audit record of one file's parse, as far as the registry stores it. -/
structure NormalizationResult where
  rowsIn : ℤ
  rowsOut : ℤ
  rowsRejected : ℤ
  rejectionReasons : List (String × ℤ)
  epochUnitApplied : String
  firstEventTimeUtc : Option DateTime
  lastEventTimeUtc : Option DateTime
  deriving DecidableEq

/-- One archive's parse, keyed by the archive it describes. -/
structure IngestedFile where
  archiveDate : Date
  granularity : Granularity
  sourceChecksumHex : String
  normalization : NormalizationResult
  deriving DecidableEq

/-- Everything one partition's write produced, as one atomic registry fact. -/
structure PartitionRecord where
  coordinate : ArchiveCoordinate
  grain : PartitionGrain
  coveredFromDate : Date
  coveredThroughDate : Date
  absentArchiveCount : ℤ
  firstEventTimeUtc : DateTime
  lastEventTimeUtc : DateTime
  contentDigestHex : String
  parquetPath : String
  writtenAtUtc : DateTime
  files : List IngestedFile
  gaps : List RecordedGap
  deriving DecidableEq

namespace PartitionRecord

variable (self : PartitionRecord)

def rowsIn : ℤ := (self.files.map (·.normalization.rowsIn)).sum

def rowsOut : ℤ := (self.files.map (·.normalization.rowsOut)).sum

def rowsRejected : ℤ := (self.files.map (·.normalization.rowsRejected)).sum

end PartitionRecord

/-! ### The tables -/

structure PartitionRow where
  partitionGrain : PartitionGrain
  coveredFromDate : Date
  coveredThroughDate : Date
  archiveCount : ℤ
  absentArchiveCount : ℤ
  rowsIn : ℤ
  rowsOut : ℤ
  rowsRejected : ℤ
  firstEventTimeUtc : DateTime
  lastEventTimeUtc : DateTime
  contentDigestHex : String
  parquetPath : String
  writtenAtUtc : DateTime
  deriving DecidableEq

structure FileRow where
  periodStartDate : Date
  sourceChecksumHex : String
  normalization : NormalizationResult
  ingestedAtUtc : DateTime
  deriving DecidableEq

namespace PartitionRecord

variable (self : PartitionRecord)

def row : PartitionRow where
  partitionGrain := self.grain
  coveredFromDate := self.coveredFromDate
  coveredThroughDate := self.coveredThroughDate
  archiveCount := self.files.length
  absentArchiveCount := self.absentArchiveCount
  rowsIn := self.rowsIn
  rowsOut := self.rowsOut
  rowsRejected := self.rowsRejected
  firstEventTimeUtc := self.firstEventTimeUtc
  lastEventTimeUtc := self.lastEventTimeUtc
  contentDigestHex := self.contentDigestHex
  parquetPath := self.parquetPath
  writtenAtUtc := self.writtenAtUtc

/-- The row of one of the partition's archives; reasons nothing was rejected for are dropped. -/
def fileRow (ingested : IngestedFile) : FileRow where
  periodStartDate := self.coordinate.archiveDate
  sourceChecksumHex := ingested.sourceChecksumHex
  normalization :=
    { ingested.normalization with
      rejectionReasons := ingested.normalization.rejectionReasons.filter (·.2 ≠ 0) }
  ingestedAtUtc := self.writtenAtUtc

end PartitionRecord

/-- The columns of a gap outside its key. The two resolution columns are both set or both null. -/
structure CoverageGapRow where
  gapKind : GapKind
  missingBarCount : Option ℤ
  discoveredAtUtc : DateTime
  resolution : Option (GapResolution × DateTime)
  deriving DecidableEq

/-- The key of a gap row. -/
abbrev GapKey := SeriesKey × DateTime × DateTime

structure IngestTables where
  ingestPartition : Dict (SeriesKey × Date) PartitionRow
  ingestFile : Dict (SeriesKey × Date × Granularity) FileRow
  coverageGap : Dict GapKey CoverageGapRow
  deriving DecidableEq

def IngestTables.empty : IngestTables := ⟨Dict.empty, Dict.empty, Dict.empty⟩

/-- A statement stops at a constraint its row does not pass. -/
def requireConstraint (passes : Prop) [Decidable passes] (name : String) : PyResult Unit :=
  raiseIf (¬ passes) .integrity ["violates check constraint ", .quoted name]

@[simp] theorem requireConstraint_eq_ok {passes : Prop} [Decidable passes] {name : String}
    {u : Unit} : requireConstraint passes name = .ok u ↔ passes := by
  simp [requireConstraint]

def SeriesKey.matchesDataset (series : SeriesKey) : Prop :=
  series.dataset = .klines ↔ series.barInterval ≠ noInterval

instance (series : SeriesKey) : Decidable series.matchesDataset :=
  inferInstanceAs (Decidable (_ ↔ _))

def PartitionRow.constraints (series : SeriesKey) (row : PartitionRow) : PyResult Unit := do
  requireConstraint series.matchesDataset "ck_ingest_partition_bar_interval_matches_dataset"
  requireConstraint (row.coveredFromDate ≤ row.coveredThroughDate)
    "ck_ingest_partition_coverage_is_ordered"
  requireConstraint (row.firstEventTimeUtc ≤ row.lastEventTimeUtc)
    "ck_ingest_partition_events_are_ordered"
  requireConstraint (0 < row.rowsOut) "ck_ingest_partition_rows_out_is_positive"
  requireConstraint (row.rowsIn = row.rowsOut + row.rowsRejected) "ck_ingest_partition_rows_balance"
  requireConstraint (0 < row.archiveCount) "ck_ingest_partition_archive_count_is_positive"
  requireConstraint (0 ≤ row.absentArchiveCount)
    "ck_ingest_partition_absent_archive_count_is_not_negative"

def FileRow.constraints (series : SeriesKey) (row : FileRow) : PyResult Unit := do
  requireConstraint series.matchesDataset "ck_ingest_file_bar_interval_matches_dataset"
  requireConstraint (row.normalization.rowsIn = row.normalization.rowsOut +
    row.normalization.rowsRejected) "ck_ingest_file_rows_balance"
  requireConstraint (0 ≤ row.normalization.rowsOut) "ck_ingest_file_rows_out_is_not_negative"

def RecordedGap.constraints (series : SeriesKey) (gap : RecordedGap) : PyResult Unit := do
  requireConstraint series.matchesDataset "ck_coverage_gap_bar_interval_matches_dataset"
  requireConstraint (gap.gapStartUtc < gap.gapEndUtc) "ck_coverage_gap_gap_is_forward"
  requireConstraint (gap.missingBarCount.all (0 < ·)) "ck_coverage_gap_missing_bar_count_is_positive"

/-! ### The statements -/

namespace IngestTables

variable (self : IngestTables)

/-- `_INSERT_GAP`: a row of these bounds, whatever it says, is left alone. -/
def placeGap (series : SeriesKey) (discoveredAtUtc : DateTime) (gap : RecordedGap) : IngestTables :=
  { self with
    coverageGap := self.coverageGap.setDefault (series, gap.bounds)
      ⟨gap.gapKind, gap.missingBarCount, discoveredAtUtc, none⟩ }

/-- `_insert_gaps`, with how many of the rows were new. -/
def insertGaps (series : SeriesKey) (discoveredAtUtc : DateTime) :
    List RecordedGap → IngestTables → PyResult (IngestTables × ℕ)
  | [], tables => return (tables, 0)
  | gap :: gaps, tables => do
    gap.constraints series
    let inserted := (tables.coverageGap.get? (series, gap.bounds)).isNone
    let (after, newlyDiscovered) ←
      insertGaps series discoveredAtUtc gaps (tables.placeGap series discoveredAtUtc gap)
    return (after, newlyDiscovered + if inserted then 1 else 0)

/-- `_RESOLVE_GAP`: only a row that is still unresolved is marked, and the caller learns whether one was. -/
def markResolved (series : SeriesKey) (gap : RecordedGap) (resolution : GapResolution)
    (resolvedAtUtc : DateTime) : IngestTables × Bool :=
  match self.coverageGap.get? (series, gap.bounds) with
  | none => (self, false)
  | some row =>
    if row.resolution.isNone then
      ({ self with
          coverageGap := self.coverageGap.set (series, gap.bounds)
            { row with resolution := some (resolution, resolvedAtUtc) } }, true)
    else (self, false)

/-- `_SELECT_OPEN_GAPS`. -/
def openGaps (series : SeriesKey) : List OpenGap :=
  sortBy (fun row => row.gap.gapStartUtc) (self.coverageGap.entries.filterMap fun entry =>
    if entry.1.1 = series ∧ entry.2.resolution.isNone then
      some ⟨series, ⟨entry.1.2.1, entry.1.2.2, entry.2.gapKind, entry.2.missingBarCount⟩,
        entry.2.discoveredAtUtc⟩
    else none)

def requireResidualIsOpen (series : SeriesKey) (residual : RecordedGap) : PyResult Unit :=
  match self.coverageGap.get? (series, residual.bounds) with
  | none => raise .noResultFound ["No row was found when one was required"]
  | some row =>
    match row.resolution with
    | none => .ok ()
    | some (_, resolvedAtUtc) =>
      raise .dataIntegrity ["residual [", .instant residual.gapStartUtc, ", ",
        .instant residual.gapEndUtc, ") collides with a gap already marked resolved at ",
        .instant resolvedAtUtc, ". That range is recorded as held and is missing again, which is a ",
        "corpus that lost data rather than a repair that can proceed"]

/-- The upserts of one partition and of its archives. -/
def upsertPartition (series : SeriesKey) (record : PartitionRecord) : PyResult IngestTables := do
  record.row.constraints series
  let written :=
    { self with
      ingestPartition :=
        self.ingestPartition.set (series, record.coordinate.archiveDate) record.row }
  record.files.foldlM (fun tables ingested => do
    (record.fileRow ingested).constraints series
    return { tables with
      ingestFile := tables.ingestFile.set (series, ingested.archiveDate, ingested.granularity)
        (record.fileRow ingested) })
    written

/-- `engine.begin()`: the body's writes stand if it returns, and none of them if it raises. -/
def transact {α : Type} (body : PyResult (IngestTables × α)) : IngestTables × PyResult α :=
  match body with
  | .ok (after, value) => (after, .ok value)
  | .error e => (self, .error e)

/-! ### The methods -/

def recordPartition (record : PartitionRecord) (discoveredAtUtc : DateTime) :
    IngestTables × PyResult ℕ :=
  let series := SeriesKey.fromCoordinate record.coordinate
  self.transact do
    let written ← self.upsertPartition series record
    written.insertGaps series discoveredAtUtc record.gaps

def recordSeriesGaps (series : SeriesKey) (gaps : List RecordedGap) (discoveredAtUtc : DateTime) :
    IngestTables × PyResult ℕ :=
  if gaps = [] then (self, .ok 0) else self.transact (self.insertGaps series discoveredAtUtc gaps)

def recordGaps (coordinate : ArchiveCoordinate) (gaps : List RecordedGap)
    (discoveredAtUtc : DateTime) : IngestTables × PyResult ℕ :=
  self.recordSeriesGaps (SeriesKey.fromCoordinate coordinate) gaps discoveredAtUtc

/-- A residual must lie inside the gap and be narrower than it. -/
def checkResidual (openGap : OpenGap) (residual : RecordedGap) : PyResult Unit := do
  raiseIf (residual.bounds = openGap.gap.bounds) .dataIntegrity
    ["a residual reproducing [", .instant residual.gapStartUtc, ", ", .instant residual.gapEndUtc,
      ") means the backfill recovered nothing; resolving on that would delete the gap rather than ",
      "narrow it"]
  raiseIf (residual.gapStartUtc < openGap.gap.gapStartUtc ∨
      openGap.gap.gapEndUtc < residual.gapEndUtc) .dataIntegrity
    ["residual [", .instant residual.gapStartUtc, ", ", .instant residual.gapEndUtc,
      ") falls outside the gap it narrows, [", .instant openGap.gap.gapStartUtc, ", ",
      .instant openGap.gap.gapEndUtc, "). A repair widens nothing"]

/-- Residuals are inserted before the original is marked, and whether it was is asked only once the
    transaction has committed. -/
def resolveGap (openGap : OpenGap) (residuals : List RecordedGap) (resolvedAtUtc : DateTime) :
    IngestTables × PyResult GapResolution :=
  match residuals.forM (checkResidual openGap) with
  | .error e => (self, .error e)
  | .ok () =>
    let resolution : GapResolution := if residuals = [] then .backfilled else .superseded
    let (after, result) := self.transact do
      let (inserted, _) ← self.insertGaps openGap.series openGap.discoveredAtUtc residuals
      residuals.forM (inserted.requireResidualIsOpen openGap.series)
      return inserted.markResolved openGap.series openGap.gap resolution resolvedAtUtc
    match result with
    | .error e => (after, .error e)
    | .ok true => (after, .ok resolution)
    | .ok false =>
      (after, raise .dataUnavailable ["no unresolved gap [", .instant openGap.gap.gapStartUtc, ", ",
        .instant openGap.gap.gapEndUtc, ") for ", openGap.series.symbol, " ",
        openGap.series.dataset.value, "; it was resolved by another writer or never recorded, and ",
        "either way this repair must not claim it"])

end IngestTables

end FinanceKing.Data
