import FinanceKing.Data.Ingest

/-! The archive backfill of one kline series: the plan of its monthly partitions, the visit of one
    partition, and a whole run. The object store is whatever the run finds published. -/

namespace FinanceKing.Data

open Lib

/-! ### The plan -/

def monthStart (anyDay : Date) : Date := firstDayOf (yearMonth anyDay)

def monthEnd (anyDay : Date) : Date := lastDayOf (yearMonth anyDay)

/-- Monthly where it exists, daily for the current and the previous month. -/
def resolveGranularity (archiveDate todayUtc : Date) : Granularity :=
  if monthIndex (yearMonth todayUtc) - monthIndex (yearMonth archiveDate) ≤ 1 then .daily else .monthly

/-- One kline series; its symbol and its interval are what every coordinate of it is built from. -/
structure ArchiveSeries where
  market : Market
  symbol : String
  interval : String
  isSymbol : symbol ≠ "" ∧ strip symbol = symbol.toList
  isInterval : interval ≠ ""
  deriving DecidableEq

namespace ArchiveSeries

variable (self : ArchiveSeries)

theorem coordinate_checked (archiveDate : Date) : (ArchiveCoordinateFields.mk self.market .klines
    self.symbol archiveDate (some self.interval)).postInit = .ok () := by
  simp [ArchiveCoordinateFields.postInit, bind_eq_ok, Dataset.needsInterval, self.isSymbol,
    self.isInterval]

/-- This series' coordinate for one date. -/
def coordinateAt (archiveDate : Date) : ArchiveCoordinate :=
  ⟨⟨self.market, .klines, self.symbol, archiveDate, some self.interval⟩,
    self.coordinate_checked archiveDate⟩

def key : SeriesKey := ⟨self.market, .klines, self.symbol, self.interval⟩

end ArchiveSeries

/-- One archive to fetch, and the granularity its partition grain requires. -/
structure PlannedArchive where
  coordinate : ArchiveCoordinate
  granularity : Granularity
  deriving DecidableEq

def PlannedArchive.coveredFromDate (self : PlannedArchive) : Date :=
  match self.granularity with
  | .daily => self.coordinate.archiveDate
  | .monthly => monthStart self.coordinate.archiveDate

def PlannedArchive.coveredThroughDate (self : PlannedArchive) : Date :=
  match self.granularity with
  | .daily => self.coordinate.archiveDate
  | .monthly => monthEnd self.coordinate.archiveDate

/-- One Parquet file and the archives that fill it; its date is the first day of its month. -/
structure PartitionPlan where
  periodStartDate : Date
  archives : List PlannedArchive
  deriving DecidableEq

/-- The last day any of the archives covers. -/
def PartitionPlan.coveredThroughDate (self : PartitionPlan) : Date :=
  ((self.archives.map PlannedArchive.coveredThroughDate).max?).getD self.periodStartDate

def daysBetween (first last : Date) : List Date :=
  (List.range (last + 1 - first).toNat).map fun offset => first + offset

/-- The first days of the months from `first`'s to `last`'s. -/
def monthStartsBetween (first last : Date) : List Date :=
  if last < first then []
  else (List.range (monthIndex (yearMonth last) + 1 - monthIndex (yearMonth first)).toNat).map
    fun n => firstDayOf (nextMonth^[n] (yearMonth first))

namespace ArchiveSeries

variable (self : ArchiveSeries)

/-- One month, fed by its monthly archive where that exists and by days where it does not. -/
def monthlyPartition (periodStartDate earliestDate throughDate todayUtc : Date) : PartitionPlan :=
  match resolveGranularity periodStartDate todayUtc with
  | .monthly => ⟨periodStartDate, [⟨self.coordinateAt periodStartDate, .monthly⟩]⟩
  | .daily =>
    let days := daysBetween (max periodStartDate earliestDate) (min (monthEnd periodStartDate) throughDate)
    ⟨periodStartDate, days.map fun day => ⟨self.coordinateAt day, .daily⟩⟩

/-- Every partition covering `[earliest, through]`, oldest first. -/
def planPartitions (earliestDate throughDate todayUtc : Date) : PyResult (List PartitionPlan) := do
  raiseIf (throughDate < earliestDate) .dataIntegrity
    ["backfill range for ", self.symbol, " ends ", .date throughDate, ", before it starts ",
      .date earliestDate, ". An inverted range plans nothing and would report a complete run having ",
      "fetched no archive"]
  return (monthStartsBetween earliestDate throughDate).map fun periodStartDate =>
    self.monthlyPartition periodStartDate earliestDate throughDate todayUtc

end ArchiveSeries

/-! ### The object store -/

/-- A verified archive, and where it came from. -/
structure FetchedArchive (Bytes : Type) where
  archiveBytes : Bytes
  sha256Hex : String
  url : String

/-- What one run finds published: which siblings answer, and what fetching an archive gives back; `none`
    is an archive the host does not publish. -/
structure ObjectStore (Bytes : Type) where
  published : ArchiveCoordinate → Granularity → Bool
  fetch : ArchiveCoordinate → Granularity → PyResult (Option (FetchedArchive Bytes))

/-- The binary search of `_first_published` between `low` and `high`. -/
def firstPublishedBetween (isPublished : ℕ → Bool) (low high : ℕ) : ℕ :=
  if low < high then
    if isPublished ((low + high) / 2) then firstPublishedBetween isPublished low ((low + high) / 2)
    else firstPublishedBetween isPublished ((low + high) / 2 + 1) high
  else low
termination_by high - low

/-- The first candidate the search settles on, which must not be past their end. -/
def firstPublished (candidates : List Date) (isPublished : Date → Bool) : Option Date :=
  candidates[firstPublishedBetween (fun index => (candidates[index]?).any isPublished) 0
    candidates.length]?

/-- The earliest date the archives of a series are published from: monthly archives first, and the daily
    ones of the recent window where no monthly one is found. -/
def discoverEarliestArchiveDate (series : ArchiveSeries)
    (published : ArchiveCoordinate → Granularity → Bool) (floorDate todayUtc : Date) : Option Date :=
  let recentWindowStart := monthStart (monthStart todayUtc - 1)
  let monthly := firstPublished (monthStartsBetween floorDate (recentWindowStart - 1))
    fun day => published (series.coordinateAt day) .monthly
  monthly.or (firstPublished (daysBetween (max floorDate recentWindowStart) (todayUtc - 1))
    fun day => published (series.coordinateAt day) .daily)

/-! ### The visit of one partition -/

/-- One run over one series, fully declared. -/
structure BackfillRequest where
  series : ArchiveSeries
  throughDate : Date
  todayUtc : Date
  nowUtc : DateTime
  historyFloorDate : Date
  writeRoot : String
  maxRejectionFraction : Decimal

/-- What a backfill writes: the files, and the registry's tables. -/
structure BackfillWorld where
  corpus : Corpus
  registry : IngestTables

/-- `partition_path`, for a kline coordinate. -/
def partitionPath (root : String) (coordinate : ArchiveCoordinate) : String :=
  let period := yearMonth coordinate.archiveDate
  let year := String.ofList (DecimalFloat.paddedDigits 4 period.1.toNat)
  let month := String.ofList (DecimalFloat.paddedDigits 2 period.2.toNat)
  root ++ "/market=" ++ coordinate.market.value ++ "/dataset=" ++ coordinate.dataset.value ++
    "/symbol=" ++ coordinate.symbol ++ "/interval=" ++ coordinate.interval.getD noInterval ++ "/year=" ++
    year ++ "/month=" ++ month ++ "/part-" ++ year ++ "-" ++ month ++ ".parquet"

namespace IngestTables

variable (self : IngestTables)

/-- What the registry holds for one period of a series. -/
def partitionState (series : SeriesKey) (periodStartDate : Date) : Option PartitionRow :=
  self.ingestPartition.get? (series, periodStartDate)

/-- The periods of a series before this one, each with the row it has. -/
def periodsBefore (series : SeriesKey) (periodStartDate : Date) : List (Date × PartitionRow) :=
  self.ingestPartition.entries.filterMap fun entry =>
    if entry.1.1 = series ∧ entry.1.2 < periodStartDate then some (entry.1.2, entry.2) else none

/-- The newest event time the corpus holds for this series before this period. -/
def lastEventBefore (series : SeriesKey) (periodStartDate : Date) : Option DateTime :=
  (minBy (fun entry : Date × PartitionRow => -entry.1)
    (self.periodsBefore series periodStartDate)).map (·.2.lastEventTimeUtc)

end IngestTables

/-- Whether a partition can be skipped, checked against the registry and the corpus. -/
def isComplete (world : BackfillWorld) (request : BackfillRequest) (plan : PartitionPlan) : Bool :=
  match world.registry.partitionState request.series.key plan.periodStartDate with
  | none => false
  | some state =>
    state.absentArchiveCount ≤ 0 &&
      min plan.coveredThroughDate request.throughDate ≤ state.coveredThroughDate &&
      ((world.corpus.get? (request.series.key, yearMonth plan.periodStartDate)).map
        (·.contentDigestHex) = some state.contentDigestHex)

/-- Refuse a rewrite that would cover less of the period than the corpus already holds. -/
def requireNoNarrowing (state : Option PartitionRow) (label : Message) (coveredFrom coveredThrough : Date) :
    PyResult Unit :=
  match state with
  | none => .ok ()
  | some state => raiseIf (¬(coveredFrom ≤ state.coveredFromDate ∧
      state.coveredThroughDate ≤ coveredThrough)) .dataIntegrity
      (label ++ ([" already holds [", .date state.coveredFromDate, ", ", .date state.coveredThroughDate,
        "] and this run covers only [", .date coveredFrom, ", ", .date coveredThrough, "]. A partition ",
        "is written whole, so continuing would delete the difference from the corpus. Widen the run ",
        "(--through), or delete the partition and its registry row deliberately if the narrower range ",
        "is what you want"] : Message))

/-- Bracketing bar times, as the missing region between them. -/
def recordedCadenceGaps (duration : TimeDelta) (gaps : List CadenceGap) : List RecordedGap :=
  gaps.map fun gap => ⟨gap.afterOpenTimeUtc + duration, gap.beforeOpenTimeUtc, .cadence,
    some gap.missingBarCount⟩

/-- The gap between the previous partition's last bar and this partition's first. -/
def seamGaps (duration : TimeDelta) (previousLastUtc : Option DateTime) (firstUtc : DateTime) :
    List RecordedGap :=
  match previousLastUtc with
  | none => []
  | some previousLast =>
    let expectedNext := previousLast + duration
    if firstUtc ≤ expectedNext then []
    else [⟨expectedNext, firstUtc, .seam, some ((firstUtc - expectedNext) / duration +
      if (firstUtc - expectedNext) % duration ≠ 0 then 1 else 0)⟩]

/-- One archive that was published, paired with the plan entry that asked for it. -/
structure FetchedMember (Bytes : Type) where
  planned : PlannedArchive
  fetched : FetchedArchive Bytes

variable {Bytes : Type}

/-- The archives of a plan the store publishes, in plan order. -/
def fetchMembers (store : ObjectStore Bytes) (archives : List PlannedArchive) :
    PyResult (List (FetchedMember Bytes)) := do
  let fetched ← archives.mapM fun planned => do
    let found ← store.fetch planned.coordinate planned.granularity
    return found.map fun archive => (⟨planned, archive⟩ : FetchedMember Bytes)
  return fetched.filterMap id

/-- The parse spec of one fetched archive, its format resolved for its own date. -/
def memberFor (request : BackfillRequest) (member : FetchedMember Bytes) :
    PyResult (ArchiveMember Bytes) := do
  let coordinate := member.planned.coordinate
  let archiveFormat ← resolveArchiveFormat coordinate.market coordinate.dataset coordinate.archiveDate
  let spec ← construct IngestionSpecFields.postInit IngestionSpec.mk
    ⟨coordinate, archiveFormat, member.fetched.sha256Hex, request.nowUtc,
      request.maxRejectionFraction⟩
  return ⟨member.fetched.archiveBytes, spec, member.fetched.url⟩

/-- The partition a plan of a kline series fills. -/
def PartitionPlan.partition (self : PartitionPlan) (series : ArchiveSeries) : KlinePartition :=
  ⟨series.coordinateAt self.periodStartDate, rfl⟩

/-- The declared duration of the series' interval; only an ingestion that returned asks for it. -/
def BackfillRequest.duration (self : BackfillRequest) : TimeDelta :=
  (cadenceIntervals.lookup self.series.interval).getD 0

/-- The atomic registry fact one ingestion leaves behind. -/
def recordFor (request : BackfillRequest) (plan : PartitionPlan) (present : List (FetchedMember Bytes))
    (ingested : PartitionIngestion) (previousLastUtc : Option DateTime) : PartitionRecord where
  coordinate := request.series.coordinateAt plan.periodStartDate
  grain := .monthly
  coveredFromDate := ((present.map (·.planned.coveredFromDate)).min?).getD plan.periodStartDate
  coveredThroughDate := ((present.map (·.planned.coveredThroughDate)).max?).getD plan.periodStartDate
  absentArchiveCount := plan.archives.length - present.length
  firstEventTimeUtc := ingested.firstEventTimeUtc
  lastEventTimeUtc := ingested.lastEventTimeUtc
  contentDigestHex := ingested.write.contentDigestHex
  parquetPath := partitionPath request.writeRoot (request.series.coordinateAt plan.periodStartDate)
  writtenAtUtc := request.nowUtc
  files := (present.zip ingested.members).map fun pair =>
    ⟨pair.1.planned.coordinate.archiveDate, pair.1.planned.granularity, pair.1.fetched.sha256Hex,
      pair.2.normalization⟩
  gaps := seamGaps request.duration previousLastUtc ingested.firstEventTimeUtc ++
    recordedCadenceGaps request.duration ingested.cadenceGaps

/-- What a visit ingests, once it knows the partition is not complete: the archives that are published,
    behind the narrowing check. -/
def visitMembers (store : ObjectStore Bytes) (request : BackfillRequest) (plan : PartitionPlan)
    (world : BackfillWorld) : PyResult (List (FetchedMember Bytes) × List (ArchiveMember Bytes)) := do
  let present ← fetchMembers store plan.archives
  if present.length = 0 then return ([], [])
  requireNoNarrowing (world.registry.partitionState request.series.key plan.periodStartDate)
    [request.series.market.value, "/klines/", request.series.symbol, "/", request.series.interval, "@",
      .date plan.periodStartDate]
    (((present.map (·.planned.coveredFromDate)).min?).getD plan.periodStartDate)
    (((present.map (·.planned.coveredThroughDate)).max?).getD plan.periodStartDate)
  let members ← present.mapM (memberFor request)
  return (present, members)

namespace BackfillWorld

variable (self : BackfillWorld)

/-- `_backfill_partition`. A period whose archives are all absent leaves nothing behind: the seam between
    its neighbours is what describes it. -/
def backfillPartition (tools : ArchiveTools Bytes) (store : ObjectStore Bytes)
    (request : BackfillRequest) (plan : PartitionPlan) : BackfillWorld × PyResult Unit :=
  if isComplete self request plan then (self, .ok ())
  else
    match visitMembers store request plan self with
    | .error e => (self, .error e)
    | .ok ([], _) => (self, .ok ())
    | .ok (present, members) =>
      match ingestPartition tools self.corpus members (plan.partition request.series)
          request.nowUtc with
      | (corpus, .error e) => ({ self with corpus := corpus }, .error e)
      | (corpus, .ok ingested) =>
        let previousLast :=
          self.registry.lastEventBefore request.series.key plan.periodStartDate
        match self.registry.recordPartition (recordFor request plan present ingested previousLast)
            request.nowUtc with
        | (registry, .error e) => (⟨corpus, registry⟩, .error e)
        | (registry, .ok _) => (⟨corpus, registry⟩, .ok ())

/-- The partitions of a plan in order, up to the first that raises. -/
def backfillPartitions (tools : ArchiveTools Bytes) (store : ObjectStore Bytes)
    (request : BackfillRequest) : List PartitionPlan → BackfillWorld → BackfillWorld × PyResult Unit
  | [], world => (world, .ok ())
  | plan :: plans, world =>
    match world.backfillPartition tools store request plan with
    | (after, .ok ()) => backfillPartitions tools store request plans after
    | (after, .error e) => (after, .error e)

/-- `run_backfill`, of one series. -/
def runBackfill (tools : ArchiveTools Bytes) (store : ObjectStore Bytes) (request : BackfillRequest) :
    BackfillWorld × PyResult Unit :=
  match discoverEarliestArchiveDate request.series store.published request.historyFloorDate
      request.todayUtc with
  | none => (self, .ok ())
  | some earliest =>
    match request.series.planPartitions earliest request.throughDate request.todayUtc with
    | .error e => (self, .error e)
    | .ok plans => backfillPartitions tools store request plans self

end BackfillWorld

end FinanceKing.Data
