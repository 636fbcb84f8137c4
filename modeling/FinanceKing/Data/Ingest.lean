import FinanceKing.Data.Corpus
import FinanceKing.Data.QualityGates

/-! Archive bytes to a written partition, with every gate in front of the write: each archive is gated on
    its own, what survived is concatenated, gated again, and written once. -/

namespace FinanceKing.Data

open Lib

/-- The code an ingestion rests on: the digest of a file, and the text of the one member inside it. -/
structure ArchiveTools (Bytes : Type) extends ParquetTools where
  sha256Hex : Bytes → String
  extractSingleMember : Bytes → String → PyResult String

/-- One verified archive on its way into a partition. -/
structure ArchiveMember (Bytes : Type) where
  archiveBytes : Bytes
  spec : IngestionSpec
  source : String

/-- What one gated archive produced, including what the gates chose not to refuse. -/
structure IngestionOutcome where
  normalization : NormalizationResult
  cadenceGaps : List CadenceGap
  continuityFlags : List PriceContinuityFlag
  deriving DecidableEq

/-- What one partition's worth of archives produced. -/
structure PartitionIngestion where
  members : List IngestionOutcome
  cadenceGaps : List CadenceGap
  continuityFlags : List PriceContinuityFlag
  write : WriteOutcome
  firstEventTimeUtc : DateTime
  lastEventTimeUtc : DateTime
  deriving DecidableEq

variable {Bytes : Type}

/-- Gate 2: the header gate's refusal, relabelled; every other refusal passes through. -/
def relabelHeader {α : Type} (rows : PyResult α) : PyResult α :=
  match rows with
  | .ok value => .ok value
  | .error e =>
    if e.kind = .headerExpectation then
      raise .qualityGate (Gate.headerExpectation.refusal e.message)
    else .error e

theorem relabelHeader_eq_ok {α : Type} {rows : PyResult α} {value : α} :
    relabelHeader rows = .ok value ↔ rows = .ok value := by
  cases rows with
  | ok other => rfl
  | error e =>
    rw [relabelHeader]
    split <;> simp [raise]

/-- What gates 2 and 3 need to know about a dataset's columns: a trade row opens with its id and carries the
    epoch fifth. -/
structure DatasetLayout (Record : Type) where
  parser : DatasetParser Record
  epochColumnIndex : ℕ

def klineLayout : DatasetLayout KlineRecord := ⟨klineParser, klineColumns.idxOf "open_time"⟩

def tradeLayout : DatasetLayout TradeRecord := ⟨tradeParser, tradeColumns.idxOf "time"⟩

/-- Gate 3 over the first data row, where it reaches the epoch's column. -/
def assertOpensPlausibly (epochColumnIndex : ℕ) (spec : IngestionSpec) (source : String)
    (rows : List (List String)) : PyResult Unit :=
  match rows.head?.bind (·[epochColumnIndex]?) with
  | none => .ok ()
  | some rawEpoch => do
    let unit ← spec.archiveFormat.requireEpochUnit
    assertFirstTimestampIsPlausible rawEpoch unit spec.nowUtc source

/-- Gate 8, for a dataset that is keyed by an interval. -/
def cadenceReport (interval : Option String) (records : List KlineRecord) (source : String) :
    PyResult (List CadenceGap) :=
  match interval with
  | none => .ok []
  | some interval => detectCadenceGaps records interval source

/-- The blocking gates over one archive: its records and the audit record of its parse, which ran under a
    ceiling of one and is adjudicated here. -/
def gateRows {Record : Type} (layout : DatasetLayout Record) (tools : ArchiveTools Bytes)
    (member : ArchiveMember Bytes) : PyResult (List Record × NormalizationResult) := do
  let spec := member.spec
  let source := member.source
  assertChecksumMatches (tools.sha256Hex member.archiveBytes) spec.sourceChecksumHex source
  let text ← tools.extractSingleMember member.archiveBytes source
  let rows ← relabelHeader
    (splitRows text source spec.archiveFormat.hasHeaderRow layout.parser.columns)
  assertOpensPlausibly layout.epochColumnIndex spec source rows
  let (records, normalization) ← layout.parser.parseText text spec 1 source
  assertBarTimestampsAreMonotone layout.parser.eventTimeUtc source records
  assertBooleanRejectionsWithinCeiling normalization spec.maxRejectionFraction source
  assertOhlcRejectionsWithinCeiling normalization source
  assertNoNegativeVolume normalization source
  assertResidualRejectionsWithinCeiling normalization spec.maxRejectionFraction source
  return (records, normalization)

/-- Every ingestion gate over one kline archive, and what survived; nothing is written. -/
def gateKlines (tools : ArchiveTools Bytes) (member : ArchiveMember Bytes) :
    PyResult (List KlineRecord × IngestionOutcome) := do
  let (records, normalization) ← gateRows klineLayout tools member
  let gaps ← cadenceReport member.spec.coordinate.interval records member.source
  return (records, ⟨normalization, gaps, flagPriceDiscontinuities records⟩)

/-- Every ingestion gate over one trade archive. It has no interval and its prints have no close, so the
    reporting gates find nothing. -/
def gateTrades (tools : ArchiveTools Bytes) (member : ArchiveMember Bytes) :
    PyResult (List TradeRecord × IngestionOutcome) := do
  let (records, normalization) ← gateRows tradeLayout tools member
  return (records, ⟨normalization, [], []⟩)

/-- The accepted records of an archive, of whichever dataset its format declares. -/
inductive ArchiveRecords where
  | klines (records : List KlineRecord)
  | trades (records : List TradeRecord)

/-- `gate_archive`: the gates of the declared dataset; a dataset with no declared layout is refused. -/
def gateArchive (tools : ArchiveTools Bytes) (member : ArchiveMember Bytes) :
    PyResult (ArchiveRecords × IngestionOutcome) :=
  match member.spec.archiveFormat.dataset with
  | .klines => do
    let (records, outcome) ← gateKlines tools member
    return (.klines records, outcome)
  | .trades => do
    let (records, outcome) ← gateTrades tools member
    return (.trades records, outcome)
  | dataset => do
    assertChecksumMatches (tools.sha256Hex member.archiveBytes) member.spec.sourceChecksumHex member.source
    let _ ← tools.extractSingleMember member.archiveBytes member.source
    raise .qualityGate (Gate.headerExpectation.refusal
      ["no column layout is declared for dataset ", .quoted dataset.value, ", so the header cannot be ",
        "checked against anything. A layout arrives with a recorded fragment, never before it"])

/-- The coordinate of one monthly kline partition. -/
structure KlinePartition where
  coordinate : ArchiveCoordinate
  isKlines : coordinate.dataset = .klines

def partitionLabel (coordinate : ArchiveCoordinate) : String :=
  coordinate.market.value ++ "/" ++ coordinate.dataset.value ++ "/" ++ coordinate.symbol ++
    coordinate.interval.elim "" ("/" ++ ·) ++ " partition " ++ isoformat coordinate.archiveDate

/-- Every archive addresses the partition's market, dataset, symbol and interval. -/
def requireOneSeries (coordinate : ArchiveCoordinate) (member : ArchiveMember Bytes) :
    PyResult Unit :=
  let addressed := member.spec.coordinate
  raiseIf ((addressed.market, addressed.dataset, addressed.symbol, addressed.interval) ≠
      (coordinate.market, coordinate.dataset, coordinate.symbol, coordinate.interval)) .dataIntegrity
    ["archive ", member.source, " addresses ", addressed.market.value, "/", addressed.dataset.value,
      "/", addressed.symbol, "/", addressed.interval.getD "None", " but the partition is ",
      coordinate.market.value, "/", coordinate.dataset.value, "/", coordinate.symbol, "/",
      coordinate.interval.getD "None", ". One partition is one series; the partition key is read from ",
      "the path, so a foreign row is filed under a series it is not in"]

/-- Archives are supplied in ascending archive-date order. -/
def requirePartitionIsOrdered (members : List (ArchiveMember Bytes)) (source : String) :
    PyResult Unit :=
  let dates := members.map fun member => member.spec.coordinate.archiveDate
  raiseIf (dates ≠ sortBy id dates) .dataIntegrity
    (([source, " received archives in "] : Message) ++ dates.map Piece.date ++
      ([" order. A partition is written from a concatenation, so the order it is supplied in is the ",
        "order it is written in; sorting here would hide a plan that enumerated periods backwards"] :
        Message))

/-- The gated members of a partition, in the order they were supplied. -/
def gateMembers (tools : ArchiveTools Bytes) (members : List (ArchiveMember Bytes)) :
    PyResult (List (List KlineRecord × IngestionOutcome)) :=
  members.mapM (gateKlines tools)

/-- Everything `ingest_partition` does before its write: the gated members, and the partition's gaps. -/
def gatePartition (tools : ArchiveTools Bytes) (members : List (ArchiveMember Bytes))
    (partition : KlinePartition) :
    PyResult (List KlineRecord × List IngestionOutcome × List CadenceGap) := do
  let coordinate := partition.coordinate
  raiseIf (members.length = 0) .dataIntegrity
    ["refusing to ingest a partition with no archives for ", coordinate.dataset.value, " ",
      coordinate.symbol, " ", .date coordinate.archiveDate, ". A period whose archives are all absent ",
      "is a gap, recorded by the coverage registry, not a write"]
  members.forM (requireOneSeries coordinate)
  let gated ← gateMembers tools members
  let records := gated.flatMap (·.1)
  let source := partitionLabel coordinate
  raiseIf (records = []) .dataIntegrity
    ["every archive in ", source, " parsed to zero records. A file ",
      "with no data rows is a real observation on an illiquid symbol, and a partition of them is a ",
      "period with no prints -- recorded by the coverage registry, never as a zero-row Parquet file ",
      "that a later scan reads as 'we have this period'"]
  requirePartitionIsOrdered members source
  assertBarTimestampsAreMonotone KlineRecord.eventTimeUtc source records
  let gaps ← cadenceReport coordinate.interval records source
  return (records, gated.map (·.2), gaps)

/-- `ingest_partition`: gate every archive and, if all pass, write the partition once. The write is the
    last statement. -/
def ingestPartition (tools : ArchiveTools Bytes) (corpus : Corpus) (members : List (ArchiveMember Bytes))
    (partition : KlinePartition) (ingestedAtUtc : DateTime) :
    Corpus × PyResult PartitionIngestion :=
  match gatePartition tools members partition with
  | .error e => (corpus, .error e)
  | .ok (records, outcomes, gaps) =>
    match corpus.writeRecords tools.toParquetTools records partition.coordinate .archive
        ingestedAtUtc with
    | (after, .error e) => (after, .error e)
    | (after, .ok written) =>
      (after, .ok
        { members := outcomes
          cadenceGaps := gaps
          continuityFlags := flagPriceDiscontinuities records
          write := written
          firstEventTimeUtc := (records.head?.map (·.eventTimeUtc)).getD 0
          lastEventTimeUtc := (records.getLast?.map (·.eventTimeUtc)).getD 0 })

end FinanceKing.Data
