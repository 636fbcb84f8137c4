import FinanceKing.Data.Backfill
import FinanceKing.Data.Seam

/-! Repairing a sequence gap of the trade tape. The print the gap was measured from is looked up in the
    corpus, the ids after it are fetched and merged, and what is still absent is left as residual
    gaps. -/

namespace FinanceKing.Data

open Lib

/-- A print, and which path it reached the corpus by. -/
structure SourcedRecord where
  record : TradeRecord
  source : RecordSource
  deriving DecidableEq

/-- The daily partitions of every tape. -/
abbrev TapeCorpus := Dict (SeriesKey × Date) (List SourcedRecord)

/-- `STREAM_TIMESTAMP_RESOLUTION`. -/
def streamTimestampResolution : TimeDelta := 1000

/-- The series a tape repair of one symbol walks. -/
def tapeSeries (market : Market) (symbol : String) : SeriesKey := ⟨market, .aggTrades, symbol, noInterval⟩

/-! ### What the corpus holds around a gap -/

/-- `int()` of an id. -/
def parseId (venueTradeId : String) : PyResult ℤ :=
  match pythonInt venueTradeId with
  | some id => .ok id
  | none => raise .valueError ["invalid literal for int() with base 10: ", .quoted venueTradeId]

/-- The end bound counts with its own day: the print after the gap may carry exactly that instant. -/
def daysSpanned (gap : RecordedGap) : List Date :=
  daysBetween (dateOf gap.gapStartUtc) (dateOf gap.gapEndUtc)

/-- `read_partition_trade_window`. -/
def tradeWindow (atUtc : DateTime) (venueTradeIds : List String) (prints : List SourcedRecord) :
    List SourcedRecord :=
  prints.filter fun entry =>
    entry.record.eventTimeUtc = atUtc ∨ entry.record.venueTradeId ∈ venueTradeIds

/-- The prints at an instant and under some ids, over the gap's days; nothing while one of the days has
    no partition. -/
def heldWindow (corpus : TapeCorpus) (series : SeriesKey) (gap : RecordedGap) (atUtc : DateTime)
    (venueTradeIds : List String) : Option (List SourcedRecord) :=
  ((daysSpanned gap).mapM fun day =>
    (corpus.get? (series, day)).map (tradeWindow atUtc venueTradeIds)).map List.flatten

/-- The largest id held at exactly the gap's left bound. -/
def leftBracketId (anchors : List SourcedRecord) (gap : RecordedGap) : PyResult (Option ℤ) := do
  let atTheBound ← (anchors.filter fun entry => entry.record.eventTimeUtc = gap.gapStartUtc).mapM
    fun entry => parseId entry.record.venueTradeId
  return atTheBound.max?

/-- The ids from the left bracket to the right one. -/
def windowIds (previousId missingCount : ℤ) : List String :=
  (List.range (missingCount + 2).toNat).map fun step => toString (previousId + step)

/-- What a repair asks the venue for, and what the corpus holds of it. -/
structure RepairRequest where
  previousId : ℤ
  missingCount : ℤ
  held : Dict String SourcedRecord
  /-- The ids of `held`, as numbers. -/
  heldIds : List ℤ
  deriving DecidableEq

/-- What the corpus lets a repair do with a gap. -/
inductive RepairPlan where
  | deferred
  | leftBracketMissing
  | ask (request : RepairRequest)
  deriving DecidableEq

/-- `_repair`, up to the fetch. -/
def planRepair (corpus : TapeCorpus) (openGap : OpenGap) : PyResult RepairPlan :=
  let gap := openGap.gap
  match heldWindow corpus openGap.series gap gap.gapStartUtc [] with
  | none => .ok .deferred
  | some anchors => do
    match ← leftBracketId anchors gap with
    | none => return .leftBracketMissing
    | some previousId =>
      let missingCount := gap.missingBarCount.getD 0
      let window := heldWindow corpus openGap.series gap gap.gapStartUtc
        (windowIds previousId missingCount)
      let held := Dict.indexBy (·.record.venueTradeId) id (window.getD [])
      let heldIds ← held.keys.mapM parseId
      return .ask ⟨previousId, missingCount, held, heldIds⟩

/-! ### What the venue returns -/

/-- `agg_trades`: a symbol, the first id asked for, and how many prints. -/
abbrev AggTradeSource := String → ℤ → ℤ → PyResult (List TradeRecord)

/-- A request, with the merged view of its prints. -/
structure RepairWindow extends RepairRequest where
  seam : TradeSeam
  deriving DecidableEq

namespace RepairRequest

variable (self : RepairRequest)

def heldInWindow : List TradeRecord :=
  (windowIds self.previousId self.missingCount).filterMap fun id => (self.held.get? id).map (·.record)

/-- The fetch and the merge; two views that contradict each other are refused before anything is
    written. -/
def fetch (source : AggTradeSource) (symbol : String) : PyResult RepairWindow := do
  let fetched ← source symbol self.previousId (self.missingCount + 2)
  let seam ← reconcileTrades self.heldInWindow fetched
  return ⟨self, seam⟩

end RepairRequest

namespace RepairWindow

variable (self : RepairWindow)

/-- The prints of the gap that only the venue had. -/
def recovered : List TradeRecord :=
  self.seam.merged.filter fun record => (self.held.get? record.venueTradeId).isNone ∧
    self.previousId < record.aggregateId ∧ record.aggregateId ≤ self.previousId + self.missingCount

/-- Held and recovered, not recovered alone. -/
def presentIds : List ℤ := self.heldIds ++ self.recovered.map TradeRecord.aggregateId

def instants : Dict ℤ DateTime :=
  Dict.indexBy TradeRecord.aggregateId TradeRecord.eventTimeUtc self.seam.merged

/-- Whether the print of an id is one of the gap's and is still absent. -/
def isAbsent (id : ℤ) : Bool :=
  self.previousId < id && id ≤ self.previousId + self.missingCount && id ∉ self.presentIds

end RepairWindow

/-! ### The residual gaps -/

def instantOf (instants : Dict ℤ DateTime) (id : ℤ) : PyResult DateTime :=
  match instants.get? id with
  | some moment => .ok moment
  | none => raise .keyError [.count id]

/-- A run of absent ids, bounded by the prints either side of it and clamped to its parent. -/
def residual (gap : RecordedGap) (instants : Dict ℤ DateTime) (runStartId runEndId : ℤ) :
    PyResult RecordedGap := do
  let openedAt ← instantOf instants (runStartId - 1)
  let following ← instantOf instants (runEndId + 1)
  return ⟨openedAt, min (max following (openedAt + streamTimestampResolution)) gap.gapEndUtc,
    gap.gapKind, some (runEndId - runStartId + 1)⟩

namespace RepairWindow

variable (self : RepairWindow)

/-- The loop of `_residual_gaps` over the next `count` candidate ids. -/
def residualGapsFrom (gap : RecordedGap) : ℕ → ℤ → Option ℤ → PyResult (List RecordedGap)
  | 0, _, _ => .ok []
  | count + 1, candidateId, runStartId =>
    if self.isAbsent candidateId then
      residualGapsFrom gap count (candidateId + 1) (some (runStartId.getD candidateId))
    else match runStartId with
      | none => residualGapsFrom gap count (candidateId + 1) none
      | some start => do
        let closed ← residual gap self.instants start (candidateId - 1)
        let residuals ← residualGapsFrom gap count (candidateId + 1) none
        return closed :: residuals

def residualGaps (gap : RecordedGap) : PyResult (List RecordedGap) :=
  self.residualGapsFrom gap (self.missingCount + 1).toNat (self.previousId + 1) none

end RepairWindow

/-! ### What is written -/

/-- `write_sourced_records`, for a day of a tape: sorted, checked and written whole. -/
def writeSourcedRecords (toTable : List SourcedRecord → PyResult Unit) (corpus : TapeCorpus)
    (series : SeriesKey) (day : Date) (sourced : List SourcedRecord) : PyResult TapeCorpus := do
  raiseIf (sourced = []) .dataIntegrity
    ["refusing to write an empty batch for ", series.dataset.value, " ", series.symbol, " ", .date day,
      ". Once on disk a zero-row file is indistinguishable from a gap, and a later scan reads it as 'we ",
      "have this period'. A period with no prints is a real observation and it is recorded by the ",
      "coverage registry, not by an empty file"]
  let ordered := sortBy (·.record.eventTimeUtc) sourced
  ordered.forM fun entry => raiseIf (dateOf entry.record.eventTimeUtc ≠ day) .dataIntegrity
    ["record at ", .instant entry.record.eventTimeUtc, " falls outside the partition ",
      series.market.value, "/", series.dataset.value, " ", series.symbol, " ", .date day,
      " (daily). The partition key is read from the path, not from the row, so a stray record is filed ",
      "under a period it does not belong to and every filtered query agrees"]
  toTable ordered
  return corpus.set (series, day) ordered

/-- The recovered prints of one day merged into its partition; the rows already in it keep their own
    source. -/
def writeDay (toTable : List SourcedRecord → PyResult Unit) (series : SeriesKey) (corpus : TapeCorpus)
    (day : Date) (dayPrints : List TradeRecord) : PyResult TapeCorpus := do
  let existing := (corpus.get? (series, day)).getD []
  let byId := dayPrints.foldl (fun d record => d.set record.venueTradeId .restBackfill)
    (Dict.indexBy (fun entry : SourcedRecord => entry.record.venueTradeId) (·.source) existing)
  let seam ← reconcileTrades (existing.map (·.record)) dayPrints
  let sourced ← seam.merged.mapM fun record =>
    match byId.get? record.venueTradeId with
    | some source => .ok (⟨record, source⟩ : SourcedRecord)
    | none => raise .keyError [.quoted record.venueTradeId]
  writeSourcedRecords toTable corpus series day sourced

/-- The days of a repair one after the other; those before one that raises stay written. -/
def writeDays (toTable : List SourcedRecord → PyResult Unit) (series : SeriesKey) :
    List (Date × List TradeRecord) → TapeCorpus → TapeCorpus × PyResult Unit
  | [], corpus => (corpus, .ok ())
  | (day, dayPrints) :: rest, corpus =>
    match writeDay toTable series corpus day dayPrints with
    | .error e => (corpus, .error e)
    | .ok after => writeDays toTable series rest after

def groupByDay (records : List TradeRecord) : Dict Date (List TradeRecord) :=
  Dict.groupBy (fun record => dateOf record.eventTimeUtc) records

/-! ### The pass -/

structure TapeWorld where
  corpus : TapeCorpus
  registry : IngestTables

/-- The running counts of one pass. -/
structure Tally where
  examined : ℤ
  closed : ℤ
  narrowed : ℤ
  unrepaired : ℤ
  deferred : ℤ
  written : ℤ
  stillMissing : ℤ
  deriving DecidableEq

/-- What a repair rests on besides the corpus: the endpoint, the table conversion, and the clock. -/
structure TradeGapBackfiller where
  market : Market
  source : AggTradeSource
  toTable : List SourcedRecord → PyResult Unit
  nowUtc : DateTime

namespace TradeGapBackfiller

variable (self : TradeGapBackfiller)

/-- `_repair`, once the recovered prints are in the corpus. A repair that recovered nothing leaves the
    row as it was. -/
def settleGap (openGap : OpenGap) (window : RepairWindow) (tally : Tally) (world : TapeWorld) :
    TapeWorld × PyResult Tally :=
  match window.residualGaps openGap.gap with
  | .error e => (world, .error e)
  | .ok residuals =>
    let counted :=
      { tally with
        written := tally.written + window.recovered.length
        stillMissing := tally.stillMissing + (residuals.map fun left : RecordedGap => left.missingBarCount.getD 0).sum }
    if window.recovered = [] then (world, .ok { counted with unrepaired := counted.unrepaired + 1 })
    else
      let (registry, resolution) := world.registry.resolveGap openGap residuals self.nowUtc
      ({ world with registry := registry }, resolution.map fun
        | .backfilled => { counted with closed := counted.closed + 1 }
        | .superseded => { counted with narrowed := counted.narrowed + 1 })

def repair (openGap : OpenGap) (tally : Tally) (world : TapeWorld) : TapeWorld × PyResult Tally :=
  match planRepair world.corpus openGap with
  | .error e => (world, .error e)
  | .ok .deferred => (world, .ok { tally with deferred := tally.deferred + 1 })
  | .ok .leftBracketMissing => (world, .ok { tally with unrepaired := tally.unrepaired + 1 })
  | .ok (.ask request) =>
    match request.fetch self.source openGap.series.symbol with
    | .error e => (world, .error e)
    | .ok window =>
      match writeDays self.toTable openGap.series (groupByDay window.recovered).entries
          world.corpus with
      | (corpus, .error e) => ({ world with corpus := corpus }, .error e)
      | (corpus, .ok ()) => self.settleGap openGap window tally { world with corpus := corpus }

/-- The open gaps of one series in turn; only a sequence gap asserts that a print is missing. -/
def repairAll : List OpenGap → Tally → TapeWorld → TapeWorld × PyResult Tally
  | [], tally, world => (world, .ok tally)
  | openGap :: rest, tally, world =>
    if openGap.gap.gapKind = .sequence then
      match self.repair openGap { tally with examined := tally.examined + 1 } world with
      | (after, .ok counted) => repairAll rest counted after
      | (after, .error e) => (after, .error e)
    else repairAll rest tally world

/-- `run`: every backfillable gap of the symbols, oldest first. -/
def run : List String → Tally → TapeWorld → TapeWorld × PyResult Tally
  | [], tally, world => (world, .ok tally)
  | symbol :: rest, tally, world =>
    match self.repairAll (world.registry.openGaps (tapeSeries self.market symbol)) tally world with
    | (after, .ok counted) => run rest counted after
    | (after, .error e) => (after, .error e)

end TradeGapBackfiller

end FinanceKing.Data
