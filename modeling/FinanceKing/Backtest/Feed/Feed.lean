import FinanceKing.Backtest.Feed.Request
import FinanceKing.Data.Corpus

/-! The market-data feed: the coverage of a window, the refusal of one with a hole in it, the merged
    events of every series, and the gate that keeps warm-up bars from the strategy. -/

namespace FinanceKing.Backtest

open Lib Data

/-! ### Coverage -/

/-- A maximal run of consecutive lattice instants the corpus does not hold. -/
structure CoverageGap where
  gapStartUtc : DateTime
  gapEndUtc : DateTime
  missingBarCount : ℤ
  deriving DecidableEq

/-- Maximal runs of lattice instants absent from the open times that were observed. -/
def gapsAgainst (lattice observedOpenTimes : List DateTime) (duration : TimeDelta) : List CoverageGap :=
  (missingRuns (fun moment => moment ∈ observedOpenTimes) none lattice).map fun run =>
    ⟨run.1, run.1 + duration * run.2, run.2⟩

/-- One series' coverage over the requested span, warm-up included. -/
structure SymbolCoverage where
  market : Market
  symbol : String
  observedBarCount : ℤ
  expectedBarCount : ℤ
  firstOpenTimeUtc : Option DateTime
  lastOpenTimeUtc : Option DateTime
  gaps : List CoverageGap
  partitionFormats : List PartitionFormat
  deriving DecidableEq

namespace SymbolCoverage

variable (self : SymbolCoverage)

def missingBarCount : ℤ := (self.gaps.map CoverageGap.missingBarCount).sum

def isComplete : Bool := self.gaps = []

/-- The lines this series contributes to a report. -/
def render : Message :=
  ([self.market.value, "/", self.symbol, " ", .count self.observedBarCount, "/",
    .count self.expectedBarCount, " bars, "] : Message) ++
  (if self.isComplete then (["no gaps"] : Message)
  else ([.count self.gaps.length, " gaps, ", .count self.missingBarCount, " bars missing"] : Message) ++
    self.gaps.flatMap fun gap =>
      ([.instant gap.gapStartUtc, " .. ", .instant gap.gapEndUtc, " (", .count gap.missingBarCount,
        " bars)"] : Message))

end SymbolCoverage

/-- Every requested series' coverage, and whether the run can honestly be served. -/
structure CoverageReport where
  barInterval : String
  warmupStartUtc : DateTime
  exposedFromUtc : DateTime
  untilUtc : DateTime
  series : List SymbolCoverage
  deriving DecidableEq

namespace CoverageReport

variable (self : CoverageReport)

def isServable : Bool := self.series.all SymbolCoverage.isComplete

def incomplete : List SymbolCoverage := self.series.filter fun entry => ¬ entry.isComplete

/-- The report an operator reads. -/
def render : Message :=
  (["coverage ", self.barInterval, " warmup ", .instant self.warmupStartUtc, " .. ",
    .instant self.exposedFromUtc, ", exposed ", .instant self.exposedFromUtc, " .. ",
    .instant self.untilUtc] : Message) ++ self.series.flatMap SymbolCoverage.render ++
  (if self.isServable then
    (["every requested bar is present; the window is servable"] : Message)
  else
    (["REFUSED: ", .count self.incomplete.length, " of ", .count self.series.length,
      " series have gaps. Narrow the window or backfill the ranges above. Bars are never interpolated -- ",
      "an invented bar is a price that existed nowhere, at a timestamp at which nobody could have traded"] :
      Message))

end CoverageReport

/-! ### The feed -/

/-- The events one window produces, with the coverage that justifies serving them. -/
structure FeedSlice where
  events : List Event
  warmupEventCount : ℤ
  archiveBarCount : ℤ
  exposedFromUtc : DateTime
  coverage : CoverageReport
  deriving DecidableEq

/-- What a feed is built with: the corpus, the instant it is read at, and how its scans order rows. -/
structure MarketDataFeed where
  corpus : Corpus
  nowUtc : DateTime
  order : ScanOrder

/-- Every held bar must be one the request's lattice names. -/
def requireOnLattice (entry : SeriesRequest) (openTimes : List DateTime) (request : FeedRequest) :
    PyResult Unit :=
  let stray := openTimes.filter fun moment => ¬ moment ∈ request.lattice
  raiseIf (stray ≠ []) .corpusIntegrity
    [entry.label, " holds ", .count stray.length, " bars that are not on the ", request.barInterval,
      " lattice the window names, the first at ", .instant (stray.headD 0), ". A misaligned bar is ",
      "counted as present while contributing to no instant the request asked for, so the series can ",
      "read as complete with a real hole beside it"]

def coverageFor (request : FeedRequest) (entry : SeriesRequest × SeriesRead) : PyResult SymbolCoverage := do
  let openTimes := entry.2.bars.map ArchiveBar.openTimeUtc
  requireOnLattice entry.1 openTimes request
  return { market := entry.1.market
           symbol := entry.1.symbol
           observedBarCount := openTimes.length
           expectedBarCount := request.lattice.length
           firstOpenTimeUtc := openTimes.head?
           lastOpenTimeUtc := openTimes.getLast?
           gaps := gapsAgainst request.lattice openTimes request.duration
           partitionFormats := entry.2.partitionFormats }

def coverageOf (request : FeedRequest) (reads : List (SeriesRequest × SeriesRead)) :
    PyResult CoverageReport := do
  let series ← reads.mapM (coverageFor request)
  return ⟨request.barInterval, request.warmupStartUtc, request.exposedFromUtc, request.untilUtc, series⟩

/-- One corpus row as the domain object a strategy is handed. -/
def toDomainBar (archiveBar : ArchiveBar) (entry : SeriesRequest) : PyResult Bar :=
  construct BarFields.postInit Bar.mk
    { instrument := entry.instrument
      openTimeUtc := archiveBar.openTimeUtc
      closeTimeUtc := archiveBar.closeTimeUtc
      openQuotePrice := archiveBar.openQuotePrice
      highQuotePrice := archiveBar.highQuotePrice
      lowQuotePrice := archiveBar.lowQuotePrice
      closeQuotePrice := archiveBar.closeQuotePrice
      baseVolume := archiveBar.baseVolume
      tradeCount := archiveBar.tradeCount }

/-- A served bar with the series it belongs to. -/
abbrev ServedBar := SeriesRequest × Bar

/-- `(instant, label)` and nothing else. -/
def servedKey (served : ServedBar) : DateTime ×ₗ String := toLex (served.2.closeTimeUtc, served.1.label)

/-- The rows of every series in request order, each with the series it belongs to. -/
def rowsOf (reads : List (SeriesRequest × SeriesRead)) : List (SeriesRequest × ArchiveBar) :=
  reads.flatMap fun entry => entry.2.bars.map fun bar => (entry.1, bar)

/-- The bars of every row, or the first constructor's refusal. -/
def serve (reads : List (SeriesRequest × SeriesRead)) : PyResult (List ServedBar) :=
  (rowsOf reads).mapM fun row => do
    let bar ← toDomainBar row.2 row.1
    return (row.1, bar)

namespace MarketDataFeed

variable (self : MarketDataFeed)

def readSeries (request : FeedRequest) (entry : SeriesRequest) : PyResult SeriesRead :=
  self.corpus.readSeries self.order entry.market entry.symbol request.barInterval
    request.warmupStartUtc request.untilUtc self.nowUtc

/-- The read of every series. The source keys them by label, which no two series of a request share. -/
def readAll (request : FeedRequest) : PyResult (List (SeriesRequest × SeriesRead)) :=
  request.series.mapM fun entry => do
    let read ← self.readSeries request entry
    return (entry, read)

/-- What the corpus holds for a request, without building any events. -/
def coverage (request : FeedRequest) : PyResult CoverageReport := do
  let reads ← self.readAll request
  coverageOf request reads

/-- The event stream for a request, or a refusal naming the gaps. -/
def load (request : FeedRequest) : PyResult FeedSlice := do
  let reads ← self.readAll request
  let report ← coverageOf request reads
  raiseIf (¬ report.isServable) .coverageRefused
    ((["the window cannot be served from the corpus without inventing bars:\n\n"] : Message) ++
      report.render)
  let served ← serve reads
  return { events := (sortBy servedKey served).map fun entry => .marketBar entry.2
           warmupEventCount :=
            ((rowsOf reads).filter fun row => request.isWarmup row.2.openTimeUtc).length
           archiveBarCount := (rowsOf reads).length
           exposedFromUtc := request.exposedFromUtc
           coverage := report }

end MarketDataFeed

/-! ### The gate -/

/-- Which side of the handler an event was given to. -/
inductive Delivery where
  | onWarmupBar (event : Event)
  | onEvent (event : Event)
  deriving DecidableEq

/-- Routes events either side of the exposure boundary. -/
structure WarmupGate where
  exposedFromUtc : DateTime
  warmupBarCount : ℕ
  delivered : List Delivery
  deriving DecidableEq

def Event.isMarketData : Event → Bool
  | .marketBar _ => true
  | .marketTick _ => true
  | _ => false

namespace WarmupGate

variable (self : WarmupGate)

/-- One event, to the warm-up side or the strategy side; only market data may precede the boundary. -/
def onEvent (event : Event) : PyResult WarmupGate :=
  if self.exposedFromUtc ≤ event.occursAtUtc then
    .ok { self with delivered := self.delivered ++ [.onEvent event] }
  else if ¬ event.isMarketData then
    raise .warmupLeak [event.typeName, " was dispatched at ", .instant event.occursAtUtc,
      ", before the exposure boundary ", .instant self.exposedFromUtc, ". Warm-up bars reach no ",
      "strategy, so nothing during warm-up can emit a signal and nothing can fill, acknowledge or time ",
      "out against one -- this event means something acted on a partially-filled lookback"]
  else
    .ok { self with
      warmupBarCount := self.warmupBarCount + 1
      delivered := self.delivered ++ [.onWarmupBar event] }

/-- The events of a run, one after another. -/
def onEvents (events : List Event) : PyResult WarmupGate := events.foldlM WarmupGate.onEvent self

end WarmupGate

end FinanceKing.Backtest
