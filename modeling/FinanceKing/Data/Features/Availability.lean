import FinanceKing.Data.Features.Registry
import FinanceKing.Data.Formats
import FinanceKing.Data.Registry

/-! What the corpus is declared to hold, derived from the registry, and the reads it refuses: an input nobody
    publishes, a window outside what is held, a window that runs into a recorded gap. -/

namespace FinanceKing.Data.Features

open Lib

/-! ### The texts -/

/-- What every refusal ends with. -/
def theCeiling : String :=
  "what this corpus can hold: tick trades with side and exchange trade id (trades, aggTrades); futures " ++
  "top-of-book (bookTicker); cumulative depth bands at +/-1..5% from mid sampled roughly once a minute " ++
  "(bookDepth); funding rate, open interest and mark price; and klines at every standard interval " ++
  "(DATA_PIPELINE.md section 9)"

def l2Ceiling : String :=
  "free full-depth L2 order book history does not exist, on data.binance.vision or on any free mirror; " ++
  "bookDepth is ten cumulative bands sampled about once a minute, not a book, and it carries no price " ++
  "level, no per-level quantity and no ordering"

def l3Ceiling : String :=
  "queue position and passive fill probability require order-by-order (L3/MBO) data, which no free source " ++
  "publishes at all; a number produced without it would be fabricated, and a fabricated number propagates " ++
  "into sizing"

/-- Tokens of an input's name that no free source can satisfy, and why. -/
def unobtainableInputs : List (String × String) :=
  [("order_book", l2Ceiling), ("orderbook", l2Ceiling), ("book_imbalance", l2Ceiling),
    ("book_pressure", l2Ceiling), ("book_event", l2Ceiling), ("depth_level", l2Ceiling),
    ("price_level", l2Ceiling), ("level2", l2Ceiling), ("l2_", l2Ceiling), ("l3", l3Ceiling),
    ("mbo", l3Ceiling), ("queue_position", l3Ceiling), ("passive_fill", l3Ceiling),
    ("fill_probability", l3Ceiling)]

def datasets : List Dataset :=
  [.klines, .trades, .aggTrades, .bookDepth, .bookTicker, .fundingRate, .metrics]

/-- `_as_dataset`. -/
def asDataset (inputName : String) : Option Dataset := datasets.find? fun dataset => dataset.value = inputName

def gapKindValue : GapKind → String
  | .cadence => "cadence"
  | .seam => "seam"
  | .absentArchive => "absent_archive"
  | .sequence => "sequence"
  | .disconnect => "disconnect"

/-! ### Declarations -/

/-- The three coordinates a declaration is keyed by. -/
structure SeriesAddress where
  market : Market
  symbol : String
  dataset : Dataset
  deriving DecidableEq

/-- A hole the corpus is known to have, in half-open event time. -/
structure AvailabilityGap where
  gapStartUtc : DateTime
  gapEndUtc : DateTime
  gapKind : String
  barInterval : String
  missingBarCount : Option ℤ
  deriving DecidableEq

/-- `AvailabilityGap.intersects`. -/
def AvailabilityGap.intersects (self : AvailabilityGap) (windowStartUtc windowEndUtc : DateTime) : Bool :=
  self.gapStartUtc < windowEndUtc ∧ windowStartUtc < self.gapEndUtc

structure AvailabilityDeclarationFields where
  address : SeriesAddress
  resolutions : List String
  earliestEventTimeUtc : DateTime
  latestEventTimeUtc : DateTime
  knownGaps : List AvailabilityGap
  refusesIfUnavailable : Bool
  deriving DecidableEq

/-- The phrase every refusal opens with. -/
def AvailabilityDeclarationFields.describe (self : AvailabilityDeclarationFields) : String :=
  let held := String.intercalate ", " (self.resolutions.filter (· ≠ noInterval))
  self.address.market.value ++ " " ++ self.address.symbol ++ " " ++ self.address.dataset.value ++
    (if held = "" then "" else " (" ++ held ++ ")")

def AvailabilityDeclarationFields.postInit (self : AvailabilityDeclarationFields) : PyResult Unit := do
  raiseIf (¬ self.refusesIfUnavailable) .featureContract
    ["refuses_if_unavailable must be True; there is no permissive mode, because the permissive mode is ",
      "where a strategy gets a forward-filled approximation and does not know it (DATA_PIPELINE.md section 8)"]
  raiseIf (self.latestEventTimeUtc < self.earliestEventTimeUtc) .featureContract
    [self.describe, " declares latest ", .instant self.latestEventTimeUtc, " before earliest ",
      .instant self.earliestEventTimeUtc]

/-- What the corpus holds for one series. -/
structure AvailabilityDeclaration extends AvailabilityDeclarationFields where
  checked : toAvailabilityDeclarationFields.postInit = .ok ()
  deriving DecidableEq

/-- An immutable snapshot of what the corpus held at the instant it was taken. -/
structure AvailabilityContract where
  declarations : Dict SeriesAddress AvailabilityDeclaration

/-! ### The snapshot -/

/-- One unresolved gap of the registry, with the series it belongs to. -/
structure SeriesGap where
  series : SeriesKey
  gap : RecordedGap
  deriving DecidableEq

/-- `IngestRegistry.recorded_gaps`: the unresolved rows, by series and then by where they start. -/
def recordedGaps (tables : IngestTables) : List SeriesGap :=
  sortBy (fun row => toLex (row.series.market.value, toLex (row.series.dataset.value,
      toLex (row.series.symbol, toLex (row.series.barInterval, row.gap.gapStartUtc)))))
    (tables.coverageGap.entries.filterMap fun entry =>
      if entry.2.resolution.isNone then
        some ⟨entry.1.1, ⟨entry.1.2.1, entry.1.2.2, entry.2.gapKind, entry.2.missingBarCount⟩⟩
      else
        none)

/-- A line of the coverage report, as far as a snapshot reads it. -/
structure CoverageRow where
  market : Market
  dataset : Dataset
  symbol : String
  barInterval : String
  firstEventTimeUtc : DateTime
  lastEventTimeUtc : DateTime
  deriving DecidableEq

def CoverageRow.address (self : CoverageRow) : SeriesAddress := ⟨self.market, self.symbol, self.dataset⟩

def SeriesGap.address (self : SeriesGap) : SeriesAddress :=
  ⟨self.series.market, self.series.symbol, self.series.dataset⟩

def SeriesGap.declared (self : SeriesGap) : AvailabilityGap where
  gapStartUtc := self.gap.gapStartUtc
  gapEndUtc := self.gap.gapEndUtc
  gapKind := gapKindValue self.gap.gapKind
  barInterval := self.series.barInterval
  missingBarCount := self.gap.missingBarCount

/-- The gaps of each address, in the order they were read. -/
def gapsByAddress (gaps : List SeriesGap) : Dict SeriesAddress (List AvailabilityGap) :=
  gaps.foldl (fun grouped gap =>
    grouped.set gap.address ((grouped.get? gap.address).getD [] ++ [gap.declared])) Dict.empty

/-- One row of the report is collapsed into the declaration of its address. -/
def collapseRow (gaps : Dict SeriesAddress (List AvailabilityGap))
    (collapsed : Dict SeriesAddress AvailabilityDeclaration) (row : CoverageRow) :
    PyResult (Dict SeriesAddress AvailabilityDeclaration) := do
  let existing := collapsed.get? row.address
  let resolutions := (if row.barInterval = noInterval then [] else [row.barInterval]) ++
    (existing.map fun declaration => declaration.resolutions).getD []
  let declaration ← construct AvailabilityDeclarationFields.postInit AvailabilityDeclaration.mk
    { address := row.address
      resolutions := sortBy id resolutions.dedup
      earliestEventTimeUtc := existing.elim row.firstEventTimeUtc fun declaration =>
        min declaration.earliestEventTimeUtc row.firstEventTimeUtc
      latestEventTimeUtc := existing.elim row.lastEventTimeUtc fun declaration =>
        max declaration.latestEventTimeUtc row.lastEventTimeUtc
      knownGaps := (gaps.get? row.address).getD []
      refusesIfUnavailable := true }
  return collapsed.set row.address declaration

/-- `AvailabilityContract.snapshot`, over the two reads of the registry. -/
def snapshot (rows : List CoverageRow) (gaps : List SeriesGap) : PyResult AvailabilityContract := do
  let collapsed ← rows.foldlM (collapseRow (gapsByAddress gaps)) Dict.empty
  return ⟨collapsed⟩

/-! ### The refusals -/

def unobtainableMessage (spec : FeatureSpec) (inputName : String) : Message :=
  match unobtainableInputs.find? fun entry => entry.1.toList <:+: inputName.toLower.toList with
  | some (_, ceiling) =>
    [spec.name, " v", .count spec.version, " declares input ", .quoted inputName,
      ", which no free source provides: ", ceiling, ". Instead, ", theCeiling, "."]
  | none =>
    [spec.name, " v", .count spec.version, " declares input ", .quoted inputName,
      ", which names no dataset this pipeline ingests. Datasets are ",
      .texts (sortBy id (datasets.map Dataset.value)), "; ", theCeiling, "."]

def absentMessage (spec : FeatureSpec) (address : SeriesAddress) (contract : AvailabilityContract) : Message :=
  let held := sortBy id ((contract.declarations.values.filter fun declaration =>
    declaration.address.market = address.market ∧ declaration.address.symbol = address.symbol).map
      fun declaration => declaration.describe)
  [spec.name, " v", .count spec.version, " declares input ", .quoted address.dataset.value,
    ", which the corpus does not hold for ", address.market.value, " ", address.symbol, ". It holds ",
    if held = [] then "nothing at all" else String.intercalate ", " held,
    ". Backfill it with `make ingest MARKET=", address.market.value, " DATASET=", address.dataset.value,
    " SYMBOLS=", address.symbol, "` or change the feature's inputs; no partial series is returned."]

def gapMessage (spec : FeatureSpec) (declaration : AvailabilityDeclaration) (gap : AvailabilityGap)
    (windowStartUtc windowEndUtc : DateTime) : Message :=
  let missing : Message :=
    match gap.missingBarCount with
    | none => ["an unknown number of observations"]
    | some count => [.count count, " bars"]
  let opening : Message :=
    [declaration.describe, " has a recorded ", gap.gapKind, " gap",
      if gap.barInterval ≠ noInterval then " at " ++ gap.barInterval else "", " covering [",
      .instant gap.gapStartUtc, ", ", .instant gap.gapEndUtc, "), which intersects the window (",
      .instant windowStartUtc, ", ", .instant windowEndUtc, "] that ", spec.name, " v", .count spec.version,
      " asked for; "]
  let remedy : Message :=
    [" are absent there. Narrow the window or backfill the gap -- the corpus never fills one, because a ",
      "synthesised bar has zero realised volatility and perfect mean reversion."]
  opening ++ missing ++ remedy

/-- `_require_window_inside`: the three ways a real series still fails to answer a real window. -/
def requireWindowInside (spec : FeatureSpec) (declaration : AvailabilityDeclaration)
    (windowStartUtc windowEndUtc : DateTime) : PyResult Unit := do
  raiseIf (windowStartUtc < declaration.earliestEventTimeUtc) .dataUnavailable
    [declaration.describe, " begins at ", .date (dateOf declaration.earliestEventTimeUtc), " (",
      .instant declaration.earliestEventTimeUtc, "), and ", spec.name, " v", .count spec.version,
      " was asked for a window opening at ", .instant windowStartUtc, ". The corpus holds ",
      .date (dateOf declaration.earliestEventTimeUtc), " to ", .date (dateOf declaration.latestEventTimeUtc),
      "; no partial series is returned, because a short series reads downstream as no signal rather than ",
      "as no data."]
  raiseIf (declaration.latestEventTimeUtc < windowEndUtc) .dataUnavailable
    [declaration.describe, " ends at ", .date (dateOf declaration.latestEventTimeUtc), " (",
      .instant declaration.latestEventTimeUtc, "), and ", spec.name, " v", .count spec.version,
      " was asked for a window closing at ", .instant windowEndUtc, ". Ingest the remaining archives or ",
      "move the window back; no partial series is returned."]
  declaration.knownGaps.forM fun gap =>
    raiseIf (gap.intersects windowStartUtc windowEndUtc) .dataUnavailable
      (gapMessage spec declaration gap windowStartUtc windowEndUtc)

/-- One input of a feature, against the window it is asked for. -/
def AvailabilityContract.requireInput (self : AvailabilityContract) (spec : FeatureSpec) (market : Market)
    (symbol : String) (windowStartUtc windowEndUtc : DateTime) (inputName : String) : PyResult Unit :=
  match asDataset inputName with
  | none => raise .dataUnavailable (unobtainableMessage spec inputName)
  | some dataset =>
    match self.declarations.get? ⟨market, symbol, dataset⟩ with
    | none => raise .dataUnavailable (absentMessage spec ⟨market, symbol, dataset⟩ self)
    | some declaration => requireWindowInside spec declaration windowStartUtc windowEndUtc

/-- `AvailabilityContract.require`. -/
def AvailabilityContract.require (self : AvailabilityContract) (spec : FeatureSpec) (market : Market)
    (symbol : String) (windowStartUtc windowEndUtc : DateTime) : PyResult Unit :=
  (sortBy id spec.inputs).forM (self.requireInput spec market symbol windowStartUtc windowEndUtc)

/-! ### The read -/

/-- A series of one feature: which definition, on which instrument. -/
structure FeatureRef where
  name : String
  version : ℤ
  market : Market
  symbol : String
  deriving DecidableEq

/-- One value as it was believed at the instant that it was read for. -/
structure FeatureValue where
  eventTimeUtc : DateTime
  featureValue : Decimal
  deriving DecidableEq

/-- The answer to one read, carrying the question it answered. -/
structure FeatureSeries where
  feature : FeatureRef
  asOf : DateTime
  lookback : TimeDelta
  values : List FeatureValue
  deriving DecidableEq

/-- The feature store: the contract it refuses by, and what its table answers. -/
structure PostgresFeatureStore where
  availability : AvailabilityContract
  read : FeatureRef → DateTime → TimeDelta → List FeatureValue

/-- `PostgresFeatureStore.load`. -/
def PostgresFeatureStore.load (self : PostgresFeatureStore) (float : FloatArithmetic) (feature : FeatureRef)
    (asOf : DateTime) (lookback : TimeDelta) : PyResult FeatureSeries := do
  raiseIf (lookback ≤ 0) .featureContract
    ["lookback must be positive; got ", .span lookback, ". A zero window returns nothing and reads as ",
      "'this feature has no history'"]
  let spec ← registered float feature.name feature.version
  self.availability.require spec feature.market feature.symbol (asOf - lookback) asOf
  return ⟨feature, asOf, lookback, self.read feature asOf lookback⟩

end FinanceKing.Data.Features
