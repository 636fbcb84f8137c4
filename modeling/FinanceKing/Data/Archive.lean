import FinanceKing.Domain.Guards

/-! The archive's vocabulary: which corpus a file belongs to, what it holds, how much time it covers, and
    the coordinate that names one archive. -/

namespace FinanceKing.Data

/-- A UTC calendar day, counted from the epoch. -/
abbrev Date := ℤ

/-- Which corpus a file belongs to. -/
inductive Market where
  | spot
  | futuresUm
  deriving DecidableEq

def Market.value : Market → String
  | .spot => "spot"
  | .futuresUm => "futures_um"

inductive Dataset where
  | klines
  | trades
  | aggTrades
  | bookDepth
  | bookTicker
  | fundingRate
  | metrics
  deriving DecidableEq

def Dataset.value : Dataset → String
  | .klines => "klines"
  | .trades => "trades"
  | .aggTrades => "aggTrades"
  | .bookDepth => "bookDepth"
  | .bookTicker => "bookTicker"
  | .fundingRate => "fundingRate"
  | .metrics => "metrics"

/-- Whether an archive covers one day or one month. -/
inductive Granularity where
  | daily
  | monthly
  deriving DecidableEq

def Granularity.value : Granularity → String
  | .daily => "daily"
  | .monthly => "monthly"

/-- How much time one file of the corpus covers. -/
inductive PartitionGrain where
  | monthly
  | daily
  deriving DecidableEq

structure ArchiveCoordinateFields where
  market : Market
  dataset : Dataset
  symbol : String
  archiveDate : Date
  interval : Option String
  deriving DecidableEq

/-- The datasets whose archives are keyed by an interval. -/
def Dataset.needsInterval (dataset : Dataset) : Bool := dataset = .klines

def ArchiveCoordinateFields.postInit (self : ArchiveCoordinateFields) : PyResult Unit := do
  raiseIf (self.symbol = "" ∨ strip self.symbol ≠ self.symbol.toList) .dataIntegrity
    ["symbol must be a non-empty unpadded string; got ", .quoted self.symbol]
  raiseIf (self.dataset.needsInterval ∧ self.interval.getD "" = "") .dataIntegrity
    ["dataset ", .quoted self.dataset.value, " archives are keyed by interval and the interval ",
      "occupies a slot in the filename; got interval=", self.interval.elim "None" Piece.quoted]
  raiseIf (¬ self.dataset.needsInterval ∧ self.interval.isSome) .dataIntegrity
    ["dataset ", .quoted self.dataset.value, " archives carry no interval, but interval=",
      self.interval.elim "None" Piece.quoted, " was supplied; the filename slot it would occupy holds ",
      "the dataset name"]

/-- One archive, identified by everything the URL needs. -/
structure ArchiveCoordinate extends ArchiveCoordinateFields where
  checked : toArchiveCoordinateFields.postInit = .ok ()
  deriving DecidableEq

end FinanceKing.Data
