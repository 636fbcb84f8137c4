import FinanceKing.Risk.Drawdown
import FinanceKing.Risk.Exposure
import FinanceKing.Risk.Sizing

/-! Conviction calibration: what a reported conviction has earned, and the risk fraction it buys. -/

namespace FinanceKing.Risk

open Lib Strategies

/-- Snap onto the eighteen-place lattice the persisted form uses. -/
def quantized (candidate : Decimal) : Decimal := snapWith roundHalfEven (1 / 10 ^ 18) candidate

/-- What a map that has not earned a gradient returns. -/
def uncalibratedFraction : Decimal := quantized (5 / 10)

def calibrationHardCeilings : List (String × Ceiling) :=
  [("risk_fraction_min_per_trade", ⟨1 / 100⟩), ("risk_fraction_max_per_trade", ⟨1 / 100⟩)]

def calibrationHardFloors : List (String × Floor) :=
  (hardFloors.filter fun (name, _) => name = "conviction_floor") ++ [("min_trades_for_calibration", ⟨100⟩)]

def requireStorableFraction (candidate : Decimal) (fieldName : String) : PyResult Unit := do
  raiseIf (¬ (0 ≤ candidate ∧ candidate ≤ 1)) .calibration
    [fieldName, " must be a finite fraction in [0, 1], got ", .decimal candidate]
  raiseIf (candidate ≠ quantized candidate) .calibration
    [fieldName, "=", .decimal candidate, " carries more than 18 decimal places, which is the resolution " ++
      "the persisted record holds; quantizing it here would move the trade between decile buckets without " ++
      "saying so"]

def requireStorableReturn (candidate : Decimal) (fieldName : String) : PyResult Unit := do
  raiseIf (candidate < -1) .calibration
    [fieldName, " must be a finite fraction at or above -1, got ", .decimal candidate,
      "; a trade cannot lose more than the whole position"]
  raiseIf (candidate ≠ quantized candidate) .calibration
    [fieldName, "=", .decimal candidate, " carries more than 18 decimal places, which is the resolution " ++
      "the persisted record holds"]

/-! ### Parameters -/

structure ConvictionParametersFields where
  convictionFloor : Decimal := 15 / 100
  minTradesForCalibration : ℤ := 100
  riskFractionMinPerTrade : Decimal := 25 / 10000
  riskFractionMaxPerTrade : Decimal := 1 / 100
  deriving DecidableEq

def ConvictionParametersFields.boundedValues (self : ConvictionParametersFields) : Dict String Decimal :=
  submittedLimits
    [("risk_fraction_min_per_trade", self.riskFractionMinPerTrade),
      ("risk_fraction_max_per_trade", self.riskFractionMaxPerTrade),
      ("conviction_floor", self.convictionFloor),
      ("min_trades_for_calibration", self.minTradesForCalibration)]

def ConvictionParametersFields.postInit (self : ConvictionParametersFields) : PyResult Unit := do
  assertWithinCeilings self.boundedValues calibrationHardCeilings "calibration"
  assertAboveFloors self.boundedValues calibrationHardFloors "calibration"
  raiseIf (self.riskFractionMaxPerTrade < self.riskFractionMinPerTrade) .valueError
    ["risk_fraction_min_per_trade=", .decimal self.riskFractionMinPerTrade,
      " is above risk_fraction_max_per_trade=", .decimal self.riskFractionMaxPerTrade,
      "; an inverted band sizes a strategy's most confident signals smallest"]

/-- The configurable half of calibration. -/
structure ConvictionParameters extends ConvictionParametersFields where
  checked : toConvictionParametersFields.postInit = .ok ()
  deriving DecidableEq

/-- The shipped parameters pass their own check. -/
def defaultConvictionParameters : ConvictionParameters := ⟨{}, by decide +kernel⟩

/-! ### The fitted map -/

/-- `repr` of a tuple of decimals. -/
def decimalsRepr (candidates : List Decimal) : Message :=
  let items := candidates.map fun candidate => ([.text "Decimal('", .decimal candidate, .text "')"] : Message)
  .text "(" :: (items.intersperse [.text ", "]).flatten ++ [.text (if items.length = 1 then ",)" else ")")]

structure CalibrationBucketFields where
  convictionUpperBound : Decimal
  tradeCount : ℤ
  hitRateFraction : Decimal
  meanReturnFraction : Decimal
  fittedReturnFraction : Decimal
  calibratedFraction : Decimal
  deriving DecidableEq

def CalibrationBucketFields.postInit (self : CalibrationBucketFields) : PyResult Unit := do
  requireStorableFraction self.convictionUpperBound "conviction_upper_bound"
  requireStorableFraction self.hitRateFraction "hit_rate_fraction"
  requireStorableFraction self.calibratedFraction "calibrated_fraction"
  requireStorableReturn self.meanReturnFraction "mean_return_fraction"
  requireStorableReturn self.fittedReturnFraction "fitted_return_fraction"
  raiseIf (self.tradeCount ≤ 0) .calibration
    ["a bucket must hold at least one trade, got trade_count=", .count self.tradeCount,
      "; an empty bucket contributes a mean computed from nothing"]

/-- One conviction decile, and what it calibrates to. -/
structure CalibrationBucket extends CalibrationBucketFields where
  checked : toCalibrationBucketFields.postInit = .ok ()
  deriving DecidableEq

structure CalibrationMapFields where
  strategyId : String
  availableAtUtc : DateTime
  observationCount : ℤ
  buckets : List CalibrationBucket
  deriving DecidableEq

def CalibrationMapFields.postInit (self : CalibrationMapFields) : PyResult Unit := do
  raiseIf (strip self.strategyId = []) .calibration
    ["strategy_id must be non-empty text, got ", .quoted self.strategyId]
  raiseIf (self.observationCount < 0) .calibration
    ["observation_count must be at or above zero, got ", .count self.observationCount]
  let bounds := self.buckets.map fun bucket => bucket.convictionUpperBound
  raiseIf (¬ bounds.Pairwise (· < ·)) .calibration
    (.text "bucket upper bounds must be strictly increasing, got " :: decimalsRepr bounds ++
      [.text "; a repeated bound makes the map ambiguous at exactly that conviction"])
  let calibrated := self.buckets.map fun bucket => bucket.calibratedFraction
  raiseIf (¬ calibrated.Pairwise (· ≤ ·)) .calibration
    (.text "calibrated fractions must be non-decreasing, got " :: decimalsRepr calibrated ++
      [.text "; an inversion sizes a strategy's less confident signals larger"])

/-- A strategy's fitted conviction map, and the instant it became knowable. -/
structure CalibrationMap extends CalibrationMapFields where
  checked : toCalibrationMapFields.postInit = .ok ()
  deriving DecidableEq

/-- Whether a gradient was fitted at all. -/
def CalibrationMap.isFitted (self : CalibrationMap) : Bool := self.buckets ≠ []

/-- The calibrated fraction for a reported conviction: a step function over the fitted bounds. -/
def CalibrationMap.calibrated (self : CalibrationMap) (conviction : Decimal) : PyResult Decimal := do
  requireStorableFraction (quantized conviction) "conviction"
  match self.buckets.find? fun bucket => conviction ≤ bucket.convictionUpperBound with
  | some bucket => return bucket.calibratedFraction
  | none =>
    match self.buckets.getLast? with
    | some bucket => return bucket.calibratedFraction
    | none => return uncalibratedFraction

/-- The risk fraction a calibrated conviction buys, at the stored resolution. -/
def riskFractionFor (calibratedFraction : Decimal) (parameters : ConvictionParameters) :
    PyResult Decimal := do
  requireStorableFraction (quantized calibratedFraction) "calibrated_fraction"
  let band := parameters.riskFractionMaxPerTrade - parameters.riskFractionMinPerTrade
  return quantized (parameters.riskFractionMinPerTrade + calibratedFraction * band)

/-! ### The assessment -/

structure ConvictionAssessmentFields where
  strategyId : String
  reportedConviction : Decimal
  calibratedConviction : Decimal
  riskFractionUsed : Option Decimal
  convictionFloor : Decimal
  calibrationObservationCount : ℤ
  calibrationAvailableAtUtc : DateTime
  isCalibrated : Bool
  decidedAtUtc : DateTime
  rejection : Option Rejection
  deriving DecidableEq

def ConvictionAssessmentFields.postInit (self : ConvictionAssessmentFields) : PyResult Unit :=
  raiseIf (self.rejection.isNone ≠ self.riskFractionUsed.isSome) .calibration
    ["an assessment carries either a rejection or a risk fraction, never both and never neither; the pair " ++
      "disagreeing is a decision nobody can act on"]

/-- What the conviction channel yielded for one signal: a risk fraction, or a refusal. -/
structure ConvictionAssessment extends ConvictionAssessmentFields where
  checked : toConvictionAssessmentFields.postInit = .ok ()
  deriving DecidableEq

/-- The fraction or the refusal, once the map has been read. -/
def convictionOutcome (signal : Signal) (parameters : ConvictionParameters) (calibratedConviction : Decimal)
    (decidedAtUtc : DateTime) : PyResult (Option Decimal × Option Rejection) :=
  if signal.conviction < parameters.convictionFloor then
    .ok (none, some ⟨["reported conviction ", .decimal signal.conviction, " is below the conviction floor ",
      .decimal parameters.convictionFloor, "; the absence of an opinion is not a small position"],
      "conviction_floor", decidedAtUtc⟩)
  else (fun fraction => (some fraction, none)) <$> riskFractionFor calibratedConviction parameters

/-- Turn a reported conviction into the risk fraction that will size it, or refuse it. -/
def assessConviction (signal : Signal) (calibration : CalibrationMap) (parameters : ConvictionParameters)
    (decidedAtUtc : DateTime) : PyResult ConvictionAssessment := do
  raiseIf (signal.direction = .flat) .calibration
    [signal.strategyId, " emitted a flat signal on ", signal.instrument.symbol, "; a flat signal asks to " ++
      "close a position rather than for a risk budget, and sizing it is a category error rather than a " ++
      "request for zero"]
  raiseIf (calibration.strategyId ≠ signal.strategyId) .calibration
    ["the calibration map belongs to ", .quoted calibration.strategyId, " and the signal to ",
      .quoted signal.strategyId, "; a map is a claim about one strategy's record and means nothing " ++
      "applied to another"]
  raiseIf (decidedAtUtc < calibration.availableAtUtc) .calibration
    ["the calibration map was fitted at ", .instant calibration.availableAtUtc, ", after the decision at ",
      .instant decidedAtUtc, "; sizing a past decision with a later map is look-ahead inside the risk " ++
      "engine"]
  let calibratedConviction ← calibration.calibrated signal.conviction
  let (riskFractionUsed, rejection) ←
    convictionOutcome signal parameters calibratedConviction decidedAtUtc
  construct ConvictionAssessmentFields.postInit ConvictionAssessment.mk
    { strategyId := signal.strategyId
      reportedConviction := signal.conviction
      calibratedConviction := calibratedConviction
      riskFractionUsed := riskFractionUsed
      convictionFloor := parameters.convictionFloor
      calibrationObservationCount := calibration.observationCount
      calibrationAvailableAtUtc := calibration.availableAtUtc
      isCalibrated := calibration.isFitted
      decidedAtUtc := decidedAtUtc
      rejection := rejection }

end FinanceKing.Risk

/-! Fitting a conviction map from a strategy's closed trades: deciles of what was claimed, the mean outcome of
    each, a monotone fit over the means, and the rows the fitted map is persisted as. -/

namespace FinanceKing.Risk

open Lib

/-! ### Closed trades -/

structure ClosedTradeFields where
  strategyId : String
  reportedConviction : Decimal
  realisedReturnFraction : Decimal
  closedAtUtc : DateTime
  deriving DecidableEq

def ClosedTradeFields.postInit (self : ClosedTradeFields) : PyResult Unit := do
  raiseIf (strip self.strategyId = []) .calibration
    ["strategy_id must be non-empty text, got ", .quoted self.strategyId]
  requireStorableFraction self.reportedConviction "reported_conviction"
  requireStorableReturn self.realisedReturnFraction "realised_return_fraction"

/-- One closed trade: what was claimed, what happened, when. -/
structure ClosedTrade extends ClosedTradeFields where
  checked : toClosedTradeFields.postInit = .ok ()
  deriving DecidableEq

/-- Whether the trade closed above break-even. -/
def ClosedTrade.isWin (self : ClosedTrade) : Bool := 0 < self.realisedReturnFraction

/-! ### Deciles -/

def decileCount : ℕ := 10

/-- `sequence[index]`, counted from the end where the index is negative. -/
def pyIndex {α : Type} (typeName : String) (l : List α) (index : ℤ) : PyResult α :=
  let position := if index < 0 then index + l.length else index
  match (if position < 0 then none else l[position.toNat]?) with
  | some a => .ok a
  | none => raise .indexError [typeName, " index out of range"]

/-- One decile's bound is appended unless it ties with the last one. -/
def appendBound (orderedConvictions : List Decimal) (bounds : List Decimal) (decileIndex : ℕ) :
    PyResult (List Decimal) := do
  let lastPosition : ℤ := (decileIndex * orderedConvictions.length / decileCount : ℕ) - 1
  let bound ← pyIndex "list" orderedConvictions lastPosition
  return if bounds.getLast?.all (· < bound) then bounds ++ [bound] else bounds

/-- `_decile_upper_bounds`. -/
def decileUpperBounds (orderedConvictions : List Decimal) : PyResult (List Decimal) :=
  (List.range' 1 decileCount).foldlM (appendBound orderedConvictions) []

/-- `bisect_left`, over an ascending list. -/
def bisectLeft (bounds : List Decimal) (conviction : Decimal) : ℕ :=
  (bounds.takeWhile (· < conviction)).length

/-- `_bucket_index_for`: the first bucket whose upper bound is at or above the conviction. -/
def bucketIndexFor (conviction : Decimal) (bounds : List Decimal) : ℕ :=
  min (bisectLeft bounds conviction) (bounds.length - 1)

/-! ### The isotonic step -/

/-- A block of the pool: its weighted sum, its weight, and how many buckets it covers. -/
structure PooledBlock where
  blockSum : Decimal
  blockWeight : ℤ
  blockSpan : ℕ
  deriving DecidableEq

/-- The inner loop: the newest block is pooled with the one before it while that one lies higher. The blocks
    before it are given newest first. -/
def poolBack (current : PooledBlock) : List PooledBlock → List PooledBlock
  | [] => [current]
  | previous :: below =>
    if previous.blockSum * current.blockWeight ≤ current.blockSum * previous.blockWeight then
      current :: previous :: below
    else
      poolBack ⟨previous.blockSum + current.blockSum, previous.blockWeight + current.blockWeight,
        previous.blockSpan + current.blockSpan⟩ below

/-- The outer loop, newest block first. -/
def poolBlocks (observations : List (Decimal × ℤ)) : List PooledBlock :=
  observations.foldl (fun blocks observation =>
    poolBack ⟨observation.1 * observation.2, observation.2, 1⟩ blocks) []

/-- `zip(means, weights, strict=True)`. -/
def zipStrict {α β : Type} (l : List α) (m : List β) : PyResult (List (α × β)) := do
  raiseIf (m.length < l.length) .valueError ["zip() argument 2 is shorter than argument 1"]
  raiseIf (l.length < m.length) .valueError ["zip() argument 2 is longer than argument 1"]
  return l.zip m

/-- What each bucket is fitted at, before anything is quantised. -/
def pooledLevels (means : List Decimal) (weights : List ℤ) : PyResult (List Decimal) := do
  let observations ← zipStrict means weights
  let levels ← (poolBlocks observations).reverse.mapM fun block => do
    let level ← decimalQuotient block.blockSum block.blockWeight
    return List.replicate block.blockSpan level
  return levels.flatten

/-- `_pool_adjacent_violators`. -/
def poolAdjacentViolators (means : List Decimal) (weights : List ℤ) : PyResult (List Decimal) := do
  let levels ← pooledLevels means weights
  return levels.map quantized

/-- `_normalised`: a non-decreasing series on its own range, or one half throughout where it has none. -/
def normalised (fitted : List Decimal) : PyResult (List Decimal) := do
  let lowest ← pyIndex "tuple" fitted 0
  let highest ← pyIndex "tuple" fitted (-1)
  let span := highest - lowest
  if span ≤ 0 then return fitted.map fun _ => uncalibratedFraction
  else fitted.mapM fun level => do
    let position ← decimalQuotient (level - lowest) span
    return quantized position

/-! ### The fit -/

/-- The trades that had closed by the instant; one of another strategy is refused. -/
def eligibleTrades (strategyId : String) (asOfUtc : DateTime) : List ClosedTrade → PyResult (List ClosedTrade)
  | [] => .ok []
  | trade :: trades => do
    raiseIf (trade.strategyId ≠ strategyId) .calibration
      ["history for ", .quoted strategyId, " contains a trade from ", .quoted trade.strategyId,
        "; a mixed record fits a map that describes neither strategy"]
    let eligible ← eligibleTrades strategyId asOfUtc trades
    return if trade.closedAtUtc ≤ asOfUtc then trade :: eligible else eligible

/-- Every trade in the bucket of its conviction, in the order of the history. -/
def groupTrades (bounds : List Decimal) (eligible : List ClosedTrade) : List (List ClosedTrade) :=
  eligible.foldl (fun grouped trade =>
    grouped.modify (bucketIndexFor trade.reportedConviction bounds) (· ++ [trade])) (bounds.map fun _ => [])

def hitRate (members : List ClosedTrade) : PyResult Decimal := do
  let rate ← decimalQuotient (members.countP ClosedTrade.isWin : ℕ) (members.length : ℕ)
  return quantized rate

def meanReturn (members : List ClosedTrade) : PyResult Decimal := do
  let mean ← decimalQuotient (members.map (·.realisedReturnFraction)).sum (members.length : ℕ)
  return quantized mean

/-- What was measured in one bucket. -/
structure MeasuredBucket where
  bound : Decimal
  tradeCount : ℤ
  hitRateFraction : Decimal
  meanReturnFraction : Decimal
  deriving DecidableEq

def measureBucket (group : Decimal × List ClosedTrade) : PyResult MeasuredBucket := do
  let hitRateFraction ← hitRate group.2
  let meanReturnFraction ← meanReturn group.2
  return ⟨group.1, group.2.length, hitRateFraction, meanReturnFraction⟩

/-- The bucket of one measurement, with what it was fitted at and what that calibrates to. -/
def calibrationBucket (row : MeasuredBucket × Decimal × Decimal) : PyResult CalibrationBucket :=
  construct CalibrationBucketFields.postInit CalibrationBucket.mk
    { convictionUpperBound := row.1.bound
      tradeCount := row.1.tradeCount
      hitRateFraction := row.1.hitRateFraction
      meanReturnFraction := row.1.meanReturnFraction
      fittedReturnFraction := row.2.1
      calibratedFraction := row.2.2 }

def calibrationMap (fields : CalibrationMapFields) : PyResult CalibrationMap :=
  construct CalibrationMapFields.postInit CalibrationMap.mk fields

/-- The buckets fitted from the trades that had closed. -/
def fitBuckets (eligible : List ClosedTrade) : PyResult (List CalibrationBucket) := do
  let bounds ← decileUpperBounds (sortBy id (eligible.map (·.reportedConviction)))
  let measured ← (bounds.zip (groupTrades bounds eligible)).mapM measureBucket
  let fitted ← poolAdjacentViolators (measured.map (·.meanReturnFraction)) (measured.map (·.tradeCount))
  let calibrated ← normalised fitted
  (measured.zip (fitted.zip calibrated)).mapM calibrationBucket

/-- `fit_calibration`. -/
def fitCalibration (trades : List ClosedTrade) (strategyId : String) (asOfUtc : DateTime)
    (parameters : ConvictionParameters) : PyResult CalibrationMap := do
  raiseIf (strip strategyId = []) .calibration
    ["strategy_id must be non-empty text, got ", .quoted strategyId]
  let eligible ← eligibleTrades strategyId asOfUtc trades
  if (eligible.length : ℤ) < parameters.minTradesForCalibration then
    calibrationMap ⟨strategyId, asOfUtc, eligible.length, []⟩
  else do
    let buckets ← fitBuckets eligible
    calibrationMap ⟨strategyId, asOfUtc, eligible.length, buckets⟩

/-! ### The persisted row -/

/-- What a persisted calibration holds under a column. -/
inductive CalibrationCell where
  | absent
  | text (m : Message)
  | number (n : ℤ)
  | mapping (entries : List (String × CalibrationCell))
  | sequence (items : List CalibrationCell)

abbrev CalibrationRow := List (String × CalibrationCell)

/-- `row.get(field_name)`. -/
def CalibrationRow.get (row : CalibrationRow) (fieldName : String) : CalibrationCell :=
  (row.lookup fieldName).getD .absent

mutual

/-- `repr` of a cell. -/
def CalibrationCell.repr : CalibrationCell → Message
  | .absent => [.text "None"]
  | .text m => .text "'" :: m ++ [.text "'"]
  | .number n => [.count n]
  | .mapping entries => .text "mappingproxy(\x7b" :: reprCells entries ++ [.text "\x7d)"]
  | .sequence [item] => .text "(" :: item.repr ++ [.text ",)"]
  | .sequence items => .text "(" :: reprSequence items ++ [.text ")"]

def reprSequence : List CalibrationCell → Message
  | [] => []
  | [item] => item.repr
  | item :: rest => item.repr ++ .text ", " :: reprSequence rest

def reprCells : List (String × CalibrationCell) → Message
  | [] => []
  | [(key, item)] => .quoted key :: .text ": " :: item.repr
  | (key, item) :: rest => .quoted key :: .text ": " :: item.repr ++ .text ", " :: reprCells rest

end

def bucketRow (bucket : CalibrationBucket) : CalibrationCell :=
  .mapping
    [("conviction_upper_bound", .text [.decimal bucket.convictionUpperBound]),
      ("trade_count", .number bucket.tradeCount),
      ("hit_rate_fraction", .text [.decimal bucket.hitRateFraction]),
      ("mean_return_fraction", .text [.decimal bucket.meanReturnFraction]),
      ("fitted_return_fraction", .text [.decimal bucket.fittedReturnFraction]),
      ("calibrated_fraction", .text [.decimal bucket.calibratedFraction])]

/-- The persisted form of a map, every fraction as a string. -/
def toCalibrationRow (calibration : CalibrationMap) : CalibrationRow :=
  [("strategy_id", .text [calibration.strategyId]),
    ("available_at_utc", .text [.instant calibration.availableAtUtc]),
    ("observation_count", .number calibration.observationCount),
    ("buckets", .sequence (calibration.buckets.map bucketRow))]

def decodeCalibrationDecimal (row : CalibrationRow) (fieldName : String) : PyResult Decimal :=
  match row.get fieldName with
  | .text raw => parseDecimal raw
  | raw => raise .calibration ([.text "persisted ", .text fieldName, .text " must be a decimal string, got "] ++
      raw.repr ++ [.text "; a number here has already been through a float"])

def decodeTradeCount (row : CalibrationRow) (fieldName : String) : PyResult ℤ :=
  match row.get fieldName with
  | .number n => .ok n
  | raw => raise .calibration ([.text "persisted ", .text fieldName, .text " must be an integer, got "] ++ raw.repr)

def decodeBucket : CalibrationCell → PyResult CalibrationBucket
  | .mapping entry => do
    let convictionUpperBound ← decodeCalibrationDecimal entry "conviction_upper_bound"
    let tradeCount ← decodeTradeCount entry "trade_count"
    let hitRateFraction ← decodeCalibrationDecimal entry "hit_rate_fraction"
    let meanReturnFraction ← decodeCalibrationDecimal entry "mean_return_fraction"
    let fittedReturnFraction ← decodeCalibrationDecimal entry "fitted_return_fraction"
    let calibratedFraction ← decodeCalibrationDecimal entry "calibrated_fraction"
    construct CalibrationBucketFields.postInit CalibrationBucket.mk
      ⟨convictionUpperBound, tradeCount, hitRateFraction, meanReturnFraction, fittedReturnFraction,
        calibratedFraction⟩
  | entry => raise .calibration (.text "persisted bucket must be a mapping, got " :: entry.repr)

/-- Rebuild a map from its persisted form, refusing anything absent or malformed. -/
def fromCalibrationRow (row : CalibrationRow) : PyResult CalibrationMap :=
  match row.get "strategy_id", row.get "available_at_utc", row.get "buckets" with
  | .text [.text strategyId], .text rawAvailableAt, .sequence rawBuckets => do
    let buckets ← rawBuckets.mapM decodeBucket
    let availableAtUtc ← parseInstant rawAvailableAt
    let observationCount ← decodeTradeCount row "observation_count"
    calibrationMap ⟨strategyId, availableAtUtc, observationCount, buckets⟩
  | .text [.text _], .text _, rawBuckets =>
    raise .calibration (.text "persisted buckets must be a sequence, got " :: rawBuckets.repr)
  | .text [.text _], rawAvailableAt, _ =>
    raise .calibration
      (.text "persisted available_at_utc must be an ISO-8601 string, got " :: rawAvailableAt.repr)
  | rawStrategyId, _, _ =>
    raise .calibration (.text "persisted strategy_id must be text, got " :: rawStrategyId.repr)

end FinanceKing.Risk
