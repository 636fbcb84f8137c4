import FinanceKing.Backtest.WalkForward
import FinanceKing.Lib.Combinations
import FinanceKing.Lib.SortBy

/-! The groups, the combinations, and the two gaps that keep them apart: `N` contiguous groups, every
    combination of `k` of them as a test set, and the rest as training, minus a purge before each test
    block and an embargo after it. -/

namespace FinanceKing.Backtest

open Lib

def minimumGroups : ℤ := 3

/-- A non-negative index. -/
def requireIndex (candidate : ℤ) (fieldName : String) : PyResult Unit :=
  raiseIf (candidate < 0) .cpcvConfig [fieldName, " must not be negative; got ", .count candidate]

@[simp] theorem requireIndex_eq_ok {n : ℤ} {name : String} {u : Unit} :
    requireIndex n name = .ok u ↔ 0 ≤ n := by
  simp [requireIndex]

/-! ### Intervals and groups -/

structure TimeIntervalFields where
  startUtc : DateTime
  endUtc : DateTime
  deriving DecidableEq

def TimeIntervalFields.postInit (self : TimeIntervalFields) : PyResult Unit :=
  raiseIf (self.endUtc ≤ self.startUtc) .cpcvConfig
    ["interval is empty (", .instant self.startUtc, " .. ", .instant self.endUtc, ")"]

/-- A half-open span `[start_utc, end_utc)`. -/
structure TimeInterval extends TimeIntervalFields where
  checked : toTimeIntervalFields.postInit = .ok ()
  deriving DecidableEq

def timeInterval (startUtc endUtc : DateTime) : PyResult TimeInterval :=
  construct TimeIntervalFields.postInit TimeInterval.mk ⟨startUtc, endUtc⟩

namespace TimeInterval

/-- Whether the instant falls inside the half-open span. -/
def contains (self : TimeInterval) (moment : DateTime) : Prop :=
  self.startUtc ≤ moment ∧ moment < self.endUtc

/-- Whether the two half-open spans share any instant. -/
def overlaps (self other : TimeInterval) : Prop :=
  self.startUtc < other.endUtc ∧ other.startUtc < self.endUtc

instance (self other : TimeInterval) : Decidable (self.overlaps other) :=
  inferInstanceAs (Decidable (_ ∧ _))

end TimeInterval

structure GroupFields where
  groupIndex : ℤ
  interval : TimeInterval
  deriving DecidableEq

def GroupFields.postInit (self : GroupFields) : PyResult Unit :=
  requireIndex self.groupIndex "group_index"

/-- One of the `N` contiguous blocks the series is cut into. -/
structure Group extends GroupFields where
  checked : toGroupFields.postInit = .ok ()
  deriving DecidableEq

/-! ### The plan -/

structure CpcvPlanFields where
  startUtc : DateTime
  endUtc : DateTime
  groupTotal : ℤ
  testGroupSize : ℤ
  declaration : WalkForwardDeclaration
  embargo : TimeDelta
  deriving DecidableEq

/-- `max_feature_lookback + max_holding_horizon`. -/
def CpcvPlanFields.embargoFloor (self : CpcvPlanFields) : TimeDelta :=
  self.declaration.maxFeatureLookback + self.declaration.maxHoldingHorizon

def CpcvPlanFields.postInit (self : CpcvPlanFields) : PyResult Unit := do
  raiseIf (self.endUtc ≤ self.startUtc) .cpcvConfig
    ["end_utc ", .instant self.endUtc, " must follow start_utc ", .instant self.startUtc]
  requireIndex self.groupTotal "group_total"
  requireIndex self.testGroupSize "test_group_size"
  raiseIf (self.groupTotal < minimumGroups) .cpcvConfig
    ["group_total must be at least ", .count minimumGroups, "; got ", .count self.groupTotal,
      ". Below that the training set is a single contiguous block on every path and the design is a " ++
      "fold table, not a combinatorial partition"]
  raiseIf (self.testGroupSize < 1 ∨ self.groupTotal ≤ self.testGroupSize) .cpcvConfig
    ["test_group_size must be at least 1 and below group_total ", .count self.groupTotal,
      "; got ", .count self.testGroupSize]
  requireNonNegativeSpan .cpcvConfig self.embargo "embargo"
  raiseIf (self.embargo < self.embargoFloor) .cpcvConfig
    ["embargo ", .span self.embargo, " is below the floor ", .span self.embargoFloor,
      " implied by max_feature_lookback ", .span self.declaration.maxFeatureLookback,
      " + max_holding_horizon ", .span self.declaration.maxHoldingHorizon,
      "; it is refused rather than clamped, because a run whose gap nobody chose is reported next " ++
      "to the shorter number that was asked for"]
  raiseIf (self.endUtc - self.startUtc < self.groupTotal) .cpcvConfig
    ["window ", .instant self.startUtc, " .. ", .instant self.endUtc, " is too short to cut into ",
      .count self.groupTotal, " non-empty groups"]

/-- A combinatorial purged cross-validation, fully specified before any data is read. -/
structure CpcvPlan extends CpcvPlanFields where
  checked : toCpcvPlanFields.postInit = .ok ()
  deriving DecidableEq

namespace CpcvPlan

variable (self : CpcvPlan)

/-- `C(N, k)`. -/
def pathTotal : ℕ := self.groupTotal.toNat.choose self.testGroupSize.toNat

def purge : TimeDelta := self.declaration.purge

def window : PyResult TimeInterval := timeInterval self.startUtc self.endUtc

end CpcvPlan

/-! ### Splits -/

structure CpcvSplitFields where
  pathIndex : ℤ
  testGroupIndices : List ℕ
  testIntervals : List TimeInterval
  trainIntervals : List TimeInterval
  purge : TimeDelta
  embargo : TimeDelta
  deriving DecidableEq

/-- A path with nothing left to train on after the gaps. -/
def noTrainingMessage (pathIndex : ℤ) (purge embargo : TimeDelta) : Message :=
  ["path ", .count pathIndex, ": purge ", .span purge, " and embargo ", .span embargo,
    " consume every training interval; the window is too short or the groups are too few for these " ++
    "horizons"]

/-- No training interval may overlap the test interval widened by the two gaps. -/
def CpcvSplitFields.refuseOverlap (self : CpcvSplitFields) (testInterval : TimeInterval) :
    PyResult Unit := do
  let forbidden ← timeInterval (testInterval.startUtc - self.purge)
    (testInterval.endUtc + self.embargo)
  self.trainIntervals.forM fun trainInterval =>
    raiseIf (trainInterval.overlaps forbidden) .cpcvPartition
      ["path ", .count self.pathIndex, ": training interval ", .instant trainInterval.startUtc, " .. ",
        .instant trainInterval.endUtc, " overlaps the test interval ",
        .instant testInterval.startUtc, " .. ", .instant testInterval.endUtc, " widened by purge ",
        .span self.purge, " and embargo ", .span self.embargo]

def CpcvSplitFields.postInit (self : CpcvSplitFields) : PyResult Unit := do
  requireIndex self.pathIndex "path_index"
  requireNonNegativeSpan .cpcvConfig self.purge "purge"
  requireNonNegativeSpan .cpcvConfig self.embargo "embargo"
  raiseIf (self.testGroupIndices = []) .cpcvPartition
    ["path ", .count self.pathIndex, ": no test groups"]
  raiseIf (self.testIntervals = []) .cpcvPartition
    ["path ", .count self.pathIndex, ": no test intervals"]
  raiseIf (self.trainIntervals = []) .cpcvPartition
    (noTrainingMessage self.pathIndex self.purge self.embargo)
  self.testIntervals.forM self.refuseOverlap

/-- One path: the groups it tests on, and what is left to train on after the gaps. -/
structure CpcvSplit extends CpcvSplitFields where
  checked : toCpcvSplitFields.postInit = .ok ()
  deriving DecidableEq

structure CpcvPartitionFields where
  plan : CpcvPlan
  groups : List Group
  splits : List CpcvSplit
  purge : TimeDelta
  embargo : TimeDelta
  deriving DecidableEq

def CpcvPartitionFields.postInit (self : CpcvPartitionFields) : PyResult Unit :=
  raiseIf (self.splits.length ≠ self.plan.pathTotal) .cpcvConfig
    [.count self.splits.length, " split(s) against C(", .count self.plan.groupTotal, ", ",
      .count self.plan.testGroupSize, ") = ", .count self.plan.pathTotal,
      " paths; a partition missing a path is a search reported at less than it cost"]

/-- The plan, its groups, and every split it admits. -/
structure CpcvPartition extends CpcvPartitionFields where
  checked : toCpcvPartitionFields.postInit = .ok ()
  deriving DecidableEq

/-! ### Building them -/

/-- Boundary `index` of the window, in whole microseconds by integer arithmetic. -/
def CpcvPlan.boundary (plan : CpcvPlan) (index : ℕ) : DateTime :=
  plan.startUtc + (plan.endUtc - plan.startUtc) * index / plan.groupTotal

/-- Cut the window into `N` contiguous, non-overlapping, gap-free groups. -/
def buildGroups (plan : CpcvPlan) : PyResult (List Group) :=
  let boundaries := (List.range (plan.groupTotal.toNat + 1)).map plan.boundary
  (List.range plan.groupTotal.toNat).mapM fun index => do
    let startUtc ← item "list" boundaries index
    let endUtc ← item "list" boundaries (index + 1)
    let interval ← timeInterval startUtc endUtc
    construct GroupFields.postInit Group.mk ⟨index, interval⟩

/-- The fusing loop: `last` is the interval the next one may still be fused into. -/
def mergeInto : TimeInterval → List TimeInterval → PyResult (List TimeInterval)
  | last, [] => .ok [last]
  | last, interval :: rest =>
    if interval.startUtc ≤ last.endUtc then do
      let fused ← timeInterval last.startUtc (max last.endUtc interval.endUtc)
      mergeInto fused rest
    else do
      let merged ← mergeInto interval rest
      return last :: merged

/-- Fuse touching or overlapping intervals into the fewest that cover the same span. -/
def mergeAdjacent (intervals : List TimeInterval) : PyResult (List TimeInterval) :=
  match sortBy (fun interval => toLex (interval.startUtc, interval.endUtc)) intervals with
  | [] => .ok []
  | first :: rest => mergeInto first rest

/-- What the loop appends before a forbidden block. -/
def trainBefore (window : TimeInterval) (cursor : DateTime) (block : TimeInterval) :
    PyResult (List TimeInterval) :=
  if cursor < block.startUtc then do
    let interval ← timeInterval cursor (min block.startUtc window.endUtc)
    return [interval]
  else
    return []

/-- The loop over the forbidden blocks: what it leaves, and the cursor it stops at. -/
def trainAround (window : TimeInterval) :
    DateTime → List TimeInterval → PyResult (List TimeInterval × DateTime)
  | cursor, [] => .ok ([], cursor)
  | cursor, block :: rest => do
    let gap ← trainBefore window cursor block
    let cursor := max cursor block.endUtc
    if window.endUtc ≤ cursor then
      return (gap, cursor)
    else do
      let (remaining, cursor) ← trainAround window cursor rest
      return (gap ++ remaining, cursor)

/-- What is left of `window` once every test block and both its gaps are removed. -/
def purgedTrainIntervals (window : TimeInterval) (testIntervals : List TimeInterval)
    (purge embargo : TimeDelta) : PyResult (List TimeInterval) := do
  requireNonNegativeSpan .cpcvConfig purge "purge"
  requireNonNegativeSpan .cpcvConfig embargo "embargo"
  let widened ← testIntervals.mapM fun interval =>
    timeInterval (interval.startUtc - purge) (interval.endUtc + embargo)
  let forbidden ← mergeAdjacent widened
  let (remaining, cursor) ← trainAround window window.startUtc forbidden
  if cursor < window.endUtc then do
    let last ← timeInterval cursor window.endUtc
    return remaining ++ [last]
  else
    return remaining

/-- `[groups[index].interval for index in chosen]`. -/
def chosenIntervals (groups : List Group) (chosen : List ℕ) : PyResult (List TimeInterval) :=
  chosen.mapM fun index => do
    let group ← item "tuple" groups index
    return group.interval

def buildSplit (plan : CpcvPlan) (groups : List Group) (window : TimeInterval) (pathIndex : ℕ)
    (chosen : List ℕ) : PyResult CpcvSplit := do
  let intervals ← chosenIntervals groups chosen
  let testIntervals ← mergeAdjacent intervals
  let trainIntervals ← purgedTrainIntervals window testIntervals plan.purge plan.embargo
  construct CpcvSplitFields.postInit CpcvSplit.mk
    ⟨pathIndex, chosen, testIntervals, trainIntervals, plan.purge, plan.embargo⟩

/-- The test sets in lexicographic order by group index. -/
def CpcvPlan.choices (plan : CpcvPlan) : List (List ℕ) :=
  combinations plan.testGroupSize.toNat (List.range plan.groupTotal.toNat)

/-- Every combination of `k` groups, with its purged and embargoed training set. -/
def buildSplits (plan : CpcvPlan) : PyResult CpcvPartition := do
  let groups ← buildGroups plan
  let window ← plan.window
  let splits ← plan.choices.zipIdx.mapM fun (chosen, pathIndex) =>
    buildSplit plan groups window pathIndex chosen
  construct CpcvPartitionFields.postInit CpcvPartition.mk
    ⟨plan, groups, splits, plan.purge, plan.embargo⟩

end FinanceKing.Backtest
