import FinanceKing.Backtest.Costs

/-! Charging a run's round trips and gating what the charges came to. A trip is two legs and the funding held
    between them; a leg the book cannot absorb leaves the whole trip uncosted. Gross, cost and net are kept
    apart, and a ratio that cannot be read voids the run. -/

namespace FinanceKing.Backtest

open Lib

/-! ### Terms -/

/-- One round trip's cost, decomposed, in basis points of notional. -/
@[ext] structure CostBreakdown where
  feesBps : Decimal
  spreadBps : Decimal
  depthSlippageBps : Decimal
  latencyBps : Decimal
  partialFillBps : Decimal
  fundingBps : Decimal
  deriving DecidableEq

inductive CostTerm where
  | fees
  | spread
  | depthSlippage
  | latency
  | partialFill
  | funding
  deriving DecidableEq

namespace CostBreakdown

variable (self other : CostBreakdown)

def zero : CostBreakdown := ⟨0, 0, 0, 0, 0, 0⟩

/-- Every term under its name, which the total is derived from. -/
def asTerms : List (CostTerm × Decimal) :=
  [(.fees, self.feesBps), (.spread, self.spreadBps), (.depthSlippage, self.depthSlippageBps),
    (.latency, self.latencyBps), (.partialFill, self.partialFillBps), (.funding, self.fundingBps)]

def roundTripCostBp : Decimal := (self.asTerms.map Prod.snd).sum

def plus : CostBreakdown where
  feesBps := self.feesBps + other.feesBps
  spreadBps := self.spreadBps + other.spreadBps
  depthSlippageBps := self.depthSlippageBps + other.depthSlippageBps
  latencyBps := self.latencyBps + other.latencyBps
  partialFillBps := self.partialFillBps + other.partialFillBps
  fundingBps := self.fundingBps + other.fundingBps

def dividedBy (divisor : ℤ) : PyResult CostBreakdown := do
  raiseIf (divisor ≤ 0) .costModelConfig ["cannot average a breakdown over ", .count divisor, " trades"]
  let scale : Decimal := divisor
  return {
    feesBps := self.feesBps / scale
    spreadBps := self.spreadBps / scale
    depthSlippageBps := self.depthSlippageBps / scale
    latencyBps := self.latencyBps / scale
    partialFillBps := self.partialFillBps / scale
    fundingBps := self.fundingBps / scale }

end CostBreakdown

/-! ### Charges -/

/-- The hour this leg is priced in. -/
def ExecutionLeg.hourUtc (self : ExecutionLeg) : Fin 24 := hourOf self.decidedAtUtc

/-- Longs pay a positive funding rate; shorts are paid. -/
def fundingMultiplier : Direction → Decimal
  | .long => 1
  | .short => -1
  | .flat => 0

/-- The perpetual funding a round trip was exposed to. -/
structure FundingExposure where
  direction : Direction
  fundingRate : Decimal
  settlementCount : ℤ
  count_nonneg : 0 ≤ settlementCount
  deriving DecidableEq

/-- What the position paid in funding; negative when it was paid to hold. -/
def FundingExposure.fundingBps (self : FundingExposure) : Decimal :=
  self.fundingRate * self.settlementCount * fundingMultiplier self.direction * bpsPerUnit

structure RoundTrip where
  entryLeg : ExecutionLeg
  exitLeg : ExecutionLeg
  funding : FundingExposure
  deriving DecidableEq

/-- What one round trip cost, or why it could not be costed. -/
structure RoundTripCost where
  breakdown : Option CostBreakdown
  rejectionsByReason : Dict RejectionReason ℤ
  deriving DecidableEq

/-- `rejections[reason] = rejections.get(reason, 0) + occurrences`. -/
def countRejections (rejections : Dict RejectionReason ℤ) (reason : RejectionReason) (occurrences : ℤ) :
    Dict RejectionReason ℤ :=
  rejections.set reason ((rejections.get? reason).getD 0 + occurrences)

/-- The five terms of a leg; funding belongs to the round trip. -/
def chargeLeg (model : CostModel) (leg : ExecutionLeg) (quantile : SpreadQuantile) : PyResult CostBreakdown := do
  let depthProfile ← model.depthProfileFor leg.symbol
  let walk ← walkDepth depthProfile leg.baseQuantity
  let spreadProfile ← model.spreadProfileFor leg.symbol
  return {
    feesBps := model.fees.feeBpsFor leg.isPassive
    -- A passive leg does not cross: it pays the markout in place of the half-spread and the walk.
    spreadBps := if leg.isPassive then 0 else spreadProfile.halfSpreadBps leg.hourUtc quantile
    depthSlippageBps := if leg.isPassive then 0 else walk.depthSlippageBps
    latencyBps := model.latency.latencyBps
    partialFillBps := if leg.isPassive then model.partialFills.passiveMarkoutBps
      else model.partialFills.requoteCostBpsPerExtraFill * (max ((walk.fillCount : ℤ) - 1) 0 : ℤ)
    fundingBps := 0 }

/-- One leg's walk, with its rejection counted. -/
def countLeg (model : CostModel) (rejections : Dict RejectionReason ℤ) (leg : ExecutionLeg) :
    PyResult (Dict RejectionReason ℤ) := do
  let depthProfile ← model.depthProfileFor leg.symbol
  let walk ← walkDepth depthProfile leg.baseQuantity
  return walk.rejection.elim rejections fun reason => countRejections rejections reason 1

/-- Both legs and the funding, or a rejection with the reason counted. -/
def chargeRoundTrip (model : CostModel) (roundTrip : RoundTrip) (quantile : SpreadQuantile) :
    PyResult RoundTripCost := do
  let rejections ← [roundTrip.entryLeg, roundTrip.exitLeg].foldlM (countLeg model) Dict.empty
  if rejections.entries ≠ [] then
    return ⟨none, rejections⟩
  let entryCost ← chargeLeg model roundTrip.entryLeg quantile
  let exitCost ← chargeLeg model roundTrip.exitLeg quantile
  return ⟨some { entryCost.plus exitCost with fundingBps := roundTrip.funding.fundingBps }, Dict.empty⟩

/-! ### The report and its gate -/

def minEdgeToCostRatio : Decimal := 2

/-- What the gate concluded; a void run produced a ratio that cannot be interpreted. -/
inductive CostVerdict where
  | accepted
  | rejectedEdgeToCost
  | void
  deriving DecidableEq

structure RunCostReport where
  calibrationSource : String
  quantile : SpreadQuantile
  filledTradeCount : ℤ
  rejectionsByReason : Dict RejectionReason ℤ
  grossEdgePerTradeBp : Decimal
  roundTripCostBp : Decimal
  netEdgePerTradeBp : Decimal
  grossReturnBps : Decimal
  totalCostBps : Decimal
  netReturnBps : Decimal
  breakdown : CostBreakdown
  edgeToCostRatio : Option Decimal
  verdict : CostVerdict
  voidReason : Option Message
  deriving DecidableEq

/-- The ratio, the verdict and, where it is void, the reason. -/
def verdictFor (grossEdgePerTradeBp roundTripCostBp : Decimal) :
    Option Decimal × CostVerdict × Option Message :=
  if roundTripCostBp = 0 then
    (none, .void, some ["round_trip_cost_bp is zero, so edge_to_cost_ratio is infinite: the cost model did not run"])
  else if roundTripCostBp < 0 then
    (none, .void, some ["round_trip_cost_bp is ", .decimal roundTripCostBp, ", a net credit; the ratio's sign is ",
      "inverted and its magnitude would read as a quality score"])
  else
    let ratio := grossEdgePerTradeBp / roundTripCostBp
    if ratio < 0 then
      (none, .void, some ["gross_edge_per_trade_bp is ", .decimal grossEdgePerTradeBp, ", so the ratio is negative; ",
        "a loss divided by a cost is not a quality score"])
    else if ratio < minEdgeToCostRatio then (some ratio, .rejectedEdgeToCost, none)
    else (some ratio, .accepted, none)

/-- What the loop over the round trips carries. -/
structure Charged where
  accumulated : CostBreakdown
  rejections : Dict RejectionReason ℤ
  filledTradeCount : ℤ
  deriving DecidableEq

def chargeNext (model : CostModel) (quantile : SpreadQuantile) (charged : Charged) (roundTrip : RoundTrip) :
    PyResult Charged := do
  let cost ← chargeRoundTrip model roundTrip quantile
  let rejections := cost.rejectionsByReason.entries.foldl
    (fun rejections entry => countRejections rejections entry.1 entry.2) charged.rejections
  match cost.breakdown with
  | some breakdown => return ⟨charged.accumulated.plus breakdown, rejections, charged.filledTradeCount + 1⟩
  | none => return { charged with rejections := rejections }

/-- Charge every round trip and gate the run on what the charges came to. -/
def assessRun (model : CostModel) (roundTrips : List RoundTrip) (grossEdgePerTradeBp : Decimal)
    (quantile : SpreadQuantile) : PyResult RunCostReport := do
  let charged ← roundTrips.foldlM (chargeNext model quantile) ⟨.zero, Dict.empty, 0⟩
  if charged.filledTradeCount = 0 then
    return {
      calibrationSource := model.calibrationSource
      quantile := quantile
      filledTradeCount := 0
      rejectionsByReason := charged.rejections
      grossEdgePerTradeBp := grossEdgePerTradeBp
      roundTripCostBp := 0
      netEdgePerTradeBp := 0
      grossReturnBps := 0
      totalCostBps := 0
      netReturnBps := 0
      breakdown := .zero
      edgeToCostRatio := none
      verdict := .void
      voidReason := some ["no round trip was fillable, so nothing was charged; a run with no fills measures the ",
        "venue's depth, not the strategy"] }
  let perTrade ← charged.accumulated.dividedBy charged.filledTradeCount
  let roundTripCostBp := perTrade.roundTripCostBp
  let netEdgePerTradeBp := grossEdgePerTradeBp - roundTripCostBp
  let trades : Decimal := charged.filledTradeCount
  let (ratio, verdict, voidReason) := verdictFor grossEdgePerTradeBp roundTripCostBp
  return {
    calibrationSource := model.calibrationSource
    quantile := quantile
    filledTradeCount := charged.filledTradeCount
    rejectionsByReason := charged.rejections
    grossEdgePerTradeBp := grossEdgePerTradeBp
    roundTripCostBp := roundTripCostBp
    netEdgePerTradeBp := netEdgePerTradeBp
    grossReturnBps := grossEdgePerTradeBp * trades
    totalCostBps := roundTripCostBp * trades
    netReturnBps := netEdgePerTradeBp * trades
    breakdown := perTrade
    edgeToCostRatio := ratio
    verdict := verdict
    voidReason := voidReason }

end FinanceKing.Backtest
