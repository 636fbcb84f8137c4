import FinanceKing.Risk.Covariance
import FinanceKing.Risk.Exposure

/-! Risk contribution, risk share, and the concentration limits that bind on the share rather than on the
    notional. A breach is a returned refusal; the worst breach of the candidate book is the one it names. -/

namespace FinanceKing.Risk

open Lib

def concentrationHardCeilings : List (String × Ceiling) :=
  [("max_cluster_risk_share_ratio", ⟨40 / 100⟩), ("max_asset_risk_share_ratio", ⟨50 / 100⟩)]

structure ConcentrationLimitsFields where
  maxClusterRiskShareRatio : Decimal := 25 / 100
  maxAssetRiskShareRatio : Decimal := 35 / 100
  deriving DecidableEq

def ConcentrationLimitsFields.postInit (self : ConcentrationLimitsFields) : PyResult Unit :=
  assertWithinCeilings
    (submittedLimits [("max_cluster_risk_share_ratio", self.maxClusterRiskShareRatio),
      ("max_asset_risk_share_ratio", self.maxAssetRiskShareRatio)])
    concentrationHardCeilings "concentration"

/-- Risk-share limits, refused at construction if a compiled-in ceiling is crossed. -/
structure ConcentrationLimits extends ConcentrationLimitsFields where
  checked : toConcentrationLimitsFields.postInit = .ok ()
  deriving DecidableEq

/-- The shipped limits pass their own check. -/
def defaultConcentrationLimits : ConcentrationLimits := ⟨{}, by decide +kernel⟩

/-- Signed notional over equity: the one place USD becomes a portfolio weight. -/
def weightRatiosFromNotional (signedNotionalUsdBySymbol : Dict String Decimal) (equityUsd : Decimal) :
    PyResult (Dict String Decimal) := do
  raiseIf (equityUsd ≤ 0) .domainError
    ["equity is ", .decimal equityUsd, "; a portfolio weight is a fraction of equity and cannot be formed " ++
      "against a non-positive one"]
  return signedNotionalUsdBySymbol.mapValues fun notionalUsd => notionalUsd / equityUsd

section

variable {K : Type} [Field K] [LinearOrder K] [Root K]

variable (K) in
omit [Field K] [LinearOrder K] [Root K] in
/-- One symbol's share of portfolio risk, with the terms it was built from. -/
structure RiskContribution where
  symbol : String
  weightRatio : K
  marginalContributionRatio : K
  riskContributionRatio : K
  riskShareRatio : K
  deriving DecidableEq

variable (K) in
omit [Field K] [LinearOrder K] [Root K] in
/-- The whole book's risk decomposition, against one model. -/
structure PortfolioRisk where
  portfolioVolatilityRatio : K
  contributions : List (RiskContribution K)
  clusterRiskShareRatio : Dict String K
  deriving DecidableEq

/-- The weight a symbol carries; none is zero. -/
def weightOf (weightRatioBySymbol : Dict String K) (symbol : String) : K :=
  (weightRatioBySymbol.get? symbol).getD 0

/-- A symbol's row of the covariance, weighted. -/
def covarianceWeighted (model : RiskModel K) (weightRatioBySymbol : Dict String K) (symbol : String) : K :=
  (model.symbols.map fun other => model.covarianceBetween symbol other * weightOf weightRatioBySymbol other).sum

/-- The variance of the whole book. -/
def portfolioVariance (model : RiskModel K) (weightRatioBySymbol : Dict String K) : K :=
  (model.symbols.map fun symbol =>
    weightOf weightRatioBySymbol symbol * covarianceWeighted model weightRatioBySymbol symbol).sum

/-- A symbol's terms, against the volatility of the book. -/
def contributionFor (symbol : String) (weightRatio covarianceWeighted portfolioVolatilityRatio : K) :
    RiskContribution K :=
  let marginal := covarianceWeighted / portfolioVolatilityRatio
  let contribution := weightRatio * marginal
  ⟨symbol, weightRatio, marginal, contribution, contribution / portfolioVolatilityRatio⟩

/-- Each cluster's risk share: the sum of its members', signed. -/
def clusterShares (model : RiskModel K) (contributions : List (RiskContribution K)) : Dict String K :=
  model.clusters.foldl (fun shares cluster => shares.set cluster.clusterId
    ((cluster.symbols.map fun symbol =>
      ((contributions.find? fun contribution => contribution.symbol = symbol).elim 0
        fun contribution => contribution.riskShareRatio)).sum)) Dict.empty

/-- The flat book: no volatility, so no share of it is defined. -/
def degenerateRisk (model : RiskModel K) (weightRatioBySymbol : Dict String K) : PortfolioRisk K where
  portfolioVolatilityRatio := 0
  contributions := model.symbols.map fun symbol => ⟨symbol, weightOf weightRatioBySymbol symbol, 0, 0, 0⟩
  clusterRiskShareRatio :=
    model.clusters.foldl (fun shares cluster => shares.set cluster.clusterId 0) Dict.empty

/-- The decomposition of a book that carries risk. -/
def decomposedRisk (model : RiskModel K) (weightRatioBySymbol : Dict String K) (volatility : K) :
    PortfolioRisk K :=
  let contributions := model.symbols.map fun symbol =>
    contributionFor symbol (weightOf weightRatioBySymbol symbol)
      (covarianceWeighted model weightRatioBySymbol symbol) volatility
  ⟨volatility, contributions, clusterShares model contributions⟩

/-- Decompose the volatility into per-symbol and per-cluster shares. -/
def portfolioRisk (weightRatioBySymbol : Dict String K) (model : RiskModel K) :
    PyResult (PortfolioRisk K) := do
  let unknown := sortBy id (weightRatioBySymbol.keys.filter fun symbol => symbol ∉ model.symbols)
  raiseIf (unknown ≠ []) .domainError
    [.texts unknown, " carry weight but are outside the estimated universe; portfolio risk cannot be " ++
      "computed with a position the model does not cover"]
  let variance := portfolioVariance model weightRatioBySymbol
  if variance ≤ 0 then return degenerateRisk model weightRatioBySymbol
  return decomposedRisk model weightRatioBySymbol (root variance)

end

/-! ### The assessment -/

/-- One concentration limit, its threshold and what was observed. -/
structure RiskShareEvaluation where
  limitName : String
  scopeId : String
  thresholdRatio : Decimal
  observedRatio : Decimal
  deriving DecidableEq

/-- Risk share that may still be added before this limit binds. -/
def RiskShareEvaluation.headroomRatio (self : RiskShareEvaluation) : Decimal :=
  self.thresholdRatio - self.observedRatio

def RiskShareEvaluation.isBreached (self : RiskShareEvaluation) : Bool := self.headroomRatio < 0

/-- The verdict on one candidate book. -/
structure ConcentrationAssessment where
  decidedAtUtc : DateTime
  portfolioRisk : PortfolioRisk Decimal
  evaluations : List RiskShareEvaluation
  rejection : Option Rejection
  deriving DecidableEq

/-- The worse of the breach found so far and the next row; a tie keeps the first. -/
def worseBreach (binding : Option RiskShareEvaluation) (evaluation : RiskShareEvaluation) :
    Option RiskShareEvaluation :=
  if ¬ evaluation.isBreached then binding
  else
    match binding with
    | none => some evaluation
    | some worst => if evaluation.headroomRatio < worst.headroomRatio then some evaluation else binding

/-- The refusal of the worst breach, or none. -/
def rejectionFor (evaluations : List RiskShareEvaluation) (decidedAtUtc : DateTime) : Option Rejection :=
  (evaluations.foldl worseBreach none).map fun binding =>
    { reason := [binding.scopeId, " carries a risk share of ", .decimal binding.observedRatio, " against a ",
        binding.limitName, " of ", .decimal binding.thresholdRatio, "; notional limits do not see this " ++
        "because the concentration is in the covariance, not in the book"]
      bindingLimitName := binding.limitName
      rejectedAtUtc := decidedAtUtc }

/-- The symbols that carry weight. -/
def heldSymbols (weightRatioBySymbol : Dict String Decimal) : List String :=
  (weightRatioBySymbol.entries.filter fun entry => entry.2 ≠ 0).map Prod.fst

/-- A row for every held symbol, then for every cluster one is in. -/
def shareEvaluations (risk : PortfolioRisk Decimal) (held : List String)
    (clusters : List CorrelationCluster) (limits : ConcentrationLimits) : List RiskShareEvaluation :=
  ((risk.contributions.filter fun contribution => contribution.symbol ∈ held).map fun contribution =>
    ⟨"max_asset_risk_share_ratio", contribution.symbol, limits.maxAssetRiskShareRatio,
      contribution.riskShareRatio⟩) ++
  ((clusters.filter fun cluster => cluster.symbols.any (· ∈ held)).map fun cluster =>
    ⟨"max_cluster_risk_share_ratio", cluster.clusterId, limits.maxClusterRiskShareRatio,
      (risk.clusterRiskShareRatio.get? cluster.clusterId).getD 0⟩)

/-- Decide whether a candidate book's risk is too concentrated to permit. -/
def assessConcentration (weightRatioBySymbol : Dict String Decimal) (model : RiskModel Decimal)
    (limits : ConcentrationLimits) (decidedAtUtc : DateTime) : PyResult ConcentrationAssessment := do
  let risk ← portfolioRisk weightRatioBySymbol model
  let evaluations := shareEvaluations risk (heldSymbols weightRatioBySymbol) model.clusters limits
  return ⟨decidedAtUtc, risk, evaluations, rejectionFor evaluations decidedAtUtc⟩

end FinanceKing.Risk
