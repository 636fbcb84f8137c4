import FinanceKing.Domain.Results
import FinanceKing.Lib.Merge
import FinanceKing.Risk.Contribution

/-! What the concentration stage refuses: a book in which some held symbol, or some cluster with a held member,
    carries more than its limit of the portfolio's risk. -/

namespace FinanceKing.Risk

open Lib

/-! ### Shares of a book -/

section

variable (model : RiskModel Decimal) (weight : String → Decimal)

/-- A symbol's row of the covariance, weighted. -/
def bookCovariance (symbol : String) : Decimal :=
  (model.symbols.map fun other => model.covarianceBetween symbol other * weight other).sum

/-- The variance of a book. -/
def bookVariance : Decimal :=
  (model.symbols.map fun symbol => weight symbol * bookCovariance model weight symbol).sum

/-- A symbol's share of the risk of a book; a book without variance has none to share. -/
def riskShare (symbol : String) : Decimal :=
  if bookVariance model weight ≤ 0 then 0
  else (contributionFor symbol (weight symbol) (bookCovariance model weight symbol)
    (root (bookVariance model weight))).riskShareRatio

/-- A cluster's share: its members', signed. -/
def clusterRiskShare (cluster : CorrelationCluster) : Decimal :=
  (cluster.symbols.map (riskShare model weight)).sum

/-- A book over a share limit, in a held symbol or in a cluster with one. -/
def BreachesShare (limits : ConcentrationLimits) : Prop :=
  (∃ symbol ∈ model.symbols, weight symbol ≠ 0 ∧
    limits.maxAssetRiskShareRatio < riskShare model weight symbol) ∨
  ∃ cluster ∈ model.clusters, (∃ symbol ∈ cluster.symbols, weight symbol ≠ 0) ∧
    limits.maxClusterRiskShareRatio < clusterRiskShare model weight cluster

end

/-! ### The decomposition reports the shares -/

section

variable {model : RiskModel Decimal} {weights : Dict String Decimal}

/-- A decomposition's rows are the shares, symbol by symbol and cluster by cluster. -/
structure ReportsShares (model : RiskModel Decimal) (weight : String → Decimal) (risk : PortfolioRisk Decimal) :
    Prop where
  rows : (risk.contributions.map fun contribution => (contribution.symbol, contribution.riskShareRatio)) =
    model.symbols.map fun symbol => (symbol, riskShare model weight symbol)
  clusters : ∀ cluster ∈ model.clusters,
    (risk.clusterRiskShareRatio.get? cluster.clusterId).getD 0 = clusterRiskShare model weight cluster

/-- A cluster's members are in the universe. -/
theorem mem_symbols_of_cluster {cluster : CorrelationCluster} (hcluster : cluster ∈ model.clusters)
    {symbol : String} (h : symbol ∈ cluster.symbols) : symbol ∈ model.symbols :=
  model.perm_clusters.subset (List.mem_flatMap.mpr ⟨cluster, hcluster, h⟩)

theorem degenerateRisk_reports (h : bookVariance model (weightOf weights) ≤ 0) :
    ReportsShares model (weightOf weights) (degenerateRisk model weights) where
  rows := by
    rw [degenerateRisk, List.map_map]
    refine List.map_congr_left fun symbol _ => ?_
    rw [riskShare, if_pos h]
    rfl
  clusters := by
    intro cluster hcluster
    have hget : (degenerateRisk model weights).clusterRiskShareRatio.get? cluster.clusterId = some 0 :=
      Dict.get?_indexBy (fun cluster : CorrelationCluster => cluster.clusterId) (fun _ => (0 : Decimal))
        model.nodup_clusters hcluster
    have hzero : cluster.symbols.map (riskShare model (weightOf weights)) = cluster.symbols.map fun _ => 0 :=
      List.map_congr_left fun symbol _ => by rw [riskShare, if_pos h]
    rw [hget, clusterRiskShare, hzero]
    simp

theorem decomposedRisk_reports (h : 0 < bookVariance model (weightOf weights)) :
    ReportsShares model (weightOf weights)
      (decomposedRisk model weights (root (bookVariance model (weightOf weights)))) where
  rows := by
    rw [decomposedRisk, List.map_map]
    refine List.map_congr_left fun symbol _ => ?_
    rw [riskShare, if_neg h.not_ge]
    rfl
  clusters := by
    intro cluster hcluster
    have hget : (decomposedRisk model weights (root (bookVariance model (weightOf weights)))
        ).clusterRiskShareRatio.get? cluster.clusterId = some _ :=
      Dict.get?_indexBy (fun cluster : CorrelationCluster => cluster.clusterId) _ model.nodup_clusters hcluster
    rw [hget, Option.getD_some, clusterRiskShare]
    refine congrArg List.sum (List.map_congr_left fun symbol hsymbol => ?_)
    have hfound : model.symbols.find? (fun other => other = symbol) = some symbol := by
      have hmem := mem_symbols_of_cluster hcluster hsymbol
      cases hsearch : model.symbols.find? fun other => other = symbol with
      | none => exact absurd (decide_eq_true rfl) (List.find?_eq_none.mp hsearch symbol hmem)
      | some other => rw [show other = symbol by simpa using List.find?_some hsearch]
    rw [List.find?_map]
    simp only [Function.comp_def, contributionFor, hfound, Option.map_some, Option.elim_some]
    rw [riskShare, if_neg h.not_ge]
    rfl

/-- What `portfolioRisk` reports. -/
theorem portfolioRisk_reports {risk : PortfolioRisk Decimal} (h : portfolioRisk weights model = .ok risk) :
    ReportsShares model (weightOf weights) risk := by
  simp only [portfolioRisk, bind_eq_ok] at h
  obtain ⟨_, _, h⟩ := h
  split at h
  · next hvariance =>
    obtain rfl := pure_eq_ok.mp h
    exact degenerateRisk_reports hvariance
  · next hvariance =>
    obtain rfl := pure_eq_ok.mp h
    exact decomposedRisk_reports (not_le.mp hvariance)

end

/-! ### The verdict -/

/-- A symbol is held exactly when it carries weight. -/
theorem mem_heldSymbols {weights : Dict String Decimal} {symbol : String} :
    symbol ∈ heldSymbols weights ↔ weightOf weights symbol ≠ 0 := by
  rw [heldSymbols, List.mem_map, weightOf]
  constructor
  · rintro ⟨⟨_, weight⟩, hentry, rfl⟩
    obtain ⟨hmem, hweight⟩ := List.mem_filter.mp hentry
    rw [(Dict.get?_eq_some_iff _ _ _).mpr hmem]
    exact of_decide_eq_true hweight
  · intro h
    cases hget : weights.get? symbol with
    | none => rw [hget] at h; exact absurd rfl h
    | some weight =>
      rw [hget] at h
      exact ⟨(symbol, weight), List.mem_filter.mpr ⟨(Dict.get?_eq_some_iff _ _ _).mp hget, decide_eq_true h⟩,
        rfl⟩

/-- The scan finds a breach exactly when there is one. -/
theorem foldl_worseBreach_eq_none {evaluations : List RiskShareEvaluation} :
    ∀ {binding : Option RiskShareEvaluation}, evaluations.foldl worseBreach binding = none ↔
      binding = none ∧ ∀ evaluation ∈ evaluations, evaluation.isBreached = false := by
  induction evaluations with
  | nil => simp
  | cons evaluation evaluations ih =>
    intro binding
    rw [List.foldl_cons, ih, List.forall_mem_cons, ← and_assoc]
    refine and_congr_left fun _ => ?_
    rw [worseBreach.eq_def]
    cases hbreached : evaluation.isBreached with
    | false => simp
    | true =>
      cases binding with
      | none => simp
      | some worst =>
        simp only [not_true_eq_false, if_false]
        split <;> simp

theorem rejectionFor_ne_none {evaluations : List RiskShareEvaluation} {decidedAtUtc : DateTime} :
    rejectionFor evaluations decidedAtUtc ≠ none ↔
      ∃ evaluation ∈ evaluations, evaluation.isBreached = true := by
  rw [rejectionFor, Ne, Option.map_eq_none_iff, foldl_worseBreach_eq_none]
  simp

theorem isBreached_iff {evaluation : RiskShareEvaluation} :
    evaluation.isBreached = true ↔ evaluation.thresholdRatio < evaluation.observedRatio := by
  rw [RiskShareEvaluation.isBreached, RiskShareEvaluation.headroomRatio, decide_eq_true_eq, sub_neg]

/-- The concentration stage refuses exactly a book over a share limit. -/
theorem assessConcentration_refuses_iff {model : RiskModel Decimal} {weights : Dict String Decimal}
    {limits : ConcentrationLimits} {decidedAtUtc : DateTime} {assessment : ConcentrationAssessment}
    (h : assessConcentration weights model limits decidedAtUtc = .ok assessment) :
    assessment.rejection ≠ none ↔ BreachesShare model (weightOf weights) limits := by
  simp only [assessConcentration, bind_eq_ok, pure_eq_ok] at h
  obtain ⟨risk, hrisk, rfl⟩ := h
  have hreports := portfolioRisk_reports hrisk
  simp only [rejectionFor_ne_none, isBreached_iff, shareEvaluations, List.mem_append, or_and_right, exists_or,
    BreachesShare]
  refine or_congr ⟨?_, ?_⟩ ⟨?_, ?_⟩
  · rintro ⟨_, hrow, hbreached⟩
    obtain ⟨contribution, hcontribution, rfl⟩ := List.mem_map.mp hrow
    obtain ⟨hmem, hheld⟩ := List.mem_filter.mp hcontribution
    have hpair := List.mem_map_of_mem
      (f := fun contribution : RiskContribution Decimal => (contribution.symbol, contribution.riskShareRatio)) hmem
    rw [hreports.rows] at hpair
    obtain ⟨symbol, hsymbol, hsame⟩ := List.mem_map.mp hpair
    obtain ⟨rfl, hshare⟩ := Prod.mk.inj hsame
    exact ⟨_, hsymbol, mem_heldSymbols.mp (of_decide_eq_true hheld), hshare ▸ hbreached⟩
  · rintro ⟨symbol, hsymbol, hheld, hbreached⟩
    have hpair : (symbol, riskShare model (weightOf weights) symbol) ∈ risk.contributions.map
        fun contribution => (contribution.symbol, contribution.riskShareRatio) := by
      rw [hreports.rows]
      exact List.mem_map_of_mem hsymbol
    obtain ⟨contribution, hmem, hsame⟩ := List.mem_map.mp hpair
    obtain ⟨rfl, hshare⟩ := Prod.mk.inj hsame
    exact ⟨_, List.mem_map_of_mem (List.mem_filter.mpr ⟨hmem, decide_eq_true (mem_heldSymbols.mpr hheld)⟩),
      hshare ▸ hbreached⟩
  · rintro ⟨_, hrow, hbreached⟩
    obtain ⟨cluster, hcluster, rfl⟩ := List.mem_map.mp hrow
    obtain ⟨hmem, hheld⟩ := List.mem_filter.mp hcluster
    obtain ⟨symbol, hsymbol, hweight⟩ := List.any_eq_true.mp hheld
    exact ⟨cluster, hmem, ⟨symbol, hsymbol, mem_heldSymbols.mp (of_decide_eq_true hweight)⟩,
      hreports.clusters cluster hmem ▸ hbreached⟩
  · rintro ⟨cluster, hcluster, ⟨symbol, hsymbol, hheld⟩, hbreached⟩
    refine ⟨_, List.mem_map_of_mem (List.mem_filter.mpr ⟨hcluster, ?_⟩),
      (hreports.clusters cluster hcluster).symm ▸ hbreached⟩
    exact List.any_eq_true.mpr ⟨symbol, hsymbol, decide_eq_true (mem_heldSymbols.mpr hheld)⟩

end FinanceKing.Risk
