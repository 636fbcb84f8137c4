import FinanceKing.Lib.Merge
import FinanceKing.Risk.CholeskyFactor
import FinanceKing.Risk.ShareVerdict

/-! The risk decomposition is a partition of the book's risk: with exact square roots, the contributions of a
    book that holds anything sum to its volatility and the shares to one, at any scale of the book. -/

namespace FinanceKing.Risk

open Lib

/-! ### Variance -/

section

variable {K : Type} [Field K] [LinearOrder K] [Root K]

/-- A position in units of volatility. -/
def exposureOf (model : RiskModel K) (weights : Dict String K) (symbol : String) : K :=
  weightOf weights symbol * model.volatilityOf symbol

theorem portfolioVariance_eq_form (model : RiskModel K) (weights : Dict String K) :
    portfolioVariance model weights = correlationForm model.correlations (exposureOf model weights) := by
  rw [portfolioVariance, correlationForm, model.symbols_eq]
  refine congrArg List.sum (List.map_congr_left fun symbolA _ => ?_)
  rw [covarianceWeighted, ← List.sum_map_mul_left, model.symbols_eq]
  refine congrArg List.sum (List.map_congr_left fun symbolB _ => ?_)
  rw [RiskModel.covarianceBetween, exposureOf, exposureOf]
  ring

/-- A book that weighs nothing in the universe has no variance. -/
theorem portfolioVariance_eq_zero {model : RiskModel K} {weights : Dict String K}
    (h : ∀ symbol ∈ model.symbols, weightOf weights symbol = 0) : portfolioVariance model weights = 0 := by
  rw [portfolioVariance]
  refine List.sum_eq_zero fun term hterm => ?_
  obtain ⟨symbol, hsymbol, rfl⟩ := List.mem_map.mp hterm
  rw [h symbol hsymbol, zero_mul]

/-- A book has variance exactly when it weighs something in the universe. -/
theorem portfolioVariance_pos_iff [IsStrictOrderedRing K] [ExactRoot K] {model : RiskModel K}
    {weights : Dict String K} :
    0 < portfolioVariance model weights ↔ ∃ symbol ∈ model.symbols, weightOf weights symbol ≠ 0 := by
  constructor
  · intro h
    by_contra hnone
    push Not at hnone
    exact h.ne' (portfolioVariance_eq_zero hnone)
  · rintro ⟨symbol, hsymbol, hne⟩
    rw [portfolioVariance_eq_form]
    exact correlationForm_pos model.definite
      ⟨symbol, model.symbols_eq ▸ hsymbol, mul_ne_zero hne (model.volatilityOf_pos hsymbol).ne'⟩

/-- What `portfolioRisk` computes for a book over the universe. -/
def bookRisk (model : RiskModel K) (weights : Dict String K) : PortfolioRisk K :=
  if portfolioVariance model weights ≤ 0 then degenerateRisk model weights
  else decomposedRisk model weights (root (portfolioVariance model weights))

/-- A book is decomposed exactly when every symbol it lists is in the universe. -/
theorem portfolioRisk_eq_ok_iff {model : RiskModel K} {weights : Dict String K} {risk : PortfolioRisk K} :
    portfolioRisk weights model = .ok risk ↔
      (∀ symbol ∈ weights.keys, symbol ∈ model.symbols) ∧ risk = bookRisk model weights := by
  have hcovered : ¬ sortBy id (weights.keys.filter fun symbol => symbol ∉ model.symbols) ≠ [] ↔
      ∀ symbol ∈ weights.keys, symbol ∈ model.symbols := by
    rw [not_not, ← List.length_eq_zero_iff, (perm_sortBy id _).length_eq, List.length_eq_zero_iff,
      List.filter_eq_nil_iff]
    simp
  simp only [portfolioRisk, bind_eq_ok, raiseIf_eq_ok, hcovered, exists_const]
  refine and_congr_right fun _ => ?_
  rw [bookRisk]
  split
  · rw [pure_eq_ok, eq_comm]
  · rw [pure_eq_ok, eq_comm]

omit [LinearOrder K] [Root K] in
/-- A symbol that carries weight is one the book lists. -/
theorem mem_keys_of_weightOf {weights : Dict String K} {symbol : String} (h : weightOf weights symbol ≠ 0) :
    symbol ∈ weights.keys := by
  rw [Dict.mem_keys_iff]
  cases hget : weights.get? symbol with
  | none =>
    rw [weightOf, hget] at h
    exact absurd rfl h
  | some weight => rfl

/-! ### Shares -/

/-- The share a list of contributions reports for a symbol. -/
def shareIn (contributions : List (RiskContribution K)) (symbol : String) : K :=
  (contributions.find? fun contribution => contribution.symbol = symbol).elim 0
    fun contribution => contribution.riskShareRatio

omit [LinearOrder K] [Root K] in
/-- A list with a contribution for each symbol reports each symbol's own. -/
theorem shareIn_map {symbols : List String} {contribution : String → RiskContribution K}
    (hnamed : ∀ symbol, (contribution symbol).symbol = symbol) {symbol : String} (h : symbol ∈ symbols) :
    shareIn (symbols.map contribution) symbol = (contribution symbol).riskShareRatio := by
  have hfound : symbols.find? (fun other => other = symbol) = some symbol := by
    cases hsearch : symbols.find? fun other => other = symbol with
    | none => exact absurd (decide_eq_true rfl) (List.find?_eq_none.mp hsearch symbol h)
    | some other => rw [show other = symbol by simpa using List.find?_some hsearch]
  rw [shareIn, List.find?_map]
  simp only [Function.comp_def, hnamed, hfound, Option.map_some, Option.elim_some]

/-- Every cluster's share, in the order of the clusters. -/
theorem entries_clusterShares (model : RiskModel K) (contributions : List (RiskContribution K)) :
    (clusterShares model contributions).entries =
      model.clusters.map fun cluster => (cluster.clusterId, (cluster.symbols.map (shareIn contributions)).sum) :=
  Dict.entries_indexBy (fun cluster : CorrelationCluster => cluster.clusterId) _ model.nodup_clusters

/-- The clusters' shares together are the symbols'. -/
theorem sum_clusterShares (model : RiskModel K) (contributions : List (RiskContribution K)) :
    (clusterShares model contributions).values.sum = (model.symbols.map (shareIn contributions)).sum := by
  rw [Dict.values, entries_clusterShares, List.map_map]
  calc (model.clusters.map fun cluster => (cluster.symbols.map (shareIn contributions)).sum).sum
      = ((model.clusters.flatMap fun cluster => cluster.symbols).map (shareIn contributions)).sum := by
        rw [List.map_flatMap, List.flatMap_def, List.sum_flatten, List.map_map]
        rfl
    _ = (model.symbols.map (shareIn contributions)).sum := (model.perm_clusters.map _).sum_eq

/-- The clusters' shares depend on what the contributions report alone. -/
theorem clusterShares_congr (model : RiskModel K) {contributions others : List (RiskContribution K)}
    (h : ∀ symbol, shareIn contributions symbol = shareIn others symbol) :
    clusterShares model contributions = clusterShares model others := by
  have hentries := entries_clusterShares model contributions
  rw [funext h, ← entries_clusterShares model others] at hentries
  exact (Dict.mk.injEq ..).mpr hentries

section

variable {model : RiskModel K} {weights : Dict String K} {volatility : K}

/-- Over a volatility that squares to the variance, the contributions sum to the volatility. -/
theorem sum_riskContributions (hvolatility : volatility ≠ 0)
    (h : volatility * volatility = portfolioVariance model weights) :
    ((decomposedRisk model weights volatility).contributions.map fun contribution =>
      contribution.riskContributionRatio).sum = volatility := by
  have hterm : ∀ symbol, weightOf weights symbol * (covarianceWeighted model weights symbol / volatility) =
      weightOf weights symbol * covarianceWeighted model weights symbol * volatility⁻¹ := by
    intro symbol
    rw [div_eq_mul_inv, mul_assoc]
  rw [decomposedRisk, List.map_map]
  simp only [Function.comp_def, contributionFor, hterm]
  rw [List.sum_map_mul_right, ← portfolioVariance, ← h, mul_assoc, mul_inv_cancel₀ hvolatility, mul_one]

/-- The asset shares sum to one. -/
theorem sum_riskShares (hvolatility : volatility ≠ 0)
    (h : volatility * volatility = portfolioVariance model weights) :
    ((decomposedRisk model weights volatility).contributions.map fun contribution =>
      contribution.riskShareRatio).sum = 1 := by
  have hcontributions := sum_riskContributions hvolatility h
  rw [decomposedRisk, List.map_map] at hcontributions ⊢
  simp only [Function.comp_def, contributionFor] at hcontributions ⊢
  simp only [div_eq_mul_inv _ volatility] at hcontributions ⊢
  rw [List.sum_map_mul_right, hcontributions, mul_inv_cancel₀ hvolatility]

/-- So do the cluster shares. -/
theorem sum_clusterRiskShares (hvolatility : volatility ≠ 0)
    (h : volatility * volatility = portfolioVariance model weights) :
    (decomposedRisk model weights volatility).clusterRiskShareRatio.values.sum = 1 := by
  rw [← sum_riskShares hvolatility h, decomposedRisk, sum_clusterShares, List.map_map]
  exact congrArg List.sum (List.map_congr_left fun symbol hsymbol => shareIn_map (fun _ => rfl) hsymbol)

end

/-! ### Scale -/

/-- Every weight times a factor. -/
def scaled (factor : K) (weights : Dict String K) : Dict String K := weights.mapValues fun weight => factor * weight

omit [LinearOrder K] [Root K] in
theorem weightOf_scaled (factor : K) (weights : Dict String K) (symbol : String) :
    weightOf (scaled factor weights) symbol = factor * weightOf weights symbol := by
  rw [weightOf, weightOf, scaled, Dict.get?_mapValues]
  cases weights.get? symbol with
  | none => exact (mul_zero factor).symm
  | some weight => rfl

theorem covarianceWeighted_scaled (factor : K) (model : RiskModel K) (weights : Dict String K) (symbol : String) :
    covarianceWeighted model (scaled factor weights) symbol = factor * covarianceWeighted model weights symbol := by
  rw [covarianceWeighted, covarianceWeighted, ← List.sum_map_mul_left]
  refine congrArg List.sum (List.map_congr_left fun other _ => ?_)
  rw [weightOf_scaled]
  ring

theorem portfolioVariance_scaled (factor : K) (model : RiskModel K) (weights : Dict String K) :
    portfolioVariance model (scaled factor weights) = factor * factor * portfolioVariance model weights := by
  rw [portfolioVariance, portfolioVariance, ← List.sum_map_mul_left]
  refine congrArg List.sum (List.map_congr_left fun symbol _ => ?_)
  rw [weightOf_scaled, covarianceWeighted_scaled]
  ring

omit [Root K] in
theorem weightedSymbols_scaled {factor : K} (h : factor ≠ 0) (weights : Dict String K) :
    weightedSymbols (scaled factor weights) = weightedSymbols weights := by
  rw [weightedSymbols, weightedSymbols, scaled, Dict.mapValues, List.filter_map, List.map_map]
  simp [Function.comp_def, h]

/-- What a decomposition reports to the limits: each symbol's share, in order, and each cluster's. -/
structure SameShares (risk other : PortfolioRisk K) : Prop where
  assets : risk.contributions.map (fun contribution => (contribution.symbol, contribution.riskShareRatio)) =
    other.contributions.map fun contribution => (contribution.symbol, contribution.riskShareRatio)
  clusters : risk.clusterRiskShareRatio = other.clusterRiskShareRatio

omit [LinearOrder K] [Root K] in
/-- The rows of an assessment depend on the reported shares alone. -/
theorem SameShares.shareRows_eq {risk other : PortfolioRisk K} (h : SameShares risk other) (held : List String)
    (clusters : List CorrelationCluster) (maxAsset maxCluster : K) :
    shareRows risk held clusters maxAsset maxCluster = shareRows other held clusters maxAsset maxCluster := by
  have hassets := congrArg (fun pairs : List (String × K) =>
    (pairs.filter fun pair => pair.1 ∈ held).map fun pair =>
      (⟨"max_asset_risk_share_ratio", pair.1, maxAsset, pair.2⟩ : ShareRow K)) h.assets
  simp only [List.filter_map, List.map_map, Function.comp_def] at hassets
  rw [shareRows, shareRows, h.clusters, hassets]

/-- A decomposition at a scale reports the same shares, over a volatility at that scale. -/
theorem decomposedRisk_scaled {factor : K} (hfactor : factor ≠ 0) (model : RiskModel K) (weights : Dict String K)
    (volatility : K) : SameShares (decomposedRisk model (scaled factor weights) (factor * volatility))
      (decomposedRisk model weights volatility) := by
  have hshare : ∀ symbol, (contributionFor symbol (weightOf (scaled factor weights) symbol)
      (covarianceWeighted model (scaled factor weights) symbol) (factor * volatility)).riskShareRatio =
        (contributionFor symbol (weightOf weights symbol) (covarianceWeighted model weights symbol)
          volatility).riskShareRatio := by
    intro symbol
    simp only [contributionFor, weightOf_scaled, covarianceWeighted_scaled]
    rw [mul_div_mul_left _ _ hfactor, mul_assoc, mul_div_mul_left _ _ hfactor]
  have hassets : (decomposedRisk model (scaled factor weights) (factor * volatility)).contributions.map
      (fun contribution => (contribution.symbol, contribution.riskShareRatio)) =
        (decomposedRisk model weights volatility).contributions.map
          fun contribution => (contribution.symbol, contribution.riskShareRatio) := by
    rw [decomposedRisk, decomposedRisk, List.map_map, List.map_map]
    exact List.map_congr_left fun symbol _ => congrArg (Prod.mk symbol) (hshare symbol)
  refine ⟨hassets, clusterShares_congr model fun symbol => ?_⟩
  have hfound := congrArg (fun pairs : List (String × K) =>
    (pairs.find? fun pair => pair.1 = symbol).elim 0 Prod.snd) hassets
  simp only [List.find?_map, Function.comp_def, Option.elim_map] at hfound
  exact hfound

theorem degenerateRisk_scaled (factor : K) (model : RiskModel K) (weights : Dict String K) :
    SameShares (degenerateRisk model (scaled factor weights)) (degenerateRisk model weights) := by
  refine ⟨?_, rfl⟩
  rw [degenerateRisk, degenerateRisk, List.map_map, List.map_map]
  rfl

section

variable [IsStrictOrderedRing K] [ExactRoot K]

omit [Root K] [ExactRoot K] in
theorem scaled_le_zero_iff {factor x : K} (h : 0 < factor) : factor * factor * x ≤ 0 ↔ x ≤ 0 := by
  rw [← not_lt, ← not_lt, mul_pos_iff_of_pos_left (mul_pos h h)]

theorem root_scaled {factor x : K} (hfactor : 0 < factor) (hx : 0 ≤ x) :
    root (factor * factor * x) = factor * root x := by
  have hsquare : root (factor * factor * x) * root (factor * factor * x) = factor * root x * (factor * root x) := by
    rw [ExactRoot.root_mul_self (mul_nonneg (mul_pos hfactor hfactor).le hx), mul_mul_mul_comm,
      ExactRoot.root_mul_self hx]
  exact (mul_self_inj (ExactRoot.root_nonneg _) (mul_nonneg hfactor.le (ExactRoot.root_nonneg _))).mp hsquare

/-- Scaling a book scales its volatility and nothing the limits see. -/
theorem bookRisk_scaled {factor : K} (hfactor : 0 < factor) (model : RiskModel K) (weights : Dict String K) :
    (bookRisk model (scaled factor weights)).portfolioVolatilityRatio =
        factor * (bookRisk model weights).portfolioVolatilityRatio ∧
      SameShares (bookRisk model (scaled factor weights)) (bookRisk model weights) := by
  rw [bookRisk, bookRisk, portfolioVariance_scaled]
  simp only [scaled_le_zero_iff hfactor]
  split
  · exact ⟨(mul_zero factor).symm, degenerateRisk_scaled factor model weights⟩
  · next hvariance =>
    rw [root_scaled hfactor (not_le.mp hvariance).le]
    exact ⟨rfl, decomposedRisk_scaled hfactor.ne' model weights _⟩

end

end

end FinanceKing.Risk
