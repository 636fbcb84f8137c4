import FinanceKing.Risk.RiskPartition

/-! The concentration stage in exact arithmetic: a book is decomposed without remainder, the verdict does not
    depend on its scale, and it is refused exactly over a limit, by its worst breach. -/

namespace FinanceKing.Risk

open Lib

section

variable {K : Type} [Field K] [LinearOrder K] [Root K]

/-- A decomposition that accounts for the whole book. -/
structure PartitionsRisk (model : RiskModel K) (weights : Dict String K) (risk : PortfolioRisk K) : Prop where
  degenerate_iff : risk = degenerateRisk model weights ↔ ∀ symbol, weightOf weights symbol = 0
  volatility_eq_zero_iff : risk.portfolioVolatilityRatio = 0 ↔ ∀ symbol, weightOf weights symbol = 0
  symbols : risk.contributions.map (fun contribution => contribution.symbol) = model.symbols
  contributions : (∃ symbol, weightOf weights symbol ≠ 0) →
    (risk.contributions.map fun contribution => contribution.riskContributionRatio).sum =
      risk.portfolioVolatilityRatio
  assets : (∃ symbol, weightOf weights symbol ≠ 0) →
    (risk.contributions.map fun contribution => contribution.riskShareRatio).sum = 1
  clusters : (∃ symbol, weightOf weights symbol ≠ 0) → risk.clusterRiskShareRatio.values.sum = 1

/-- A row of what is held: a symbol that carries weight, or a cluster with such a member. -/
def IsHeldRow (model : RiskModel K) (weights : Dict String K) (maxAsset maxCluster : K) (risk : PortfolioRisk K)
    (row : ShareRow K) : Prop :=
  (∃ symbol, weightOf weights symbol ≠ 0 ∧
    row = ⟨"max_asset_risk_share_ratio", symbol, maxAsset, shareIn risk.contributions symbol⟩) ∨
  ∃ cluster ∈ model.clusters, (∃ symbol ∈ cluster.symbols, weightOf weights symbol ≠ 0) ∧
    row = ⟨"max_cluster_risk_share_ratio", cluster.clusterId, maxCluster,
      (cluster.symbols.map (shareIn risk.contributions)).sum⟩

/-- No held symbol and no cluster with a held member is over its limit. -/
def WithinShareLimits (model : RiskModel K) (weights : Dict String K) (maxAsset maxCluster : K)
    (risk : PortfolioRisk K) : Prop :=
  (∀ symbol, weightOf weights symbol ≠ 0 → shareIn risk.contributions symbol ≤ maxAsset) ∧
  ∀ cluster ∈ model.clusters, (∃ symbol ∈ cluster.symbols, weightOf weights symbol ≠ 0) →
    (cluster.symbols.map (shareIn risk.contributions)).sum ≤ maxCluster

/-! ### The decomposition -/

section

variable {model : RiskModel K} {weights : Dict String K}

omit [LinearOrder K] [Root K] in
/-- Where only symbols of a list are weighed, a book that weighs nothing in the list weighs nothing. -/
theorem weightOf_eq_zero_iff {symbols : List String} (hcovered : ∀ symbol ∈ weights.keys, symbol ∈ symbols) :
    (∀ symbol ∈ symbols, weightOf weights symbol = 0) ↔ ∀ symbol, weightOf weights symbol = 0 := by
  refine ⟨fun h symbol => ?_, fun h symbol _ => h symbol⟩
  by_contra hne
  exact hne (h symbol (hcovered symbol (mem_keys_of_weightOf hne)))

theorem bookRisk_partitions [IsStrictOrderedRing K] [ExactRoot K]
    (hcovered : ∀ symbol ∈ weights.keys, symbol ∈ model.symbols) :
    PartitionsRisk model weights (bookRisk model weights) := by
  have hpos : 0 < portfolioVariance model weights ↔ ∃ symbol ∈ model.symbols, weightOf weights symbol ≠ 0 :=
    portfolioVariance_pos_iff
  have hzero := weightOf_eq_zero_iff hcovered
  rw [bookRisk]
  split
  · next hvariance =>
    have hflat : ∀ symbol, weightOf weights symbol = 0 := by
      refine hzero.mp fun symbol hsymbol => ?_
      by_contra hne
      exact absurd (hpos.mpr ⟨symbol, hsymbol, hne⟩) (not_lt.mpr hvariance)
    have hno : ¬ ∃ symbol, weightOf weights symbol ≠ 0 := fun hne => hne.choose_spec (hflat _)
    have hsymbols : (degenerateRisk model weights).contributions.map (fun contribution => contribution.symbol) =
        model.symbols := by
      rw [degenerateRisk, List.map_map]
      exact List.map_id _
    exact ⟨iff_of_true rfl hflat, iff_of_true rfl hflat, hsymbols, fun h => absurd h hno,
      fun h => absurd h hno, fun h => absurd h hno⟩
  · next hvariance =>
    rw [not_le] at hvariance
    have hroot := root_pos_of_exact hvariance
    have hsquare := ExactRoot.root_mul_self hvariance.le
    have hheld : ¬ ∀ symbol, weightOf weights symbol = 0 := by
      obtain ⟨symbol, _, hne⟩ := hpos.mp hvariance
      exact fun h => hne (h symbol)
    have hsymbols : (decomposedRisk model weights (root (portfolioVariance model weights))).contributions.map
        (fun contribution => contribution.symbol) = model.symbols := by
      rw [decomposedRisk, List.map_map]
      exact List.map_id _
    refine ⟨iff_of_false (fun h => ?_) hheld, iff_of_false hroot.ne' hheld, hsymbols,
      fun _ => sum_riskContributions hroot.ne' hsquare, fun _ => sum_riskShares hroot.ne' hsquare,
      fun _ => sum_clusterRiskShares hroot.ne' hsquare⟩
    exact hroot.ne' (congrArg PortfolioRisk.portfolioVolatilityRatio h)

/-- A cluster's members are in the universe. -/
theorem RiskModel.mem_symbols_of_mem_cluster {cluster : CorrelationCluster} (hcluster : cluster ∈ model.clusters)
    {symbol : String} (h : symbol ∈ cluster.symbols) : symbol ∈ model.symbols :=
  model.perm_clusters.subset (List.mem_flatMap.mpr ⟨cluster, hcluster, h⟩)

/-- A cluster's share is its members', signed, in either kind of book. -/
theorem bookRisk_clusterShare {cluster : CorrelationCluster} (hcluster : cluster ∈ model.clusters) :
    ((bookRisk model weights).clusterRiskShareRatio.get? cluster.clusterId).getD 0 =
      (cluster.symbols.map (shareIn (bookRisk model weights).contributions)).sum := by
  rw [bookRisk]
  split
  · have hget : (degenerateRisk model weights).clusterRiskShareRatio.get? cluster.clusterId = some 0 :=
      Dict.get?_indexBy (fun cluster : CorrelationCluster => cluster.clusterId) (fun _ => (0 : K))
        model.nodup_clusters hcluster
    rw [hget, Option.getD_some, eq_comm]
    refine List.sum_eq_zero fun share hshare => ?_
    obtain ⟨symbol, hsymbol, rfl⟩ := List.mem_map.mp hshare
    exact shareIn_map (fun _ => rfl) (model.mem_symbols_of_mem_cluster hcluster hsymbol)
  · have hentry : (cluster.clusterId, (cluster.symbols.map (shareIn
        (decomposedRisk model weights (root (portfolioVariance model weights))).contributions)).sum) ∈
          (decomposedRisk model weights (root (portfolioVariance model weights))).clusterRiskShareRatio.entries := by
      rw [show (decomposedRisk model weights (root (portfolioVariance model weights))).clusterRiskShareRatio =
        clusterShares model _ from rfl, entries_clusterShares]
      exact List.mem_map_of_mem hcluster
    rw [(Dict.get?_eq_some_iff _ _ _).mpr hentry, Option.getD_some]

omit [LinearOrder K] [Root K] in
/-- A contribution of a book that lists each symbol once reports that symbol's share. -/
theorem shareIn_of_mem {contributions : List (RiskContribution K)}
    (hnodup : (contributions.map fun contribution => contribution.symbol).Nodup) {contribution : RiskContribution K}
    (h : contribution ∈ contributions) : shareIn contributions contribution.symbol = contribution.riskShareRatio := by
  rw [shareIn]
  cases hsearch : contributions.find? fun other => other.symbol = contribution.symbol with
  | none => exact absurd (decide_eq_true rfl) (List.find?_eq_none.mp hsearch contribution h)
  | some other =>
    have hsame : other.symbol = contribution.symbol := by simpa using List.find?_some hsearch
    rw [List.inj_on_of_nodup_map hnodup (List.mem_of_find?_eq_some hsearch) h hsame, Option.elim_some]

omit [Root K] in
theorem mem_weightedSymbols {symbol : String} :
    symbol ∈ weightedSymbols weights ↔ weightOf weights symbol ≠ 0 := by
  rw [weightedSymbols, List.mem_map, weightOf]
  constructor
  · rintro ⟨⟨_, weight⟩, hentry, rfl⟩
    obtain ⟨hmem, hweight⟩ := List.mem_filter.mp hentry
    rw [(Dict.get?_eq_some_iff _ _ _).mpr hmem]
    exact of_decide_eq_true hweight
  · intro h
    cases hget : weights.get? symbol with
    | none =>
      rw [hget] at h
      exact absurd rfl h
    | some weight =>
      rw [hget] at h
      exact ⟨(symbol, weight), List.mem_filter.mpr ⟨(Dict.get?_eq_some_iff _ _ _).mp hget, decide_eq_true h⟩,
        rfl⟩

/-- The rows of an assessment are one for each held symbol and for each cluster with one. -/
theorem mem_shareRows_iff (hcovered : ∀ symbol ∈ weights.keys, symbol ∈ model.symbols) {maxAsset maxCluster : K}
    (hsymbols : (bookRisk model weights).contributions.map (fun contribution => contribution.symbol) = model.symbols)
    {row : ShareRow K} :
    row ∈ shareRows (bookRisk model weights) (weightedSymbols weights) model.clusters maxAsset maxCluster ↔
      IsHeldRow model weights maxAsset maxCluster (bookRisk model weights) row := by
  have hnodup : ((bookRisk model weights).contributions.map fun contribution => contribution.symbol).Nodup :=
    hsymbols ▸ model.nodup_symbols
  rw [shareRows, List.mem_append, IsHeldRow]
  refine or_congr ⟨?_, ?_⟩ ⟨?_, ?_⟩
  · intro hrow
    obtain ⟨contribution, hcontribution, rfl⟩ := List.mem_map.mp hrow
    obtain ⟨hmem, hheld⟩ := List.mem_filter.mp hcontribution
    refine ⟨contribution.symbol, mem_weightedSymbols.mp (of_decide_eq_true hheld), ?_⟩
    rw [shareIn_of_mem hnodup hmem]
  · rintro ⟨symbol, hheld, rfl⟩
    have hsymbol : symbol ∈ (bookRisk model weights).contributions.map fun contribution => contribution.symbol :=
      hsymbols ▸ hcovered symbol (mem_keys_of_weightOf hheld)
    obtain ⟨contribution, hmem, rfl⟩ := List.mem_map.mp hsymbol
    rw [shareIn_of_mem hnodup hmem]
    exact List.mem_map_of_mem (List.mem_filter.mpr ⟨hmem, decide_eq_true (mem_weightedSymbols.mpr hheld)⟩)
  · intro hrow
    obtain ⟨cluster, hcluster, rfl⟩ := List.mem_map.mp hrow
    obtain ⟨hmem, hheld⟩ := List.mem_filter.mp hcluster
    obtain ⟨symbol, hsymbol, hweight⟩ := List.any_eq_true.mp hheld
    refine ⟨cluster, hmem, ⟨symbol, hsymbol, mem_weightedSymbols.mp (of_decide_eq_true hweight)⟩, ?_⟩
    rw [bookRisk_clusterShare hmem]
  · rintro ⟨cluster, hcluster, ⟨symbol, hsymbol, hheld⟩, rfl⟩
    rw [← bookRisk_clusterShare hcluster]
    refine List.mem_map_of_mem (List.mem_filter.mpr ⟨hcluster, ?_⟩)
    exact List.any_eq_true.mpr ⟨symbol, hsymbol, decide_eq_true (mem_weightedSymbols.mpr hheld)⟩

end

/-! ### The verdict -/

/-- A verdict that refuses a book exactly over a limit, and by its worst breach. -/
structure DecidesShares (model : RiskModel K) (weights : Dict String K) (maxAsset maxCluster : K)
    (verdict : ShareAssessment K) : Prop where
  rows : ∀ row, row ∈ verdict.rows ↔ IsHeldRow model weights maxAsset maxCluster verdict.risk row
  approves_iff : verdict.binding = none ↔ WithinShareLimits model weights maxAsset maxCluster verdict.risk
  worst : ∀ row, verdict.binding = some row → IsWorstBreach verdict.rows row

/-- A verdict on the same book at another scale: the volatility moves with it, and nothing else. -/
structure SameVerdict (factor : K) (verdict other : ShareAssessment K) : Prop where
  volatility : other.risk.portfolioVolatilityRatio = factor * verdict.risk.portfolioVolatilityRatio
  shares : SameShares other.risk verdict.risk
  rows : other.rows = verdict.rows
  binding : other.binding = verdict.binding

section

variable {model : RiskModel K} {weights : Dict String K}

/-- The verdict on a book over the universe. -/
def bookVerdict (model : RiskModel K) (weights : Dict String K) (maxAsset maxCluster : K) : ShareAssessment K :=
  let rows := shareRows (bookRisk model weights) (weightedSymbols weights) model.clusters maxAsset maxCluster
  ⟨bookRisk model weights, rows, worstShare rows⟩

theorem assessShares_eq_ok (hcovered : ∀ symbol ∈ weights.keys, symbol ∈ model.symbols) (maxAsset maxCluster : K) :
    assessShares weights model maxAsset maxCluster = .ok (bookVerdict model weights maxAsset maxCluster) := by
  rw [assessShares, portfolioRisk_eq_ok_iff.mpr ⟨hcovered, rfl⟩]
  rfl

variable [IsStrictOrderedRing K]

theorem bookVerdict_decides [ExactRoot K] (hcovered : ∀ symbol ∈ weights.keys, symbol ∈ model.symbols)
    (maxAsset maxCluster : K) :
    DecidesShares model weights maxAsset maxCluster (bookVerdict model weights maxAsset maxCluster) := by
  have hrows : ∀ row, row ∈ (bookVerdict model weights maxAsset maxCluster).rows ↔ _ :=
    fun _ => mem_shareRows_iff hcovered (bookRisk_partitions hcovered).symbols
  have hworst := worstShare_spec (bookVerdict model weights maxAsset maxCluster).rows
  refine ⟨hrows, worstShare_eq_none_iff.trans ?_, fun row hrow => ?_⟩
  · simp only [← Bool.not_eq_true, ShareRow.isBreached_iff, not_lt]
    constructor
    · intro h
      exact ⟨fun symbol hheld => h _ ((hrows _).mpr (.inl ⟨symbol, hheld, rfl⟩)),
        fun cluster hcluster hheld => h _ ((hrows _).mpr (.inr ⟨cluster, hcluster, hheld, rfl⟩))⟩
    · rintro ⟨hassets, hclusters⟩ row hrow
      rcases (hrows row).mp hrow with ⟨symbol, hheld, rfl⟩ | ⟨cluster, hcluster, hheld, rfl⟩
      · exact hassets symbol hheld
      · exact hclusters cluster hcluster hheld
  · have hbinding : worstShare (bookVerdict model weights maxAsset maxCluster).rows = some row := hrow
    rw [hbinding] at hworst
    exact hworst

theorem bookVerdict_scaled [ExactRoot K] {factor : K} (hfactor : 0 < factor) (maxAsset maxCluster : K) :
    SameVerdict factor (bookVerdict model weights maxAsset maxCluster)
      (bookVerdict model (scaled factor weights) maxAsset maxCluster) := by
  obtain ⟨hvolatility, hshares⟩ := bookRisk_scaled hfactor model weights
  have hrows : (bookVerdict model (scaled factor weights) maxAsset maxCluster).rows =
      (bookVerdict model weights maxAsset maxCluster).rows := by
    change shareRows _ _ _ _ _ = shareRows _ _ _ _ _
    rw [weightedSymbols_scaled hfactor.ne', hshares.shareRows_eq]
  exact ⟨hvolatility, hshares, hrows, congrArg worstShare hrows⟩

end

end

/-! ### Over the reals -/

/-- In exact arithmetic the stage decomposes the risk of a book over the universe without remainder, decides it
    at its limits, and decides alike at every scale. -/
theorem exactConcentration_partitions (model : RiskModel ℝ) (weights : Dict String ℝ)
    (hcovered : ∀ symbol ∈ weights.keys, symbol ∈ model.symbols) (limits : ConcentrationLimits) :
    ∃ verdict, assessShares weights model limits.maxAssetRiskShareRatio limits.maxClusterRiskShareRatio =
        .ok verdict ∧
      PartitionsRisk model weights verdict.risk ∧
      DecidesShares model weights limits.maxAssetRiskShareRatio limits.maxClusterRiskShareRatio verdict ∧
      ∀ factor, 0 < factor → ∃ other,
        assessShares (scaled factor weights) model limits.maxAssetRiskShareRatio
          limits.maxClusterRiskShareRatio = .ok other ∧ SameVerdict factor verdict other := by
  refine ⟨_, assessShares_eq_ok hcovered _ _, bookRisk_partitions hcovered, bookVerdict_decides hcovered _ _,
    fun factor hfactor => ⟨_, assessShares_eq_ok ?_ _ _, bookVerdict_scaled hfactor _ _⟩⟩
  rw [scaled, Dict.keys_mapValues]
  exact hcovered

/-- The correlations of a universe of one symbol. -/
def soloCorrelationFields : CorrelationMatrixFields ℝ where
  symbols := ["BTCUSDT"]
  entries := Dict.empty.set "BTCUSDT" (Dict.empty.set "BTCUSDT" 1)

theorem soloCorrelationFields_checked : soloCorrelationFields.postInit = .ok () := by
  rw [CorrelationMatrixFields.postInit_eq_ok]
  refine ⟨List.cons_ne_nil _ _, rfl, List.nodup_singleton _, fun symbolA hA symbolB hB => ?_⟩
  obtain rfl := List.mem_singleton.mp hA
  obtain rfl := List.mem_singleton.mp hB
  exact ⟨1, rfl, abs_one.le, fun _ => rfl, rfl⟩

def soloCorrelations : CorrelationMatrix ℝ := ⟨soloCorrelationFields, soloCorrelationFields_checked⟩

theorem soloCluster_checked : (⟨"BTCUSDT", ["BTCUSDT"]⟩ : CorrelationClusterFields).postInit = .ok () := by
  with_unfolding_all decide

noncomputable def soloModelFields : RiskModelFields ℝ where
  symbols := ["BTCUSDT"]
  dailyVolatilityRatio := Dict.empty.set "BTCUSDT" 0.03
  correlations := soloCorrelations
  shrinkageIntensityRatio := 0
  psdRepairRatio := 0
  clusters := [⟨_, soloCluster_checked⟩]

theorem soloModelFields_checked : soloModelFields.postInit = .ok () := by
  rw [RiskModelFields.postInit_eq_ok]
  refine ⟨rfl, fun symbol hsymbol => ?_, rfl, ?_⟩
  · obtain rfl := List.mem_singleton.mp hsymbol
    exact ⟨0.03, rfl, by norm_num⟩
  · have hrows : soloModelFields.correlations.rows = [[(1 : ℝ)]] := rfl
    rw [hrows]
    simp [isPositiveDefinite, choleskyStep, choleskyPivot, choleskyRow]

/-- A universe of one symbol. -/
noncomputable def soloModel : RiskModel ℝ := ⟨soloModelFields, soloModelFields_checked⟩

/-- A short of half the equity in the only symbol carries all of the risk. -/
theorem exactConcentration_partitions_soloModel :
    ∃ verdict, assessShares (Dict.empty.set "BTCUSDT" (-1 / 2)) soloModel
        defaultConcentrationLimits.maxAssetRiskShareRatio defaultConcentrationLimits.maxClusterRiskShareRatio =
        .ok verdict ∧
      PartitionsRisk soloModel (Dict.empty.set "BTCUSDT" (-1 / 2)) verdict.risk := by
  obtain ⟨verdict, hok, hpartition, _⟩ := exactConcentration_partitions soloModel
    (Dict.empty.set "BTCUSDT" (-1 / 2)) (by
      intro symbol hsymbol
      obtain rfl := List.mem_singleton.mp hsymbol
      exact List.mem_singleton_self _) defaultConcentrationLimits
  exact ⟨verdict, hok, hpartition⟩

end FinanceKing.Risk
