import FinanceKing.Lib.Herfindahl
import FinanceKing.Risk.RiskPartition

/-! The concentration index of a book: the Herfindahl index of the magnitudes of its clusters' risk shares. It
    is bounded by one over their number and one; joining two clusters can lower it, where they hedge. -/

namespace FinanceKing.Risk

open Lib

section

variable {K : Type} [Field K] [LinearOrder K]

variable (K) in
omit [Field K] [LinearOrder K] in
/-- The index, and how many clusters carry weight. -/
structure ConcentrationEstimate where
  herfindahlRatio : K
  sampleSize : ℕ
  deriving DecidableEq

/-- The shares that are not zero, unsigned. -/
def shareMagnitudes (portfolio : PortfolioRisk K) : List K :=
  (portfolio.clusterRiskShareRatio.values.filter fun share => share ≠ 0).map fun share => |share|

def concentrationHerfindahl (portfolio : PortfolioRisk K) : ConcentrationEstimate K :=
  if shareMagnitudes portfolio = [] then ⟨0, 0⟩
  else ⟨((shareMagnitudes portfolio).map fun magnitude => (magnitude / (shareMagnitudes portfolio).sum) ^ 2).sum,
    (shareMagnitudes portfolio).length⟩

/-- A cluster's share. -/
def clusterShare (portfolio : PortfolioRisk K) (clusterId : String) : K :=
  (portfolio.clusterRiskShareRatio.get? clusterId).getD 0

/-- The same shares with one cluster joined to another: their signed shares added. -/
def joinClusters (portfolio : PortfolioRisk K) (first second : String) : PortfolioRisk K where
  portfolioVolatilityRatio := portfolio.portfolioVolatilityRatio
  contributions := portfolio.contributions
  clusterRiskShareRatio := (portfolio.clusterRiskShareRatio.erase second).set first
    (clusterShare portfolio first + clusterShare portfolio second)

/-- The shares of the other clusters. -/
def otherShares (portfolio : PortfolioRisk K) (first second : String) : List K :=
  ((portfolio.clusterRiskShareRatio.erase second).erase first).values

/-! ### Totals -/

theorem sum_filter_ne_zero {f : K → K} (hzero : f 0 = 0) (l : List K) :
    ((l.filter fun share => share ≠ 0).map f).sum = (l.map f).sum := by
  induction l with
  | nil => rfl
  | cons share l ih =>
    rw [List.filter_cons]
    split
    · rw [List.map_cons, List.map_cons, List.sum_cons, List.sum_cons, ih]
    · next hshare =>
      obtain rfl : share = 0 := by simpa using hshare
      rw [List.map_cons, List.sum_cons, hzero, zero_add, ih]

variable [IsStrictOrderedRing K]

theorem sum_shareMagnitudes (portfolio : PortfolioRisk K) : (shareMagnitudes portfolio).sum =
    (portfolio.clusterRiskShareRatio.values.map fun share => |share|).sum :=
  sum_filter_ne_zero abs_zero _

omit [IsStrictOrderedRing K] in
theorem squareSum_shareMagnitudes (portfolio : PortfolioRisk K) : squareSum (shareMagnitudes portfolio) =
    (portfolio.clusterRiskShareRatio.values.map fun share => share ^ 2).sum := by
  rw [squareSum, shareMagnitudes, List.map_map]
  simp only [Function.comp_def, sq_abs]
  exact sum_filter_ne_zero (zero_pow two_ne_zero) _

/-- The index is the sum of the squares over the square of the sum. -/
theorem herfindahlRatio_eq (portfolio : PortfolioRisk K) :
    (concentrationHerfindahl portfolio).herfindahlRatio =
      (portfolio.clusterRiskShareRatio.values.map fun share => share ^ 2).sum /
        (portfolio.clusterRiskShareRatio.values.map fun share => |share|).sum ^ 2 := by
  rw [← squareSum_shareMagnitudes, ← sum_shareMagnitudes, ← herfindahl_eq_div, concentrationHerfindahl]
  split
  · next hempty =>
    rw [hempty]
    rfl
  · rfl

section

variable {portfolio : PortfolioRisk K} {first second : String} {shareFirst shareSecond : K}

omit [LinearOrder K] [IsStrictOrderedRing K] in
/-- What two clusters carry of a total, and what the others do. -/
theorem sum_values_eq (f : K → K) (hne : first ≠ second)
    (hfirst : portfolio.clusterRiskShareRatio.get? first = some shareFirst)
    (hsecond : portfolio.clusterRiskShareRatio.get? second = some shareSecond) :
    (portfolio.clusterRiskShareRatio.values.map f).sum =
      ((otherShares portfolio first second).map f).sum + f shareFirst + f shareSecond := by
  have hkept : (portfolio.clusterRiskShareRatio.erase second).get? first = some shareFirst := by
    rw [Dict.get?_erase, if_neg hne, hfirst]
  rw [((Dict.perm_values_erase hsecond).map f).sum_eq, List.map_cons, List.sum_cons,
    ((Dict.perm_values_erase hkept).map f).sum_eq, List.map_cons, List.sum_cons, otherShares]
  ring

omit [LinearOrder K] [IsStrictOrderedRing K] in
/-- What the joined cluster carries of a total. -/
theorem sum_values_joined (f : K → K) (hne : first ≠ second)
    (hfirst : portfolio.clusterRiskShareRatio.get? first = some shareFirst)
    (hsecond : portfolio.clusterRiskShareRatio.get? second = some shareSecond) :
    ((joinClusters portfolio first second).clusterRiskShareRatio.values.map f).sum =
      ((otherShares portfolio first second).map f).sum + f (shareFirst + shareSecond) := by
  have hkept : (portfolio.clusterRiskShareRatio.erase second).get? first = some shareFirst := by
    rw [Dict.get?_erase, if_neg hne, hfirst]
  rw [joinClusters, Dict.sum_values_set, hkept, Option.elim_some,
    ((Dict.perm_values_erase hkept).map f).sum_eq, List.map_cons, List.sum_cons, otherShares, clusterShare,
    clusterShare, hfirst, hsecond, Option.getD_some, Option.getD_some]
  ring

end

theorem shareMagnitudes_pos (portfolio : PortfolioRisk K) :
    ∀ magnitude ∈ shareMagnitudes portfolio, 0 < magnitude := by
  intro magnitude hmagnitude
  obtain ⟨share, hshare, rfl⟩ := List.mem_map.mp hmagnitude
  exact abs_pos.mpr (of_decide_eq_true (List.mem_filter.mp hshare).2)

theorem abs_sum_le (l : List K) : |l.sum| ≤ (l.map fun x => |x|).sum := by
  induction l with
  | nil => simp
  | cons x l ih =>
    rw [List.sum_cons, List.map_cons, List.sum_cons]
    exact (abs_add_le x l.sum).trans (add_le_add_right ih _)

/-! ### Bounds -/

/-- The index within one over the number of clusters and one, and where it meets either. -/
structure IndexBounded (portfolio : PortfolioRisk K) : Prop where
  sampleSize_eq : (concentrationHerfindahl portfolio).sampleSize =
    (portfolio.clusterRiskShareRatio.values.filter fun share => share ≠ 0).length
  sampleSize_pos : 0 < (concentrationHerfindahl portfolio).sampleSize
  lower : 1 / (concentrationHerfindahl portfolio).sampleSize ≤ (concentrationHerfindahl portfolio).herfindahlRatio
  upper : (concentrationHerfindahl portfolio).herfindahlRatio ≤ 1
  lower_iff : (concentrationHerfindahl portfolio).herfindahlRatio =
    1 / (concentrationHerfindahl portfolio).sampleSize ↔
      ∀ share ∈ portfolio.clusterRiskShareRatio.values, share ≠ 0 →
        ∀ other ∈ portfolio.clusterRiskShareRatio.values, other ≠ 0 → |share| = |other|
  upper_iff : (concentrationHerfindahl portfolio).herfindahlRatio = 1 ↔
    (concentrationHerfindahl portfolio).sampleSize = 1

/-- Shares that sum to one have a bounded index. -/
theorem indexBounded (portfolio : PortfolioRisk K) (h : portfolio.clusterRiskShareRatio.values.sum = 1) :
    IndexBounded portfolio := by
  have hsum : 0 < (shareMagnitudes portfolio).sum := by
    rw [sum_shareMagnitudes]
    refine lt_of_lt_of_le zero_lt_one ?_
    rw [← abs_one, ← h]
    exact abs_sum_le _
  have hne : shareMagnitudes portfolio ≠ [] := by
    intro hempty
    rw [hempty] at hsum
    exact lt_irrefl _ hsum
  have hpos := shareMagnitudes_pos portfolio
  have hestimate : concentrationHerfindahl portfolio =
      ⟨herfindahl (shareMagnitudes portfolio), (shareMagnitudes portfolio).length⟩ := by
    rw [concentrationHerfindahl, if_neg hne]
    rfl
  have hequal : (∀ magnitude ∈ shareMagnitudes portfolio, ∀ other ∈ shareMagnitudes portfolio, magnitude = other) ↔
      ∀ share ∈ portfolio.clusterRiskShareRatio.values, share ≠ 0 →
        ∀ other ∈ portfolio.clusterRiskShareRatio.values, other ≠ 0 → |share| = |other| := by
    simp only [shareMagnitudes, List.forall_mem_map, List.mem_filter, decide_eq_true_eq, and_imp]
  constructor <;> rw [hestimate]
  · exact List.length_map _
  · exact List.length_pos_iff.mpr hne
  · exact one_div_length_le_herfindahl hne hsum
  · exact herfindahl_le_one hpos
  · rw [← hequal]
    exact herfindahl_eq_one_div_length_iff hne hsum
  · exact herfindahl_eq_one_iff hne hpos

/-! ### Joining two clusters -/

/-- Where joining two clusters keeps the index from falling: their shares do not have opposite signs, or the
    larger is small enough beside the squares of all. -/
def KeepsIndex (portfolio : PortfolioRisk K) (first second : String) : Prop :=
  JoinKeeps ((otherShares portfolio first second).map fun share => |share|).sum
    ((otherShares portfolio first second).map fun share => share ^ 2).sum (clusterShare portfolio first)
    (clusterShare portfolio second)

/-- Of shares that sum to one, joining two lowers the index exactly where they hedge too much. -/
theorem joinClusters_index_iff {portfolio : PortfolioRisk K} (h : portfolio.clusterRiskShareRatio.values.sum = 1)
    {first second : String} (hne : first ≠ second)
    (hfirst : (portfolio.clusterRiskShareRatio.get? first).isSome)
    (hsecond : (portfolio.clusterRiskShareRatio.get? second).isSome) :
    (concentrationHerfindahl portfolio).herfindahlRatio ≤
        (concentrationHerfindahl (joinClusters portfolio first second)).herfindahlRatio ↔
      KeepsIndex portfolio first second := by
  obtain ⟨shareFirst, hfirst⟩ := Option.isSome_iff_exists.mp hfirst
  obtain ⟨shareSecond, hsecond⟩ := Option.isSome_iff_exists.mp hsecond
  have hsum := sum_values_joined id hne hfirst hsecond
  have hwhole := sum_values_eq id hne hfirst hsecond
  rw [List.map_id, List.map_id] at hwhole hsum
  have hone : (joinClusters portfolio first second).clusterRiskShareRatio.values.sum = 1 := by
    rw [hsum, ← h, hwhole, id_eq, id_eq, id_eq, add_assoc]
  have hleft : 0 < ((otherShares portfolio first second).map fun share => |share|).sum + |shareFirst + shareSecond| := by
    rw [← sum_values_joined (fun share => |share|) hne hfirst hsecond]
    refine lt_of_lt_of_le zero_lt_one ?_
    rw [← abs_one, ← hone]
    exact abs_sum_le _
  rw [herfindahlRatio_eq, herfindahlRatio_eq, sum_values_eq _ hne hfirst hsecond,
    sum_values_eq _ hne hfirst hsecond, sum_values_joined _ hne hfirst hsecond,
    sum_values_joined _ hne hfirst hsecond, KeepsIndex, clusterShare, clusterShare, hfirst, hsecond,
    Option.getD_some, Option.getD_some]
  exact join_le_iff hleft

end

/-! ### Over the reals -/

/-- The cluster shares of a book that holds anything sum to one. -/
theorem sum_clusterShares_of_portfolioRisk {model : RiskModel ℝ} {weights : Dict String ℝ} {risk : PortfolioRisk ℝ}
    (h : portfolioRisk weights model = .ok risk) (hheld : ∃ symbol, weightOf weights symbol ≠ 0) :
    risk.clusterRiskShareRatio.values.sum = 1 := by
  obtain ⟨hcovered, rfl⟩ := portfolioRisk_eq_ok_iff.mp h
  obtain ⟨symbol, hne⟩ := hheld
  have hvariance : 0 < portfolioVariance model weights :=
    portfolioVariance_pos_iff.mpr ⟨symbol, hcovered symbol (mem_keys_of_weightOf hne), hne⟩
  rw [bookRisk, if_neg hvariance.not_ge]
  exact sum_clusterRiskShares (root_pos_of_exact hvariance).ne' (ExactRoot.root_mul_self hvariance.le)

/-- The index of a book that holds anything is bounded, and joining two of its clusters lowers it exactly where
    their shares hedge too much. -/
theorem concentrationHerfindahl_join_iff {model : RiskModel ℝ} {weights : Dict String ℝ} {risk : PortfolioRisk ℝ}
    (h : portfolioRisk weights model = .ok risk) (hheld : ∃ symbol, weightOf weights symbol ≠ 0) :
    IndexBounded risk ∧ ∀ first second, first ≠ second → (risk.clusterRiskShareRatio.get? first).isSome →
      (risk.clusterRiskShareRatio.get? second).isSome →
        ((concentrationHerfindahl risk).herfindahlRatio ≤
            (concentrationHerfindahl (joinClusters risk first second)).herfindahlRatio ↔
          KeepsIndex risk first second) :=
  have hsum := sum_clusterShares_of_portfolioRisk h hheld
  ⟨indexBounded risk hsum, fun _ _ hne hfirst hsecond => joinClusters_index_iff hsum hne hfirst hsecond⟩

/-! ### A hedged pair among small positions -/

/-- A matrix read off a function of two symbols. -/
noncomputable def correlationsOf (symbols : List String) (rho : String → String → ℝ) : CorrelationMatrixFields ℝ where
  symbols := symbols
  entries := Dict.indexBy id (fun symbolA => Dict.indexBy id (rho symbolA) symbols) symbols

theorem lookup_correlationsOf {symbols : List String} (hnodup : symbols.Nodup) (rho : String → String → ℝ)
    {symbolA symbolB : String} (hA : symbolA ∈ symbols) (hB : symbolB ∈ symbols) :
    (correlationsOf symbols rho).lookup symbolA symbolB = some (rho symbolA symbolB) := by
  have hkeys : (symbols.map id).Nodup := (List.map_id symbols).symm ▸ hnodup
  have hrow : (correlationsOf symbols rho).entries.get? symbolA = some (Dict.indexBy id (rho symbolA) symbols) :=
    Dict.get?_indexBy id (fun symbolA => Dict.indexBy id (rho symbolA) symbols) hkeys hA
  rw [CorrelationMatrixFields.lookup, hrow, Option.bind_some]
  exact Dict.get?_indexBy id (rho symbolA) hkeys hB

/-- A function within the unit interval, one on the diagonal and symmetric, gives a matrix. -/
theorem correlationsOf_checked {symbols : List String} {rho : String → String → ℝ} (hne : symbols ≠ [])
    (hsorted : sortBy id symbols = symbols) (hnodup : symbols.Nodup) (hbound : ∀ a b, |rho a b| ≤ 1)
    (hdiagonal : ∀ a, rho a a = 1) (hsymmetric : ∀ a b, rho b a = rho a b) :
    (correlationsOf symbols rho).postInit = .ok () := by
  rw [CorrelationMatrixFields.postInit_eq_ok]
  refine ⟨hne, hsorted, hnodup, fun symbolA hA symbolB hB => ?_⟩
  refine ⟨rho symbolA symbolB, lookup_correlationsOf hnodup rho hA hB, hbound _ _, ?_, ?_⟩
  · rintro rfl
    exact hdiagonal _
  · rw [lookup_correlationsOf hnodup rho hB hA, hsymmetric]

theorem singletonCluster_checked (symbol : String) :
    (⟨symbol, [symbol]⟩ : CorrelationClusterFields).postInit = .ok () := by
  simp [CorrelationClusterFields.postInit, sortBy]

/-- A cluster of one symbol. -/
def singletonCluster (symbol : String) : CorrelationCluster := ⟨⟨symbol, [symbol]⟩, singletonCluster_checked symbol⟩

def hedgedSymbols : List String := ["ADAUSDT", "BTCUSDT", "ETHUSDT", "SOLUSDT", "XRPUSDT"]

/-- Two symbols that nearly move together, and three that move alone. -/
noncomputable def hedgedCorrelation (symbolA symbolB : String) : ℝ :=
  if symbolA = symbolB then 1
  else if symbolA ∈ ["BTCUSDT", "ETHUSDT"] ∧ symbolB ∈ ["BTCUSDT", "ETHUSDT"] then 24 / 25
  else 0

theorem hedgedSymbols_sorted : sortBy id hedgedSymbols = hedgedSymbols ∧ hedgedSymbols.Nodup := by
  with_unfolding_all decide

theorem hedgedCorrelations_checked : (correlationsOf hedgedSymbols hedgedCorrelation).postInit = .ok () := by
  refine correlationsOf_checked (List.cons_ne_nil _ _) hedgedSymbols_sorted.1 hedgedSymbols_sorted.2
    (fun a b => ?_) (fun a => if_pos rfl) fun a b => ?_
  · rw [hedgedCorrelation]
    split
    · norm_num
    · split <;> norm_num [abs_of_pos]
  · rw [hedgedCorrelation, hedgedCorrelation]
    simp only [eq_comm (a := b), and_comm]

noncomputable def hedgedCorrelations : CorrelationMatrix ℝ := ⟨_, hedgedCorrelations_checked⟩

noncomputable def hedgedModelFields : RiskModelFields ℝ where
  symbols := hedgedSymbols
  dailyVolatilityRatio := Dict.indexBy id (fun _ => 1) hedgedSymbols
  correlations := hedgedCorrelations
  shrinkageIntensityRatio := 0
  psdRepairRatio := 0
  clusters := hedgedSymbols.map singletonCluster

theorem hedgedCorrelations_entry {symbolA symbolB : String} (hA : symbolA ∈ hedgedSymbols)
    (hB : symbolB ∈ hedgedSymbols) :
    hedgedCorrelations.entry symbolA symbolB = hedgedCorrelation symbolA symbolB := by
  rw [CorrelationMatrix.entry]
  exact congrArg (fun entry => entry.getD 0)
    (lookup_correlationsOf hedgedSymbols_sorted.2 hedgedCorrelation hA hB)

theorem hedgedCorrelations_rows : hedgedCorrelations.rows =
    [[1, 0, 0, 0, 0], [0, 1, 24 / 25, 0, 0], [0, 24 / 25, 1, 0, 0], [0, 0, 0, 1, 0], [0, 0, 0, 0, 1]] := by
  have hrows : hedgedCorrelations.rows =
      hedgedSymbols.map fun symbolA => hedgedSymbols.map fun symbolB => hedgedCorrelation symbolA symbolB :=
    List.map_congr_left fun symbolA hA => List.map_congr_left fun symbolB hB => hedgedCorrelations_entry hA hB
  rw [hrows]
  simp [hedgedSymbols, hedgedCorrelation]

theorem hedgedModelFields_checked : hedgedModelFields.postInit = .ok () := by
  rw [RiskModelFields.postInit_eq_ok]
  refine ⟨rfl, fun symbol hsymbol => ⟨1, ?_, one_pos⟩, ?_, ?_⟩
  · exact Dict.get?_indexBy id (fun _ => (1 : ℝ)) (by with_unfolding_all decide) hsymbol
  · decide +kernel
  · rw [show hedgedModelFields.correlations = hedgedCorrelations from rfl, hedgedCorrelations_rows]
    have hroot : √(49 / 625 : ℝ) = 7 / 25 := by
      rw [Real.sqrt_eq_iff_mul_self_eq (by norm_num) (by norm_num)]
      norm_num
    norm_num [isPositiveDefinite, choleskyStep, choleskyPivot, choleskyRow, choleskyEntry, root_real, hroot]

/-- Five symbols of unit volatility, each its own cluster. -/
noncomputable def hedgedModel : RiskModel ℝ := ⟨hedgedModelFields, hedgedModelFields_checked⟩

/-- Long one of the pair, short three quarters of it in the other, and a fifth in each of the rest. -/
noncomputable def hedgedWeight (symbol : String) : ℝ :=
  if symbol = "BTCUSDT" then 1 else if symbol = "ETHUSDT" then -0.75 else 0.2

noncomputable def hedgedWeights : Dict String ℝ := Dict.indexBy id hedgedWeight hedgedSymbols

theorem hedgedSymbols_keys : (hedgedSymbols.map id).Nodup := by
  with_unfolding_all decide

theorem weightOf_hedgedWeights {symbol : String} (h : symbol ∈ hedgedSymbols) :
    weightOf hedgedWeights symbol = hedgedWeight symbol := by
  have hget : hedgedWeights.get? symbol = some (hedgedWeight symbol) :=
    Dict.get?_indexBy id hedgedWeight hedgedSymbols_keys h
  rw [weightOf, hget, Option.getD_some]

theorem covarianceBetween_hedgedModel {symbolA symbolB : String} (hA : symbolA ∈ hedgedSymbols)
    (hB : symbolB ∈ hedgedSymbols) :
    hedgedModel.covarianceBetween symbolA symbolB = hedgedCorrelation symbolA symbolB := by
  have hunit : ∀ symbol ∈ hedgedSymbols, hedgedModel.volatilityOf symbol = 1 := by
    intro symbol hsymbol
    have hget : hedgedModel.dailyVolatilityRatio.get? symbol = some 1 :=
      Dict.get?_indexBy id (fun _ => (1 : ℝ)) hedgedSymbols_keys hsymbol
    rw [RiskModel.volatilityOf, hget, Option.getD_some]
  rw [RiskModel.covarianceBetween, hunit _ hA, hunit _ hB, one_mul, one_mul]
  exact hedgedCorrelations_entry hA hB

theorem covarianceWeighted_hedged {symbol : String} (h : symbol ∈ hedgedSymbols) :
    covarianceWeighted hedgedModel hedgedWeights symbol =
      (hedgedSymbols.map fun other => hedgedCorrelation symbol other * hedgedWeight other).sum := by
  refine congrArg List.sum (List.map_congr_left fun other hother => ?_)
  rw [covarianceBetween_hedgedModel h hother, weightOf_hedgedWeights hother]

/-- A symbol's part of the variance. -/
noncomputable def hedgedTerm (symbol : String) : ℝ :=
  hedgedWeight symbol * (hedgedSymbols.map fun other => hedgedCorrelation symbol other * hedgedWeight other).sum

theorem hedgedTerm_values : hedgedSymbols.map hedgedTerm = [1 / 25, 7 / 25, -63 / 400, 1 / 25, 1 / 25] := by
  simp only [hedgedTerm, hedgedSymbols, hedgedCorrelation, hedgedWeight, List.map_cons, List.map_nil, List.mem_cons,
    List.not_mem_nil, String.reduceEq, if_true, if_false, or_false, or_true, and_false, and_true, or_self,
    List.sum_cons, List.sum_nil]
  norm_num

theorem portfolioVariance_hedged : portfolioVariance hedgedModel hedgedWeights = 97 / 400 := by
  have hterms : portfolioVariance hedgedModel hedgedWeights = (hedgedSymbols.map hedgedTerm).sum :=
    congrArg List.sum (List.map_congr_left fun symbol hsymbol => by
      rw [covarianceWeighted_hedged hsymbol, weightOf_hedgedWeights hsymbol, hedgedTerm])
  rw [hterms, hedgedTerm_values]
  norm_num

/-- The shares: the pair's are large and opposite. -/
theorem bookRisk_hedged_values : (bookRisk hedgedModel hedgedWeights).clusterRiskShareRatio.entries =
    [("ADAUSDT", 16 / 97), ("BTCUSDT", 112 / 97), ("ETHUSDT", -63 / 97), ("SOLUSDT", 16 / 97),
      ("XRPUSDT", 16 / 97)] := by
  have hpos : (0 : ℝ) < 97 / 400 := by norm_num
  have hshare : ∀ symbol ∈ hedgedSymbols, shareIn (decomposedRisk hedgedModel hedgedWeights
      (root (97 / 400))).contributions symbol = hedgedTerm symbol / (97 / 400) := by
    intro symbol hsymbol
    have hsame : shareIn (decomposedRisk hedgedModel hedgedWeights (root (97 / 400))).contributions symbol = _ :=
      shareIn_map (fun _ => rfl) hsymbol
    rw [hsame, weightOf_hedgedWeights hsymbol, covarianceWeighted_hedged hsymbol, hedgedTerm]
    simp only [contributionFor]
    rw [← mul_div_assoc, div_div, ExactRoot.root_mul_self hpos.le]
  have hentries : (clusterShares hedgedModel (decomposedRisk hedgedModel hedgedWeights
      (root (97 / 400))).contributions).entries =
        hedgedSymbols.map fun symbol => (symbol, hedgedTerm symbol / (97 / 400)) := by
    rw [entries_clusterShares]
    change List.map _ (hedgedSymbols.map singletonCluster) = _
    rw [List.map_map]
    refine List.map_congr_left fun symbol hsymbol => ?_
    exact congrArg (Prod.mk symbol) (List.sum_singleton.trans (hshare symbol hsymbol))
  rw [bookRisk, portfolioVariance_hedged, if_neg hpos.not_ge]
  refine hentries.trans ?_
  have hvalues := hedgedTerm_values
  simp only [hedgedSymbols, List.map_cons, List.map_nil, List.cons.injEq] at hvalues ⊢
  obtain ⟨hada, hbtc, heth, hsol, hxrp, _⟩ := hvalues
  rw [hada, hbtc, heth, hsol, hxrp]
  norm_num

theorem portfolioRisk_hedged :
    portfolioRisk hedgedWeights hedgedModel = .ok (bookRisk hedgedModel hedgedWeights) := by
  refine portfolioRisk_eq_ok_iff.mpr ⟨fun symbol hsymbol => ?_, rfl⟩
  have hkeys : hedgedWeights.keys = hedgedSymbols := by
    rw [Dict.keys, hedgedWeights, Dict.entries_indexBy id hedgedWeight hedgedSymbols_keys, List.map_map]
    exact List.map_id _
  rw [hkeys] at hsymbol
  exact hsymbol

/-- Joining the hedged pair of a book that holds it lowers the index. -/
theorem joining_a_hedged_pair_lowers_the_index :
    ∃ risk, portfolioRisk hedgedWeights hedgedModel = .ok risk ∧ (∃ symbol, weightOf hedgedWeights symbol ≠ 0) ∧
      risk.clusterRiskShareRatio.get? "BTCUSDT" = some (112 / 97) ∧
      risk.clusterRiskShareRatio.get? "ETHUSDT" = some (-63 / 97) ∧
      (concentrationHerfindahl risk).herfindahlRatio = 17281 / 49729 ∧
      (concentrationHerfindahl (joinClusters risk "BTCUSDT" "ETHUSDT")).herfindahlRatio = 3169 / 9409 ∧
      (3169 / 9409 : ℝ) < 17281 / 49729 := by
  have hvalues := bookRisk_hedged_values
  have hfirst : (bookRisk hedgedModel hedgedWeights).clusterRiskShareRatio.get? "BTCUSDT" = some (112 / 97) := by
    rw [Dict.get?_eq_some_iff, hvalues]
    simp
  have hsecond : (bookRisk hedgedModel hedgedWeights).clusterRiskShareRatio.get? "ETHUSDT" = some (-63 / 97) := by
    rw [Dict.get?_eq_some_iff, hvalues]
    simp
  have hne : "BTCUSDT" ≠ "ETHUSDT" := by decide
  refine ⟨_, portfolioRisk_hedged, ⟨"BTCUSDT", ?_⟩, hfirst, hsecond, ?_, ?_, by norm_num⟩
  · rw [weightOf_hedgedWeights (by decide)]
    norm_num [hedgedWeight]
  · rw [herfindahlRatio_eq, Dict.values, hvalues]
    norm_num
  · rw [herfindahlRatio_eq, sum_values_joined _ hne hfirst hsecond, sum_values_joined _ hne hfirst hsecond]
    have hsquares := sum_values_eq (fun share => share ^ 2) hne hfirst hsecond
    have hmagnitudes := sum_values_eq (fun share => |share|) hne hfirst hsecond
    rw [Dict.values, hvalues] at hsquares hmagnitudes
    norm_num at hsquares hmagnitudes
    have hotherSquares : ((otherShares (bookRisk hedgedModel hedgedWeights) "BTCUSDT" "ETHUSDT").map
        fun share => share ^ 2).sum = 768 / 9409 := by
      linarith
    have hotherMagnitudes : ((otherShares (bookRisk hedgedModel hedgedWeights) "BTCUSDT" "ETHUSDT").map
        fun share => |share|).sum = 48 / 97 := by
      linarith
    rw [hotherSquares, hotherMagnitudes]
    norm_num

/-- The bound and the equivalence on that book. -/
theorem concentrationHerfindahl_join_iff_hedgedModel :
    portfolioRisk hedgedWeights hedgedModel = .ok (bookRisk hedgedModel hedgedWeights) ∧
      (∃ symbol, weightOf hedgedWeights symbol ≠ 0) ∧ IndexBounded (bookRisk hedgedModel hedgedWeights) := by
  have hheld : ∃ symbol, weightOf hedgedWeights symbol ≠ 0 := by
    refine ⟨"BTCUSDT", ?_⟩
    rw [weightOf_hedgedWeights (by decide)]
    norm_num [hedgedWeight]
  exact ⟨portfolioRisk_hedged, hheld, (concentrationHerfindahl_join_iff portfolioRisk_hedged hheld).1⟩

end FinanceKing.Risk
