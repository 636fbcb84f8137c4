import FinanceKing.Domain.Results
import FinanceKing.Risk.Contribution

/-! The concentration verdict over any ordered field, the exact reals among them: the rows of what is held,
    and the worst of the breached ones. On decimals it is the assessment's. -/

namespace FinanceKing.Risk

open Lib

section

variable {K : Type} [Field K] [LinearOrder K]

variable (K) in
omit [Field K] [LinearOrder K] in
/-- One limit on a risk share, and what was observed. -/
structure ShareRow where
  limitName : String
  scopeId : String
  thresholdRatio : K
  observedRatio : K
  deriving DecidableEq

namespace ShareRow

/-- Risk share that may still be added before the limit binds. -/
def headroomRatio (row : ShareRow K) : K := row.thresholdRatio - row.observedRatio

def isBreached (row : ShareRow K) : Bool := row.headroomRatio < 0

end ShareRow

/-- The worse of the breach found so far and the next row; a tie keeps the first. -/
def worseShare (binding : Option (ShareRow K)) (row : ShareRow K) : Option (ShareRow K) :=
  if ¬ row.isBreached then binding
  else
    match binding with
    | none => some row
    | some worst => if row.headroomRatio < worst.headroomRatio then some row else binding

/-- The worst breach of a list of rows, or none. -/
def worstShare (rows : List (ShareRow K)) : Option (ShareRow K) := rows.foldl worseShare none

/-- The symbols that carry weight. -/
def weightedSymbols (weightRatioBySymbol : Dict String K) : List String :=
  (weightRatioBySymbol.entries.filter fun entry => entry.2 ≠ 0).map Prod.fst

/-- A row for every held symbol, then for every cluster one is in. -/
def shareRows (risk : PortfolioRisk K) (held : List String) (clusters : List CorrelationCluster)
    (maxAssetRiskShareRatio maxClusterRiskShareRatio : K) : List (ShareRow K) :=
  ((risk.contributions.filter fun contribution => contribution.symbol ∈ held).map fun contribution =>
    ⟨"max_asset_risk_share_ratio", contribution.symbol, maxAssetRiskShareRatio, contribution.riskShareRatio⟩) ++
  ((clusters.filter fun cluster => cluster.symbols.any (· ∈ held)).map fun cluster =>
    ⟨"max_cluster_risk_share_ratio", cluster.clusterId, maxClusterRiskShareRatio,
      (risk.clusterRiskShareRatio.get? cluster.clusterId).getD 0⟩)

variable (K) in
omit [Field K] [LinearOrder K] in
/-- The decomposition, every row of it, and the row that refuses the book if one does. -/
structure ShareAssessment where
  risk : PortfolioRisk K
  rows : List (ShareRow K)
  binding : Option (ShareRow K)
  deriving DecidableEq

/-- Decide whether a candidate book's risk is too concentrated to permit. -/
def assessShares [Root K] (weightRatioBySymbol : Dict String K) (model : RiskModel K)
    (maxAssetRiskShareRatio maxClusterRiskShareRatio : K) : PyResult (ShareAssessment K) := do
  let risk ← portfolioRisk weightRatioBySymbol model
  let rows := shareRows risk (weightedSymbols weightRatioBySymbol) model.clusters maxAssetRiskShareRatio
    maxClusterRiskShareRatio
  return ⟨risk, rows, worstShare rows⟩

/-! ### The worst breach -/

/-- The first of the worst: breached, with less headroom than every row before it and no more than any
    after. -/
def IsWorstBreach (rows : List (ShareRow K)) (worst : ShareRow K) : Prop :=
  worst.isBreached = true ∧ ∃ before after, rows = before ++ worst :: after ∧
    (∀ row ∈ before, worst.headroomRatio < row.headroomRatio) ∧
    ∀ row ∈ after, worst.headroomRatio ≤ row.headroomRatio

theorem ShareRow.isBreached_iff [IsStrictOrderedRing K] {row : ShareRow K} :
    row.isBreached = true ↔ row.thresholdRatio < row.observedRatio := by
  rw [isBreached, headroomRatio, decide_eq_true_eq, sub_neg]

theorem worstShare_concat (rows : List (ShareRow K)) (row : ShareRow K) :
    worstShare (rows ++ [row]) = worseShare (worstShare rows) row := by
  rw [worstShare, List.foldl_append]
  rfl

/-- The scan ends on the first of the worst breaches, or on none where nothing is breached. -/
theorem worstShare_spec (rows : List (ShareRow K)) :
    (worstShare rows).elim (∀ row ∈ rows, row.isBreached = false) (IsWorstBreach rows) := by
  induction rows using List.reverseRecOn with
  | nil => exact fun row hrow => absurd hrow List.not_mem_nil
  | append_singleton rows row ih =>
    rw [worstShare_concat, worseShare.eq_def]
    cases hbreached : row.isBreached with
    | false =>
      have hroom : 0 ≤ row.headroomRatio := by simpa [ShareRow.isBreached] using hbreached
      simp only [Bool.false_eq_true, not_false_eq_true, if_true]
      cases hworst : worstShare rows with
      | none =>
        rw [hworst] at ih
        intro other hother
        rcases List.mem_append.mp hother with hold | hnew
        · exact ih other hold
        · rw [List.mem_singleton.mp hnew, hbreached]
      | some worst =>
        rw [hworst] at ih
        obtain ⟨hworstbreached, before, after, rfl, hbefore, hafter⟩ := ih
        refine ⟨hworstbreached, before, after ++ [row], by simp, hbefore, fun other hother => ?_⟩
        rcases List.mem_append.mp hother with hold | hnew
        · exact hafter other hold
        · rw [List.mem_singleton.mp hnew]
          exact (of_decide_eq_true hworstbreached).le.trans hroom
    | true =>
      have hroom : row.headroomRatio < 0 := of_decide_eq_true hbreached
      simp only [not_true_eq_false, if_false]
      cases hworst : worstShare rows with
      | none =>
        rw [hworst] at ih
        refine ⟨hbreached, rows, [], rfl, fun other hother => ?_, fun other hother => absurd hother
          List.not_mem_nil⟩
        have hother := ih other hother
        exact hroom.trans_le (by simpa [ShareRow.isBreached] using hother)
      | some worst =>
        rw [hworst] at ih
        obtain ⟨hworstbreached, before, after, rfl, hbefore, hafter⟩ := ih
        dsimp only
        split
        · next hless =>
          refine ⟨hbreached, before ++ worst :: after, [], rfl, fun other hother => ?_, fun other hother =>
            absurd hother List.not_mem_nil⟩
          rcases List.mem_append.mp hother with hold | hold
          · exact hless.trans (hbefore other hold)
          · rcases List.mem_cons.mp hold with rfl | hold
            · exact hless
            · exact hless.trans_le (hafter other hold)
        · next hmore =>
          refine ⟨hworstbreached, before, after ++ [row], by simp, hbefore, fun other hother => ?_⟩
          rcases List.mem_append.mp hother with hold | hnew
          · exact hafter other hold
          · rw [List.mem_singleton.mp hnew]
            exact not_lt.mp hmore

theorem worstShare_eq_none_iff {rows : List (ShareRow K)} :
    worstShare rows = none ↔ ∀ row ∈ rows, row.isBreached = false := by
  have hspec := worstShare_spec rows
  constructor
  · intro h
    rw [h] at hspec
    exact hspec
  · intro h
    cases hworst : worstShare rows with
    | none => rfl
    | some worst =>
      rw [hworst] at hspec
      obtain ⟨hbreached, before, after, rfl, _⟩ := hspec
      rw [h worst (by simp)] at hbreached
      cases hbreached

end

/-! ### On decimals -/

/-- A row of the decimal assessment. -/
def ShareRow.evaluation (row : ShareRow Decimal) : RiskShareEvaluation :=
  ⟨row.limitName, row.scopeId, row.thresholdRatio, row.observedRatio⟩

theorem worseBreach_evaluation (binding : Option (ShareRow Decimal)) (row : ShareRow Decimal) :
    worseBreach (binding.map ShareRow.evaluation) row.evaluation =
      (worseShare binding row).map ShareRow.evaluation := by
  rw [worseBreach.eq_def, worseShare.eq_def]
  have hsame : row.evaluation.isBreached = row.isBreached := rfl
  rw [hsame]
  cases row.isBreached with
  | false => rfl
  | true =>
    cases binding with
    | none => rfl
    | some worst =>
      simp only [Option.map_some, not_true_eq_false, if_false, apply_ite (Option.map ShareRow.evaluation)]
      rfl

theorem foldl_worseBreach_evaluation : ∀ (rows : List (ShareRow Decimal)) (binding : Option (ShareRow Decimal)),
    (rows.map ShareRow.evaluation).foldl worseBreach (binding.map ShareRow.evaluation) =
      (rows.foldl worseShare binding).map ShareRow.evaluation
  | [], _ => rfl
  | row :: rows, binding => by
    rw [List.map_cons, List.foldl_cons, worseBreach_evaluation, foldl_worseBreach_evaluation rows]
    rfl

/-- The refusal of a list of rows is the one its worst breach alone would have drawn. -/
theorem rejectionFor_evaluations (rows : List (ShareRow Decimal)) (decidedAtUtc : DateTime) :
    rejectionFor (rows.map ShareRow.evaluation) decidedAtUtc =
      (worstShare rows).bind fun row => rejectionFor [row.evaluation] decidedAtUtc := by
  have hspec := worstShare_spec rows
  have hfold := foldl_worseBreach_evaluation rows none
  rw [Option.map_none] at hfold
  rw [rejectionFor, hfold, ← worstShare]
  cases hworst : worstShare rows with
  | none => rfl
  | some worst =>
    rw [hworst] at hspec
    have hsingle := foldl_worseBreach_evaluation [worst] none
    have hscan : [worst].foldl worseShare none = some worst := by
      rw [List.foldl_cons, List.foldl_nil, worseShare.eq_def, hspec.1]
      rfl
    rw [hscan] at hsingle
    rw [Option.bind_some, rejectionFor]
    exact congrArg (Option.map _) hsingle.symm

/-- The decimal assessment is this one, and its refusal is the worst breach's. -/
theorem assessConcentration_eq_ok {model : RiskModel Decimal} {weights : Dict String Decimal}
    {limits : ConcentrationLimits} {decidedAtUtc : DateTime} {verdict : ShareAssessment Decimal}
    (h : assessShares weights model limits.maxAssetRiskShareRatio limits.maxClusterRiskShareRatio = .ok verdict) :
    assessConcentration weights model limits decidedAtUtc = .ok
      ⟨decidedAtUtc, verdict.risk, verdict.rows.map ShareRow.evaluation,
        verdict.binding.bind fun row => rejectionFor [row.evaluation] decidedAtUtc⟩ := by
  simp only [assessShares, bind_eq_ok, pure_eq_ok] at h
  obtain ⟨risk, hrisk, rfl⟩ := h
  have hrows : shareEvaluations risk (heldSymbols weights) model.clusters limits =
      (shareRows risk (weightedSymbols weights) model.clusters limits.maxAssetRiskShareRatio
        limits.maxClusterRiskShareRatio).map ShareRow.evaluation := by
    rw [shareRows, List.map_append, List.map_map, List.map_map]
    rfl
  rw [assessConcentration, hrisk]
  change Except.ok _ = Except.ok _
  rw [hrows, rejectionFor_evaluations]

end FinanceKing.Risk
