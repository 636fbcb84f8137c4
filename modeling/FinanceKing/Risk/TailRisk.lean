import FinanceKing.Domain.Guards
import FinanceKing.Lib.LeastSums

/-! Historical VaR and CVaR: sort the sample and read them off its tail. The tail is a whole number of
    observations rounded up, so a short series still has one. -/

namespace FinanceKing.Risk

open Lib

/-- Empirical VaR and CVaR at one confidence level; both are losses. -/
structure TailRiskEstimate where
  confidenceRatio : Decimal
  varLossRatio : Decimal
  cvarLossRatio : Decimal
  sampleSize : ℕ
  tailSampleSize : ℕ
  deriving DecidableEq

/-- How many observations the tail holds. -/
def tailSampleSize (sampleSize : ℕ) (confidenceRatio : Decimal) : ℕ :=
  max 1 (min sampleSize ⌈(1 - confidenceRatio) * sampleSize⌉.toNat)

def historicalTailRisk (dailyReturnRatioSeries : List Decimal) (confidenceRatio : Decimal) :
    PyResult TailRiskEstimate := do
  raiseIf (dailyReturnRatioSeries = []) .domainError
    ["no return observations supplied; VaR and CVaR cannot be estimated from an empty series and must not " ++
      "silently default to zero risk"]
  raiseIf (¬(0 < confidenceRatio ∧ confidenceRatio < 1)) .domainError
    ["confidence_ratio must be strictly between 0 and 1; got ", .decimal confidenceRatio]
  let sampleSize := dailyReturnRatioSeries.length
  let sortedReturns := sortBy id dailyReturnRatioSeries
  let tailSize := tailSampleSize sampleSize confidenceRatio
  let tail := sortedReturns.take tailSize
  let quantileReturnRatio := sortedReturns.getD (tailSize - 1) 0
  let cvarMeanReturnRatio := tail.sum / tailSize
  return ⟨confidenceRatio, -quantileReturnRatio, -cvarMeanReturnRatio, sampleSize, tailSize⟩

/-! ### The tail -/

theorem tailSampleSize_pos (sampleSize : ℕ) (confidenceRatio : Decimal) :
    0 < tailSampleSize sampleSize confidenceRatio := lt_of_lt_of_le Nat.one_pos (le_max_left _ _)

theorem tailSampleSize_le {sampleSize : ℕ} (h : 0 < sampleSize) (confidenceRatio : Decimal) :
    tailSampleSize sampleSize confidenceRatio ≤ sampleSize := max_le h (min_le_left _ _)

/-- More confidence looks at no longer a tail. -/
theorem tailSampleSize_anti {confidenceRatio higher : Decimal} (h : confidenceRatio ≤ higher) (sampleSize : ℕ) :
    tailSampleSize sampleSize higher ≤ tailSampleSize sampleSize confidenceRatio := by
  have hfraction : (1 - higher) * (sampleSize : Decimal) ≤ (1 - confidenceRatio) * sampleSize :=
    mul_le_mul_of_nonneg_right (by linarith) (Nat.cast_nonneg sampleSize)
  exact max_le_max le_rfl (min_le_min le_rfl (Int.toNat_le_toNat (Int.ceil_mono hfraction)))

/-- The tail is the least whole number of observations that covers its fraction of them, within the sample. -/
theorem tailSampleSize_eq_of_isLeast {sampleSize count : ℕ} {confidenceRatio : Decimal}
    (h : IsLeast {size : ℕ | (1 - confidenceRatio) * sampleSize ≤ size} count) :
    tailSampleSize sampleSize confidenceRatio = max 1 (min sampleSize count) := by
  have hceil : (1 - confidenceRatio) * (sampleSize : Decimal) ≤ ⌈(1 - confidenceRatio) * (sampleSize : Decimal)⌉₊ :=
    Nat.le_ceil _
  have hcover : ⌈(1 - confidenceRatio) * (sampleSize : Decimal)⌉₊ = count :=
    le_antisymm (Nat.ceil_le.mpr h.1) (h.2 hceil)
  rw [tailSampleSize, Int.ceil_toNat, hcover]

/-! ### What is read off -/

/-- The loss at the quantile. -/
def valueAtRisk (series : List Decimal) (confidenceRatio : Decimal) : Decimal :=
  -(sortBy id series).getD (tailSampleSize series.length confidenceRatio - 1) 0

/-- The mean loss over the tail. -/
def conditionalValueAtRisk (series : List Decimal) (confidenceRatio : Decimal) : Decimal :=
  -leastMean (tailSampleSize series.length confidenceRatio) series

theorem historicalTailRisk_eq_ok {series : List Decimal} {confidenceRatio : Decimal} (hseries : series ≠ [])
    (hconfidence : 0 < confidenceRatio ∧ confidenceRatio < 1) :
    historicalTailRisk series confidenceRatio = .ok
      ⟨confidenceRatio, valueAtRisk series confidenceRatio, conditionalValueAtRisk series confidenceRatio,
        series.length, tailSampleSize series.length confidenceRatio⟩ := by
  simp only [historicalTailRisk, bind_eq_ok, raiseIf_eq_ok, pure_eq_ok, not_not]
  exact ⟨(), hseries, (), hconfidence, rfl⟩

section

variable {series : List Decimal} {confidenceRatio : Decimal}

/-- The observation at the quantile is the last of the tail. -/
theorem sorted_quantile (confidenceRatio : Decimal) (hseries : series ≠ []) :
    (sortBy id series)[tailSampleSize series.length confidenceRatio - 1]? =
      some (-valueAtRisk series confidenceRatio) := by
  have hpos := tailSampleSize_pos series.length confidenceRatio
  have hle := tailSampleSize_le (List.length_pos_of_ne_nil hseries) confidenceRatio
  have hindex : tailSampleSize series.length confidenceRatio - 1 < (sortBy id series).length := by
    rw [(perm_sortBy id series).length_eq]
    omega
  rw [valueAtRisk, neg_neg, List.getD_eq_getElem _ _ hindex, List.getElem?_eq_getElem hindex]

/-- The mean of the tail is no smaller a loss than the last of it. -/
theorem valueAtRisk_le_conditional (hseries : series ≠ []) :
    valueAtRisk series confidenceRatio ≤ conditionalValueAtRisk series confidenceRatio := by
  have hlast := leastMean_le_last (sorted_quantile confidenceRatio hseries)
  rw [Nat.sub_add_cancel (tailSampleSize_pos _ _)] at hlast
  rw [conditionalValueAtRisk]
  linarith

theorem valueAtRisk_mono {higher : Decimal} (hseries : series ≠ []) (h : confidenceRatio ≤ higher) :
    valueAtRisk series confidenceRatio ≤ valueAtRisk series higher := by
  have hsize := tailSampleSize_anti h series.length
  obtain ⟨hlow, hlower⟩ := List.getElem?_eq_some_iff.mp (sorted_quantile confidenceRatio hseries)
  obtain ⟨hhigh, hhigher⟩ := List.getElem?_eq_some_iff.mp (sorted_quantile higher hseries)
  have hle := (pairwise_sorted series).rel_get_of_le (a := ⟨_, hhigh⟩) (b := ⟨_, hlow⟩)
    (Fin.mk_le_mk.mpr (Nat.sub_le_sub_right hsize 1))
  rw [List.get_eq_getElem, List.get_eq_getElem, hhigher, hlower] at hle
  linarith

theorem conditionalValueAtRisk_mono {higher : Decimal} (hseries : series ≠ []) (h : confidenceRatio ≤ higher) :
    conditionalValueAtRisk series confidenceRatio ≤ conditionalValueAtRisk series higher :=
  neg_le_neg (leastMean_mono (tailSampleSize_pos _ _) (tailSampleSize_anti h _)
    (tailSampleSize_le (List.length_pos_of_ne_nil hseries) _))

/-- Worse returns are no smaller a loss. -/
theorem valueAtRisk_of_worse {worse : List Decimal} (hseries : series ≠ [])
    (h : List.Forall₂ (· ≤ ·) worse series) :
    valueAtRisk series confidenceRatio ≤ valueAtRisk worse confidenceRatio := by
  have hworse : worse ≠ [] := fun hnil => hseries (List.forall₂_nil_left_iff.mp (hnil ▸ h))
  have hquantile := sorted_quantile confidenceRatio hworse
  rw [h.length_eq] at hquantile
  exact neg_le_neg_iff.mp (sorted_mono h hquantile (sorted_quantile confidenceRatio hseries))

theorem conditionalValueAtRisk_of_worse {worse : List Decimal} (hseries : series ≠ [])
    (h : List.Forall₂ (· ≤ ·) worse series) :
    conditionalValueAtRisk series confidenceRatio ≤ conditionalValueAtRisk worse confidenceRatio := by
  rw [conditionalValueAtRisk, conditionalValueAtRisk, h.length_eq]
  refine neg_le_neg (div_le_div_of_nonneg_right (leastSum_mono h ?_) (Nat.cast_nonneg _))
  exact tailSampleSize_le (List.length_pos_of_ne_nil hseries) _

/-- Two books together lose no more in the tail than the two apart. -/
theorem conditionalValueAtRisk_add_le {other : List Decimal} (hseries : series ≠ [])
    (hlength : series.length = other.length) :
    conditionalValueAtRisk (List.zipWith (· + ·) series other) confidenceRatio ≤
      conditionalValueAtRisk series confidenceRatio + conditionalValueAtRisk other confidenceRatio := by
  have hsize : (List.zipWith (· + ·) series other).length = series.length := by
    rw [List.length_zipWith, ← hlength, min_self]
  rw [conditionalValueAtRisk, conditionalValueAtRisk, conditionalValueAtRisk, hsize, ← hlength, ← neg_add, leastMean,
    leastMean, leastMean, ← add_div]
  refine neg_le_neg (div_le_div_of_nonneg_right (leastSum_add_le hlength ?_) (Nat.cast_nonneg _))
  exact tailSampleSize_le (List.length_pos_of_ne_nil hseries) _

end

/-! ### Coherence -/

/-- What a series' tail risk keeps to, against every other confidence level and series. -/
structure CoherentTailRisk (series : List Decimal) (confidenceRatio : Decimal) (estimate : TailRiskEstimate) :
    Prop where
  sampleSize : estimate.sampleSize = series.length
  orderFree : ∀ shuffled : List Decimal, shuffled.Perm series →
    historicalTailRisk shuffled confidenceRatio = .ok estimate
  tail : ∀ count : ℕ, IsLeast {size : ℕ | (1 - confidenceRatio) * series.length ≤ size} count →
    estimate.tailSampleSize = max 1 (min series.length count)
  ordered : estimate.varLossRatio ≤ estimate.cvarLossRatio
  confident : ∀ (higher : Decimal) (other : TailRiskEstimate), confidenceRatio ≤ higher →
    historicalTailRisk series higher = .ok other →
    estimate.varLossRatio ≤ other.varLossRatio ∧ estimate.cvarLossRatio ≤ other.cvarLossRatio
  worse : ∀ (worse : List Decimal) (other : TailRiskEstimate), List.Forall₂ (· ≤ ·) worse series →
    historicalTailRisk worse confidenceRatio = .ok other →
    estimate.varLossRatio ≤ other.varLossRatio ∧ estimate.cvarLossRatio ≤ other.cvarLossRatio
  subadditive : ∀ (aligned : List Decimal) (other sum : TailRiskEstimate), aligned.length = series.length →
    historicalTailRisk aligned confidenceRatio = .ok other →
    historicalTailRisk (List.zipWith (· + ·) series aligned) confidenceRatio = .ok sum →
    sum.cvarLossRatio ≤ estimate.cvarLossRatio + other.cvarLossRatio

theorem historicalTailRisk_ok_iff {series : List Decimal} {confidenceRatio : Decimal}
    {estimate : TailRiskEstimate} : historicalTailRisk series confidenceRatio = .ok estimate ↔
      series ≠ [] ∧ (0 < confidenceRatio ∧ confidenceRatio < 1) ∧
      estimate = ⟨confidenceRatio, valueAtRisk series confidenceRatio,
        conditionalValueAtRisk series confidenceRatio, series.length,
        tailSampleSize series.length confidenceRatio⟩ := by
  constructor
  · intro h
    have hchecks := h
    simp only [historicalTailRisk, bind_eq_ok, raiseIf_eq_ok, not_not] at hchecks
    obtain ⟨_, hseries, _, hconfidence, _⟩ := hchecks
    rw [historicalTailRisk_eq_ok hseries hconfidence] at h
    exact ⟨hseries, hconfidence, (Except.ok.inj h).symm⟩
  · rintro ⟨hseries, hconfidence, rfl⟩
    exact historicalTailRisk_eq_ok hseries hconfidence

/-- Of every series with an observation there is an estimate at every confidence level, and it is coherent. -/
theorem historicalTailRisk_coherent (series : List Decimal) (confidenceRatio : Decimal) :
    ((∃ estimate, historicalTailRisk series confidenceRatio = .ok estimate) ↔
        series ≠ [] ∧ 0 < confidenceRatio ∧ confidenceRatio < 1) ∧
      ∀ estimate, historicalTailRisk series confidenceRatio = .ok estimate →
        CoherentTailRisk series confidenceRatio estimate := by
  refine ⟨?_, fun estimate h => ?_⟩
  · simp only [historicalTailRisk_ok_iff]
    exact ⟨fun ⟨_, h₁, h₂, _⟩ => ⟨h₁, h₂⟩, fun ⟨h₁, h₂⟩ => ⟨_, h₁, h₂, rfl⟩⟩
  · obtain ⟨hseries, hconfidence, rfl⟩ := historicalTailRisk_ok_iff.mp h
    exact {
      sampleSize := rfl
      orderFree := by
        intro shuffled hperm
        have hsorted : sortBy id shuffled = sortBy id series :=
          sortBy_eq_of_perm id hperm fun _ _ _ _ hsame => hsame
        have hnil : shuffled ≠ [] := fun hnil => hseries (hnil ▸ hperm).nil_eq.symm
        rw [historicalTailRisk_eq_ok hnil hconfidence, valueAtRisk, conditionalValueAtRisk, leastMean, leastSum,
          hsorted, hperm.length_eq]
        rfl
      tail := fun count hcount => tailSampleSize_eq_of_isLeast hcount
      ordered := valueAtRisk_le_conditional hseries
      confident := by
        intro higher other hle hother
        obtain ⟨_, _, rfl⟩ := historicalTailRisk_ok_iff.mp hother
        exact ⟨valueAtRisk_mono hseries hle, conditionalValueAtRisk_mono hseries hle⟩
      worse := by
        intro worse other hworse hother
        obtain ⟨_, _, rfl⟩ := historicalTailRisk_ok_iff.mp hother
        exact ⟨valueAtRisk_of_worse hseries hworse, conditionalValueAtRisk_of_worse hseries hworse⟩
      subadditive := by
        intro aligned other sum hlength hother hsum
        obtain ⟨_, _, rfl⟩ := historicalTailRisk_ok_iff.mp hother
        obtain ⟨_, _, rfl⟩ := historicalTailRisk_ok_iff.mp hsum
        exact conditionalValueAtRisk_add_le hseries hlength.symm }

end FinanceKing.Risk
