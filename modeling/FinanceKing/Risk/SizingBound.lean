import FinanceKing.Risk.Sizing

/-! The sized quantity against its bounds. A minimum of non-negative terms, truncated onto the lattice, is on
    the lattice and below every term; so it is enough that no term is negative. One can be: the multiplier
    charged to an unstated stop has a ceiling and no floor. -/

namespace FinanceKing.Risk

open Lib

/-! ### What the constructors promise -/

section Checked

variable (inputs : SizingInputs) (parameters : SizingParameters)

theorem sizingParameters_bounds : 0 < parameters.riskFractionPerTrade ∧
    0 < parameters.targetVolatilityAnnualised ∧ 0 ≤ parameters.maxKellyFraction ∧
      0 < parameters.atrInvalidationMultiple := by
  have h := parameters.checked
  simp only [SizingParametersFields.postInit, bind_eq_ok, requirePositive_eq_ok,
    requireNonNegative_eq_ok] at h
  obtain ⟨_, _, _, _, _, hrisk, _, htarget, _, hkelly, hatr⟩ := h
  exact ⟨hrisk, htarget, hkelly, hatr⟩

theorem sizingInputs_bounds : 0 < inputs.entryQuotePrice ∧ 0 ≤ inputs.equityUsd ∧
    0 ≤ inputs.atr14Quote ∧ 0 ≤ inputs.volatilityFloorAnnualised ∧ 0 ≤ inputs.permittedNotionalUsd := by
  have h := inputs.checked
  simp only [SizingInputsFields.postInit, bind_eq_ok, requirePositive_eq_ok, requireNonNegative_eq_ok] at h
  obtain ⟨_, _, _, hentry, _, hequity, _, hatr, _, hfloor, _, _, _, hpermitted, _⟩ := h
  exact ⟨hentry, hequity, hatr, hfloor, hpermitted⟩

end Checked

/-! ### The minimum -/

/-- The least candidate is one of them, and no other is below it. -/
theorem leastCandidate_spec (first : String × Decimal) (rest : List (String × Decimal)) :
    leastCandidate first rest ∈ first :: rest ∧
      ∀ candidate ∈ first :: rest, (leastCandidate first rest).2 ≤ candidate.2 := by
  induction rest generalizing first with
  | nil => exact ⟨List.mem_singleton_self _, fun candidate h => by rw [List.mem_singleton.mp h]; rfl⟩
  | cons next rest ih =>
    rw [leastCandidate, List.foldl_cons, ← leastCandidate]
    obtain ⟨hmem, hle⟩ := ih (if next.2 < first.2 then next else first)
    have hhead := hle _ List.mem_cons_self
    constructor
    · rcases List.mem_cons.mp hmem with heq | htail
      · rw [heq]
        split
        · exact List.mem_cons_of_mem _ List.mem_cons_self
        · exact List.mem_cons_self
      · exact List.mem_cons_of_mem _ (List.mem_cons_of_mem _ htail)
    · intro candidate hcandidate
      rcases List.mem_cons.mp hcandidate with rfl | htail
      · refine hhead.trans ?_
        split
        · rename_i hlt
          exact hlt.le
        · rfl
      · rcases List.mem_cons.mp htail with rfl | hrest
        · refine hhead.trans ?_
          split
          · rfl
          · rename_i hlt
            exact not_lt.mp hlt
        · exact hle candidate (List.mem_cons_of_mem _ hrest)

/-! ### The bounds -/

/-- What sizing promises of one position. -/
structure SizedWithin (inputs : SizingInputs) (sizing : PositionSizing) : Prop where
  /-- A whole number of lots, and never a negative one. -/
  onLattice : ∃ lots : ℕ, sizing.baseQuantity = lots * inputs.instrument.lotStep
  /-- Every term has a veto. -/
  withinTerms : ∀ term ∈ sizing.terms, sizing.baseQuantity ≤ term.2
  /-- A stop that is hit costs at most the risk budget. -/
  withinRisk : ∀ level, inputs.invalidationQuotePrice = some level →
    sizing.baseQuantity * |inputs.entryQuotePrice - level| ≤ sizing.riskFractionUsed * inputs.equityUsd
  withinNotional : sizing.notionalUsd ≤ inputs.permittedNotionalUsd
  venueTakesIt : sizing.baseQuantity = 0 ∨
    inputs.instrument.meetsMinNotional sizing.baseQuantity inputs.entryQuotePrice = true

/-- The unstated-stop multiplier is not below zero where it is charged on a budget and a distance. -/
def PenaltyNonNegative (inputs : SizingInputs) (parameters : SizingParameters) : Prop :=
  inputs.invalidationQuotePrice.isSome ∨ 0 ≤ parameters.unstatedInvalidationRiskMultiplier ∨
    inputs.equityUsd = 0 ∨ inputs.atr14Quote = 0

/-- A non-negative quantity is truncated to a whole number of lots below it, or to nothing. -/
theorem venueFiltered_spec (inputs : SizingInputs) {binding : String × Decimal} (hbinding : 0 ≤ binding.2) :
    (∃ lots : ℕ, (venueFiltered inputs binding).1 = lots * inputs.instrument.lotStep) ∧
      (venueFiltered inputs binding).1 ≤ binding.2 ∧
      ((venueFiltered inputs binding).1 = 0 ∨
        inputs.instrument.meetsMinNotional (venueFiltered inputs binding).1 inputs.entryQuotePrice = true) := by
  have hlot := inputs.instrument.lotStep_pos
  rw [venueFiltered]
  split
  · rename_i hmeets
    exact ⟨snapTowardZero_eq_lots hlot hbinding, snapTowardZero_le hlot hbinding, Or.inr hmeets⟩
  · exact ⟨⟨0, by rw [Nat.cast_zero, zero_mul]⟩, hbinding, Or.inl rfl⟩

/-- How the pieces of a sized position fit together. -/
structure Assembled (inputs : SizingInputs) (parameters : SizingParameters) (sizing : PositionSizing)
    (binding : String × Decimal) : Prop where
  binds : binding ∈ sizing.terms
  least : ∀ term ∈ sizing.terms, binding.2 ≤ term.2
  filtered : sizing.baseQuantity = (venueFiltered inputs binding).1
  notional : sizing.notionalUsd = sizing.baseQuantity * inputs.entryQuotePrice
  risk : sizing.riskFractionUsed = if inputs.invalidationQuotePrice.isNone
    then parameters.riskFractionPerTrade * parameters.unstatedInvalidationRiskMultiplier
    else parameters.riskFractionPerTrade
  fixedFractional : sizing.fixedFractionalBaseQuantity =
    if 0 < riskDistanceQuote inputs parameters
    then sizing.riskFractionUsed * inputs.equityUsd / riskDistanceQuote inputs parameters else 0
  volatilityTarget : sizing.volatilityTargetBaseQuantity =
    if 0 < sizing.volatility.usedAnnualised
    then parameters.targetVolatilityAnnualised / sizing.volatility.usedAnnualised * inputs.equityUsd /
      inputs.entryQuotePrice else 0
  kelly : sizing.kellyBaseQuantity = kellyBaseQuantity inputs parameters
  exposure : sizing.exposureBaseQuantity = inputs.permittedNotionalUsd / inputs.entryQuotePrice

/-- Sizing always answers, and its answer is assembled from its terms. -/
theorem sizePosition_spec (inputs : SizingInputs) (parameters : SizingParameters) :
    ∃ sizing, sizePosition inputs parameters = .ok sizing ∧ Assembled inputs parameters sizing
      (leastCandidate ("fixed_fractional", sizing.fixedFractionalBaseQuantity) sizing.terms.tail) := by
  obtain ⟨_, _, _, hfloor, _⟩ := sizingInputs_bounds inputs
  have hok : requireNonNegative inputs.volatilityFloorAnnualised "floor_annualised" = .ok () :=
    requireNonNegative_eq_ok.mpr hfloor
  rw [sizePosition, volatilityUsed, hok]
  refine ⟨_, rfl, ?_⟩
  exact {
    binds := (leastCandidate_spec _ _).1
    least := (leastCandidate_spec _ _).2
    filtered := rfl
    notional := rfl
    risk := rfl
    fixedFractional := rfl
    volatilityTarget := rfl
    kelly := rfl
    exposure := rfl }

section Terms

variable {inputs : SizingInputs} {parameters : SizingParameters} {sizing : PositionSizing}
  {binding : String × Decimal}

/-- The record's term is a share of equity, so never below zero. -/
theorem kelly_nonneg {quantity : Decimal} (h : kellyBaseQuantity inputs parameters = some quantity) :
    0 ≤ quantity := by
  obtain ⟨hentry, hequity, _⟩ := sizingInputs_bounds inputs
  obtain ⟨_, _, hkelly, _⟩ := sizingParameters_bounds parameters
  rw [kellyBaseQuantity] at h
  split at h
  · cases h
  split at h
  · cases h
    exact le_rfl
  · cases h
    refine div_nonneg (mul_nonneg (le_min (mul_nonneg hkelly ?_) hkelly) hequity) hentry.le
    exact le_max_right _ _

/-- Every term but the fixed fraction is non-negative whatever the parameters. -/
theorem terms_nonneg (h : Assembled inputs parameters sizing binding)
    (hfixed : 0 ≤ sizing.fixedFractionalBaseQuantity) : ∀ term ∈ sizing.terms, 0 ≤ term.2 := by
  obtain ⟨hentry, hequity, _, _, hpermitted⟩ := sizingInputs_bounds inputs
  obtain ⟨_, htarget, _, _⟩ := sizingParameters_bounds parameters
  have hvolatility : 0 ≤ sizing.volatilityTargetBaseQuantity := by
    rw [h.volatilityTarget]
    split
    · rename_i hused
      exact div_nonneg (mul_nonneg (div_nonneg htarget.le hused.le) hequity) hentry.le
    · exact le_rfl
  have hexposure : 0 ≤ sizing.exposureBaseQuantity := by
    rw [h.exposure]
    exact div_nonneg hpermitted hentry.le
  intro term hterm
  simp only [PositionSizing.terms, List.cons_append, List.nil_append, List.mem_cons, Option.mem_toList,
    Option.map_eq_some_iff] at hterm
  rcases hterm with rfl | rfl | rfl | ⟨quantity, hquantity, rfl⟩
  · exact hfixed
  · exact hvolatility
  · exact hexposure
  · exact kelly_nonneg (h.kelly.symm.trans hquantity)

/-- The fixed fraction is below zero exactly where the penalty is. -/
theorem fixedFractional_nonneg_iff (h : Assembled inputs parameters sizing binding) :
    0 ≤ sizing.fixedFractionalBaseQuantity ↔ PenaltyNonNegative inputs parameters := by
  obtain ⟨_, hequity, hatr, _⟩ := sizingInputs_bounds inputs
  obtain ⟨hrisk, _, _, hmultiple⟩ := sizingParameters_bounds parameters
  rw [h.fixedFractional, h.risk, PenaltyNonNegative]
  cases hlevel : inputs.invalidationQuotePrice with
  | some level =>
    refine iff_of_true ?_ (Or.inl rfl)
    split
    · rename_i hdistance
      exact div_nonneg (mul_nonneg hrisk.le hequity) hdistance.le
    · exact le_rfl
  | none =>
    have hdistance : riskDistanceQuote inputs parameters =
        parameters.atrInvalidationMultiple * inputs.atr14Quote := by
      rw [riskDistanceQuote, hlevel]
    rw [hdistance, Option.isNone_none, if_pos rfl, Option.isSome_none]
    rcases hatr.eq_or_lt with hzero | hpos
    · rw [← hzero, mul_zero, if_neg (lt_irrefl _)]
      exact iff_of_true le_rfl (Or.inr (Or.inr (Or.inr rfl)))
    · rw [if_pos (mul_pos hmultiple hpos), le_div_iff₀ (mul_pos hmultiple hpos), zero_mul, mul_assoc,
        mul_nonneg_iff_of_pos_left hrisk]
      rcases hequity.eq_or_lt with hbroke | hfunded
      · rw [← hbroke, mul_zero]
        exact iff_of_true le_rfl (Or.inr (Or.inr (Or.inl rfl)))
      · rw [mul_nonneg_iff_of_pos_right hfunded]
        constructor
        · exact fun hmultiplier => Or.inr (Or.inl hmultiplier)
        · rintro (habsurd | hmultiplier | hbroke | hstill)
          · cases habsurd
          · exact hmultiplier
          · exact absurd hbroke hfunded.ne'
          · exact absurd hstill hpos.ne'

/-- A quantity at or below the fixed fraction keeps a stop inside the risk budget. -/
theorem within_risk (h : Assembled inputs parameters sizing binding)
    (hquantity : sizing.baseQuantity ≤ sizing.fixedFractionalBaseQuantity) {level : Decimal}
    (hlevel : inputs.invalidationQuotePrice = some level) :
    sizing.baseQuantity * |inputs.entryQuotePrice - level| ≤ sizing.riskFractionUsed * inputs.equityUsd := by
  obtain ⟨_, hequity, _⟩ := sizingInputs_bounds inputs
  obtain ⟨hrisk, _⟩ := sizingParameters_bounds parameters
  have hdistance : riskDistanceQuote inputs parameters = |inputs.entryQuotePrice - level| := by
    rw [riskDistanceQuote, hlevel]
  rw [h.fixedFractional, hdistance] at hquantity
  rcases (abs_nonneg (inputs.entryQuotePrice - level)).eq_or_lt with hzero | hpos
  · rw [← hzero, mul_zero, h.risk, hlevel]
    exact mul_nonneg hrisk.le hequity
  · rw [if_pos hpos] at hquantity
    exact (le_div_iff₀ hpos).mp hquantity

/-- Where no term is negative every bound holds. -/
theorem sizedWithin_of_assembled (h : Assembled inputs parameters sizing binding)
    (hfixed : 0 ≤ sizing.fixedFractionalBaseQuantity) : SizedWithin inputs sizing := by
  obtain ⟨hentry, _⟩ := sizingInputs_bounds inputs
  obtain ⟨hlattice, hle, hvenue⟩ := venueFiltered_spec inputs (terms_nonneg h hfixed binding h.binds)
  rw [← h.filtered] at hlattice hle hvenue
  have hterms : ∀ term ∈ sizing.terms, sizing.baseQuantity ≤ term.2 :=
    fun term hterm => hle.trans (h.least term hterm)
  refine ⟨hlattice, hterms, fun level hlevel => within_risk h ?_ hlevel, ?_, hvenue⟩
  · exact hterms ("fixed_fractional", _) List.mem_cons_self
  · have hexposure : sizing.baseQuantity ≤ sizing.exposureBaseQuantity :=
      hterms ("exposure", _) (List.mem_cons_of_mem _ (List.mem_cons_of_mem _ List.mem_cons_self))
    rw [h.notional]
    exact (le_div_iff₀ hentry).mp (hexposure.trans h.exposure.le)

end Terms

/-- Sizing keeps every bound exactly where the charge for an unstated stop is not below zero. -/
theorem sizing_keeps_its_bounds_iff (inputs : SizingInputs) (parameters : SizingParameters) :
    (∃ sizing, sizePosition inputs parameters = .ok sizing ∧ SizedWithin inputs sizing) ↔
      PenaltyNonNegative inputs parameters := by
  obtain ⟨sizing, hsized, h⟩ := sizePosition_spec inputs parameters
  rw [← fixedFractional_nonneg_iff h]
  constructor
  · rintro ⟨_, hagain, hwithin⟩
    cases hsized.symm.trans hagain
    obtain ⟨lots, hlots⟩ := hwithin.onLattice
    have hnonneg : 0 ≤ sizing.baseQuantity := by
      rw [hlots]
      exact mul_nonneg (Nat.cast_nonneg lots) inputs.instrument.lotStep_pos.le
    exact hnonneg.trans (hwithin.withinTerms ("fixed_fractional", _) List.mem_cons_self)
  · exact fun hfixed => ⟨sizing, hsized, sizedWithin_of_assembled h hfixed⟩

/-- A long of ten thousand dollars of equity that states no stop. -/
def unstatedStop : SizingInputs where
  instrument := Instrument.sample
  direction := .long
  equityUsd := 10000
  entryQuotePrice := 100
  invalidationQuotePrice := none
  atr14Quote := 2
  returnSeries := []
  volatilityFloorAnnualised := 1 / 2
  closedTradeCount := 0
  realisedMeanReturnFraction := 0
  realisedReturnStdevFraction := 0
  permittedNotionalUsd := 5000
  checked := by decide +kernel

/-- The shipped parameters with the unstated-stop multiplier below zero, which the constructor accepts. -/
def negativePenalty : SizingParameters :=
  ⟨{ unstatedInvalidationRiskMultiplier := -1 / 2 }, by decide +kernel⟩

/-- The long is sized at five coins short. -/
theorem an_unstated_stop_is_sized_backwards :
    (sizePosition unstatedStop negativePenalty).map PositionSizing.baseQuantity = .ok (-5) ∧
      ∀ sizing, sizePosition unstatedStop negativePenalty = .ok sizing →
        ¬SizedWithin unstatedStop sizing := by
  have hquantity : (sizePosition unstatedStop negativePenalty).map PositionSizing.baseQuantity = .ok (-5) := by
    decide +kernel
  refine ⟨hquantity, fun sizing hsized hwithin => ?_⟩
  rw [hsized] at hquantity
  have hnegative : sizing.baseQuantity = -5 := Except.ok.inj hquantity
  obtain ⟨lots, hlots⟩ := hwithin.onLattice
  have hnonneg : (0 : Decimal) ≤ lots * unstatedStop.instrument.lotStep :=
    mul_nonneg (Nat.cast_nonneg lots) unstatedStop.instrument.lotStep_pos.le
  rw [← hlots, hnegative] at hnonneg
  exact absurd hnonneg (by decide)

end FinanceKing.Risk
