import FinanceKing.Lib.Rounding
import FinanceKing.Risk.Calibration

/-! The risk fraction of a calibrated conviction. Quantising keeps the order, so the fraction runs from the
    quantised lower end of the band to the quantised upper one; whether that is inside the band, and positive,
    is a matter of the two ends. -/

namespace FinanceKing.Risk

open Lib Strategies

/-! ### Bounds that are accepted -/

theorem assertBoundsAreObserved_eq_ok {observed : Dict String Decimal} {names : List String} {u : Unit} :
    assertBoundsAreObserved observed names = .ok u ↔ ∀ name ∈ names, (observed.get? name).isSome := by
  have hsorted : sortBy (fun name => name) (names.filter fun name => name ∉ observed.keys) = [] ↔
      names.filter (fun name => name ∉ observed.keys) = [] := by
    have hperm := perm_sortBy (fun name => name) (names.filter fun name => name ∉ observed.keys)
    constructor
    · intro hnil
      exact (hnil ▸ hperm).nil_eq.symm
    · intro hnil
      rw [hnil]
      rfl
  rw [assertBoundsAreObserved, raiseIf_eq_ok, not_not, hsorted, List.filter_eq_nil_iff]
  simp [Dict.mem_keys_iff, Option.isSome_iff_ne_none]

/-- Accepted limits: every bounded one is reported, at or below its ceiling. -/
theorem assertWithinCeilings_eq_ok_iff {observed : Dict String Decimal} {ceilings : List (String × Ceiling)}
    {scope : String} {u : Unit} : assertWithinCeilings observed ceilings scope = .ok u ↔
      ∀ entry ∈ ceilings, ∃ requested, observed.get? entry.1 = some requested ∧
        requested ≤ entry.2.bound := by
  simp only [assertWithinCeilings, bind_eq_ok, refuse_eq_ok, List.filterMap_eq_nil_iff,
    assertBoundsAreObserved_eq_ok, List.forall_mem_map]
  constructor
  · rintro ⟨_, hobserved, hwithin⟩ entry hentry
    obtain ⟨requested, hrequested⟩ := Option.isSome_iff_exists.mp (hobserved entry hentry)
    have hnone := hwithin entry hentry
    rw [hrequested, Option.bind_some, ite_eq_right_iff] at hnone
    refine ⟨requested, hrequested, not_lt.mp fun hlt => ?_⟩
    exact absurd (hnone (decide_eq_true hlt)) (Option.some_ne_none _)
  · intro h
    refine ⟨(), fun entry hentry => ?_, fun entry hentry => ?_⟩
    · obtain ⟨requested, hrequested, _⟩ := h entry hentry
      rw [hrequested]
      rfl
    · obtain ⟨requested, hrequested, hle⟩ := h entry hentry
      rw [hrequested, Option.bind_some, if_neg]
      exact fun hexceeded => (of_decide_eq_true hexceeded).not_ge hle

/-- Limits reported alike where a floor binds are accepted alike. -/
theorem assertAboveFloors_congr {observed other : Dict String Decimal} {floors : List (String × Floor)}
    {scope : String} (h : ∀ entry ∈ floors, observed.get? entry.1 = other.get? entry.1) :
    assertAboveFloors observed floors scope = .ok () ↔ assertAboveFloors other floors scope = .ok () := by
  simp only [assertAboveFloors, bind_eq_ok, refuse_eq_ok, List.filterMap_eq_nil_iff,
    assertBoundsAreObserved_eq_ok, List.forall_mem_map]
  refine exists_congr fun _ => and_congr (forall₂_congr fun entry hentry => ?_)
    (forall₂_congr fun entry hentry => ?_)
  · rw [h entry hentry]
  · rw [h entry hentry]

/-- What the parameters report under a name other than the risk fraction's does not depend on the fraction. -/
theorem boundedValues_get? (fields : SizingParametersFields) (fraction : Decimal) (name : String) :
    { fields with riskFractionPerTrade := fraction }.boundedValues.get? name =
      if name = "risk_fraction_per_trade" then some fraction else fields.boundedValues.get? name := by
  simp only [SizingParametersFields.boundedValues, submittedLimits, List.foldl_cons, List.foldl_nil,
    Dict.get?_set, Dict.get?_empty]
  by_cases hname : name = "risk_fraction_per_trade"
  · subst hname
    simp
  · simp [hname]

/-- A positive fraction of at most one percent is accepted in place of the parameters' own. -/
theorem withRiskFraction_ok (parameters : SizingParameters) {fraction : Decimal} (hpos : 0 < fraction)
    (hle : fraction ≤ 1 / 100) : ∃ accepted, withRiskFraction parameters fraction = .ok accepted := by
  refine ⟨_, construct_ok ?_⟩
  have h := parameters.checked
  simp only [SizingParametersFields.postInit, bind_eq_ok, assertWithinCeilings_eq_ok_iff,
    requirePositive_eq_ok, requireNonNegative_eq_ok, exists_const] at h ⊢
  obtain ⟨hceilings, _, hfloors, _, hbounds⟩ := h
  refine ⟨fun entry hentry => ?_, (), (assertAboveFloors_congr fun entry hentry => ?_).mpr hfloors, hpos, hbounds⟩
  · rw [boundedValues_get?]
    split
    · next hname =>
      refine ⟨fraction, rfl, ?_⟩
      have hbound : ∀ entry ∈ sizingCeilings, entry.1 = "risk_fraction_per_trade" →
          entry.2.bound = 1 / 100 := by with_unfolding_all decide
      rw [hbound entry hentry hname]
      exact hle
    · exact hceilings entry hentry
  · have hname : ∀ entry ∈ sizingFloors, entry.1 ≠ "risk_fraction_per_trade" := by with_unfolding_all decide
    rw [boundedValues_get?, if_neg (hname entry hentry)]

theorem withRiskFraction_pos {parameters accepted : SizingParameters} {fraction : Decimal}
    (h : withRiskFraction parameters fraction = .ok accepted) : 0 < fraction := by
  obtain ⟨hchecked, _⟩ := construct_eq_ok h
  simp only [SizingParametersFields.postInit, bind_eq_ok, requirePositive_eq_ok] at hchecked
  obtain ⟨_, _, _, _, _, hpos, _⟩ := hchecked
  exact hpos

/-! ### The quantised lattice -/

theorem quantized_mono {x y : Decimal} (h : x ≤ y) : quantized x ≤ quantized y :=
  snapHalfEven_mono (by norm_num) h

theorem quantized_idem (x : Decimal) : quantized (quantized x) = quantized x :=
  snapHalfEven_idem (by norm_num) x

theorem quantized_zero : quantized 0 = 0 := by with_unfolding_all decide

theorem quantized_one : quantized 1 = 1 := by with_unfolding_all decide

theorem quantized_hundredth : quantized (1 / 100) = 1 / 100 := by with_unfolding_all decide

/-- A fraction the persisted record holds as it is. -/
structure StorableFraction (candidate : Decimal) : Prop where
  nonneg : 0 ≤ candidate
  le_one : candidate ≤ 1
  onLattice : candidate = quantized candidate

theorem requireStorableFraction_eq_ok {candidate : Decimal} {fieldName : String} {u : Unit} :
    requireStorableFraction candidate fieldName = .ok u ↔ StorableFraction candidate := by
  simp only [requireStorableFraction, bind_eq_ok, raiseIf_eq_ok, not_not, exists_const]
  exact ⟨fun h => ⟨h.1.1, h.1.2, h.2⟩, fun h => ⟨⟨h.nonneg, h.le_one⟩, h.onLattice⟩⟩

/-- Quantising a fraction makes it storable. -/
theorem storable_quantized {x : Decimal} (hnonneg : 0 ≤ x) (hle : x ≤ 1) : StorableFraction (quantized x) where
  nonneg := quantized_zero ▸ quantized_mono hnonneg
  le_one := (quantized_mono hle).trans quantized_one.le
  onLattice := (quantized_idem x).symm

theorem CalibrationBucket.storable (bucket : CalibrationBucket) :
    StorableFraction bucket.calibratedFraction := by
  have h := bucket.checked
  simp only [CalibrationBucketFields.postInit, bind_eq_ok, requireStorableFraction_eq_ok, exists_const] at h
  exact h.2.2.1

/-- A map reads any conviction as a storable fraction. -/
theorem calibrated_spec (map : CalibrationMap) {conviction : Decimal} (hnonneg : 0 ≤ conviction)
    (hle : conviction ≤ 1) : ∃ calibrated, map.calibrated conviction = .ok calibrated ∧
      StorableFraction calibrated := by
  simp only [CalibrationMap.calibrated, bind_eq_ok, requireStorableFraction_eq_ok]
  split
  · next bucket _ => exact ⟨_, ⟨(), storable_quantized hnonneg hle, rfl⟩, bucket.storable⟩
  · split
    · next bucket _ => exact ⟨_, ⟨(), storable_quantized hnonneg hle, rfl⟩, bucket.storable⟩
    · exact ⟨_, ⟨(), storable_quantized hnonneg hle, rfl⟩, storable_quantized (by norm_num) (by norm_num)⟩

/-! ### The fraction -/

section

variable (parameters : ConvictionParameters)

theorem convictionParameters_band :
    parameters.riskFractionMinPerTrade ≤ parameters.riskFractionMaxPerTrade ∧
      parameters.riskFractionMaxPerTrade ≤ 1 / 100 := by
  have h := parameters.checked
  simp only [ConvictionParametersFields.postInit, bind_eq_ok, raiseIf_eq_ok, not_lt,
    assertWithinCeilings_eq_ok_iff, exists_const] at h
  obtain ⟨hceilings, _, _, hband⟩ := h
  refine ⟨hband, ?_⟩
  obtain ⟨requested, hrequested, hle⟩ := hceilings ("risk_fraction_max_per_trade", ⟨1 / 100⟩)
    (by simp [calibrationHardCeilings])
  have hreported : parameters.boundedValues.get? "risk_fraction_max_per_trade" =
      some parameters.riskFractionMaxPerTrade := by
    simp [ConvictionParametersFields.boundedValues, submittedLimits, Dict.get?_set]
  rw [hreported] at hrequested
  obtain rfl := Option.some.inj hrequested
  exact hle

/-- The point of the band a calibrated fraction stands for. -/
def bandPoint (calibrated : Decimal) : Decimal :=
  parameters.riskFractionMinPerTrade +
    calibrated * (parameters.riskFractionMaxPerTrade - parameters.riskFractionMinPerTrade)

/-- A storable fraction buys the quantised point. -/
theorem riskFractionFor_eq {calibrated : Decimal} (h : StorableFraction (quantized calibrated)) :
    riskFractionFor calibrated parameters = .ok (quantized (bandPoint parameters calibrated)) := by
  simp only [riskFractionFor, bind_eq_ok, requireStorableFraction_eq_ok, pure_eq_ok]
  exact ⟨(), h, rfl⟩

theorem riskFractionFor_of_storable {calibrated : Decimal} (h : StorableFraction calibrated) :
    riskFractionFor calibrated parameters = .ok (quantized (bandPoint parameters calibrated)) :=
  riskFractionFor_eq parameters (h.onLattice ▸ h)

theorem bandPoint_mono {low high : Decimal} (h : low ≤ high) :
    bandPoint parameters low ≤ bandPoint parameters high :=
  add_le_add_right (mul_le_mul_of_nonneg_right h (sub_nonneg.mpr (convictionParameters_band parameters).1)) _

theorem bandPoint_zero : bandPoint parameters 0 = parameters.riskFractionMinPerTrade := by
  rw [bandPoint, zero_mul, add_zero]

theorem bandPoint_one : bandPoint parameters 1 = parameters.riskFractionMaxPerTrade := by
  rw [bandPoint, one_mul, add_sub_cancel]

/-- A band that can be used: above zero, and with ends that quantising does not push out of it. -/
structure UsableBand : Prop where
  positive : 0 < parameters.riskFractionMinPerTrade
  lowerEnd : parameters.riskFractionMinPerTrade ≤ quantized parameters.riskFractionMinPerTrade
  upperEnd : quantized parameters.riskFractionMaxPerTrade ≤ parameters.riskFractionMaxPerTrade

end

section

variable {parameters : ConvictionParameters} {calibrated : Decimal}

/-- In a usable band every calibrated fraction buys one that is inside it and that sizing accepts. -/
theorem UsableBand.fraction_mem (h : UsableBand parameters) (hstorable : StorableFraction calibrated) :
    parameters.riskFractionMinPerTrade ≤ quantized (bandPoint parameters calibrated) ∧
      quantized (bandPoint parameters calibrated) ≤ parameters.riskFractionMaxPerTrade := by
  have hlow := quantized_mono (bandPoint_mono parameters hstorable.nonneg)
  have hhigh := quantized_mono (bandPoint_mono parameters hstorable.le_one)
  rw [bandPoint_zero] at hlow
  rw [bandPoint_one] at hhigh
  exact ⟨h.lowerEnd.trans hlow, hhigh.trans h.upperEnd⟩

theorem UsableBand.accepted (h : UsableBand parameters) (hstorable : StorableFraction calibrated)
    (sizing : SizingParameters) : ∃ accepted,
      withRiskFraction sizing (quantized (bandPoint parameters calibrated)) = .ok accepted := by
  obtain ⟨hlow, hhigh⟩ := h.fraction_mem hstorable
  exact withRiskFraction_ok sizing (h.positive.trans_le hlow)
    (hhigh.trans (convictionParameters_band parameters).2)

end

/-- A bucket of every conviction, with one calibrated fraction. -/
def wholeBucket (calibrated : Decimal) : CalibrationBucketFields where
  convictionUpperBound := 1
  tradeCount := 100
  hitRateFraction := 1 / 2
  meanReturnFraction := 0
  fittedReturnFraction := 0
  calibratedFraction := calibrated

/-- A fitted map that calibrates every conviction to nothing. -/
def bottomMap : CalibrationMap :=
  ⟨⟨"breakout", 0, 100, [⟨wholeBucket 0, by decide +kernel⟩]⟩, by decide +kernel⟩

/-- A fitted map that calibrates every conviction to certainty. -/
def topMap : CalibrationMap :=
  ⟨⟨"breakout", 0, 100, [⟨wholeBucket 1, by decide +kernel⟩]⟩, by decide +kernel⟩

end FinanceKing.Risk
