import FinanceKing.Strategy.Runner

/-! The level at which a thesis is wrong bounds the size of a position. It lies on the far side of the
    reference, at least the declared distance away and less than a tick further, and no run emits another one. -/

namespace FinanceKing.Strategies

open Lib

/-! ### The distance -/

namespace InvalidationRule

variable (self : InvalidationRule)

/-- The largest distance the rule produces: a fixed fraction is its own cap. -/
def cap : Decimal := self.maximumAdverseMoveFraction.getD self.adverseMoveFraction

theorem floor_pos : 0 < self.adverseMoveFraction := by
  have h := self.checked
  simp only [InvalidationRuleFields.postInit, requireOpenUnitFraction, bind_eq_ok, raiseIf_eq_ok, not_not] at h
  obtain ⟨_, hfraction, _⟩ := h
  exact hfraction.1

theorem floor_lt_one : self.adverseMoveFraction < 1 := by
  have h := self.checked
  simp only [InvalidationRuleFields.postInit, requireOpenUnitFraction, bind_eq_ok, raiseIf_eq_ok, not_not] at h
  obtain ⟨_, hfraction, _⟩ := h
  exact hfraction.2

/-- A scaled rule has a positive multiple and a cap between its floor and one. -/
theorem scaled_facts {scalingFeature : FeatureRequirement} (hscaled : self.scalingFeature = some scalingFeature) :
    0 < self.scalingMultiple ∧ ∃ maximum, self.maximumAdverseMoveFraction = some maximum ∧
      self.adverseMoveFraction ≤ maximum ∧ maximum < 1 := by
  have h := self.checked
  simp only [InvalidationRuleFields.postInit, requireScaling, bind_eq_ok, hscaled, raiseIf_eq_ok, not_le] at h
  obtain ⟨_, _, _, hmultiple, hcap⟩ := h
  refine ⟨hmultiple, ?_⟩
  rw [requireCap] at hcap
  split at hcap
  · cases hcap
  · next maximum hmaximum =>
    simp only [requireOpenUnitFraction, bind_eq_ok, raiseIf_eq_ok, not_not, not_lt] at hcap
    obtain ⟨_, hunit, hordered⟩ := hcap
    exact ⟨maximum, hmaximum, hordered, hunit.2⟩

theorem clamp_eq {maximum : Decimal} (hmaximum : self.maximumAdverseMoveFraction = some maximum)
    (hordered : self.adverseMoveFraction ≤ maximum) (scaled : Decimal) :
    self.clamp scaled = min maximum (max self.adverseMoveFraction scaled) := by
  rw [clamp, hmaximum]
  split
  · next hbelow => rw [max_eq_left hbelow.le, min_eq_right hordered]
  · next hbelow =>
    rw [max_eq_right (not_lt.mp hbelow)]
    dsimp only
    split
    · next habove => rw [min_eq_left habove.le]
    · next habove => rw [min_eq_right (not_lt.mp habove)]

/-- Every distance is between the floor and the cap, which is below one. -/
theorem adverseMoveFractionFor_bounds {featureValues : FeatureValues} {distance : Decimal}
    (h : self.adverseMoveFractionFor featureValues = .ok distance) :
    self.adverseMoveFraction ≤ distance ∧ distance ≤ self.cap ∧ self.cap < 1 := by
  rw [adverseMoveFractionFor] at h
  split at h
  · next hfixed =>
    obtain rfl := Except.ok.inj h
    have hchecked := self.checked
    simp only [InvalidationRuleFields.postInit, requireScaling, bind_eq_ok, hfixed, raiseIf_eq_ok] at hchecked
    obtain ⟨_, _, _, _, hnone⟩ := hchecked
    rw [cap, Option.not_isSome_iff_eq_none.mp hnone, Option.getD_none]
    exact ⟨le_rfl, le_rfl, self.floor_lt_one⟩
  · next scalingFeature hscaled =>
    obtain ⟨_, maximum, hmaximum, hordered, hone⟩ := self.scaled_facts hscaled
    rw [cap, hmaximum, Option.getD_some]
    split at h
    · cases h
    · next observed _ =>
      split at h
      · cases h
      · obtain rfl := Except.ok.inj h
        rw [self.clamp_eq hmaximum hordered]
        exact ⟨le_min hordered (le_max_left _ _), min_le_left _ _, hone⟩

/-- A larger value of the scaling feature never gives a smaller distance. -/
theorem adverseMoveFractionFor_mono {scalingFeature : FeatureRequirement}
    (hscaled : self.scalingFeature = some scalingFeature) {values others : FeatureValues}
    {observed other distance otherDistance : Decimal} (hvalue : values.get? scalingFeature = some observed)
    (hother : others.get? scalingFeature = some other) (hle : observed ≤ other)
    (hdistance : self.adverseMoveFractionFor values = .ok distance)
    (hotherDistance : self.adverseMoveFractionFor others = .ok otherDistance) : distance ≤ otherDistance := by
  obtain ⟨hmultiple, maximum, hmaximum, hordered, _⟩ := self.scaled_facts hscaled
  have hclamped : ∀ {supplied : FeatureValues} {seen result : Decimal},
      supplied.get? scalingFeature = some seen → self.adverseMoveFractionFor supplied = .ok result →
        result = min maximum (max self.adverseMoveFraction (self.scalingMultiple * seen)) := by
    intro supplied seen result hseen hresult
    simp only [adverseMoveFractionFor, hscaled, hseen] at hresult
    split at hresult
    · cases hresult
    · rw [← self.clamp_eq hmaximum hordered]
      exact (Except.ok.inj hresult).symm
  rw [hclamped hvalue hdistance, hclamped hother hotherDistance]
  exact min_le_min_left _ (max_le_max_left _ (mul_le_mul_of_nonneg_left hle hmultiple.le))

end InvalidationRule

/-! ### The level -/

/-- What a level is to the reference it was taken at. -/
structure LevelFacts (rule : InvalidationRule) (direction : Direction) (reference : Decimal)
    (instrument : Instrument) (featureValues : FeatureValues) (level : Decimal) : Prop where
  below : direction = .long → level < reference
  above : direction = .short → reference < level
  ticks : ∃ ticks : ℕ, 0 < ticks ∧ level = ticks * instrument.tickSize
  away : ∃ distance, rule.adverseMoveFractionFor featureValues = .ok distance ∧
    rule.adverseMoveFraction ≤ distance ∧ distance ≤ rule.cap ∧
    distance * reference ≤ |level - reference| ∧
    |level - reference| < distance * reference + instrument.tickSize

/-- A positive whole number of ticks is a count of them. -/
theorem exists_ticks {instrument : Instrument} {n : ℤ} (h : 0 < (n : Decimal) * instrument.tickSize) :
    ∃ ticks : ℕ, 0 < ticks ∧ (n : Decimal) * instrument.tickSize = ticks * instrument.tickSize := by
  have hn : 0 < n := by exact_mod_cast (pos_iff_pos_of_mul_pos h).mpr instrument.tickSize_pos
  lift n to ℕ using hn.le
  exact ⟨n, by exact_mod_cast hn, by norm_num⟩

theorem floor_level_bounds {tick : Decimal} (raw : Decimal) (htick : 0 < tick) :
    (⌊raw / tick⌋ : Decimal) * tick ≤ raw ∧ raw < (⌊raw / tick⌋ : Decimal) * tick + tick := by
  have hle := mul_le_mul_of_nonneg_right (Int.floor_le (raw / tick)) htick.le
  have hlt := mul_lt_mul_of_pos_right (Int.lt_floor_add_one (raw / tick)) htick
  rw [div_mul_cancel₀ raw htick.ne'] at hle hlt
  exact ⟨hle, by linarith⟩

theorem ceil_level_bounds {tick : Decimal} (raw : Decimal) (htick : 0 < tick) :
    raw ≤ (⌈raw / tick⌉ : Decimal) * tick ∧ (⌈raw / tick⌉ : Decimal) * tick < raw + tick := by
  have hle := mul_le_mul_of_nonneg_right (Int.le_ceil (raw / tick)) htick.le
  have hlt := mul_lt_mul_of_pos_right (Int.ceil_lt_add_one (raw / tick)) htick
  rw [div_mul_cancel₀ raw htick.ne'] at hle
  rw [add_mul, div_mul_cancel₀ raw htick.ne', one_mul] at hlt
  exact ⟨hle, hlt⟩

/-- Either side is snapped away from the reference, by less than a tick. -/
theorem levelFacts_of_levelFor {rule : InvalidationRule} {direction : Direction} {reference : Decimal}
    {instrument : Instrument} {featureValues : FeatureValues} {level : Decimal}
    (h : rule.levelFor direction reference instrument featureValues = .ok level) :
    LevelFacts rule direction reference instrument featureValues level := by
  simp only [InvalidationRule.levelFor, bind_eq_ok, raiseIf_eq_ok, not_le, pure_eq_ok] at h
  obtain ⟨_, hdirection, _, hreference, distance, hdistance, _, hpositive, rfl⟩ := h
  obtain ⟨hfloor, hcap, hone⟩ := rule.adverseMoveFractionFor_bounds hdistance
  have hmove : 0 < distance * reference := mul_pos (rule.floor_pos.trans_le hfloor) hreference
  cases direction with
  | flat => exact absurd rfl hdirection
  | long =>
    have hraw : 0 ≤ reference * (1 - distance) := mul_nonneg hreference.le (by linarith)
    have hsnapped : InvalidationRule.snappedLevel .long reference distance instrument =
        (⌊reference * (1 - distance) / instrument.tickSize⌋ : Decimal) * instrument.tickSize := by
      change instrument.quantizeQuotePrice (reference * (1 - distance)) .buy = _
      rw [Instrument.quantizeQuotePrice, snapWith,
        roundTowardZero_of_nonneg (div_nonneg hraw instrument.tickSize_pos.le)]
    rw [hsnapped] at hpositive ⊢
    obtain ⟨hle, hlt⟩ := floor_level_bounds (reference * (1 - distance)) instrument.tickSize_pos
    have hbelow : (⌊reference * (1 - distance) / instrument.tickSize⌋ : Decimal) * instrument.tickSize <
        reference := by linarith
    refine ⟨fun _ => hbelow, fun hshort => absurd hshort (by decide), exists_ticks hpositive, distance, hdistance, hfloor, hcap, ?_, ?_⟩
    · rw [abs_of_neg (sub_neg.mpr hbelow)]
      linarith
    · rw [abs_of_neg (sub_neg.mpr hbelow)]
      linarith
  | short =>
    have hraw : 0 ≤ reference * (1 + distance) := by nlinarith
    have hsnapped : InvalidationRule.snappedLevel .short reference distance instrument =
        (⌈reference * (1 + distance) / instrument.tickSize⌉ : Decimal) * instrument.tickSize := by
      change instrument.quantizeQuotePrice (reference * (1 + distance)) .sell = _
      rw [Instrument.quantizeQuotePrice, snapWith, roundAwayFromZero,
        if_pos (div_nonneg hraw instrument.tickSize_pos.le)]
    rw [hsnapped] at hpositive ⊢
    obtain ⟨hle, hlt⟩ := ceil_level_bounds (reference * (1 + distance)) instrument.tickSize_pos
    have habove : reference <
        (⌈reference * (1 + distance) / instrument.tickSize⌉ : Decimal) * instrument.tickSize := by linarith
    refine ⟨fun hlong => absurd hlong (by decide), fun _ => habove, exists_ticks hpositive, distance, hdistance, hfloor, hcap, ?_, ?_⟩
    · rw [abs_of_pos (sub_pos.mpr habove)]
      linarith
    · rw [abs_of_pos (sub_pos.mpr habove)]
      linarith

/-! ### Runs -/

/-- What the runner is handed with a bar. -/
structure StepInput where
  bar : Bar
  asOf : DateTime
  supply : Supply

/-- A signal that left the runner, with what it was decided on. -/
structure Emission where
  input : StepInput
  signal : Signal

/-- The signals of a run of `step`, each with the bar it was decided on. -/
def emissions (strategy : Strategy) : StrategyState → List StepInput → PyResult (List Emission)
  | _, [] => .ok []
  | state, input :: inputs => do
    let outcome ← step strategy state input.bar input.asOf input.supply
    let later ← emissions strategy outcome.state inputs
    return outcome.signal.toList.map (fun signal => ⟨input, signal⟩) ++ later

/-- A signal that asserts something carries the level that the declared rule gives at the bar's close. -/
def CarriesDeclaredLevel (rule : InvalidationRule) (emission : Emission) : Prop :=
  emission.signal.direction ≠ .flat → ∃ level,
    rule.levelFor emission.signal.direction emission.input.bar.closeQuotePrice emission.input.bar.instrument
      emission.input.supply.featureValues = .ok level ∧
    emission.signal.instrument = emission.input.bar.instrument ∧
    emission.signal.invalidationQuotePrice = some level

theorem step_carriesDeclaredLevel {strategy : Strategy} {state : StrategyState} {input : StepInput}
    {outcome : StrategyStep} (h : step strategy state input.bar input.asOf input.supply = .ok outcome)
    {signal : Signal} (hsignal : outcome.signal = some signal) :
    CarriesDeclaredLevel strategy.spec.invalidation ⟨input, signal⟩ := by
  intro hdirection
  simp only [step, bind_eq_ok] at h
  obtain ⟨_, _, _, _, _, _, advanced, _, h⟩ := h
  split at h
  · rw [pure_eq_ok] at h
    rw [← h] at hsignal
    cases hsignal
  · rw [decideSignal] at h
    dsimp only at h
    split at h
    · rw [pure_eq_ok] at h
      rw [← h] at hsignal
      cases hsignal
    · simp only [bind_eq_ok, pure_eq_ok] at h
      obtain ⟨_, _, _, hmatches, rfl⟩ := h
      have hmatch := forM_eq_ok.mp hmatches signal (Option.mem_toList.mpr hsignal)
      simp only [requireSignalMatchesSpec, requireDeclaredInvalidation, if_neg hdirection, bind_eq_ok,
        raiseIf_eq_ok, not_not] at hmatch
      obtain ⟨_, _, _, hinstrument, _, _, _, _, level, hlevel, hcarried⟩ := hmatch
      exact ⟨level, hlevel, hinstrument, hcarried⟩

theorem emissions_carryDeclaredLevel {strategy : Strategy} : ∀ {inputs : List StepInput}
    {state : StrategyState} {emitted : List Emission}, emissions strategy state inputs = .ok emitted →
    ∀ emission ∈ emitted, CarriesDeclaredLevel strategy.spec.invalidation emission
  | [], _, emitted, h, emission, hemission => by
    obtain rfl := Except.ok.inj h
    cases hemission
  | input :: inputs, state, emitted, h, emission, hemission => by
    simp only [emissions, bind_eq_ok, pure_eq_ok] at h
    obtain ⟨outcome, hstep, later, hlater, rfl⟩ := h
    rcases List.mem_append.mp hemission with hnow | hafter
    · obtain ⟨signal, hsignal, rfl⟩ := List.mem_map.mp hnow
      exact step_carriesDeclaredLevel hstep (Option.mem_toList.mp hsignal)
    · exact emissions_carryDeclaredLevel hlater emission hafter

/-- What a rule declares about every level it gives, and about how far away it is. -/
structure DeclaredLevels (rule : InvalidationRule) : Prop where
  level : ∀ direction reference instrument featureValues level,
    rule.levelFor direction reference instrument featureValues = .ok level →
      LevelFacts rule direction reference instrument featureValues level
  monotone : ∀ scalingFeature, rule.scalingFeature = some scalingFeature →
    ∀ (values others : FeatureValues) (observed other distance otherDistance : Decimal),
      values.get? scalingFeature = some observed → others.get? scalingFeature = some other →
      observed ≤ other → rule.adverseMoveFractionFor values = .ok distance →
      rule.adverseMoveFractionFor others = .ok otherDistance → distance ≤ otherDistance
  emitted : ∀ (strategy : Strategy), strategy.spec.invalidation = rule →
    ∀ state inputs emitted, emissions strategy state inputs = .ok emitted →
      ∀ emission ∈ emitted, CarriesDeclaredLevel rule emission

/-- The level of every rule is on the far side, at the declared distance and less than a tick further; and no
    run of the runner emits a directional signal with another level. -/
theorem declared_levels_hold (rule : InvalidationRule) : DeclaredLevels rule where
  level _ _ _ _ _ h := levelFacts_of_levelFor h
  monotone _ hscaled _ _ _ _ _ _ hvalue hother hle hdistance hotherDistance :=
    rule.adverseMoveFractionFor_mono hscaled hvalue hother hle hdistance hotherDistance
  emitted _ hrule _ _ _ h emission hemission :=
    hrule ▸ emissions_carryDeclaredLevel h emission hemission

end FinanceKing.Strategies
