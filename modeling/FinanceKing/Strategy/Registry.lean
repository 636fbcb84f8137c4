import FinanceKing.Data.Features.Registry
import FinanceKing.Strategy.Runner

/-! The registry of strategies. Registration refuses a specification whose features the catalogue does not
    declare, or whose warm-up is worth less than the deepest look-back among them. -/

namespace FinanceKing.Strategies

open Lib Data.Features

def FeatureRequirement.key (self : FeatureRequirement) : String × ℤ :=
  (self.featureName, self.featureVersion)

/-- What the constructor established of the series and the features declared. -/
structure StrategySpec.Facts (spec : StrategySpec) : Prop where
  instruments : spec.instruments ≠ []
  symbols : spec.symbols.Nodup
  intervals : spec.barIntervals ≠ []
  positive : ∀ interval ∈ spec.barIntervals, 0 < interval
  distinct : spec.barIntervals.Nodup
  features : spec.requiredFeatures.Nodup

namespace StrategySpec

variable (self : StrategySpec)

/-- The registry key: versions of one strategy coexist. -/
def key : String × ℤ := (self.strategyId, self.strategyVersion)

/-- The shortest interval declared, which is what `warmUpDuration` is measured against. -/
def shortestBarInterval : TimeDelta := self.barIntervals.min?.getD 0

/-- How much history the warm-up is worth, at the shortest declared interval. -/
def warmUpDuration : TimeDelta := self.shortestBarInterval * self.warmUpBars

theorem facts : Facts self := by
  have h := self.checked
  simp only [StrategySpecFields.postInit, bind_eq_ok, StrategySpecFields.requireDeclaredInstruments,
    StrategySpecFields.requireDeclaredIntervals, StrategySpecFields.requireDistinctFeatures,
    raiseIf_eq_ok, not_not] at h
  obtain ⟨_, _, _, _, _, _, _, _, _, _, _, _, _, ⟨_, hinstruments, hsymbols⟩, _,
    ⟨_, hintervals, ⟨⟩, hpositive, hdistinct⟩, hfeatures⟩ := h
  refine ⟨hinstruments, hsymbols, hintervals, ?_, hdistinct, hfeatures⟩
  intro interval hmem
  have hchecked := forM_eq_ok.mp hpositive interval hmem
  simp only [requirePositiveDuration, raiseIf_eq_ok, not_le] at hchecked
  exact hchecked

theorem shortestBarInterval_le {interval : TimeDelta} (h : interval ∈ self.barIntervals) :
    self.shortestBarInterval ≤ interval := by
  rw [shortestBarInterval]
  cases hmin : self.barIntervals.min? with
  | none => exact absurd h (by rw [List.min?_eq_none_iff.mp hmin]; exact List.not_mem_nil)
  | some shortest => exact (List.min?_eq_some_iff.mp hmin).2 interval h

end StrategySpec

/-- The shape of the feature registry, handed in by the caller. -/
abbrev FeatureCatalogue := Dict (String × ℤ) FeatureSpec

/-- The deeper of the deepest look-back so far and a requirement's own, with the phrase that names it. -/
def deeper (features : FeatureCatalogue) (deepest : TimeDelta × String)
    (requirement : FeatureRequirement) : PyResult (TimeDelta × String) :=
  match features.get? requirement.key with
  | none => raise .keyError [.quoted requirement.featureName, .count requirement.featureVersion]
  | some feature =>
    .ok (if deepest.1 < feature.lookback then (feature.lookback, requirement.describe) else deepest)

/-- The strategies validated against a feature catalogue. -/
structure StrategyRegistry where
  features : FeatureCatalogue
  byKey : Dict (String × ℤ) Strategy

namespace StrategyRegistry

variable (self : StrategyRegistry)

def requireAvailableFeatures (spec : StrategySpec) : PyResult Unit :=
  let absent := spec.requiredFeatures.filter fun requirement => requirement.key ∉ self.features.keys
  raiseIf (absent ≠ []) .featureUnavailable
    [spec.describe, " requires ", named absent, ", which the feature registry does not declare. It ",
      "declares ", .texts (sortBy id (self.features.keys.map fun (name, version) =>
        name ++ " v" ++ toString version)), ". Register the feature with a lookback, an availability lag ",
      "and a point-in-time proof, or change what the strategy asks for; nothing is substituted and no ",
      "partial series is returned"]

def requireWarmUpCoversLookbacks (spec : StrategySpec) : PyResult Unit := do
  let deepest ← spec.requiredFeatures.foldlM (deeper self.features) (0, "")
  raiseIf (spec.warmUpDuration < deepest.1) .strategyContract
    [spec.describe, " declares a warm-up of ", .count spec.warmUpBars, " bars at ",
      .span spec.shortestBarInterval, ", worth ", .span spec.warmUpDuration, ", and requires ", deepest.2,
      " whose declared lookback is ", .span deepest.1, ". Every value inside that shortfall would be ",
      "computed from a shorter window than the feature declares, which is not an error anywhere -- it is ",
      "a different feature wearing the registered one's name"]

/-- Validate a strategy's specification and admit it. -/
def register (strategy : Strategy) : PyResult StrategyRegistry := do
  let spec := strategy.spec
  raiseIf (spec.key ∈ self.byKey.keys) .duplicateStrategy
    [spec.describe, " is already registered; the id and version pair is what a survival score, a lineage ",
      "edge and an audit row all key on, so two strategies sharing one would attribute one's record to ",
      "the other"]
  self.requireAvailableFeatures spec
  self.requireWarmUpCoversLookbacks spec
  return { self with byKey := self.byKey.set spec.key strategy }

/-- The strategy of one id and version. -/
def resolve (strategyId : String) (strategyVersion : ℤ) : PyResult Strategy :=
  match self.byKey.get? (strategyId, strategyVersion) with
  | some strategy => .ok strategy
  | none => raise .strategyContract
      ["no strategy ", .quoted strategyId, " at version ", .count strategyVersion,
        " is registered; registered strategies are ", .texts (sortBy id (self.byKey.keys.map fun key =>
          key.1 ++ " v" ++ toString key.2))]

end StrategyRegistry

/-! ### What registration establishes -/

/-- The look-backs met by the loop over the requirements stay below the deepest of them. -/
theorem foldlM_deeper {features : FeatureCatalogue} : ∀ {requirements : List FeatureRequirement}
    {start deepest : TimeDelta × String}, requirements.foldlM (deeper features) start = .ok deepest →
    start.1 ≤ deepest.1 ∧ ∀ requirement ∈ requirements, ∃ feature,
      features.get? requirement.key = some feature ∧ feature.lookback ≤ deepest.1
  | [], start, deepest, h => by
    rw [List.foldlM_nil, pure_eq_ok] at h
    exact ⟨h ▸ le_rfl, fun _ hrequired => absurd hrequired List.not_mem_nil⟩
  | requirement :: requirements, start, deepest, h => by
    rw [List.foldlM_cons, bind_eq_ok] at h
    obtain ⟨next, hnext, hrest⟩ := h
    obtain ⟨hreached, hothers⟩ := foldlM_deeper hrest
    rw [deeper] at hnext
    split at hnext
    · exact absurd hnext raise_ne_ok
    · next feature hfeature =>
      have hstart : start.1 ≤ next.1 ∧ feature.lookback ≤ next.1 := by
        rw [← Except.ok.inj hnext]
        split
        · next hless => exact ⟨hless.le, le_rfl⟩
        · next hless => exact ⟨le_rfl, not_lt.mp hless⟩
      refine ⟨hstart.1.trans hreached, List.forall_mem_cons.mpr ⟨?_, hothers⟩⟩
      exact ⟨feature, hfeature, hstart.2.trans hreached⟩

/-- Every look-back of a registered specification is worth its warm-up at the shortest interval. -/
theorem StrategyRegistry.register_covers {registry registered : StrategyRegistry} {strategy : Strategy}
    (h : registry.register strategy = .ok registered) :
    ∀ requirement ∈ strategy.spec.requiredFeatures, ∃ feature,
      registry.features.get? requirement.key = some feature ∧
        feature.lookback ≤ strategy.spec.warmUpDuration := by
  simp only [StrategyRegistry.register, StrategyRegistry.requireWarmUpCoversLookbacks, bind_eq_ok,
    raiseIf_eq_ok, not_lt] at h
  obtain ⟨_, _, _, _, _, ⟨deepest, hdeepest, hcovered⟩, _⟩ := h
  intro requirement hrequired
  obtain ⟨feature, hfeature, hlookback⟩ := (foldlM_deeper hdeepest).2 requirement hrequired
  exact ⟨feature, hfeature, hlookback.trans hcovered⟩

/-- An admitted strategy is the one its key resolves to. -/
theorem StrategyRegistry.register_resolve {registry registered : StrategyRegistry} {strategy : Strategy}
    (h : registry.register strategy = .ok registered) :
    registered.resolve strategy.spec.strategyId strategy.spec.strategyVersion = .ok strategy := by
  simp only [StrategyRegistry.register, bind_eq_ok, pure_eq_ok] at h
  obtain ⟨_, _, _, _, _, _, rfl⟩ := h
  rw [StrategyRegistry.resolve, show (strategy.spec.strategyId, strategy.spec.strategyVersion) =
    strategy.spec.key from rfl, Dict.get?_set_self]

end FinanceKing.Strategies
