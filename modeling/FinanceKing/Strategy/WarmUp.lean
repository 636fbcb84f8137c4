import FinanceKing.Strategy.FeedAcceptance
import FinanceKing.Strategy.Registry

/-! How much history stands behind an evaluation. Registration measures the warm-up in bars of one series;
    the runner counts the bars of every series in one counter. -/

namespace FinanceKing.Strategies

open Lib

/-! ### Where `evaluate` is called -/

/-- One call of the runner: a bar, what the clock reads, and what the caller supplies. -/
structure Observation where
  bar : Bar
  asOf : DateTime
  supply : Supply

/-- The instrument and the interval a bar is of. -/
def Observation.series (self : Observation) : Instrument × TimeDelta :=
  (self.bar.instrument, self.bar.closeTimeUtc - self.bar.openTimeUtc)

/-- A consumed bar: the state after it, the required features withheld, and whether `evaluate` is called. -/
structure Prepared where
  advanced : StrategyState
  blocking : List FeatureRequirement
  evaluates : Bool

/-- A step up to the call of `evaluate`. -/
def prepare (spec : StrategySpec) (state : StrategyState) (observed : Observation) :
    PyResult Prepared := do
  requireDeclaredObservation spec observed.bar observed.asOf state
  requireKnownRequirements spec observed.supply.featureValues
  requireDeclarableUnavailability spec observed.supply.featureValues observed.supply.unavailableFeatures
  let advanced ← state.advancedWith observed.bar observed.supply.featureValues (spec.warmUpBars + 1)
  if advanced.barsConsumed < spec.warmUpBars then return ⟨advanced, [], false⟩
  let blocking := spec.requiredFeatures.filter fun requirement =>
    requirement ∈ observed.supply.unavailableFeatures
  if blocking ≠ [] then return ⟨advanced, blocking, false⟩
  requireEveryDeclaredFeature spec observed.supply.featureValues
  return ⟨advanced, [], true⟩

/-- A step from the call of `evaluate` on. -/
def conclude (strategy : Strategy) (observed : Observation) (prepared : Prepared) :
    PyResult StrategyStep :=
  if prepared.evaluates then do
    let signal := strategy.evaluate prepared.advanced observed.bar observed.asOf
    signal.toList.forM fun emitted =>
      requireSignalMatchesSpec strategy.spec emitted observed.bar observed.asOf
        observed.supply.featureValues
    return ⟨prepared.advanced, signal, []⟩
  else return ⟨prepared.advanced, none, prepared.blocking⟩

/-- The step of one observation. -/
def observe (strategy : Strategy) (state : StrategyState) (observed : Observation) :
    PyResult StrategyStep :=
  step strategy state observed.bar observed.asOf observed.supply

theorem observe_eq (strategy : Strategy) (state : StrategyState) (observed : Observation) :
    observe strategy state observed =
      prepare strategy.spec state observed >>= conclude strategy observed := by
  simp only [observe, step, prepare, bind_assoc]
  congr 1; funext _
  congr 1; funext _
  congr 1; funext _
  congr 1; funext advanced
  split
  · rfl
  · rw [decideSignal]
    split
    · rfl
    · rw [bind_assoc]
      rfl

/-- The observations of a run one after another. -/
def drive (strategy : Strategy) : StrategyState → List Observation → PyResult StrategyState
  | state, [] => .ok state
  | state, observed :: later => do
    let outcome ← observe strategy state observed
    drive strategy outcome.state later

/-- The bars of one series among the observations. -/
def seriesBars (series : Instrument × TimeDelta) (observations : List Observation) : ℤ :=
  observations.countP fun observed => observed.series = series

/-- The warm-up stands behind an observation: its own series has that many bars, worth every look-back. -/
structure WarmedUp (features : FeatureCatalogue) (spec : StrategySpec) (earlier : List Observation)
    (observed : Observation) : Prop where
  bars : spec.warmUpBars ≤ seriesBars observed.series (earlier ++ [observed])
  history : ∀ requirement ∈ spec.requiredFeatures, ∃ feature,
    features.get? requirement.key = some feature ∧
      feature.lookback ≤ observed.series.2 * seriesBars observed.series (earlier ++ [observed])

/-- Every evaluation of an accepted run has its warm-up behind it, and so has every signal. -/
structure WarmsUp (features : FeatureCatalogue) (strategy : Strategy) : Prop where
  evaluations : ∀ seed earlier state observed prepared,
    drive strategy (initialState seed) earlier = .ok state →
    prepare strategy.spec state observed = .ok prepared → prepared.evaluates = true →
    WarmedUp features strategy.spec earlier observed
  signals : ∀ seed earlier state observed outcome,
    drive strategy (initialState seed) earlier = .ok state →
    observe strategy state observed = .ok outcome → outcome.signal ≠ none →
    WarmedUp features strategy.spec earlier observed

/-! ### What a step consumes -/

/-- What a bar the runner accepts is, and what its step leaves. -/
structure Prepares (spec : StrategySpec) (state : StrategyState) (observed : Observation)
    (prepared : Prepared) : Prop where
  instrument : observed.series.1 ∈ spec.instruments
  interval : observed.series.2 ∈ spec.barIntervals
  consumed : prepared.advanced.barsConsumed = state.barsConsumed + 1
  warmedUp : prepared.evaluates = true → spec.warmUpBars ≤ prepared.advanced.barsConsumed

theorem advancedWith_consumed {state advanced : StrategyState} {bar : Bar}
    {featureValues : FeatureValues} {windowBars : ℤ}
    (h : state.advancedWith bar featureValues windowBars = .ok advanced) :
    advanced.barsConsumed = state.barsConsumed + 1 := by
  obtain ⟨_, rfl⟩ := construct_eq_ok h
  rfl

theorem prepare_facts {spec : StrategySpec} {state : StrategyState} {observed : Observation}
    {prepared : Prepared} (h : prepare spec state observed = .ok prepared) :
    Prepares spec state observed prepared := by
  simp only [prepare, bind_eq_ok] at h
  obtain ⟨_, hdeclared, _, _, _, _, advanced, hadvanced, hrest⟩ := h
  simp only [requireDeclaredObservation, bind_eq_ok, raiseIf_eq_ok, not_not] at hdeclared
  obtain ⟨_, hinstrument, _, hinterval, _⟩ := hdeclared
  have hconsumed := advancedWith_consumed hadvanced
  have hprepared : prepared.advanced = advanced ∧
      (prepared.evaluates = true → spec.warmUpBars ≤ advanced.barsConsumed) := by
    split at hrest
    · rw [← Except.ok.inj hrest]
      exact ⟨rfl, fun hcalled => absurd hcalled Bool.false_ne_true⟩
    · next hwarm =>
      refine ⟨?_, fun _ => not_lt.mp hwarm⟩
      split at hrest
      · rw [← Except.ok.inj hrest]
      · simp only [bind_eq_ok, pure_eq_ok] at hrest
        obtain ⟨_, _, rfl⟩ := hrest
        rfl
  exact ⟨of_decide_eq_true hinstrument, of_decide_eq_true hinterval, hprepared.1 ▸ hconsumed,
    fun hcalled => hprepared.1 ▸ hprepared.2 hcalled⟩

theorem conclude_facts {strategy : Strategy} {observed : Observation} {prepared : Prepared}
    {outcome : StrategyStep} (h : conclude strategy observed prepared = .ok outcome) :
    outcome.state = prepared.advanced ∧ (outcome.signal ≠ none → prepared.evaluates = true) := by
  rw [conclude] at h
  split at h
  · next hcalled =>
    simp only [bind_eq_ok, pure_eq_ok] at h
    obtain ⟨_, _, rfl⟩ := h
    exact ⟨rfl, fun _ => hcalled⟩
  · rw [← Except.ok.inj h]
    exact ⟨rfl, fun hsignal => absurd rfl hsignal⟩

/-- One counter for all the series: a run consumes as many bars as it observes, each of a declared series. -/
theorem drive_facts {strategy : Strategy} : ∀ {observations : List Observation}
    {state after : StrategyState}, drive strategy state observations = .ok after →
    after.barsConsumed = state.barsConsumed + observations.length ∧
      ∀ observed ∈ observations, observed.series.1 ∈ strategy.spec.instruments ∧
        observed.series.2 ∈ strategy.spec.barIntervals
  | [], state, after, h => by
    rw [← Except.ok.inj h]
    exact ⟨by simp, fun _ hmem => absurd hmem List.not_mem_nil⟩
  | observed :: later, state, after, h => by
    rw [drive, bind_eq_ok] at h
    obtain ⟨outcome, hobserved, hlater⟩ := h
    rw [observe_eq, bind_eq_ok] at hobserved
    obtain ⟨prepared, hprepared, hconcluded⟩ := hobserved
    have hfacts := prepare_facts hprepared
    obtain ⟨hstate, _⟩ := conclude_facts hconcluded
    obtain ⟨hconsumed, hdeclared⟩ := drive_facts hlater
    refine ⟨?_, List.forall_mem_cons.mpr ⟨⟨hfacts.instrument, hfacts.interval⟩, hdeclared⟩⟩
    rw [hconsumed, hstate, hfacts.consumed, List.length_cons]
    push_cast
    ring

/-! ### Runs over one series -/

theorem seriesBars_nonneg (series : Instrument × TimeDelta) (observations : List Observation) :
    0 ≤ seriesBars series observations := Int.natCast_nonneg _

theorem seriesBars_concat_self (earlier : List Observation) (observed : Observation) :
    seriesBars observed.series (earlier ++ [observed]) = seriesBars observed.series earlier + 1 := by
  simp [seriesBars, List.countP_append]

theorem seriesBars_of_forall {series : Instrument × TimeDelta} {observations : List Observation}
    (h : ∀ observed ∈ observations, observed.series = series) :
    seriesBars series observations = observations.length := by
  rw [seriesBars, List.countP_eq_length.mpr fun observed hmem => decide_eq_true (h observed hmem)]

/-- Enough bars of a declared series are worth every look-back registration checked. -/
theorem warmedUp_of_bars {registry registered : StrategyRegistry} {strategy : Strategy}
    {earlier : List Observation} {observed : Observation}
    (hregister : registry.register strategy = .ok registered)
    (hinterval : observed.series.2 ∈ strategy.spec.barIntervals)
    (hbars : strategy.spec.warmUpBars ≤ seriesBars observed.series (earlier ++ [observed])) :
    WarmedUp registry.features strategy.spec earlier observed := by
  refine ⟨hbars, fun requirement hrequired => ?_⟩
  obtain ⟨feature, hfeature, hlookback⟩ :=
    StrategyRegistry.register_covers hregister requirement hrequired
  refine ⟨feature, hfeature, ?_⟩
  have hshortest := strategy.spec.shortestBarInterval_le hinterval
  have hpositive := strategy.spec.facts.positive _ hinterval
  calc feature.lookback
      ≤ strategy.spec.shortestBarInterval * strategy.spec.warmUpBars := hlookback
    _ ≤ observed.series.2 * strategy.spec.warmUpBars :=
        mul_le_mul_of_nonneg_right hshortest (by linarith [strategy.spec.warmUpBars_pos])
    _ ≤ observed.series.2 * seriesBars observed.series (earlier ++ [observed]) :=
        mul_le_mul_of_nonneg_left hbars hpositive.le

/-- An evaluation of a run over one series, or after a warm-up of one bar, has its warm-up behind it. -/
theorem warmedUp_of_evaluates {registry registered : StrategyRegistry} {strategy : Strategy} {seed : ℤ}
    {earlier : List Observation} {state : StrategyState} {observed : Observation} {prepared : Prepared}
    (hregister : registry.register strategy = .ok registered)
    (hdrive : drive strategy (initialState seed) earlier = .ok state)
    (hprepare : prepare strategy.spec state observed = .ok prepared) (hcalled : prepared.evaluates = true)
    (hseries : strategy.spec.warmUpBars = 1 ∨ ∀ other ∈ earlier, other.series = observed.series) :
    WarmedUp registry.features strategy.spec earlier observed := by
  have hfacts := prepare_facts hprepare
  refine warmedUp_of_bars hregister hfacts.interval ?_
  rw [seriesBars_concat_self]
  rcases hseries with hone | hsame
  · linarith [seriesBars_nonneg observed.series earlier]
  · have hconsumed := (drive_facts hdrive).1
    have hcalls := hfacts.warmedUp hcalled
    rw [hfacts.consumed, hconsumed] at hcalls
    rw [seriesBars_of_forall hsame]
    exact hcalls.trans_eq (by simp [initialState])

/-- A specification of one series: a single instrument at a single interval. -/
def OneSeries (spec : StrategySpec) : Prop :=
  ∃ instrument interval, spec.instruments = [instrument] ∧ spec.barIntervals = [interval]

theorem OneSeries.series_eq {spec : StrategySpec} (h : OneSeries spec)
    {series other : Instrument × TimeDelta} (hseries : series.1 ∈ spec.instruments ∧
      series.2 ∈ spec.barIntervals) (hother : other.1 ∈ spec.instruments ∧ other.2 ∈ spec.barIntervals) :
    other = series := by
  obtain ⟨instrument, interval, hinstruments, hintervals⟩ := h
  simp only [hinstruments, hintervals, List.mem_singleton] at hseries hother
  exact Prod.ext (hother.1.trans hseries.1.symm) (hother.2.trans hseries.2.symm)

/-! ### Runs over two series -/

/-- A bar of one price, of a declared length. -/
def flatBar (instrument : Instrument) {interval : TimeDelta} (hinterval : 0 < interval)
    (openTimeUtc : DateTime) : Bar where
  instrument := instrument
  openTimeUtc := openTimeUtc
  closeTimeUtc := openTimeUtc + interval
  openQuotePrice := 1
  highQuotePrice := 1
  lowQuotePrice := 1
  closeQuotePrice := 1
  baseVolume := 0
  tradeCount := 0
  checked := by
    have hclose : ¬ openTimeUtc + interval ≤ openTimeUtc := by linarith
    simp [BarFields.postInit, raiseIf, requirePositiveDecimal, requireNonNegativeDecimal, hclose]

/-- Every required feature given a value. -/
def answered (spec : StrategySpec) : Supply where
  featureValues := ⟨spec.requiredFeatures.map fun requirement => (requirement, 0), by
    simpa [List.map_map, Function.comp_def] using spec.facts.features⟩
  unavailableFeatures := []

theorem answered_keys (spec : StrategySpec) :
    (answered spec).featureValues.keys = spec.requiredFeatures := by
  simp [answered, Dict.keys, List.map_map, Function.comp_def]

theorem answered_answers (spec : StrategySpec) : (answered spec).Answers spec where
  known requirement h := by rwa [answered_keys] at h
  declarable requirement h := absurd h List.not_mem_nil
  disjoint requirement h := absurd h List.not_mem_nil
  complete requirement h := .inl (by rwa [FeatureValues.has, answered_keys])

/-- A bar observed at its own close with every feature at hand. -/
def observedAtClose (spec : StrategySpec) (bar : Bar) : Observation := ⟨bar, bar.closeTimeUtc, answered spec⟩

/-- A bar the runner takes, with every feature at hand, is evaluated from the warm-up on. -/
theorem prepare_ok {spec : StrategySpec} {state advanced : StrategyState} {observed : Observation}
    (hdeclared : requireDeclaredObservation spec observed.bar observed.asOf state = .ok ())
    (hanswers : observed.supply.Answers spec)
    (hserved : (spec.requiredFeatures.filter fun requirement =>
      requirement ∈ observed.supply.unavailableFeatures) = [])
    (hadvanced : state.advancedWith observed.bar observed.supply.featureValues (spec.warmUpBars + 1) =
      .ok advanced) :
    prepare spec state observed =
      .ok ⟨advanced, [], decide (spec.warmUpBars ≤ advanced.barsConsumed)⟩ := by
  rw [prepare, hdeclared, hanswers.known_ok, hanswers.declarable_ok, hadvanced, hserved,
    hanswers.complete_ok hserved]
  by_cases hwarm : spec.warmUpBars ≤ advanced.barsConsumed
  · simp [bind, Except.bind, pure, Except.pure, hwarm, not_lt.mpr hwarm]
  · simp [bind, Except.bind, pure, Except.pure, hwarm, not_le.mp hwarm]

/-- A declared bar that follows the window is consumed at its own close. -/
theorem prepare_observedAtClose {spec : StrategySpec} {state : StrategyState} {bar : Bar}
    (h : Observable spec state.recentBars.getLast? bar) :
    ∃ prepared, prepare spec state (observedAtClose spec bar) = .ok prepared ∧
      prepared.advanced.recentBars.getLast? = some bar ∧
      prepared.evaluates = decide (spec.warmUpBars ≤ prepared.advanced.barsConsumed) := by
  have hwindow : 0 < spec.warmUpBars + 1 := by linarith [spec.warmUpBars_pos]
  obtain ⟨advanced, hadvanced, hlast⟩ :=
    advancedWith_ok (answered spec).featureValues hwindow h.follows
  have hserved : (spec.requiredFeatures.filter fun requirement =>
      requirement ∈ (answered spec).unavailableFeatures) = [] := by simp [answered]
  exact ⟨_, prepare_ok (requireDeclaredObservation_eq_ok h) (answered_answers spec) hserved hadvanced,
    hlast, rfl⟩

theorem drive_append {strategy : Strategy} {later : List Observation} : ∀ {earlier : List Observation}
    {state : StrategyState}, drive strategy state (earlier ++ later) =
      drive strategy state earlier >>= fun after => drive strategy after later
  | [], _ => rfl
  | observed :: earlier, state => by
    rw [List.cons_append, drive, drive, bind_assoc]
    exact congrArg _ (funext fun _ => drive_append)

/-- The bar of a declared series, observed at its own close. -/
def seriesBar (spec : StrategySpec) (instrument : Instrument) {interval : TimeDelta}
    (hpositive : 0 < interval) (openTimeUtc : DateTime) : Observation :=
  observedAtClose spec (flatBar instrument hpositive openTimeUtc)

theorem seriesBar_series {spec : StrategySpec} {instrument : Instrument} {interval : TimeDelta}
    {hpositive : 0 < interval} {openTimeUtc : DateTime} :
    (seriesBar spec instrument hpositive openTimeUtc).series = (instrument, interval) :=
  congrArg (Prod.mk instrument) (add_sub_cancel_left openTimeUtc interval)

/-- The bars a strategy warms up on, all of one series. -/
def leadingBars (spec : StrategySpec) (instrument : Instrument) {interval : TimeDelta}
    (hpositive : 0 < interval) (count : ℕ) : List Observation :=
  (List.range count).map fun index : ℕ => seriesBar spec instrument hpositive index

section TwoSeries

variable {strategy : Strategy} {instrument : Instrument} {interval : TimeDelta}
  (hinstrument : instrument ∈ strategy.spec.instruments)
  (hinterval : interval ∈ strategy.spec.barIntervals) (hpositive : 0 < interval)

include hinstrument hinterval

theorem seriesBar_observable {previous : Option Bar} {openTimeUtc : DateTime}
    (hfollows : ∀ last ∈ previous, last.openTimeUtc < openTimeUtc) :
    Observable strategy.spec previous (flatBar instrument hpositive openTimeUtc) where
  instrument := hinstrument
  interval := by
    have hlasts : openTimeUtc + interval - openTimeUtc = interval := add_sub_cancel_left _ _
    exact hlasts.symm ▸ hinterval
  follows := hfollows

/-- A strategy still warming up takes the bars of a declared series. -/
theorem drive_leadingBars : ∀ count : ℕ, (count : ℤ) < strategy.spec.warmUpBars → ∃ state,
    drive strategy (initialState 0) (leadingBars strategy.spec instrument hpositive count) = .ok state ∧
      ∀ last ∈ state.recentBars.getLast?, last.openTimeUtc < count
  | 0, _ => ⟨_, rfl, by simp [initialState]⟩
  | count + 1, hcount => by
    obtain ⟨state, hdrive, hlast⟩ := drive_leadingBars count (by omega)
    obtain ⟨prepared, hprepared, hadvanced, hevaluates⟩ := prepare_observedAtClose
      (seriesBar_observable hinstrument hinterval hpositive hlast)
    have hconsumed : prepared.advanced.barsConsumed = count + 1 := by
      rw [(prepare_facts hprepared).consumed, (drive_facts hdrive).1]
      simp [initialState, leadingBars]
    have hwarming : prepared.evaluates = false := by
      rw [hevaluates, hconsumed]
      exact decide_eq_false (not_le.mpr (by exact_mod_cast hcount))
    refine ⟨prepared.advanced, ?_, ?_⟩
    · rw [leadingBars, List.range_succ, List.map_append, drive_append, ← leadingBars, hdrive]
      simp only [List.map_cons, List.map_nil, bind, Except.bind, drive]
      rw [observe_eq, seriesBar, hprepared]
      simp [bind, Except.bind, conclude, hwarming, pure, Except.pure]
    · rw [hadvanced]
      intro last hmem
      rw [← Option.some.inj hmem]
      simp [flatBar]

/-- With a warm-up of several bars, a first bar of another series is evaluated after one bar of its own. -/
theorem not_warmsUp {features : FeatureCatalogue} {instrument' : Instrument} {interval' : TimeDelta}
    (hinstrument' : instrument' ∈ strategy.spec.instruments)
    (hinterval' : interval' ∈ strategy.spec.barIntervals)
    (hdiffer : (instrument, interval) ≠ (instrument', interval'))
    (hwarm : strategy.spec.warmUpBars ≠ 1) : ¬ WarmsUp features strategy := by
  intro hwarms
  have hpositive := strategy.spec.facts.positive _ hinterval
  have hpositive' := strategy.spec.facts.positive _ hinterval'
  have hone := strategy.spec.warmUpBars_pos
  obtain ⟨count, hcount⟩ : ∃ count : ℕ, strategy.spec.warmUpBars = count + 1 :=
    ⟨(strategy.spec.warmUpBars - 1).toNat, by omega⟩
  obtain ⟨state, hdrive, hlast⟩ :=
    drive_leadingBars hinstrument hinterval hpositive count (by omega)
  obtain ⟨prepared, hprepared, _, hevaluates⟩ := prepare_observedAtClose
    (seriesBar_observable hinstrument' hinterval' hpositive' hlast)
  have hconsumed : prepared.advanced.barsConsumed = strategy.spec.warmUpBars := by
    rw [(prepare_facts hprepared).consumed, (drive_facts hdrive).1, hcount]
    simp [initialState, leadingBars]
  have hcalled : prepared.evaluates = true := by
    rw [hevaluates, hconsumed]
    exact decide_eq_true le_rfl
  have hbars := (hwarms.evaluations 0 _ state _ prepared hdrive hprepared hcalled).bars
  have hnone : seriesBars (instrument', interval')
      (leadingBars strategy.spec instrument hpositive count) = 0 := by
    rw [seriesBars, List.countP_eq_zero.mpr, Nat.cast_zero]
    intro observed hmem
    obtain ⟨index, _, rfl⟩ := List.mem_map.mp hmem
    rw [seriesBar_series, decide_eq_true_eq]
    exact hdiffer
  have hseries : (observedAtClose strategy.spec (flatBar instrument' hpositive' count)).series =
      (instrument', interval') := seriesBar_series
  rw [seriesBars_concat_self, hseries, hnone] at hbars
  omega

end TwoSeries

/-- A specification of more than one series declares two that differ. -/
theorem exists_two_series {spec : StrategySpec} (h : ¬ OneSeries spec) :
    ∃ instrument ∈ spec.instruments, ∃ interval ∈ spec.barIntervals,
      ∃ instrument' ∈ spec.instruments, ∃ interval' ∈ spec.barIntervals,
        (instrument, interval) ≠ (instrument', interval') := by
  have hfacts := spec.facts
  obtain ⟨instrument, instruments, hinstruments⟩ := List.exists_cons_of_ne_nil hfacts.instruments
  obtain ⟨interval, intervals, hintervals⟩ := List.exists_cons_of_ne_nil hfacts.intervals
  have hhead : instrument ∈ spec.instruments := hinstruments ▸ List.mem_cons_self
  have hhead' : interval ∈ spec.barIntervals := hintervals ▸ List.mem_cons_self
  cases instruments with
  | cons instrument' others =>
    have hnodup : (instrument.symbol :: instrument'.symbol :: others.map fun other => other.symbol).Nodup := by
      have hsymbols := hfacts.symbols
      rwa [StrategySpecFields.symbols, hinstruments] at hsymbols
    refine ⟨instrument, hhead, interval, hhead', instrument', by simp [hinstruments], interval, hhead', ?_⟩
    intro hsame
    rw [(Prod.mk.inj hsame).1] at hnodup
    exact (List.nodup_cons.mp hnodup).1 List.mem_cons_self
  | nil =>
    cases intervals with
    | nil => exact absurd ⟨instrument, interval, hinstruments, hintervals⟩ h
    | cons interval' others =>
      have hnodup := hfacts.distinct
      rw [hintervals] at hnodup
      refine ⟨instrument, hhead, interval, hhead', instrument, hhead, interval', by simp [hintervals], ?_⟩
      intro hsame
      rw [(Prod.mk.inj hsame).2] at hnodup
      exact (List.nodup_cons.mp hnodup).1 List.mem_cons_self

/-! ### The warm-up of a registered strategy -/

/-- How far the warm-up of a registered strategy reaches. -/
structure WarmUpContract (registry : StrategyRegistry) (strategy : Strategy) : Prop where
  -- one run, whatever the specification declares
  oneSeries : ∀ registered, registry.register strategy = .ok registered →
    ∀ seed earlier state observed, drive strategy (initialState seed) earlier = .ok state →
    (strategy.spec.warmUpBars = 1 ∨ ∀ other ∈ earlier, other.series = observed.series) →
    (∀ prepared, prepare strategy.spec state observed = .ok prepared → prepared.evaluates = true →
      WarmedUp registry.features strategy.spec earlier observed) ∧
    ∀ outcome, observe strategy state observed = .ok outcome → outcome.signal ≠ none →
      WarmedUp registry.features strategy.spec earlier observed
  exact : ∀ registered, registry.register strategy = .ok registered →
    (WarmsUp registry.features strategy ↔ strategy.spec.warmUpBars = 1 ∨ OneSeries strategy.spec)

/-- A signal is an evaluation's. -/
theorem observe_signal {strategy : Strategy} {state : StrategyState} {observed : Observation}
    {outcome : StrategyStep} (h : observe strategy state observed = .ok outcome)
    (hsignal : outcome.signal ≠ none) :
    ∃ prepared, prepare strategy.spec state observed = .ok prepared ∧ prepared.evaluates = true := by
  rw [observe_eq, bind_eq_ok] at h
  obtain ⟨prepared, hprepared, hconcluded⟩ := h
  exact ⟨prepared, hprepared, (conclude_facts hconcluded).2 hsignal⟩

/-- The warm-up covers every declared look-back exactly for the strategies of one series. -/
theorem warm_up_contract (registry : StrategyRegistry) (strategy : Strategy) :
    WarmUpContract registry strategy := by
  have hone : ∀ registered, registry.register strategy = .ok registered →
      ∀ seed earlier state observed, drive strategy (initialState seed) earlier = .ok state →
      (strategy.spec.warmUpBars = 1 ∨ ∀ other ∈ earlier, other.series = observed.series) →
      (∀ prepared, prepare strategy.spec state observed = .ok prepared → prepared.evaluates = true →
        WarmedUp registry.features strategy.spec earlier observed) ∧
      ∀ outcome, observe strategy state observed = .ok outcome → outcome.signal ≠ none →
        WarmedUp registry.features strategy.spec earlier observed := by
    intro registered hregister seed earlier state observed hdrive hseries
    refine ⟨?_, ?_⟩
    · intro prepared hprepared hcalled
      exact warmedUp_of_evaluates hregister hdrive hprepared hcalled hseries
    · intro outcome houtcome hsignal
      obtain ⟨prepared, hprepared, hcalled⟩ := observe_signal houtcome hsignal
      exact warmedUp_of_evaluates hregister hdrive hprepared hcalled hseries
  refine ⟨hone, ?_⟩
  intro registered hregister
  constructor
  · intro hwarms
    by_contra hneither
    obtain ⟨hwarm, hseveral⟩ := not_or.mp hneither
    obtain ⟨instrument, hinstrument, interval, hinterval, instrument', hinstrument', interval',
      hinterval', hdiffer⟩ := exists_two_series hseveral
    exact not_warmsUp hinstrument hinterval hinstrument' hinterval' hdiffer hwarm hwarms
  · intro hcondition
    have hsame : ∀ {earlier : List Observation} {state : StrategyState} {observed : Observation}
        {seed : ℤ} {prepared : Prepared}, drive strategy (initialState seed) earlier = .ok state →
        prepare strategy.spec state observed = .ok prepared →
        strategy.spec.warmUpBars = 1 ∨ ∀ other ∈ earlier, other.series = observed.series := by
      intro earlier state observed seed prepared hdrive hprepared
      refine hcondition.imp_right fun hsingle other hmem => ?_
      have hfacts := prepare_facts hprepared
      exact hsingle.series_eq ⟨hfacts.instrument, hfacts.interval⟩ ((drive_facts hdrive).2 other hmem)
    refine ⟨?_, ?_⟩
    · intro seed earlier state observed prepared hdrive hprepared
      exact (hone registered hregister seed earlier state observed hdrive (hsame hdrive hprepared)).1
        prepared hprepared
    · intro seed earlier state observed outcome hdrive houtcome hsignal
      obtain ⟨prepared, hprepared, _⟩ := observe_signal houtcome hsignal
      exact (hone registered hregister seed earlier state observed hdrive (hsame hdrive hprepared)).2
        outcome houtcome hsignal

/-! ### A first minute bar after a five-minute bar -/

/-- Two minutes of history, as a feature of the catalogue. -/
def twoMinuteReturn : Data.Features.FeatureSpec where
  toFeatureSpecFields := Data.Features.barFeature "return_2m" (fun _ _ => []) (TimeDelta.ofMinutes 2)
    "Closes inside the trailing window only."
  checked := by decide +kernel

theorem onePercentMove_checked : (⟨1 / 100, none, 0, none⟩ : InvalidationRuleFields).postInit = .ok () := by
  with_unfolding_all decide

/-- Minute and five-minute bars of one instrument, warmed up on two bars. -/
def twoIntervals : StrategySpec where
  strategyId := "two_interval_return"
  strategyVersion := 1
  thesis := "A positive trailing return persists over the next few minutes."
  instruments := [.sample]
  barIntervals := [TimeDelta.ofMinutes 1, TimeDelta.ofMinutes 5]
  requiredFeatures := [⟨"return_2m", 1⟩]
  warmUpBars := 2
  invalidation := ⟨⟨1 / 100, none, 0, none⟩, onePercentMove_checked⟩
  signalHorizon := TimeDelta.ofMinutes 5
  checked := by decide +kernel

/-- A strategy that holds a flat opinion of every bar it is asked about. -/
def flatOpinion (spec : StrategySpec) : Strategy where
  spec := spec
  evaluate _ bar asOf := (construct SignalFields.postInit Signal.mk
    ⟨spec.strategyId, bar.instrument, .flat, 0, spec.signalHorizon, none, "no position", asOf⟩).toOption

/-- A registry of that feature alone, with no strategy yet. -/
def returnRegistry : StrategyRegistry :=
  ⟨⟨[(("return_2m", 1), twoMinuteReturn)], by decide⟩, Dict.empty⟩

/-- The five-minute bar of the epoch. -/
def fiveMinuteBar : Observation :=
  seriesBar twoIntervals .sample (show 0 < TimeDelta.ofMinutes 5 by decide) 0

/-- The minute bar a microsecond later. -/
def minuteBar : Observation :=
  seriesBar twoIntervals .sample (show 0 < TimeDelta.ofMinutes 1 by decide) 1

/-- A registered strategy warmed up on two bars emits on its first minute bar, one minute into a look-back
    of two. -/
theorem first_minute_bar_is_evaluated : ∃ registered state outcome,
    returnRegistry.register (flatOpinion twoIntervals) = .ok registered ∧
    drive (flatOpinion twoIntervals) (initialState 0) [fiveMinuteBar] = .ok state ∧
    observe (flatOpinion twoIntervals) state minuteBar = .ok outcome ∧ outcome.signal ≠ none ∧
    ¬ WarmsUp returnRegistry.features (flatOpinion twoIntervals) := by
  have hregistered : (returnRegistry.register (flatOpinion twoIntervals)).toOption.isSome := by
    decide +kernel
  have hemitted : ((drive (flatOpinion twoIntervals) (initialState 0) [fiveMinuteBar]).toOption.bind
      fun state => (observe (flatOpinion twoIntervals) state minuteBar).toOption.map
        fun outcome => outcome.signal.isSome) = some true := by
    decide +kernel
  cases hregister : returnRegistry.register (flatOpinion twoIntervals) with
  | error e => rw [hregister] at hregistered; cases hregistered
  | ok registered =>
  cases hdrive : drive (flatOpinion twoIntervals) (initialState 0) [fiveMinuteBar] with
  | error e => rw [hdrive] at hemitted; cases hemitted
  | ok state =>
  cases hobserve : observe (flatOpinion twoIntervals) state minuteBar with
  | error e => rw [hdrive, Except.toOption, Option.bind_some, hobserve] at hemitted; cases hemitted
  | ok outcome =>
  rw [hdrive, Except.toOption, Option.bind_some, hobserve] at hemitted
  have hsignal : outcome.signal ≠ none := Option.isSome_iff_ne_none.mp (Option.some.inj hemitted)
  refine ⟨registered, state, outcome, rfl, rfl, hobserve, hsignal, ?_⟩
  intro hwarms
  have hbars := (hwarms.signals 0 [fiveMinuteBar] state minuteBar outcome hdrive hobserve hsignal).bars
  exact absurd hbars (by decide +kernel)

end FinanceKing.Strategies
