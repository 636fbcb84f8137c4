import FinanceKing.Backtest.Feed.FeedContract
import FinanceKing.Strategy.Runner

/-! Whether a strategy accepts what the feed serves it. The runner measures a bar from its open to its
    close and keeps one window for all the series; the feed serves the closes the corpus stores, several
    series at a time. -/

namespace FinanceKing.Strategies

open Lib Backtest Data

/-! ### Refusals of an observation -/

/-- The call refused an observation. -/
def Refuses {α : Type} (result : PyResult α) : Prop := raisedKind result = some .observationRefused

instance {α : Type} (result : PyResult α) : Decidable (Refuses result) :=
  inferInstanceAs (Decidable (_ = _))

@[simp] theorem not_refuses_ok {α : Type} {a : α} : ¬ Refuses (.ok a : PyResult α) := by
  rw [Refuses, raisedKind]
  exact fun h => by cases h

@[simp] theorem refuses_raiseIf {refused : Prop} [Decidable refused] {kind : ErrorKind}
    {message : Message} :
    Refuses (raiseIf refused kind message) ↔ refused ∧ kind = .observationRefused := by
  by_cases h : refused <;> simp [Refuses, raiseIf, h, raise, raisedKind]

@[simp] theorem refuses_raise {α : Type} {kind : ErrorKind} {message : Message} :
    Refuses (raise kind message : PyResult α) ↔ kind = .observationRefused := by
  simp [Refuses, raise, raisedKind]

/-- A sequence refuses in its first call, or in the rest after the first returned. -/
theorem refuses_bind {α β : Type} {first : PyResult α} {rest : α → PyResult β} :
    Refuses (first >>= rest) ↔ Refuses first ∨ ∃ a, first = .ok a ∧ Refuses (rest a) := by
  cases first with
  | error e => simp [Refuses, bind, Except.bind, raisedKind]
  | ok a => simp [Refuses, bind, Except.bind, raisedKind]

/-! ### One bar -/

/-- What the runner asks of a bar, given the last one it consumed. -/
structure Observable (spec : StrategySpec) (previous : Option Bar) (bar : Bar) : Prop where
  instrument : bar.instrument ∈ spec.instruments
  interval : bar.closeTimeUtc - bar.openTimeUtc ∈ spec.barIntervals
  follows : ∀ last ∈ previous, last.openTimeUtc < bar.openTimeUtc

theorem requireDeclaredObservation_refuses {spec : StrategySpec} {bar : Bar} {state : StrategyState} :
    Refuses (requireDeclaredObservation spec bar bar.closeTimeUtc state) ↔
      ¬ Observable spec state.recentBars.getLast? bar := by
  have hchecks : Observable spec state.recentBars.getLast? bar ↔ spec.declares bar.instrument ∧
      spec.declaresInterval (bar.closeTimeUtc - bar.openTimeUtc) ∧
      ¬ ∃ last ∈ state.recentBars.getLast?, bar.openTimeUtc ≤ last.openTimeUtc := by
    simp only [StrategySpec.declares, StrategySpec.declaresInterval, decide_eq_true_eq]
    push Not
    constructor
    · exact fun h => ⟨h.instrument, h.interval, h.follows⟩
    · rintro ⟨hinstrument, hinterval, hfollows⟩
      exact ⟨hinstrument, hinterval, hfollows⟩
  rw [hchecks]
  simp only [requireDeclaredObservation, refuses_bind, refuses_raiseIf, raiseIf_eq_ok, and_true,
    lt_irrefl, exists_const, false_or, not_false_eq_true, true_and, not_not]
  by_cases hinstrument : spec.declares bar.instrument = true
  · by_cases hinterval : spec.declaresInterval (bar.closeTimeUtc - bar.openTimeUtc) = true
    · simp only [hinstrument, hinterval, not_true_eq_false, false_or, true_and, not_not]
    · simp [hinstrument, hinterval]
  · simp [hinstrument]

theorem requireDeclaredObservation_eq_ok {spec : StrategySpec} {bar : Bar} {state : StrategyState}
    (h : Observable spec state.recentBars.getLast? bar) :
    requireDeclaredObservation spec bar bar.closeTimeUtc state = .ok () := by
  have hfollows : ¬ ∃ last ∈ state.recentBars.getLast?, bar.openTimeUtc ≤ last.openTimeUtc := by
    push Not
    exact h.follows
  simp only [requireDeclaredObservation, bind_eq_ok, raiseIf_eq_ok, not_not]
  exact ⟨(), decide_eq_true h.instrument, (), decide_eq_true h.interval, (), lt_irrefl _, hfollows⟩

/-- The caller gave each required feature a value or declared it unavailable, and named no other. -/
structure Supply.Answers (supply : Supply) (spec : StrategySpec) : Prop where
  known : ∀ requirement ∈ supply.featureValues.keys, requirement ∈ spec.requiredFeatures
  declarable : ∀ requirement ∈ supply.unavailableFeatures, requirement ∈ spec.requiredFeatures
  disjoint : ∀ requirement ∈ supply.unavailableFeatures, ¬ supply.featureValues.has requirement
  complete : ∀ requirement ∈ spec.requiredFeatures,
    supply.featureValues.has requirement ∨ requirement ∈ supply.unavailableFeatures

section Step

variable {spec : StrategySpec} {strategy : Strategy} {supply : Supply} {state : StrategyState} {bar : Bar}

theorem Supply.Answers.known_ok (h : supply.Answers spec) :
    requireKnownRequirements spec supply.featureValues = .ok () := by
  simpa [requireKnownRequirements] using h.known

theorem Supply.Answers.declarable_ok (h : supply.Answers spec) :
    requireDeclarableUnavailability spec supply.featureValues supply.unavailableFeatures =
      .ok () := by
  simp only [requireDeclarableUnavailability, bind_eq_ok, raiseIf_eq_ok, not_not,
    List.filter_eq_nil_iff, decide_eq_true_eq]
  exact ⟨(), h.declarable, h.disjoint⟩

/-- Nothing missing once nothing is withheld. -/
theorem Supply.Answers.complete_ok (h : supply.Answers spec)
    (hserved : (spec.requiredFeatures.filter fun requirement =>
      requirement ∈ supply.unavailableFeatures) = []) :
    requireEveryDeclaredFeature spec supply.featureValues = .ok () := by
  simp only [List.filter_eq_nil_iff, decide_eq_true_eq] at hserved
  simp only [requireEveryDeclaredFeature, raiseIf_eq_ok, not_not, List.filter_eq_nil_iff,
    decide_eq_true_eq]
  exact fun requirement hrequired =>
    (h.complete requirement hrequired).resolve_right (hserved requirement hrequired)

theorem requireAscending_eq_ok {u : Unit} : ∀ {bars : List Bar}, requireAscending bars = .ok u ↔
    List.IsChain (fun previous bar : Bar => previous.openTimeUtc < bar.openTimeUtc) bars
  | [] => by simp [requireAscending]
  | [bar] => by simp [requireAscending]
  | previous :: observed :: bars => by
    have hrest : requireAscending (observed :: bars) = .ok u ↔
        List.IsChain (fun previous bar : Bar => previous.openTimeUtc < bar.openTimeUtc)
          (observed :: bars) := requireAscending_eq_ok
    simp only [requireAscending, bind_eq_ok, raiseIf_eq_ok, not_le, List.isChain_cons_cons, hrest]
    constructor
    · rintro ⟨_, hfollows, hascending⟩
      exact ⟨hfollows, hascending⟩
    · rintro ⟨hfollows, hascending⟩
      exact ⟨(), hfollows, hascending⟩

/-- Consuming a bar that follows the window keeps the window in order and ends it with that bar. -/
theorem advancedWith_ok (featureValues : FeatureValues) {windowBars : ℤ} (hwindow : 0 < windowBars)
    (hfollows : ∀ last ∈ state.recentBars.getLast?, last.openTimeUtc < bar.openTimeUtc) :
    ∃ advanced, state.advancedWith bar featureValues windowBars = .ok advanced ∧
      advanced.recentBars.getLast? = some bar := by
  have hstate := state.checked
  simp only [StrategyStateFields.postInit, bind_eq_ok, raiseIf_eq_ok, not_lt,
    requireAscending_eq_ok] at hstate
  obtain ⟨_, hconsumed, hascending⟩ := hstate
  have hextended : List.IsChain (fun previous bar : Bar => previous.openTimeUtc < bar.openTimeUtc)
      (state.recentBars ++ [bar]) := by
    rw [List.isChain_append]
    exact ⟨hascending, List.isChain_singleton _, fun last hlast next hnext => by
      rw [List.head?_cons, Option.mem_def, Option.some_inj] at hnext
      exact hnext ▸ hfollows last hlast⟩
  have hkept : StrategyStateFields.postInit
      { state.toStrategyStateFields with
        barsConsumed := state.barsConsumed + 1
        recentBars := StrategyState.lastBars (state.recentBars ++ [bar]) windowBars
        featureValues := featureValues } = .ok () := by
    simp only [StrategyStateFields.postInit, bind_eq_ok, raiseIf_eq_ok, not_lt, requireAscending_eq_ok]
    refine ⟨(), by omega, ?_⟩
    simp only [StrategyState.lastBars, if_pos hwindow]
    exact hextended.drop _
  refine ⟨_, construct_ok hkept, ?_⟩
  simp only [StrategyState.lastBars, if_pos hwindow]
  rw [List.getLast?_drop, List.getLast?_append,
    List.length_append, List.length_singleton]
  have hshort : ¬ state.recentBars.length + 1 ≤ state.recentBars.length + 1 - windowBars.toNat := by
    omega
  rw [if_neg hshort]
  rfl

theorem levelFor_not_refuses {rule : InvalidationRule} {direction : Direction} {price : Decimal}
    {instrument : Instrument} {featureValues : FeatureValues} :
    ¬ Refuses (rule.levelFor direction price instrument featureValues) := by
  have hdistance : ¬ Refuses (rule.adverseMoveFractionFor featureValues) := by
    rw [InvalidationRule.adverseMoveFractionFor]
    split
    · exact not_refuses_ok
    · split
      · simp
      · split
        · simp
        · exact not_refuses_ok
  simp [InvalidationRule.levelFor, refuses_bind, hdistance, pure, Except.pure]

theorem requireSignalMatchesSpec_not_refuses {spec : StrategySpec} {signal : Signal} {asOf : DateTime}
    {featureValues : FeatureValues} :
    ¬ Refuses (requireSignalMatchesSpec spec signal bar asOf featureValues) := by
  have hinvalidation : ¬ Refuses (requireDeclaredInvalidation spec signal bar featureValues) := by
    rw [requireDeclaredInvalidation]
    split
    · exact not_refuses_ok
    · simp [refuses_bind, levelFor_not_refuses]
  simp [requireSignalMatchesSpec, refuses_bind, hinvalidation]

/-- A decision never refuses the observation, and leaves the state it was taken in. -/
theorem decideSignal_not_refuses (h : supply.Answers strategy.spec) {asOf : DateTime} :
    ¬ Refuses (decideSignal strategy state bar asOf supply) := by
  rw [decideSignal]
  split
  · simp [pure, Except.pure]
  · next hblocking =>
    rw [h.complete_ok (not_not.mp hblocking)]
    cases strategy.evaluate state bar asOf with
    | none => simp [refuses_bind, pure, Except.pure]
    | some signal =>
      simp [refuses_bind, pure, Except.pure, requireSignalMatchesSpec_not_refuses]

theorem decideSignal_state {asOf : DateTime} {outcome : StrategyStep}
    (h : decideSignal strategy state bar asOf supply = .ok outcome) : outcome.state = state := by
  rw [decideSignal] at h
  split at h
  · rw [← Except.ok.inj h]
  · simp only [bind_eq_ok, pure_eq_ok] at h
    obtain ⟨_, _, _, _, rfl⟩ := h
    rfl

/-- A bar the runner may observe becomes the last of the window, and the rest is the decision. -/
theorem step_observable (h : supply.Answers strategy.spec)
    (hobservable : Observable strategy.spec state.recentBars.getLast? bar) :
    ∃ advanced : StrategyState, advanced.recentBars.getLast? = some bar ∧
      step strategy state bar bar.closeTimeUtc supply =
        if advanced.barsConsumed < strategy.spec.warmUpBars then .ok ⟨advanced, none, []⟩
        else decideSignal strategy advanced bar bar.closeTimeUtc supply := by
  have hwindow : 0 < strategy.spec.warmUpBars + 1 := by
    have hwarm := strategy.spec.warmUpBars_pos
    omega
  obtain ⟨advanced, hadvanced, hlast⟩ :=
    advancedWith_ok supply.featureValues hwindow hobservable.follows
  refine ⟨advanced, hlast, ?_⟩
  rw [step, requireDeclaredObservation_eq_ok hobservable, h.known_ok, h.declarable_ok, hadvanced]
  rfl

/-- A caller that answers the specification is refused exactly the bars the runner may not observe. -/
theorem step_refuses_iff (h : supply.Answers strategy.spec) :
    Refuses (step strategy state bar bar.closeTimeUtc supply) ↔
      ¬ Observable strategy.spec state.recentBars.getLast? bar := by
  constructor
  · intro hrefuses hobservable
    obtain ⟨advanced, _, hstep⟩ := step_observable h hobservable
    rw [hstep] at hrefuses
    split at hrefuses
    · exact not_refuses_ok hrefuses
    · exact decideSignal_not_refuses h hrefuses
  · intro hrefused
    rw [step, refuses_bind]
    exact .inl (requireDeclaredObservation_refuses.mpr hrefused)

theorem step_last (h : supply.Answers strategy.spec) {outcome : StrategyStep}
    (hstep : step strategy state bar bar.closeTimeUtc supply = .ok outcome) :
    outcome.state.recentBars.getLast? = some bar := by
  have hobservable : Observable strategy.spec state.recentBars.getLast? bar := by
    by_contra hrefused
    have hkind := (step_refuses_iff h).mpr hrefused
    rw [hstep] at hkind
    exact not_refuses_ok hkind
  obtain ⟨advanced, hlast, hdecision⟩ := step_observable h hobservable
  rw [hdecision] at hstep
  split at hstep
  · rw [← Except.ok.inj hstep]
    exact hlast
  · rw [decideSignal_state hstep]
    exact hlast

end Step

/-! ### A run -/

/-- The bars of a run that follow one another from the last one consumed. -/
def Ascend (previous : Option Bar) (bars : List Bar) : Prop :=
  List.IsChain (fun earlier later : Bar => earlier.openTimeUtc < later.openTimeUtc)
    (previous.toList ++ bars)

theorem ascend_cons {previous : Option Bar} {bar : Bar} {bars : List Bar} :
    Ascend previous (bar :: bars) ↔
      (∀ last ∈ previous, last.openTimeUtc < bar.openTimeUtc) ∧ Ascend (some bar) bars := by
  cases previous with
  | none => simp [Ascend]
  | some last => simp [Ascend]

theorem ascend_none_iff {bars : List Bar} :
    Ascend none bars ↔ (bars.map fun bar => bar.openTimeUtc).Pairwise (· < ·) := by
  have htrans : Trans (fun earlier later : Bar => earlier.openTimeUtc < later.openTimeUtc)
      (fun earlier later : Bar => earlier.openTimeUtc < later.openTimeUtc)
      (fun earlier later : Bar => earlier.openTimeUtc < later.openTimeUtc) := ⟨fun h h' => h.trans h'⟩
  rw [Ascend, Option.toList_none, List.nil_append, List.isChain_iff_pairwise, List.pairwise_map]

/-- The instrument and the length of a bar are declared. -/
def Declared (spec : StrategySpec) (bar : Bar) : Prop :=
  bar.instrument ∈ spec.instruments ∧ bar.closeTimeUtc - bar.openTimeUtc ∈ spec.barIntervals

/-- Declared bars in ascending order are never refused, whatever the strategy decides on them. -/
theorem run_not_refuses {strategy : Strategy} {supply : Bar → Supply} : ∀ {bars : List Bar}
    {state : StrategyState}, (∀ bar ∈ bars, (supply bar).Answers strategy.spec) →
    (∀ bar ∈ bars, Declared strategy.spec bar) → Ascend state.recentBars.getLast? bars →
    ¬ Refuses (run strategy supply state bars)
  | [], _, _, _, _ => not_refuses_ok
  | bar :: bars, state, hanswers, hdeclared, hascend => by
    obtain ⟨hanswer, hanswers⟩ := List.forall_mem_cons.mp hanswers
    obtain ⟨⟨hinstrument, hinterval⟩, hdeclared⟩ := List.forall_mem_cons.mp hdeclared
    obtain ⟨hfollows, hascend⟩ := ascend_cons.mp hascend
    rw [run, refuses_bind, step_refuses_iff hanswer, not_or, not_not]
    refine ⟨⟨hinstrument, hinterval, hfollows⟩, ?_⟩
    rintro ⟨outcome, hstep, hrest⟩
    have hlast := step_last hanswer hstep
    exact run_not_refuses hanswers hdeclared (hlast ▸ hascend) hrest

/-- A strategy that holds no opinion. -/
def silent (spec : StrategySpec) : Strategy := ⟨spec, fun _ _ _ => none⟩

/-- Every required feature declared unavailable. -/
def withheld (spec : StrategySpec) : Supply := ⟨Dict.empty, spec.requiredFeatures⟩

theorem withheld_answers (spec : StrategySpec) : (withheld spec).Answers spec where
  known _ h := absurd h List.not_mem_nil
  declarable _ h := h
  disjoint _ _ h := absurd h List.not_mem_nil
  complete _ h := .inr h

/-- A silent strategy consumes every bar it is not refused. -/
theorem silent_step {spec : StrategySpec} {state : StrategyState} {bar : Bar}
    (h : Observable spec state.recentBars.getLast? bar) :
    ∃ outcome, step (silent spec) state bar bar.closeTimeUtc (withheld spec) = .ok outcome := by
  have hanswers : (withheld spec).Answers (silent spec).spec := withheld_answers spec
  obtain ⟨advanced, _, hstep⟩ := step_observable hanswers h
  rw [hstep]
  split
  · exact ⟨_, rfl⟩
  · rw [decideSignal]
    split
    · exact ⟨_, rfl⟩
    · next hblocking =>
      rw [hanswers.complete_ok (not_not.mp hblocking)]
      exact ⟨_, rfl⟩

/-- Bars a silent strategy consumes to the end are declared and ascend. -/
theorem silent_run {spec : StrategySpec} : ∀ {bars : List Bar} {state : StrategyState},
    ¬ Refuses (run (silent spec) (fun _ => withheld spec) state bars) →
    (∀ bar ∈ bars, Declared spec bar) ∧ Ascend state.recentBars.getLast? bars
  | [], state, _ => by
    refine ⟨List.forall_mem_nil _, ?_⟩
    rw [Ascend, List.append_nil]
    cases state.recentBars.getLast? with
    | none => exact List.isChain_nil
    | some last => exact List.isChain_singleton last
  | bar :: bars, state, hrun => by
    have hanswers : (withheld spec).Answers (silent spec).spec := withheld_answers spec
    rw [run, refuses_bind, step_refuses_iff hanswers, not_or, not_not] at hrun
    obtain ⟨hobservable, hrest⟩ := hrun
    obtain ⟨outcome, hstep⟩ := silent_step hobservable
    obtain ⟨hdeclared, hascend⟩ := silent_run fun hrefuses => hrest ⟨outcome, hstep, hrefuses⟩
    rw [step_last hanswers hstep] at hascend
    refine ⟨List.forall_mem_cons.mpr ⟨⟨hobservable.instrument, hobservable.interval⟩, hdeclared⟩, ?_⟩
    exact ascend_cons.mpr ⟨hobservable.follows, hascend⟩

/-- Every strategy of this specification takes every one of the bars, in their order. -/
def AcceptsEveryBar (spec : StrategySpec) (bars : List Bar) : Prop :=
  ∀ strategy : Strategy, strategy.spec = spec → ∀ supply : Bar → Supply,
    (∀ bar ∈ bars, (supply bar).Answers spec) → ∀ seed,
      ¬ Refuses (run strategy supply (initialState seed) bars)

theorem acceptsEveryBar_iff {spec : StrategySpec} {bars : List Bar} : AcceptsEveryBar spec bars ↔
    (∀ bar ∈ bars, Declared spec bar) ∧ (bars.map fun bar => bar.openTimeUtc).Pairwise (· < ·) := by
  rw [← ascend_none_iff]
  constructor
  · intro haccepts
    exact silent_run (haccepts (silent spec) rfl _ (fun _ _ => withheld_answers spec) 0)
  · rintro ⟨hdeclared, hascend⟩ strategy rfl supply hanswers seed
    exact run_not_refuses hanswers hdeclared hascend

/-! ### What the feed delivers -/

/-- The bar an event carries. -/
def barOf : Event → Option Bar
  | .marketBar bar => some bar
  | _ => none

/-- The bars of several loads run together: by their instant, those of one instant as they were given. -/
def deliveredBars (slices : List FeedSlice) : List Bar :=
  (sortBy Event.occursAtUtc (slices.flatMap FeedSlice.events)).filterMap barOf

/-- A load of series the specification declares. -/
structure LoadedFor (feed : MarketDataFeed) (spec : StrategySpec) (request : FeedRequest)
    (slice : FeedSlice) : Prop where
  load : feed.load request = .ok slice
  instruments : ∀ entry ∈ request.series, entry.instrument ∈ spec.instruments
  interval : request.duration ∈ spec.barIntervals

/-- One series whose bars last a declared interval, none closing before one that opens earlier. -/
structure OneSteadySeries (spec : StrategySpec) (request : FeedRequest)
    (reads : List (SeriesRequest × SeriesRead)) : Prop where
  single : request.series.length = 1
  interval : ∀ read ∈ reads, ∀ bar ∈ read.2.bars,
    bar.closeTimeUtc - bar.openTimeUtc ∈ spec.barIntervals
  ordered : ∀ read ∈ reads, ∀ bar ∈ read.2.bars, ∀ later ∈ read.2.bars,
    bar.openTimeUtc < later.openTimeUtc → bar.closeTimeUtc ≤ later.closeTimeUtc

section Served

variable {feed : MarketDataFeed} {spec : StrategySpec} {request : FeedRequest}
  {reads : List (SeriesRequest × SeriesRead)} {served : List ServedBar} {slice : FeedSlice}

/-- The served bars are the rows, series and instants alike. -/
theorem served_projections (h : Loads feed request reads served slice) :
    served.map (fun entry => (entry.1, entry.2.openTimeUtc, entry.2.closeTimeUtc)) =
      (rowsOf reads).map fun row => (row.1, row.2.openTimeUtc, row.2.closeTimeUtc) := by
  rw [← List.forall₂_eq_eq_eq, List.forall₂_map_left_iff, List.forall₂_map_right_iff]
  refine h.serves.flip.imp ?_
  intro entry row hserves
  rw [hserves.series, hserves.openTimeUtc, hserves.closeTimeUtc]

/-- One load is delivered in the order the feed put it in. -/
theorem deliveredBars_single (h : Loads feed request reads served slice) :
    deliveredBars [slice] = (sortBy servedKey served).map Prod.snd := by
  have hsorted : slice.events.Pairwise fun event later => event.occursAtUtc ≤ later.occursAtUtc := by
    rw [h.events, List.pairwise_map]
    refine (pairwise_sortBy servedKey served).imp ?_
    intro entry later hkey
    rcases Prod.Lex.toLex_le_toLex.mp hkey with hless | ⟨hequal, _⟩
    · exact hless.le
    · exact hequal.le
  rw [deliveredBars, List.flatMap_singleton, sortBy_eq_self _ hsorted, h.events, List.filterMap_map]
  exact congrFun List.filterMap_eq_map' _

theorem delivered_instruments {loads : List (FeedRequest × FeedSlice)}
    (h : ∀ load ∈ loads, LoadedFor feed spec load.1 load.2) :
    ∀ bar ∈ deliveredBars (loads.map Prod.snd), bar.instrument ∈ spec.instruments := by
  intro bar hbar
  obtain ⟨event, hevent, hcarries⟩ := List.mem_filterMap.mp hbar
  obtain ⟨slice, hslice, hmem⟩ := List.mem_flatMap.mp ((mem_sortBy _).mp hevent)
  obtain ⟨load, hload, rfl⟩ := List.mem_map.mp hslice
  obtain ⟨reads, served, hloads⟩ := load_loads (h load hload).load
  rw [hloads.events] at hmem
  obtain ⟨entry, hentry, rfl⟩ := List.mem_map.mp hmem
  obtain rfl : entry.2 = bar := Option.some.inj hcarries
  have hwindow := hloads.servesWindow
  rw [hwindow.instruments entry hentry]
  have hproduct := hwindow.bijection.mem_iff.mp
    (List.mem_map_of_mem (f := fun entry : ServedBar => (entry.1, entry.2.openTimeUtc)) hentry)
  exact (h load hload).instruments entry.1 (List.mem_product.mp hproduct).1

/-- In a list that ascends by one measure, the measure decides which of two elements comes first. -/
theorem of_pairwise_lt {α : Type} {measure : α → DateTime} {R : α → α → Prop} : ∀ {l : List α},
    l.Pairwise (fun a b => measure a < measure b ∧ R a b) →
    ∀ a ∈ l, ∀ b ∈ l, measure a < measure b → R a b
  | [], _, a, ha, _, _, _ => absurd ha List.not_mem_nil
  | x :: l, h, a, ha, b, hb, hless => by
    obtain ⟨hhead, htail⟩ := List.pairwise_cons.mp h
    rcases List.mem_cons.mp ha with hax | hal
    · rcases List.mem_cons.mp hb with hbx | hbl
      · exact absurd hless (by rw [hax, hbx]; exact lt_irrefl _)
      · exact hax ▸ (hhead b hbl).2
    · rcases List.mem_cons.mp hb with hbx | hbl
      · exact absurd hless (lt_asymm (hbx ▸ (hhead a hal).1))
      · exact of_pairwise_lt htail a hal b hbl hless

theorem series_ne_nil (request : FeedRequest) : request.series ≠ [] := by
  have h := request.checked
  simp only [FeedRequestFields.postInit, bind_eq_ok, raiseIf_eq_ok] at h
  obtain ⟨_, _, _, _, _, hseries, _⟩ := h
  exact hseries

/-- Served bars that ascend are of one series: every series has a bar at the window's first instant. -/
theorem single_of_ascending (h : Loads feed request reads served slice)
    (hascending : (deliveredBars [slice]).Pairwise fun bar later => bar.openTimeUtc < later.openTimeUtc) :
    request.series.length = 1 := by
  have hwindow := h.servesWindow
  have hnodup : ((request.series.product request.lattice).map Prod.snd).Nodup := by
    rw [← (hwindow.bijection.map Prod.snd).nodup_iff, List.map_map]
    rw [deliveredBars_single h, List.pairwise_map] at hascending
    exact List.pairwise_map.mpr (hascending.imp ne_of_lt)
  have hstart : request.warmupStartUtc ∈ request.lattice := by
    have hbefore : request.warmupStartUtc ≤ request.exposedFromUtc := sub_le_self _
      (mul_nonneg request.facts.duration_pos.le request.facts.warmup_nonneg)
    exact request.mem_lattice.mpr ⟨le_rfl, hbefore.trans_lt request.facts.forward, by simp⟩
  cases hseries : request.series with
  | nil => exact absurd hseries (series_ne_nil request)
  | cons entry others =>
    cases others with
    | nil => rfl
    | cons other rest =>
      rw [hseries, List.product, List.flatMap_cons, List.flatMap_cons, List.map_append,
        List.map_append] at hnodup
      have hdisjoint := (List.nodup_append.mp hnodup).2.2 request.warmupStartUtc
        (by simpa using hstart) request.warmupStartUtc (by simp [hstart])
      exact absurd rfl hdisjoint

/-- A load is taken bar by bar in ascending order exactly when it is one steady series. -/
theorem steady_iff (h : Loads feed request reads served slice) :
    (∀ bar ∈ deliveredBars [slice], bar.closeTimeUtc - bar.openTimeUtc ∈ spec.barIntervals) ∧
      ((deliveredBars [slice]).map fun bar => bar.openTimeUtc).Pairwise (· < ·) ↔
    OneSteadySeries spec request reads := by
  have hprojections := served_projections h
  rw [List.pairwise_map]
  constructor
  · rintro ⟨hinterval, hascending⟩
    have hserved : ∀ read ∈ reads, ∀ bar ∈ read.2.bars, ∃ entry ∈ sortBy servedKey served,
        entry.2.openTimeUtc = bar.openTimeUtc ∧ entry.2.closeTimeUtc = bar.closeTimeUtc := by
      intro read hread bar hbar
      have hrow : (read.1, bar) ∈ rowsOf reads :=
        List.mem_flatMap.mpr ⟨read, hread, List.mem_map_of_mem hbar⟩
      obtain ⟨entry, hentry, hserves⟩ := exists_right_of_forall₂ h.serves hrow
      exact ⟨entry, (mem_sortBy servedKey).mpr hentry, hserves.openTimeUtc, hserves.closeTimeUtc⟩
    refine ⟨single_of_ascending h hascending, ?_, ?_⟩
    · intro read hread bar hbar
      obtain ⟨entry, hentry, hopen, hclose⟩ := hserved read hread bar hbar
      rw [← hopen, ← hclose]
      rw [deliveredBars_single h] at hinterval
      exact hinterval entry.2 (List.mem_map_of_mem hentry)
    · intro read hread bar hbar later hlater hless
      obtain ⟨entry, hentry, hopen, hclose⟩ := hserved read hread bar hbar
      obtain ⟨entry', hentry', hopen', hclose'⟩ := hserved read hread later hlater
      rw [deliveredBars_single h, List.pairwise_map] at hascending
      have hordered := hascending.and (pairwise_sortBy servedKey served)
      have hkey := of_pairwise_lt hordered entry hentry entry' hentry' (by rwa [hopen, hopen'])
      rw [← hclose, ← hclose']
      rcases Prod.Lex.toLex_le_toLex.mp hkey with hearlier | ⟨hequal, _⟩
      · exact hearlier.le
      · exact hequal.le
  · rintro ⟨hsingle, hinterval, hordered⟩
    obtain ⟨hseries, hread⟩ := readAll_reads h.readAll
    rw [← hseries, List.length_map, List.length_eq_one_iff] at hsingle
    obtain ⟨read, rfl⟩ := hsingle
    have hrows : rowsOf [read] = read.2.bars.map fun bar => (read.1, bar) := List.flatMap_singleton _ _
    have hincreasing := readSeries_increasing (hread read List.mem_cons_self)
    rw [hrows, List.map_map] at hprojections
    have hsteady : (served.map fun entry => (entry.1, entry.2.openTimeUtc, entry.2.closeTimeUtc)).Pairwise
        fun entry later => entry.2.1 < later.2.1 ∧ entry.1 = later.1 ∧ entry.2.2 ≤ later.2.2 := by
      rw [hprojections, List.pairwise_map]
      rw [List.pairwise_map] at hincreasing
      refine hincreasing.imp_of_mem ?_
      intro bar later hbar hlater hless
      exact ⟨hless, rfl, hordered read List.mem_cons_self bar hbar later hlater hless⟩
    rw [List.pairwise_map] at hsteady
    have hsorted : sortBy servedKey served = served := by
      refine sortBy_eq_self servedKey (hsteady.imp ?_)
      rintro entry later ⟨_, hseries, hclose⟩
      rw [servedKey, servedKey, hseries, Prod.Lex.toLex_le_toLex]
      exact hclose.lt_or_eq.imp_right fun hequal => ⟨hequal, le_rfl⟩
    rw [deliveredBars_single h, hsorted]
    refine ⟨?_, List.pairwise_map.mpr (hsteady.imp fun hless => hless.1)⟩
    intro bar hbar
    obtain ⟨entry, hentry, rfl⟩ := List.mem_map.mp hbar
    obtain ⟨row, hrow, hserves⟩ := exists_left_of_forall₂ h.serves hentry
    rw [hrows] at hrow
    obtain ⟨bar, hbar, rfl⟩ := List.mem_map.mp hrow
    rw [hserves.openTimeUtc, hserves.closeTimeUtc]
    exact hinterval read List.mem_cons_self bar hbar

end Served

/-! ### Acceptance -/

/-- When the strategies of a specification take every bar a feed serves them. -/
structure FeedAcceptance (feed : MarketDataFeed) (spec : StrategySpec) : Prop where
  together : ∀ loads : List (FeedRequest × FeedSlice),
    (∀ load ∈ loads, LoadedFor feed spec load.1 load.2) →
    (AcceptsEveryBar spec (deliveredBars (loads.map Prod.snd)) ↔
      (∀ bar ∈ deliveredBars (loads.map Prod.snd),
        bar.closeTimeUtc - bar.openTimeUtc ∈ spec.barIntervals) ∧
      ((deliveredBars (loads.map Prod.snd)).map fun bar => bar.openTimeUtc).Pairwise (· < ·))
  alone : ∀ request slice reads, LoadedFor feed spec request slice → feed.readAll request = .ok reads →
    (AcceptsEveryBar spec (deliveredBars [slice]) ↔ OneSteadySeries spec request reads)

/-- When a strategy takes every bar it is served, at every feed and specification. -/
theorem feed_acceptance (feed : MarketDataFeed) (spec : StrategySpec) : FeedAcceptance feed spec := by
  have htogether : ∀ loads : List (FeedRequest × FeedSlice),
      (∀ load ∈ loads, LoadedFor feed spec load.1 load.2) →
      (AcceptsEveryBar spec (deliveredBars (loads.map Prod.snd)) ↔
        (∀ bar ∈ deliveredBars (loads.map Prod.snd),
          bar.closeTimeUtc - bar.openTimeUtc ∈ spec.barIntervals) ∧
        ((deliveredBars (loads.map Prod.snd)).map fun bar => bar.openTimeUtc).Pairwise (· < ·)) := by
    intro loads hloads
    rw [acceptsEveryBar_iff]
    refine and_congr_left fun _ => forall₂_congr fun bar hbar => ?_
    exact and_iff_right (delivered_instruments hloads bar hbar)
  refine ⟨htogether, ?_⟩
  intro request slice reads hload hreads
  obtain ⟨reads', served, hloads⟩ := load_loads hload.load
  obtain rfl : reads' = reads := Except.ok.inj (hloads.readAll.symm.trans hreads)
  have hone := htogether [(request, slice)] (by
    intro load hmem
    rw [List.mem_singleton.mp hmem]
    exact hload)
  exact hone.trans (steady_iff hloads)

/-! ### The minutes of an archive -/

/-- A strategy over the minute bars of one instrument. -/
def minuteSpec : StrategySpec where
  strategyId := "trailing_return"
  strategyVersion := 1
  thesis := "A positive trailing return persists over the next few minutes."
  instruments := [.sample]
  barIntervals := [TimeDelta.ofMinutes 1]
  requiredFeatures := []
  warmUpBars := 1
  invalidation := ⟨⟨1 / 100, none, 0, none⟩, by decide +kernel⟩
  signalHorizon := TimeDelta.ofMinutes 5
  checked := by decide +kernel

/-- An archive's minute bars close a millisecond before the next one opens; a strategy that declares minute
    bars is handed one and refuses it. -/
theorem archive_bars_are_refused : ∃ slice,
    LoadedFor (twoMinutes 59999000) minuteSpec oneWarmupMinute slice ∧
      ¬ AcceptsEveryBar minuteSpec (deliveredBars [slice]) := by
  have hload : ((twoMinutes 59999000).load oneWarmupMinute).toOption.map (fun slice =>
      (deliveredBars [slice]).map fun bar => bar.closeTimeUtc - bar.openTimeUtc) =
        some [59999000, 59999000] := by
    decide +kernel
  cases hslice : (twoMinutes 59999000).load oneWarmupMinute with
  | error e =>
    rw [hslice] at hload
    cases hload
  | ok slice =>
    rw [hslice] at hload
    have hlasts : ((deliveredBars [slice]).map fun bar => bar.closeTimeUtc - bar.openTimeUtc) =
        [59999000, 59999000] := Option.some.inj hload
    have hinstruments : ∀ entry ∈ oneWarmupMinute.series, entry.instrument ∈ minuteSpec.instruments := by
      simp [oneWarmupMinute, minuteSpec]
    refine ⟨slice, ⟨hslice, hinstruments, by decide⟩, ?_⟩
    rw [acceptsEveryBar_iff]
    rintro ⟨hdeclared, _⟩
    have hlast : (59999000 : TimeDelta) ∈
        (deliveredBars [slice]).map fun bar => bar.closeTimeUtc - bar.openTimeUtc := by
      rw [hlasts]
      exact List.mem_cons_self
    obtain ⟨bar, hbar, hequal⟩ := List.mem_map.mp hlast
    have hinterval := (hdeclared bar hbar).2
    rw [hequal] at hinterval
    exact absurd hinterval (by decide)

end FinanceKing.Strategies
