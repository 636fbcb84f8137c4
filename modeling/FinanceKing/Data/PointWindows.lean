import FinanceKing.Data.AsOfReads
import FinanceKing.Data.Features.HeldWindows

/-! What stands behind each value of a feature read. A value looks back further than the read does, so the
    contract that is checked for the read says nothing about the stretch before its start. -/

namespace FinanceKing.Data.Features

open Lib

/-! ### Windows against the registry -/

/-- Every input of a feature is held over a window, and no recorded gap of one runs into it. -/
structure CoversWindow (store : TakenStore) (feature : FeatureRef) (spec : FeatureSpec)
    (windowStartUtc windowEndUtc : DateTime) : Prop where
  held : ∀ inputName ∈ spec.inputs, ∃ dataset declaration, asDataset inputName = some dataset ∧
    HeldOver store.availability feature.market feature.symbol windowStartUtc windowEndUtc dataset declaration
  clear : ∀ row, IsGapOf store feature spec row → ¬ RunsInto row.gap windowStartUtc windowEndUtc

/-- A known gap of a declaration that an input is checked against is a recorded gap of the feature. -/
theorem isGapOf_of_declared {store : TakenStore} {feature : FeatureRef} {spec : FeatureSpec} {inputName : String}
    (hinput : inputName ∈ spec.inputs) {dataset : Dataset} (hdataset : asDataset inputName = some dataset)
    {declaration : AvailabilityDeclaration}
    (hdeclared : store.availability.declarations.get? ⟨feature.market, feature.symbol, dataset⟩ =
      some declaration) {gap : AvailabilityGap} (hgap : gap ∈ declaration.knownGaps) :
    ∃ row, IsGapOf store feature spec row ∧ row.declared = gap := by
  rw [store.carryGaps _ _ hdeclared] at hgap
  obtain ⟨row, hrow, rfl⟩ := List.mem_map.mp hgap
  obtain ⟨hrecorded, haddress⟩ := List.mem_filter.mp hrow
  have hsame : row.address = ⟨feature.market, feature.symbol, dataset⟩ := of_decide_eq_true haddress
  rw [SeriesGap.address, SeriesAddress.mk.injEq] at hsame
  obtain ⟨hmarket, hsymbol, hrowDataset⟩ := hsame
  exact ⟨row, ⟨hrecorded, hmarket, hsymbol, by rwa [hrowDataset, asDataset_eq_some hdataset]⟩, rfl⟩

/-- The contract passes exactly the windows that are covered. -/
theorem require_eq_ok_iff_covers {store : TakenStore} {feature : FeatureRef} {spec : FeatureSpec}
    {windowStartUtc windowEndUtc : DateTime} :
    store.availability.require spec feature.market feature.symbol windowStartUtc windowEndUtc = .ok () ↔
      CoversWindow store feature spec windowStartUtc windowEndUtc := by
  rw [require_eq_ok]
  constructor
  · intro h
    refine ⟨fun inputName hinput => ?_, fun row hrow hruns => ?_⟩
    · obtain ⟨dataset, declaration, hdataset, hheld, -⟩ := requireInput_eq_ok.mp (h inputName hinput)
      exact ⟨dataset, declaration, hdataset, hheld⟩
    · obtain ⟨dataset, declaration, hdataset, hheld, hclear⟩ := requireInput_eq_ok.mp (h _ hrow.input)
      rw [asDataset_value] at hdataset
      obtain rfl := Option.some.inj hdataset
      exact hclear _ (declared_of_isGapOf hrow hheld.declared) ((intersects_declared _ _ _).mpr hruns)
  · intro h inputName hinput
    obtain ⟨dataset, declaration, hdataset, hheld⟩ := h.held inputName hinput
    refine requireInput_eq_ok.mpr ⟨dataset, declaration, hdataset, hheld, fun gap hgap => ?_⟩
    obtain ⟨row, hrow, rfl⟩ := isGapOf_of_declared hinput hdataset hheld.declared hgap
    rw [intersects_declared]
    exact h.clear row hrow

/-! ### The store of a process -/

/-- The feature values that a history of appends left. -/
def writtenValues (history : List (FeatureRef × List FeaturePoint)) : StoredTable FeatureRef :=
  history.foldl (fun table call => (FeatureValueWriter.append table call.1 call.2).1) Dict.empty

/-- A contract taken from the registry, over what a history of appends left. -/
def TakenStore.serving (store : TakenStore) (history : List (FeatureRef × List FeaturePoint)) :
    PostgresFeatureStore := .ofTable store.availability (writtenValues history)

/-- No value is about a time after the one it is known from. -/
theorem eventTime_le_of_written {history : List (FeatureRef × List FeaturePoint)} {row : StoredRow FeatureRef}
    (h : (writtenValues history).get? row.key = some row.value) : row.eventTime ≤ row.availableAt := by
  obtain ⟨_, _, asked, _, hkey, hpassed, _⟩ :=
    (featureStore noArithmetic holedContract).get?_run (featureStore_isTransactional _ _) h
  simp only [featureConstraints, requireConstraint, bind_eq_ok, raiseIf_eq_ok, not_not] at hpassed
  obtain ⟨_, _, _, _, hle⟩ := hpassed
  obtain ⟨_, htimes⟩ := Prod.mk.inj hkey
  obtain ⟨htime, havailable⟩ := Prod.mk.inj htimes
  rwa [htime, havailable] at hle

/-- A read answers for the times of the rows it can see, and no others. -/
theorem mem_times_of_load {store : TakenStore} {history : List (FeatureRef × List FeaturePoint)}
    {float : FloatArithmetic} {feature : FeatureRef} {asOf : DateTime} {lookback : TimeDelta}
    {series : FeatureSeries} (h : (store.serving history).load float feature asOf lookback = .ok series)
    {eventTime : DateTime} : (∃ value ∈ series.values, value.eventTimeUtc = eventTime) ↔
      ∃ row ∈ (writtenValues history).visible feature asOf (asOf - lookback), row.eventTime = eventTime := by
  simp only [PostgresFeatureStore.load, bind_eq_ok, pure_eq_ok] at h
  obtain ⟨_, _, _, _, _, _, rfl⟩ := h
  simp only [TakenStore.serving, PostgresFeatureStore.ofTable, mem_sortBy, fkingFeatureAsOf, List.mem_map]
  constructor
  · rintro ⟨_, ⟨row, hrow, rfl⟩, rfl⟩
    exact ⟨row, (Restatements.mem_latest_iff _ |>.mp hrow).1, rfl⟩
  · rintro ⟨row, hrow, rfl⟩
    obtain ⟨last, hlast, htime, hmax⟩ := exists_last (fun row : StoredRow FeatureRef => row.availableAt)
      (fun other => other.eventTime = row.eventTime) ⟨row, hrow, rfl⟩
    refine ⟨_, ⟨last, (Restatements.mem_latest_iff _).mpr ⟨hlast, fun other hother hsame => ?_⟩, rfl⟩, htime⟩
    exact hmax other hother (hsame.trans htime)

/-! ### The windows of the values -/

/-- Every value of an answer was computed from a window that is covered. -/
def PointsCovered (store : TakenStore) (feature : FeatureRef) (spec : FeatureSpec) (series : FeatureSeries) :
    Prop :=
  ∀ value ∈ series.values,
    CoversWindow store feature spec (value.eventTimeUtc - spec.lookback) value.eventTimeUtc

/-- The stretch before a read's start that its values look back into: for every row that the read can see,
    each input is held from the start of the row's window on, and no gap of one that is over by the read's
    start runs into that window. -/
structure LeadInCovered (store : TakenStore) (history : List (FeatureRef × List FeaturePoint))
    (feature : FeatureRef) (spec : FeatureSpec) (asOf : DateTime) (lookback : TimeDelta) : Prop where
  held : ∀ row ∈ (writtenValues history).visible feature asOf (asOf - lookback),
    ∀ inputName ∈ spec.inputs, ∀ dataset declaration, asDataset inputName = some dataset →
      store.availability.declarations.get? ⟨feature.market, feature.symbol, dataset⟩ = some declaration →
      declaration.earliestEventTimeUtc ≤ row.eventTime - spec.lookback
  clear : ∀ row ∈ (writtenValues history).visible feature asOf (asOf - lookback),
    ∀ gap, IsGapOf store feature spec gap → gap.gap.gapEndUtc ≤ asOf - lookback →
      ¬ RunsInto gap.gap (row.eventTime - spec.lookback) row.eventTime

/-- A read that the contract permits answers from covered windows exactly when its lead-in is covered. -/
theorem pointsCovered_iff {store : TakenStore} {history : List (FeatureRef × List FeaturePoint)}
    {float : FloatArithmetic} {feature : FeatureRef} {spec : FeatureSpec} {asOf : DateTime} {lookback : TimeDelta}
    {series : FeatureSeries} (hpermitted : CoversWindow store feature spec (asOf - lookback) asOf)
    (hload : (store.serving history).load float feature asOf lookback = .ok series) :
    PointsCovered store feature spec series ↔ LeadInCovered store history feature spec asOf lookback := by
  constructor
  · intro h
    refine ⟨fun row hrow inputName hinput dataset declaration hdataset hdeclared => ?_,
      fun row hrow gap hgap _ => ?_⟩
    · obtain ⟨value, hvalue, htime⟩ := (mem_times_of_load hload).mpr ⟨row, hrow, rfl⟩
      obtain ⟨_, _, hdataset', hheld⟩ := (h value hvalue).held inputName hinput
      obtain rfl := Option.some.inj (hdataset.symm.trans hdataset')
      obtain rfl := Option.some.inj (hdeclared.symm.trans hheld.declared)
      exact htime ▸ hheld.opens
    · obtain ⟨value, hvalue, htime⟩ := (mem_times_of_load hload).mpr ⟨row, hrow, rfl⟩
      exact htime ▸ (h value hvalue).clear gap hgap
  · intro h value hvalue
    obtain ⟨row, hrow, htime⟩ := (mem_times_of_load hload).mp ⟨value, hvalue, rfl⟩
    obtain ⟨hwritten, -, hknown, hinside⟩ := Restatements.mem_visible _ |>.mp hrow
    have hasOf : row.eventTime ≤ asOf := (eventTime_le_of_written hwritten).trans hknown
    rw [← htime]
    refine ⟨fun inputName hinput => ?_, fun gap hgap hruns => ?_⟩
    · obtain ⟨dataset, declaration, hdataset, hheld⟩ := hpermitted.held inputName hinput
      exact ⟨dataset, declaration, hdataset, hheld.declared,
        h.held row hrow inputName hinput dataset declaration hdataset hheld.declared, hasOf.trans hheld.closes⟩
    · rcases le_or_gt gap.gap.gapEndUtc (asOf - lookback) with hover | hlasts
      · exact h.clear row hrow gap hgap hover hruns
      · exact hpermitted.clear gap hgap ⟨hruns.1.trans_le hasOf, hlasts⟩

/-- Every answer comes from covered windows exactly when each read that the contract permits has its lead-in
    covered. -/
theorem answers_from_covered_windows_iff (store : TakenStore) (history : List (FeatureRef × List FeaturePoint))
    (float : FloatArithmetic) (feature : FeatureRef) (asOf : DateTime) (lookback : TimeDelta) :
    (∀ spec series, registered float feature.name feature.version = .ok spec →
      (store.serving history).load float feature asOf lookback = .ok series →
      PointsCovered store feature spec series) ↔
    ∀ spec, registered float feature.name feature.version = .ok spec → 0 < lookback →
      CoversWindow store feature spec (asOf - lookback) asOf →
      LeadInCovered store history feature spec asOf lookback := by
  constructor
  · intro h spec hspec hpositive hcovers
    have hload : (store.serving history).load float feature asOf lookback = .ok
        ⟨feature, asOf, lookback, (store.serving history).read feature asOf lookback⟩ := by
      simp only [PostgresFeatureStore.load, bind_eq_ok, raiseIf_eq_ok, hspec, Except.ok.injEq, pure_eq_ok]
      exact ⟨(), not_le.mpr hpositive, spec, rfl, (), require_eq_ok_iff_covers.mpr hcovers, trivial⟩
    exact (pointsCovered_iff hcovers hload).mp (h spec _ hspec hload)
  · intro h spec series hspec hload
    have hchecks := hload
    simp only [PostgresFeatureStore.load, bind_eq_ok, raiseIf_eq_ok, hspec, Except.ok.injEq] at hchecks
    obtain ⟨_, hpositive, _, rfl, _, hrequired, _⟩ := hchecks
    have hcovers := require_eq_ok_iff_covers.mp hrequired
    exact (pointsCovered_iff hcovers hload).mpr (h spec hspec (not_le.mp hpositive) hcovers)

/-- A value half an hour after a gap, which looks back an hour. -/
def afterGap : FeaturePoint := ⟨9000000000, 9060000000, 0⟩

/-- A read that starts where a gap ends answers a value whose hour runs back into the gap. -/
theorem a_value_looks_back_into_a_gap : ¬ ∀ (store : TakenStore) (history : List (FeatureRef × List FeaturePoint))
    (float : FloatArithmetic) (feature : FeatureRef) (asOf : DateTime) (lookback : TimeDelta) (spec : FeatureSpec)
    (series : FeatureSeries), registered float feature.name feature.version = .ok spec →
    (store.serving history).load float feature asOf lookback = .ok series →
    PointsCovered store feature spec series := by
  intro h
  have hload : (holedStore.serving [(returnFeature, [afterGap])]).load noArithmetic returnFeature 9060000000
      1800000000 = .ok ⟨returnFeature, 9060000000, 1800000000,
        (holedStore.serving [(returnFeature, [afterGap])]).read returnFeature 9060000000 1800000000⟩ := by rfl
  have hwritten : (writtenValues [(returnFeature, [afterGap])]).get? (returnFeature, 9000000000, 9060000000) =
      some 0 := by decide +kernel
  obtain ⟨value, hvalue, htime⟩ := (mem_times_of_load hload).mpr ⟨⟨returnFeature, 9000000000, 9060000000, 0⟩,
    (Restatements.mem_visible _).mpr ⟨hwritten, rfl, by decide, by decide⟩, rfl⟩
  have hwindow := h holedStore _ noArithmetic returnFeature 9060000000 1800000000 _ _ rfl hload value hvalue
  rw [htime] at hwindow
  exact hwindow.clear ⟨minuteSeries, ⟨7200000000, 7260000000, .cadence, some 1⟩⟩
    ⟨by decide +kernel, rfl, rfl, by decide +kernel⟩ ⟨by decide, by decide⟩

end FinanceKing.Data.Features
