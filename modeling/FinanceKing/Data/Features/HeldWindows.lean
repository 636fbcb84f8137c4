import FinanceKing.Data.Features.Availability
import FinanceKing.Domain.Results

/-! A read against a snapshot of the registry: refused wherever a recorded gap of an input runs into the window
    before its end, and answered where nothing stands in its way. -/

namespace FinanceKing.Data.Features

open Lib

/-! ### The snapshot -/

theorem asDataset_value (dataset : Dataset) : asDataset dataset.value = some dataset := by
  cases dataset <;> decide

theorem asDataset_eq_some {inputName : String} {dataset : Dataset} (h : asDataset inputName = some dataset) :
    dataset.value = inputName := by
  rw [asDataset] at h
  simpa using List.find?_some h

/-- The gaps that an address is declared with, as the registry recorded them. -/
def declaredGaps (gaps : List SeriesGap) (address : SeriesAddress) : List AvailabilityGap :=
  (gaps.filter fun gap => gap.address = address).map SeriesGap.declared

/-- The grouping loop, from any grouping on. -/
theorem foldl_grouped_get? (address : SeriesAddress) : ∀ (gaps : List SeriesGap)
    (grouped : Dict SeriesAddress (List AvailabilityGap)),
    ((gaps.foldl (fun grouped gap =>
      grouped.set gap.address ((grouped.get? gap.address).getD [] ++ [gap.declared])) grouped).get?
        address).getD [] = (grouped.get? address).getD [] ++ declaredGaps gaps address
  | [], grouped => by simp [declaredGaps]
  | gap :: gaps, grouped => by
    rw [List.foldl_cons, foldl_grouped_get? address gaps, Dict.get?_set]
    by_cases hsame : gap.address = address
    · rw [if_pos hsame.symm, declaredGaps, declaredGaps, List.filter_cons_of_pos (by simpa using hsame), hsame]
      simp
    · rw [if_neg (Ne.symm hsame), declaredGaps, declaredGaps, List.filter_cons_of_neg (by simpa using hsame)]

theorem gapsByAddress_get? (gaps : List SeriesGap) (address : SeriesAddress) :
    ((gapsByAddress gaps).get? address).getD [] = declaredGaps gaps address := by
  rw [gapsByAddress, foldl_grouped_get?, Dict.get?_empty]
  rfl

/-- Declarations that carry the recorded gaps of their own address. -/
def CarryGaps (gaps : List SeriesGap) (collapsed : Dict SeriesAddress AvailabilityDeclaration) : Prop :=
  ∀ address declaration, collapsed.get? address = some declaration →
    declaration.knownGaps = declaredGaps gaps address

/-- One more row of the report. -/
theorem CarryGaps.collapseRow {gaps : List SeriesGap}
    {collapsed after : Dict SeriesAddress AvailabilityDeclaration} {row : CoverageRow}
    (h : CarryGaps gaps collapsed)
    (hafter : Features.collapseRow (gapsByAddress gaps) collapsed row = .ok after) : CarryGaps gaps after := by
  simp only [Features.collapseRow, bind_eq_ok, pure_eq_ok] at hafter
  obtain ⟨declaration, hdeclaration, rfl⟩ := hafter
  intro address found hfound
  rw [Dict.get?_set] at hfound
  split at hfound
  · next hsame =>
    obtain rfl := Option.some.inj hfound
    obtain ⟨_, rfl⟩ := construct_eq_ok hdeclaration
    rw [hsame]
    exact gapsByAddress_get? gaps row.address
  · exact h address found hfound

theorem foldlM_collapseRow_carryGaps {gaps : List SeriesGap} : ∀ {rows : List CoverageRow}
    {collapsed after : Dict SeriesAddress AvailabilityDeclaration}, CarryGaps gaps collapsed →
    rows.foldlM (collapseRow (gapsByAddress gaps)) collapsed = .ok after → CarryGaps gaps after
  | [], _, _, h, hafter => by
    rw [List.foldlM_nil, pure_eq_ok] at hafter
    exact hafter ▸ h
  | row :: rows, _, _, h, hafter => by
    rw [List.foldlM_cons, bind_eq_ok] at hafter
    obtain ⟨next, hnext, hrest⟩ := hafter
    exact foldlM_collapseRow_carryGaps (h.collapseRow hnext) hrest

/-- A feature store whose contract was taken from a registry. -/
structure TakenStore extends PostgresFeatureStore where
  tables : IngestTables
  rows : List CoverageRow
  taken : snapshot rows (recordedGaps tables) = .ok availability

theorem TakenStore.carryGaps (store : TakenStore) :
    CarryGaps (recordedGaps store.tables) store.availability.declarations := by
  have h := store.taken
  simp only [snapshot, bind_eq_ok, pure_eq_ok] at h
  obtain ⟨collapsed, hcollapsed, hcontract⟩ := h
  rw [← hcontract]
  exact foldlM_collapseRow_carryGaps (fun _ _ hnone => by cases hnone) hcollapsed

/-! ### What a read asks for -/

/-- One input of a feature is held over a window. -/
structure HeldOver (contract : AvailabilityContract) (market : Market) (symbol : String)
    (windowStartUtc windowEndUtc : DateTime) (dataset : Dataset) (declaration : AvailabilityDeclaration) : Prop where
  declared : contract.declarations.get? ⟨market, symbol, dataset⟩ = some declaration
  opens : declaration.earliestEventTimeUtc ≤ windowStartUtc
  closes : windowEndUtc ≤ declaration.latestEventTimeUtc

theorem requireInput_eq_ok {contract : AvailabilityContract} {spec : FeatureSpec} {market : Market}
    {symbol inputName : String} {windowStartUtc windowEndUtc : DateTime} :
    contract.requireInput spec market symbol windowStartUtc windowEndUtc inputName = .ok () ↔
      ∃ dataset declaration, asDataset inputName = some dataset ∧
        HeldOver contract market symbol windowStartUtc windowEndUtc dataset declaration ∧
        ∀ gap ∈ declaration.knownGaps, ¬ gap.intersects windowStartUtc windowEndUtc := by
  rw [AvailabilityContract.requireInput]
  cases hdataset : asDataset inputName with
  | none => simp [raise]
  | some dataset =>
    dsimp only
    cases hdeclaration : contract.declarations.get? ⟨market, symbol, dataset⟩ with
    | none =>
      refine iff_of_false (by simp [raise]) ?_
      rintro ⟨_, declaration, hsame, hheld, _⟩
      obtain rfl := Option.some.inj hsame
      have hnone := hheld.declared
      rw [hdeclaration] at hnone
      cases hnone
    | some declaration =>
      simp only [requireWindowInside, bind_eq_ok, raiseIf_eq_ok, forM_eq_ok, not_lt, exists_const]
      constructor
      · rintro ⟨hopens, hcloses, hclear⟩
        exact ⟨dataset, declaration, rfl, ⟨hdeclaration, hopens, hcloses⟩, hclear⟩
      · rintro ⟨_, _, hsame, hheld, hclear⟩
        obtain rfl := Option.some.inj hsame
        have hfound := hheld.declared
        rw [hdeclaration] at hfound
        obtain rfl := Option.some.inj hfound
        exact ⟨hheld.opens, hheld.closes, hclear⟩

theorem require_eq_ok {contract : AvailabilityContract} {spec : FeatureSpec} {market : Market} {symbol : String}
    {windowStartUtc windowEndUtc : DateTime} :
    contract.require spec market symbol windowStartUtc windowEndUtc = .ok () ↔ ∀ inputName ∈ spec.inputs,
      contract.requireInput spec market symbol windowStartUtc windowEndUtc inputName = .ok () := by
  rw [AvailabilityContract.require, forM_eq_ok]
  exact forall_congr' fun inputName => imp_congr_left (mem_sortBy id)

/-- A recorded gap runs into a window: it starts before the window's end and ends after its start. -/
def RunsInto (gap : RecordedGap) (windowStartUtc windowEndUtc : DateTime) : Prop :=
  gap.gapStartUtc < windowEndUtc ∧ windowStartUtc < gap.gapEndUtc

theorem intersects_declared (gap : SeriesGap) (windowStartUtc windowEndUtc : DateTime) :
    gap.declared.intersects windowStartUtc windowEndUtc ↔ RunsInto gap.gap windowStartUtc windowEndUtc :=
  decide_eq_true_iff

/-- An instant of a gap inside a window, before its end, is where the gap runs into it. -/
theorem runsInto_of_instant {gap : RecordedGap} {windowStartUtc windowEndUtc moment : DateTime}
    (hinside : gap.gapStartUtc ≤ moment ∧ moment < gap.gapEndUtc)
    (hwindow : windowStartUtc < moment ∧ moment < windowEndUtc) : RunsInto gap windowStartUtc windowEndUtc :=
  ⟨hinside.1.trans_lt hwindow.2, hwindow.1.trans hinside.2⟩

/-- A gap of the series that a feature reads for one input. -/
structure IsGapOf (store : TakenStore) (feature : FeatureRef) (spec : FeatureSpec) (row : SeriesGap) : Prop where
  recorded : row ∈ recordedGaps store.tables
  market : row.series.market = feature.market
  symbol : row.series.symbol = feature.symbol
  input : row.series.dataset.value ∈ spec.inputs

/-- What a read of a feature is worth against the gaps that the registry had recorded. -/
structure RefusesHoles (store : TakenStore) (float : FloatArithmetic) (feature : FeatureRef) (asOf : DateTime)
    (lookback : TimeDelta) : Prop where
  refused : ∀ spec, registered float feature.name feature.version = .ok spec →
    ∀ row, IsGapOf store feature spec row →
    (∃ moment, (row.gap.gapStartUtc ≤ moment ∧ moment < row.gap.gapEndUtc) ∧
      asOf - lookback < moment ∧ moment < asOf) →
    ∃ e, store.load float feature asOf lookback = .error e
  answered : ∀ spec, registered float feature.name feature.version = .ok spec → 0 < lookback →
    (∀ inputName ∈ spec.inputs, ∃ dataset declaration, asDataset inputName = some dataset ∧
      HeldOver store.availability feature.market feature.symbol (asOf - lookback) asOf dataset declaration) →
    (∀ row, IsGapOf store feature spec row →
      asOf ≤ row.gap.gapStartUtc ∨ row.gap.gapEndUtc ≤ asOf - lookback) →
    store.load float feature asOf lookback = .ok ⟨feature, asOf, lookback, store.read feature asOf lookback⟩

/-- A gap of a feature's series is a known gap of the declaration its input is checked against. -/
theorem declared_of_isGapOf {store : TakenStore} {feature : FeatureRef} {spec : FeatureSpec} {row : SeriesGap}
    (hgap : IsGapOf store feature spec row) {declaration : AvailabilityDeclaration}
    (hdeclared : store.availability.declarations.get? ⟨feature.market, feature.symbol, row.series.dataset⟩ =
      some declaration) : row.declared ∈ declaration.knownGaps := by
  rw [store.carryGaps _ _ hdeclared]
  refine List.mem_map_of_mem (List.mem_filter.mpr ⟨hgap.recorded, decide_eq_true ?_⟩)
  rw [SeriesGap.address, hgap.market, hgap.symbol]

/-- A recorded gap that starts before the window's end and ends after its start refuses the read, and a read
    that no such gap stands against is answered where its inputs are held. -/
theorem load_refuses_holes (store : TakenStore) (float : FloatArithmetic) (feature : FeatureRef)
    (asOf : DateTime) (lookback : TimeDelta) : RefusesHoles store float feature asOf lookback where
  refused := by
    rintro spec hspec row hgap ⟨moment, hinside, hwindow⟩
    cases hload : store.load float feature asOf lookback with
    | error e => exact ⟨e, rfl⟩
    | ok series =>
      simp only [PostgresFeatureStore.load, bind_eq_ok, hspec, Except.ok.injEq] at hload
      obtain ⟨_, _, _, rfl, _, hrequired, _⟩ := hload
      obtain ⟨dataset, declaration, hdataset, hheld, hclear⟩ :=
        requireInput_eq_ok.mp (require_eq_ok.mp hrequired _ hgap.input)
      rw [asDataset_value] at hdataset
      obtain rfl := Option.some.inj hdataset
      refine absurd ?_ (hclear _ (declared_of_isGapOf hgap hheld.declared))
      exact (intersects_declared _ _ _).mpr (runsInto_of_instant hinside hwindow)
  answered := by
    intro spec hspec hpositive hheld hclear
    simp only [PostgresFeatureStore.load, bind_eq_ok, raiseIf_eq_ok, hspec, Except.ok.injEq, pure_eq_ok]
    refine ⟨(), not_le.mpr hpositive, spec, rfl, ?_⟩
    refine ⟨(), require_eq_ok.mpr fun inputName hinput => ?_, trivial⟩
    obtain ⟨dataset, declaration, hdataset, hover⟩ := hheld inputName hinput
    refine requireInput_eq_ok.mpr ⟨dataset, declaration, hdataset, hover, fun gap hgap => ?_⟩
    rw [store.carryGaps _ _ hover.declared] at hgap
    obtain ⟨row, hrow, rfl⟩ := List.mem_map.mp hgap
    obtain ⟨hrecorded, haddress⟩ := List.mem_filter.mp hrow
    have hsame : row.address = ⟨feature.market, feature.symbol, dataset⟩ := of_decide_eq_true haddress
    rw [SeriesGap.address, SeriesAddress.mk.injEq] at hsame
    obtain ⟨hmarket, hsymbol, hrowDataset⟩ := hsame
    have hof : IsGapOf store feature spec row :=
      ⟨hrecorded, hmarket, hsymbol, by rwa [hrowDataset, asDataset_eq_some hdataset]⟩
    rw [intersects_declared]
    rintro ⟨hbefore, hafter⟩
    rcases hclear row hof with hlate | hearly
    · exact absurd hbefore (not_lt.mpr hlate)
    · exact absurd hafter (not_lt.mpr hearly)

/-! ### The as-of instant -/

def minuteSeries : SeriesKey := ⟨.spot, .klines, "BTCUSDT", "1m"⟩

/-- The minute that opens two hours after the epoch is missing. -/
def holedTables : IngestTables :=
  { IngestTables.empty with
    coverageGap := Dict.empty.set (minuteSeries, (7200000000, 7260000000)) ⟨.cadence, some 1, 7260000000, none⟩ }

def minuteRow : CoverageRow := ⟨.spot, .klines, "BTCUSDT", "1m", 0, 86400000000⟩

def holedFields : AvailabilityDeclarationFields where
  address := ⟨.spot, "BTCUSDT", .klines⟩
  resolutions := ["1m"]
  earliestEventTimeUtc := 0
  latestEventTimeUtc := 86400000000
  knownGaps := [⟨7200000000, 7260000000, "cadence", "1m", some 1⟩]
  refusesIfUnavailable := true

theorem holedFields_checked : holedFields.postInit = .ok () := by with_unfolding_all decide

def holedContract : AvailabilityContract :=
  ⟨Dict.empty.set ⟨.spot, "BTCUSDT", .klines⟩ ⟨holedFields, holedFields_checked⟩⟩

theorem holedContract_taken : snapshot [minuteRow] (recordedGaps holedTables) = .ok holedContract := by rfl

def holedStore : TakenStore where
  availability := holedContract
  read := fun _ _ _ => []
  tables := holedTables
  rows := [minuteRow]
  taken := holedContract_taken

/-- A stand-in for the estimates' arithmetic, for the features that compute none. -/
def noArithmetic : FloatArithmetic where
  Value := Unit
  ofDecimal := fun _ => ()
  toDecimal := fun _ => 0
  isZero := fun _ => true
  sub := fun _ _ => ()
  div := fun _ _ => ()
  stdev := fun _ => ()
  fmean := fun _ => ()

def returnFeature : FeatureRef := ⟨"trailing_return_fraction", 1, .spot, "BTCUSDT"⟩

/-- A window that is closed at the instant a gap opens is answered. -/
theorem a_gap_at_the_as_of_instant_is_not_refused : ¬ ∀ (store : TakenStore) (float : FloatArithmetic)
    (feature : FeatureRef) (asOf : DateTime) (lookback : TimeDelta) (spec : FeatureSpec) (row : SeriesGap),
    registered float feature.name feature.version = .ok spec → IsGapOf store feature spec row →
    (∃ moment, (row.gap.gapStartUtc ≤ moment ∧ moment < row.gap.gapEndUtc) ∧
      asOf - lookback < moment ∧ moment ≤ asOf) →
    ∃ e, store.load float feature asOf lookback = .error e := by
  intro h
  obtain ⟨e, he⟩ := h holedStore noArithmetic returnFeature 7200000000 3600000000 _
    ⟨minuteSeries, ⟨7200000000, 7260000000, .cadence, some 1⟩⟩ rfl
    ⟨by decide +kernel, rfl, rfl, by decide +kernel⟩ ⟨7200000000, by decide, by decide⟩
  have hload : holedStore.load noArithmetic returnFeature 7200000000 3600000000 =
      .ok ⟨returnFeature, 7200000000, 3600000000, []⟩ := by rfl
  rw [hload] at he
  cases he

end FinanceKing.Data.Features
