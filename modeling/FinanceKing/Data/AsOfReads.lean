import FinanceKing.Data.Alt.Store
import FinanceKing.Data.Features.PointInTime

/-! Reads of features and of alternative data are point in time. Both stores are tables of restated values, and
    an answer is a function of the rows that were known at the instant it is for. -/

namespace FinanceKing.Data

open Lib

/-! ### Any store of restated values -/

/-- How a store writes and reads its table: the rows an append asks for, the table it leaves, what a read as of
    an instant answers, and the values in an answer with their times. -/
structure RestatedStore (Call κ Answer : Type) [DecidableEq κ] where
  rows : Call → List (StoredRow κ)
  append : StoredTable κ → Call → StoredTable κ
  load : StoredTable κ → κ → DateTime → TimeDelta → PyResult Answer
  values : Answer → List (DateTime × Decimal)

namespace RestatedStore

variable {Call κ Answer : Type} [DecidableEq κ] (store : RestatedStore Call κ Answer)

/-- The table after a history of appends, committed or refused. -/
def run (history : List Call) : StoredTable κ := history.foldl store.append Dict.empty

/-- The row that answers for a time: the one with the greatest availability at or before the instant. -/
def LastKnown (table : StoredTable κ) (series : κ) (asOf eventTime : DateTime) (value : Decimal) : Prop :=
  ∃ availableAt ≤ asOf, table.get? (series, eventTime, availableAt) = some value ∧
    ∀ later ≤ asOf, (table.get? (series, eventTime, later)).isSome = true → later ≤ availableAt

/-- What a read as of an instant may depend on, and what it answers. -/
structure PointInTime : Prop where
  knownRowsOnly : ∀ history others asOf, (store.run history).AgreeUntil (store.run others) asOf →
    ∀ series lookback, store.load (store.run history) series asOf lookback =
      store.load (store.run others) series asOf lookback
  laterRows : ∀ history later asOf, (∀ call ∈ later, ∀ row ∈ store.rows call, asOf < row.availableAt) →
    ∀ series lookback, store.load (store.run (history ++ later)) series asOf lookback =
      store.load (store.run history) series asOf lookback
  duplicates : ∀ history call, (∀ row ∈ store.rows call, ((store.run history).get? row.key).isSome = true) →
    store.run (history ++ [call]) = store.run history
  eachTimeOnce : ∀ history series asOf lookback answer,
    store.load (store.run history) series asOf lookback = .ok answer →
      (store.values answer).Pairwise fun a b => a.1 < b.1
  lastKnown : ∀ history series asOf lookback answer,
    store.load (store.run history) series asOf lookback = .ok answer → ∀ eventTime value,
      (eventTime, value) ∈ store.values answer ↔
        asOf - lookback < eventTime ∧ LastKnown (store.run history) series asOf eventTime value

/-- An append is a transaction of its rows. -/
def IsTransactional (guard constraints : StoredRow κ → PyResult Unit) : Prop :=
  ∀ table call, store.append table call = (appendRows guard constraints table (store.rows call)).1

/-- A read looks at nothing but the last known rows of its window, and answers them in order. -/
structure ReadsLatest : Prop where
  congr : ∀ table₁ table₂ series asOf lookback, table₁.latest series asOf (asOf - lookback) =
    table₂.latest series asOf (asOf - lookback) →
      store.load table₁ series asOf lookback = store.load table₂ series asOf lookback
  answers : ∀ table series asOf lookback answer, store.load table series asOf lookback = .ok answer →
    store.values answer = (table.latest series asOf (asOf - lookback)).map fun row => (row.eventTime, row.value)

variable {store} {guard constraints : StoredRow κ → PyResult Unit}

theorem run_append_singleton (history : List Call) (call : Call) :
    store.run (history ++ [call]) = store.append (store.run history) call := by
  rw [run, run, List.foldl_append, List.foldl_cons, List.foldl_nil]

theorem agreeUntil_run (h : store.IsTransactional guard constraints) (history : List Call) {asOf : DateTime}
    {later : List Call} (hlater : ∀ call ∈ later, ∀ row ∈ store.rows call, asOf < row.availableAt) :
    (store.run (history ++ later)).AgreeUntil (store.run history) asOf := by
  induction later using List.reverseRecOn with
  | nil => rw [List.append_nil]; exact fun _ _ _ _ => rfl
  | append_singleton later call ih =>
    rw [← List.append_assoc, run_append_singleton, h]
    have hcall := hlater call (List.mem_append_right later (List.mem_singleton_self call))
    exact (agreeUntil_appendRows hcall).trans
      (ih fun earlier hearlier => hlater earlier (List.mem_append_left [call] hearlier))

theorem mem_latest_iff_lastKnown {table : StoredTable κ} {series : κ} {asOf start eventTime : DateTime}
    {value : Decimal} : (∃ row ∈ table.latest series asOf start, (row.eventTime, row.value) = (eventTime, value)) ↔
      start < eventTime ∧ LastKnown table series asOf eventTime value := by
  constructor
  · rintro ⟨row, hrow, hanswer⟩
    obtain ⟨rfl, rfl⟩ := Prod.mk.inj hanswer
    obtain ⟨hseen, hlast⟩ := table.mem_latest_iff.mp hrow
    obtain ⟨hvalue, rfl, hknown, hinside⟩ := table.mem_visible.mp hseen
    refine ⟨hinside, row.availableAt, hknown, hvalue, fun later hlater hheld => ?_⟩
    obtain ⟨other, hother⟩ := Option.isSome_iff_exists.mp hheld
    exact hlast ⟨row.series, row.eventTime, later, other⟩
      (table.mem_visible.mpr ⟨hother, rfl, hlater, hinside⟩) rfl
  · rintro ⟨hinside, availableAt, hknown, hvalue, hlast⟩
    refine ⟨⟨series, eventTime, availableAt, value⟩, table.mem_latest_iff.mpr ⟨?_, ?_⟩, rfl⟩
    · exact table.mem_visible.mpr ⟨hvalue, rfl, hknown, hinside⟩
    · intro other hother htime
      obtain ⟨hheld, rfl, hknown', -⟩ := table.mem_visible.mp hother
      refine hlast other.availableAt hknown' (Option.isSome_iff_exists.mpr ⟨other.value, ?_⟩)
      rw [← hheld, Restated.key, htime]

/-- A store that writes in transactions and reads the last known rows is point in time. -/
theorem pointInTime_of_readsLatest (htransactional : store.IsTransactional guard constraints)
    (hreads : store.ReadsLatest) : store.PointInTime where
  knownRowsOnly history others asOf h series lookback :=
    hreads.congr _ _ series asOf lookback (Restatements.latest_congr h series _)
  laterRows history later asOf hlater series lookback :=
    hreads.congr _ _ series asOf lookback
      (Restatements.latest_congr (agreeUntil_run htransactional history hlater) series _)
  duplicates history call hheld := by
    rw [run_append_singleton, htransactional]
    exact appendRows_of_held hheld
  eachTimeOnce history series asOf lookback answer h := by
    rw [hreads.answers _ series asOf lookback answer h, List.pairwise_map]
    exact Restatements.pairwise_latest _ series asOf _
  lastKnown history series asOf lookback answer h eventTime value := by
    rw [hreads.answers _ series asOf lookback answer h, List.mem_map]
    exact mem_latest_iff_lastKnown

/-- A row of the table is one that an append of the history asked for, with its value as the column keeps it. -/
theorem get?_run (h : store.IsTransactional guard constraints) {history : List Call} {row : StoredRow κ}
    (hrow : (store.run history).get? row.key = some row.value) : ∃ call ∈ history, ∃ asked ∈ store.rows call,
      asked.key = row.key ∧ constraints asked = .ok () ∧ numericColumn asked.value = .ok row.value := by
  induction history using List.reverseRecOn with
  | nil => cases hrow
  | append_singleton history call ih =>
    rw [run_append_singleton, h] at hrow
    rcases get?_appendRows hrow with hbefore | hasked
    · obtain ⟨earlier, hearlier, hfound⟩ := ih hbefore
      exact ⟨earlier, List.mem_append_left [call] hearlier, hfound⟩
    · exact ⟨call, List.mem_append_right history (List.mem_singleton_self call), hasked⟩

end RestatedStore

/-! ### The two stores -/

section Stores

open Features Alt

/-- The feature store over its table. -/
def featureStore (float : FloatArithmetic) (availability : AvailabilityContract) :
    RestatedStore (FeatureRef × List FeaturePoint) FeatureRef FeatureSeries where
  rows call := call.2.map fun point => point.row call.1
  append table call := (FeatureValueWriter.append table call.1 call.2).1
  load table feature asOf lookback :=
    (PostgresFeatureStore.ofTable availability table).load float feature asOf lookback
  values answer := answer.values.map fun entry => (entry.eventTimeUtc, entry.featureValue)

/-- The store of alternative observations over its table. -/
def altStore : RestatedStore (List AltPoint) AltSeriesRef AltSeries where
  rows points := points.map AltPoint.row
  append table points := (AltObservationWriter.append table points).1
  load := PostgresAltStore.load
  values answer := answer.values.map fun entry => (entry.eventTimeUtc, entry.observedValue)

/-- An append of nothing is the transaction of no rows. -/
theorem appendRows_nil {κ : Type} [DecidableEq κ] (guard constraints : StoredRow κ → PyResult Unit)
    (table : StoredTable κ) : (appendRows guard constraints table []).1 = table := rfl

theorem featureStore_isTransactional (float : FloatArithmetic) (availability : AvailabilityContract) :
    (featureStore float availability).IsTransactional (fun _ => .ok ()) featureConstraints := by
  intro table call
  obtain ⟨feature, points⟩ := call
  change (FeatureValueWriter.append table feature points).1 = (appendRows _ _ table (points.map _)).1
  rw [FeatureValueWriter.append]
  split
  · next hempty => rw [hempty, List.map_nil, appendRows_nil]
  · rfl

theorem altStore_isTransactional : altStore.IsTransactional requireRegistered altConstraints := by
  intro table points
  change (AltObservationWriter.append table points).1 = (appendRows _ _ table (points.map _)).1
  rw [AltObservationWriter.append]
  split
  · next hempty => rw [hempty, List.map_nil, appendRows_nil]
  · rfl

/-- What a read function answers is in order already, so the outer order changes nothing. -/
theorem sortBy_latest {κ γ : Type} [DecidableEq κ] (table : StoredTable κ) (series : κ)
    (asOf start : DateTime) (time : γ → DateTime) (entry : StoredRow κ → γ)
    (htime : ∀ row, time (entry row) = row.eventTime) :
    sortBy time ((table.latest series asOf start).map entry) = (table.latest series asOf start).map entry := by
  refine sortBy_eq_self time (List.pairwise_map.mpr ?_)
  refine (table.pairwise_latest series asOf start).imp fun {a b} hlt => ?_
  rw [htime, htime]
  exact hlt.le

theorem featureStore_readsLatest (float : FloatArithmetic) (availability : AvailabilityContract) :
    (featureStore float availability).ReadsLatest where
  congr table₁ table₂ feature asOf lookback h := by
    simp only [featureStore, PostgresFeatureStore.load, PostgresFeatureStore.ofTable, fkingFeatureAsOf, h]
  answers table feature asOf lookback answer h := by
    simp only [featureStore, PostgresFeatureStore.load, PostgresFeatureStore.ofTable, bind_eq_ok,
      pure_eq_ok] at h
    obtain ⟨_, _, _, _, _, _, rfl⟩ := h
    rw [fkingFeatureAsOf, sortBy_latest table feature asOf _ FeatureValue.eventTimeUtc _ fun _ => rfl]
    exact List.map_map

theorem altStore_readsLatest : altStore.ReadsLatest where
  congr table₁ table₂ series asOf lookback h := by
    simp only [altStore, PostgresAltStore.load, fkingAltAsOf, h]
  answers table series asOf lookback answer h := by
    simp only [altStore, PostgresAltStore.load, bind_eq_ok, pure_eq_ok] at h
    obtain ⟨_, _, _, _, rfl⟩ := h
    rw [fkingAltAsOf, sortBy_latest table series asOf _ AltValue.eventTimeUtc _ fun _ => rfl]
    exact List.map_map

/-- A value that is answered for a time comes from a point about that time that was known by then, and no
    declaration that builds the point lets it be seen before its lag has passed. -/
def AltLagHolds : Prop :=
  ∀ history series asOf lookback answer, altStore.load (altStore.run history) series asOf lookback = .ok answer →
    ∀ eventTime value, (eventTime, value) ∈ altStore.values answer →
      ∃ points ∈ history, ∃ point ∈ points, point.series = series ∧ point.eventTimeUtc = eventTime ∧
        numericColumn point.observedValue = .ok value ∧ point.availableAtUtc ≤ asOf ∧
        ∀ (spec : AltSourceSpec) (observation : AltObservation), spec.point series observation = .ok point →
          eventTime + spec.availabilityLag ≤ asOf

theorem altLagHolds : AltLagHolds := by
  intro history series asOf lookback answer hload eventTime value hvalue
  have hread := RestatedStore.pointInTime_of_readsLatest altStore_isTransactional altStore_readsLatest
  obtain ⟨-, availableAt, hknown, hheld, -⟩ :=
    (hread.lastKnown history series asOf lookback answer hload eventTime value).mp hvalue
  let answering : StoredRow AltSeriesRef := ⟨series, eventTime, availableAt, value⟩
  have hheld : (altStore.run history).get? answering.key = some answering.value := hheld
  obtain ⟨points, hpoints, row, hrow, hkey, -, hkept⟩ := RestatedStore.get?_run altStore_isTransactional hheld
  obtain ⟨point, hpoint, rfl⟩ := List.mem_map.mp hrow
  obtain ⟨hseries, htimes⟩ := Prod.mk.inj hkey
  obtain ⟨htime, havailable⟩ := Prod.mk.inj htimes
  have htime : point.eventTimeUtc = eventTime := htime
  have havailable : point.availableAtUtc = availableAt := havailable
  refine ⟨points, hpoints, point, hpoint, hseries, htime, hkept, havailable ▸ hknown, ?_⟩
  intro spec observation hbuilt
  obtain ⟨-, -, -, hlag⟩ := AltSourceSpec.point_cases hbuilt
  rw [htime, havailable] at hlag
  exact hlag.trans hknown

/-- Both stores are point in time, and alternative data keeps its declared lag. -/
theorem as_of_reads_are_pointInTime :
    (∀ float availability, (featureStore float availability).PointInTime) ∧ altStore.PointInTime ∧ AltLagHolds :=
  ⟨fun float availability => RestatedStore.pointInTime_of_readsLatest
      (featureStore_isTransactional float availability) (featureStore_readsLatest float availability),
    RestatedStore.pointInTime_of_readsLatest altStore_isTransactional altStore_readsLatest, altLagHolds⟩

end Stores

end FinanceKing.Data
