import FinanceKing.Backtest.PortfolioBooks
import FinanceKing.Backtest.PortfolioState
import FinanceKing.Domain.Results

/-! The fixed daily grid and the equity path on it: midnight UTC, every day, no gaps. -/

namespace FinanceKing.Backtest.Report

open Lib

def annualisationDays : ℕ := 365

def oneDay : TimeDelta := TimeDelta.ofMinutes (24 * 60)

/-- Exactly midnight UTC. -/
def requireGridBoundary (moment : DateTime) (what : String) : PyResult Unit :=
  raiseIf (moment % oneDay ≠ 0) .equityPath
    [what, " is ", .instant moment, ", which is not a midnight UTC grid boundary. Two strategies marked ",
      "at different instants of the day are not comparable, and nothing in the numbers says so"]

/-- One day's mark-to-market, before its constructor has checked it. -/
structure EquityPointFields where
  asOfUtc : DateTime
  equityUsd : Decimal
  isInMarket : Bool
  regime : String
  deriving DecidableEq

def EquityPointFields.postInit (self : EquityPointFields) : PyResult Unit := do
  requireGridBoundary self.asOfUtc "EquityPoint.as_of_utc"
  FinanceKing.requireText self.regime "regime"
  raiseIf (self.equityUsd ≤ 0) .equityPath
    ["equity is ", .decimal self.equityUsd, " at ", .instant self.asOfUtc, ". A path that reaches zero ",
      "has reached ruin, and every return computed across that boundary is a division by a capital base ",
      "that no longer exists"]

structure EquityPoint extends EquityPointFields where
  checked : toEquityPointFields.postInit = .ok ()
  deriving DecidableEq

/-- Each boundary is a day after the one before it. -/
def requireContiguous : List EquityPoint → PyResult Unit
  | [] => .ok ()
  | [_] => .ok ()
  | earlier :: later :: points => do
    raiseIf (later.asOfUtc - earlier.asOfUtc ≠ oneDay) .equityPath
      ["the grid skips from ", .instant earlier.asOfUtc, " to ", .instant later.asOfUtc, ". A gap turns ",
        "one daily return into a multi-day one, which lowers measured volatility and raises the Sharpe"]
    requireContiguous (later :: points)

def requireGrid (points : List EquityPoint) : PyResult Unit := do
  raiseIf (points.length < 2) .equityPath
    ["an equity path needs at least two grid boundaries to yield one daily return; got ",
      .count points.length]
  requireContiguous points

/-- A contiguous daily equity curve. -/
structure EquityPath where
  points : List EquityPoint
  checked : requireGrid points = .ok ()
  deriving DecidableEq

namespace EquityPath

variable (self : EquityPath)

/-- The boundaries a return is attributed to: every point but the opening one. -/
def earningPoints : List EquityPoint := self.points.tail

def observationCount : ℕ := self.points.length - 1

def startingEquityUsd : Decimal := self.points.head?.elim 0 fun point => point.equityUsd

def endingEquityUsd : Decimal := self.points.getLast?.elim 0 fun point => point.equityUsd

/-- One return a day, each over the equity of the day before. -/
def dailyReturnFractions : List Decimal :=
  List.zipWith (fun earlier later => later.equityUsd / earlier.equityUsd - 1) self.points
    self.earningPoints

/-- The share of some days on which any exposure was held, in percent. -/
def inMarketPct (days : List EquityPoint) : Decimal :=
  (days.countP fun point => point.isInMarket) * 100 / days.length

def timeInMarketPct : Decimal := inMarketPct self.earningPoints

/-- Every distinct regime label the earning days carry, in sorted order. -/
def regimes : List String := sortBy id (self.earningPoints.map fun point => point.regime).dedup

/-- The daily returns earned on days of a regime, in path order. -/
def returnsInRegime (regime : String) : List Decimal :=
  ((self.dailyReturnFractions.zip self.earningPoints).filter fun earned =>
    earned.2.regime = regime).map Prod.fst

def timeInMarketPctInRegime (regime : String) : PyResult Decimal := do
  let days := self.earningPoints.filter fun point => point.regime = regime
  raiseIf (days = []) .equityPath ["no earning day carries the regime ", .quoted regime]
  return inMarketPct days

theorem length_dailyReturnFractions : self.dailyReturnFractions.length = self.observationCount := by
  rw [dailyReturnFractions, List.length_zipWith, earningPoints, List.length_tail, observationCount]
  exact min_eq_right (Nat.sub_le _ _)

/-- A day's regime has a return. -/
theorem returnsInRegime_ne_nil {regime : String} (h : regime ∈ self.regimes) :
    self.returnsInRegime regime ≠ [] := by
  rw [regimes, mem_sortBy, List.mem_dedup] at h
  obtain ⟨point, hpoint, rfl⟩ := List.mem_map.mp h
  have hlengths : self.earningPoints.length ≤ self.dailyReturnFractions.length := by
    rw [length_dailyReturnFractions, earningPoints, List.length_tail, observationCount]
  rw [← List.map_snd_zip hlengths] at hpoint
  obtain ⟨earned, hearned, rfl⟩ := List.mem_map.mp hpoint
  have hkept : earned ∈ (self.dailyReturnFractions.zip self.earningPoints).filter fun other =>
      other.2.regime = earned.2.regime := List.mem_filter.mpr ⟨hearned, decide_eq_true rfl⟩
  exact fun hnil => List.not_mem_nil (List.map_eq_nil_iff.mp hnil ▸ hkept)

theorem timeInMarketPctInRegime_ok {regime : String} (h : regime ∈ self.regimes) :
    ∃ pct, self.timeInMarketPctInRegime regime = .ok pct := by
  rw [regimes, mem_sortBy, List.mem_dedup] at h
  obtain ⟨point, hpoint, rfl⟩ := List.mem_map.mp h
  have hdays : (self.earningPoints.filter fun other => other.regime = point.regime) ≠ [] :=
    List.ne_nil_of_mem (List.mem_filter.mpr ⟨hpoint, decide_eq_true rfl⟩)
  rw [timeInMarketPctInRegime, raiseIf, if_neg hdays]
  exact ⟨_, rfl⟩

end EquityPath

end FinanceKing.Backtest.Report

/-! Marking a run onto the daily grid. The grid sees the books once a day, at its boundary; what was opened and
    closed between two boundaries leaves no trace in the mark. -/

namespace FinanceKing.Backtest.Report

open Lib

/-! ### The path of some observations -/

structure DailyMarkFields where
  asOfUtc : DateTime
  markQuotePrices : Dict Instrument Decimal
  regime : String
  deriving DecidableEq

def DailyMarkFields.postInit (self : DailyMarkFields) : PyResult Unit := do
  requireGridBoundary self.asOfUtc "DailyMark.as_of_utc"
  FinanceKing.requireText self.regime "regime"

/-- The marks and the regime label for one grid boundary. -/
structure DailyMark extends DailyMarkFields where
  checked : toDailyMarkFields.postInit = .ok ()
  deriving DecidableEq

/-- The point of one boundary, from the books as they stood there. -/
def equityPointFor (observation : PortfolioState × DailyMark) : PyResult EquityPoint := do
  let (state, mark) := observation
  requireGridBoundary mark.asOfUtc "DailyMark.as_of_utc"
  raiseIf (mark.asOfUtc < state.asOfUtc) .equityPath
    ["the portfolio stands at ", .instant state.asOfUtc, " but is being marked at ", .instant mark.asOfUtc,
      "; a boundary cannot observe state from after it"]
  let equityUsd ← state.equityUsd mark.markQuotePrices
  construct EquityPointFields.postInit EquityPoint.mk ⟨mark.asOfUtc, equityUsd, state.isInMarket, mark.regime⟩

def buildEquityPath (observations : List (PortfolioState × DailyMark)) : PyResult EquityPath := do
  let points ← observations.mapM equityPointFor
  construct requireGrid EquityPath.mk points

/-- What a point keeps of its observation. -/
structure Marks (observation : PortfolioState × DailyMark) (point : EquityPoint) : Prop where
  asOf : point.asOfUtc = observation.2.asOfUtc
  inMarket : point.isInMarket = observation.1.isInMarket

theorem marks_of_equityPointFor {observation : PortfolioState × DailyMark} {point : EquityPoint}
    (h : equityPointFor observation = .ok point) : Marks observation point := by
  simp only [equityPointFor, bind_eq_ok] at h
  obtain ⟨_, _, _, _, _, _, hpoint⟩ := h
  obtain ⟨_, rfl⟩ := construct_eq_ok hpoint
  exact ⟨rfl, rfl⟩

theorem marks_of_buildEquityPath {observations : List (PortfolioState × DailyMark)} {path : EquityPath}
    (h : buildEquityPath observations = .ok path) : List.Forall₂ Marks observations path.points := by
  simp only [buildEquityPath, bind_eq_ok] at h
  obtain ⟨points, hpoints, hpath⟩ := h
  obtain ⟨_, rfl⟩ := construct_eq_ok hpath
  exact (mapM_eq_ok_iff.mp hpoints).imp fun _ _ hpoint => marks_of_equityPointFor hpoint

/-! ### A run on the grid -/

/-- The calls of a run that were booked by an instant. -/
def bookedBy (booked : List PortfolioCall) (instant : DateTime) : List PortfolioCall :=
  booked.filter fun call => call.occursAtUtc ≤ instant

/-- A run of the books from their opening, and one observation of it for each boundary: the state that the
    calls booked by the boundary had left. -/
structure DailyRun where
  openedAtUtc : DateTime
  startingCashUsd : Decimal
  opened : PortfolioState
  opens : PortfolioState.opening openedAtUtc startingCashUsd = .ok opened
  calls : List PortfolioCall
  observations : List (PortfolioState × DailyMark)
  observed : ∀ observation ∈ observations, ∃ earlier later, calls = earlier ++ later ∧
    run opened earlier = (observation.1, bookedBy (run opened calls).2 observation.2.asOfUtc)

namespace DailyRun

variable (self : DailyRun)

/-- What is held in one instrument at an instant: the fills booked by then, summed with their signs. -/
def heldAt (instant : DateTime) (instrument : Instrument) : Decimal :=
  heldAfter (bookedBy (run self.opened self.calls).2 instant) instrument

/-- Some instrument is held at an instant. -/
def InMarketAt (instant : DateTime) : Prop := ∃ instrument, self.heldAt instant instrument ≠ 0

/-- Some instrument is held at some instant of the day that ends at a boundary. -/
def ExposedDuring (boundary : DateTime) : Prop :=
  ∃ instant, boundary - oneDay < instant ∧ instant ≤ boundary ∧ self.InMarketAt instant

open Classical in
/-- The share of some days with exposure, in percent. -/
noncomputable def exposedPct (days : List EquityPoint) : Decimal :=
  (days.countP fun point => self.ExposedDuring point.asOfUtc) * 100 / days.length

/-- Time in market counts the days with exposure: each one is marked, and they are the share that is reported,
    overall and within each regime. -/
structure CountsExposure (path : EquityPath) : Prop where
  marks : ∀ point ∈ path.earningPoints, point.isInMarket = true ↔ self.ExposedDuring point.asOfUtc
  overall : path.timeInMarketPct = self.exposedPct path.earningPoints
  inRegime : ∀ regime ∈ path.regimes, path.timeInMarketPctInRegime regime =
    .ok (self.exposedPct (path.earningPoints.filter fun point => point.regime = regime))

/-- No earning day that saw a position ends flat. -/
def HoldsOvernight : Prop :=
  ∀ observation ∈ self.observations.tail, self.ExposedDuring observation.2.asOfUtc →
    self.InMarketAt observation.2.asOfUtc

end DailyRun

/-! ### What a mark says -/

/-- The books are in the market when some held quantity is not zero. -/
theorem isInMarket_iff (state : PortfolioState) :
    state.isInMarket = true ↔ ∃ instrument, state.heldQuantity instrument ≠ 0 := by
  have hentry : ∀ instrument position, state.positions.get? instrument = some position ↔
      (instrument, position) ∈ state.positions.entries := fun _ _ => Dict.get?_eq_some_iff _ _ _
  rw [PortfolioState.isInMarket, decide_eq_true_eq, PortfolioState.openPositions, Ne, List.filter_eq_nil_iff]
  push Not
  simp only [PortfolioState.heldQuantity, List.mem_map, mem_sortBy, decide_eq_true_eq]
  constructor
  · rintro ⟨_, ⟨⟨instrument, position⟩, hmem, rfl⟩, hquantity⟩
    refine ⟨instrument, ?_⟩
    rw [(hentry _ _).mpr hmem]
    exact hquantity
  · rintro ⟨instrument, hquantity⟩
    cases hget : state.positions.get? instrument with
    | none => rw [hget] at hquantity; exact absurd rfl hquantity
    | some position =>
      rw [hget] at hquantity
      exact ⟨position, ⟨_, (hentry _ _).mp hget, rfl⟩, hquantity⟩

namespace DailyRun

variable {self : DailyRun}

/-- An observation is in the market exactly when something is held at its boundary. -/
theorem isInMarket_observation (self : DailyRun) {observation : PortfolioState × DailyMark}
    (h : observation ∈ self.observations) :
    observation.1.isInMarket = true ↔ self.InMarketAt observation.2.asOfUtc := by
  obtain ⟨earlier, _, _, hrun⟩ := self.observed observation h
  have hbooks := books_run self.opens earlier
  rw [hrun] at hbooks
  rw [isInMarket_iff]
  exact exists_congr fun instrument => by rw [hbooks.held instrument, heldAt]

/-- What is held at a boundary was held on the day that ends there. -/
theorem exposedDuring_of_inMarketAt {boundary : DateTime} (h : self.InMarketAt boundary) :
    self.ExposedDuring boundary :=
  ⟨boundary, sub_lt_self boundary (by decide), le_rfl, h⟩

theorem marks_tail {path : EquityPath} (h : buildEquityPath self.observations = .ok path) :
    List.Forall₂ Marks self.observations.tail path.earningPoints := by
  have hmarks := marks_of_buildEquityPath h
  rw [EquityPath.earningPoints]
  generalize self.observations = observations at hmarks
  generalize path.points = points at hmarks
  cases hmarks with
  | nil => exact .nil
  | cons _ hrest => exact hrest

/-- The marks are those of the definition exactly when no day with exposure ends flat. -/
theorem marks_iff_holdsOvernight {path : EquityPath} (h : buildEquityPath self.observations = .ok path) :
    (∀ point ∈ path.earningPoints, point.isInMarket = true ↔ self.ExposedDuring point.asOfUtc) ↔
      self.HoldsOvernight := by
  have hmarks := marks_tail h
  constructor
  · intro hpoints observation hobservation hexposed
    obtain ⟨point, hpoint, hmark⟩ := exists_right_of_forall₂ hmarks hobservation
    rw [← self.isInMarket_observation (List.mem_of_mem_tail hobservation), ← hmark.inMarket]
    exact (hpoints point hpoint).mpr (hmark.asOf ▸ hexposed)
  · intro hovernight point hpoint
    obtain ⟨observation, hobservation, hmark⟩ := exists_left_of_forall₂ hmarks hpoint
    rw [hmark.inMarket, hmark.asOf, self.isInMarket_observation (List.mem_of_mem_tail hobservation)]
    exact ⟨exposedDuring_of_inMarketAt, hovernight observation hobservation⟩

/-- Days that are marked as they should be have the share they should have. -/
theorem inMarketPct_eq {days : List EquityPoint}
    (h : ∀ point ∈ days, point.isInMarket = true ↔ self.ExposedDuring point.asOfUtc) :
    EquityPath.inMarketPct days = self.exposedPct days := by
  have hcount : (days.countP fun point => point.isInMarket) =
      days.countP fun point => @decide (self.ExposedDuring point.asOfUtc) (Classical.propDecidable _) :=
    List.countP_congr fun point hpoint => by simp only [h point hpoint, decide_eq_true_eq]
  rw [EquityPath.inMarketPct, exposedPct, hcount]

theorem countsExposure_of_marks {path : EquityPath}
    (h : ∀ point ∈ path.earningPoints, point.isInMarket = true ↔ self.ExposedDuring point.asOfUtc) :
    self.CountsExposure path where
  marks := h
  overall := inMarketPct_eq h
  inRegime := by
    intro regime hregime
    obtain ⟨pct, hpct⟩ := path.timeInMarketPctInRegime_ok hregime
    have hsame : EquityPath.inMarketPct (path.earningPoints.filter fun point => point.regime = regime) =
        self.exposedPct (path.earningPoints.filter fun point => point.regime = regime) :=
      inMarketPct_eq fun point hpoint => h point (List.mem_of_mem_filter hpoint)
    simp only [EquityPath.timeInMarketPctInRegime, bind_eq_ok, pure_eq_ok] at hpct ⊢
    obtain ⟨_, hdays, _⟩ := hpct
    exact ⟨(), hdays, hsame⟩

/-- Time in market is what it is reported as exactly in the runs in which no day with exposure ends flat. -/
theorem countsExposure_iff (self : DailyRun) {path : EquityPath}
    (h : buildEquityPath self.observations = .ok path) : self.CountsExposure path ↔ self.HoldsOvernight :=
  ⟨fun ⟨hmarks, _, _⟩ => (marks_iff_holdsOvernight h).mp hmarks,
    fun hovernight => countsExposure_of_marks ((marks_iff_holdsOvernight h).mpr hovernight)⟩

end DailyRun

/-! ### A round trip within a day -/

def noonFields : FillFields := ⟨1, 1, "t", .sample, .buy, 43200000000, 100, 1, 0⟩

theorem noonFields_checked : noonFields.postInit = .ok () := by with_unfolding_all decide

def eveningFields : FillFields := ⟨2, 2, "t", .sample, .sell, 64800000000, 110, 1, 0⟩

theorem eveningFields_checked : eveningFields.postInit = .ok () := by with_unfolding_all decide

/-- One coin bought at noon and sold in the evening. -/
def roundTripCalls : List PortfolioCall :=
  [.withFill ⟨noonFields, noonFields_checked⟩, .withFill ⟨eveningFields, eveningFields_checked⟩]

def openingMarkFields : DailyMarkFields := ⟨0, Dict.empty, "calm"⟩

theorem openingMarkFields_checked : openingMarkFields.postInit = .ok () := by with_unfolding_all decide

def openingMark : DailyMark := ⟨openingMarkFields, openingMarkFields_checked⟩

def closingMarkFields : DailyMarkFields := ⟨86400000000, Dict.empty, "calm"⟩

theorem closingMarkFields_checked : closingMarkFields.postInit = .ok () := by with_unfolding_all decide

def closingMark : DailyMark := ⟨closingMarkFields, closingMarkFields_checked⟩

def afterRoundTrip : PortfolioState := (run sampleOpening roundTripCalls).1

theorem roundTrip_opens : PortfolioState.opening 0 1000 = .ok sampleOpening := by with_unfolding_all decide

theorem roundTrip_observed : ∀ observation ∈ [(sampleOpening, openingMark), (afterRoundTrip, closingMark)],
    ∃ earlier later, roundTripCalls = earlier ++ later ∧ run sampleOpening earlier =
      (observation.1, bookedBy (run sampleOpening roundTripCalls).2 observation.2.asOfUtc) := by
  rw [List.forall_mem_cons, List.forall_mem_singleton]
  exact ⟨⟨[], roundTripCalls, rfl, by with_unfolding_all decide⟩, ⟨roundTripCalls, [], rfl, by with_unfolding_all decide⟩⟩

/-- The books opened at midnight, and observed then and at the next one. -/
def roundTripRun : DailyRun where
  openedAtUtc := 0
  startingCashUsd := 1000
  opened := sampleOpening
  opens := roundTrip_opens
  calls := roundTripCalls
  observations := [(sampleOpening, openingMark), (afterRoundTrip, closingMark)]
  observed := roundTrip_observed

theorem roundTripRun_exposed : roundTripRun.ExposedDuring 86400000000 :=
  ⟨43200000000, by decide, by decide, .sample, by with_unfolding_all decide⟩

theorem roundTripRun_flat : ¬ roundTripRun.InMarketAt 86400000000 := by
  have hclosed : afterRoundTrip.isInMarket = true ↔ roundTripRun.InMarketAt closingMark.asOfUtc :=
    roundTripRun.isInMarket_observation (List.mem_cons_of_mem _ (List.mem_singleton_self (afterRoundTrip, closingMark)))
  exact fun h => absurd (hclosed.mpr h) (by with_unfolding_all decide)

theorem roundTripRun_path : ∃ path, buildEquityPath roundTripRun.observations = .ok path := by
  have hbuilt : (buildEquityPath roundTripRun.observations).toOption.isSome := by with_unfolding_all decide
  cases h : buildEquityPath roundTripRun.observations with
  | error e => rw [h] at hbuilt; cases hbuilt
  | ok path => exact ⟨path, rfl⟩

/-- A day on which a coin was held from noon to evening is marked as out of the market. -/
theorem a_round_trip_is_not_marked : ¬ ∀ (history : DailyRun) (path : EquityPath),
    buildEquityPath history.observations = .ok path → ∀ point ∈ path.earningPoints,
      (point.isInMarket = true ↔ history.ExposedDuring point.asOfUtc) := by
  intro h
  obtain ⟨path, hpath⟩ := roundTripRun_path
  obtain ⟨point, hpoint, hmark⟩ := exists_right_of_forall₂ (DailyRun.marks_tail hpath)
    (List.mem_singleton_self (afterRoundTrip, closingMark))
  have hmarked := (h roundTripRun path hpath point hpoint).mpr (hmark.asOf ▸ roundTripRun_exposed)
  have hclosed : (afterRoundTrip, closingMark).1.isInMarket = true ↔ _ :=
    roundTripRun.isInMarket_observation (List.mem_cons_of_mem _ List.mem_cons_self)
  exact roundTripRun_flat (hclosed.mp (hmark.inMarket ▸ hmarked))

theorem countsExposure_iff_roundTrip : ∃ path, buildEquityPath roundTripRun.observations = .ok path ∧
    (roundTripRun.CountsExposure path ↔ roundTripRun.HoldsOvernight) := by
  obtain ⟨path, hpath⟩ := roundTripRun_path
  exact ⟨path, hpath, roundTripRun.countsExposure_iff hpath⟩

end FinanceKing.Backtest.Report
