import FinanceKing.Backtest.Events
import FinanceKing.Data.Archive
import FinanceKing.Lib.Tiling
import FinanceKing.Lib.SortBy

/-! What a run asks the feed for: the series, one bar interval, a window on open times and a warm-up in
    bars, with the lattice of open times that implies. -/

namespace FinanceKing.Backtest

open Lib Data

/-- `BAR_INTERVALS`. -/
def barIntervals : List (String × TimeDelta) :=
  [("1m", .ofMinutes 1), ("3m", .ofMinutes 3), ("5m", .ofMinutes 5), ("15m", .ofMinutes 15),
    ("30m", .ofMinutes 30), ("1h", .ofMinutes 60), ("2h", .ofMinutes 120), ("4h", .ofMinutes 240),
    ("6h", .ofMinutes 360), ("8h", .ofMinutes 480), ("12h", .ofMinutes 720), ("1d", .ofMinutes 1440)]

/-- The duration of one bar of the interval, or a refusal. -/
def intervalDuration (barInterval : String) : PyResult TimeDelta :=
  match barIntervals.lookup barInterval with
  | some duration => .ok duration
  | none => raise .feedRequest
      ["bar interval ", .quoted barInterval, " has no declared duration; declared intervals are ",
        .texts (sortBy id (barIntervals.map Prod.fst)), ". Weekly and monthly bars are absent because ",
        "their duration is not constant, and a lattice built from a fixed timedelta drifts against the ",
        "venue's own boundaries rather than failing"]

/-- One market and instrument the run subscribes to. -/
structure SeriesRequest where
  market : Market
  instrument : Instrument
  deriving DecidableEq

namespace SeriesRequest

variable (self : SeriesRequest)

def symbol : String := self.instrument.symbol

/-- `market/symbol`, the key a series is reported and ordered under. -/
def label : String := self.market.value ++ "/" ++ self.symbol

end SeriesRequest

/-- One window of one interval over a set of series, before its constructor has checked it. -/
structure FeedRequestFields where
  series : List SeriesRequest
  barInterval : String
  exposedFromUtc : DateTime
  untilUtc : DateTime
  warmupBarCount : ℤ
  deriving DecidableEq

/-- A boundary of the window lies on the lattice, which is anchored at the epoch. -/
def requireAligned (barInterval name : String) (moment : DateTime) (duration : TimeDelta) :
    PyResult Unit :=
  raiseIf (moment % duration ≠ 0) .feedRequest
    [name, " ", .instant moment, " is not on the ", barInterval, " lattice, which Binance anchors at ",
      .instant 0, ". An unaligned boundary names no bar the archive contains, so every bar in the ",
      "window would be reported missing and the coverage report would blame the corpus for the request"]

def FeedRequestFields.postInit (self : FeedRequestFields) : PyResult Unit := do
  raiseIf (strip self.barInterval = []) .feedRequest ["bar_interval must not be blank"]
  raiseIf (self.warmupBarCount < 0) .feedRequest
    ["warmup_bar_count must not be negative; got ", .count self.warmupBarCount]
  raiseIf (self.series = []) .feedRequest ["a feed request must name at least one series"]
  raiseIf (¬ (self.series.map fun entry => (entry.market, entry.symbol)).Nodup) .feedRequest
    ["series names the same (market, symbol) twice: ",
      .texts (sortBy id (self.series.map SeriesRequest.label))]
  let duration ← intervalDuration self.barInterval
  raiseIf (self.untilUtc ≤ self.exposedFromUtc) .feedRequest
    ["until_utc ", .instant self.untilUtc, " must follow exposed_from_utc ",
      .instant self.exposedFromUtc]
  requireAligned self.barInterval "exposed_from_utc" self.exposedFromUtc duration
  requireAligned self.barInterval "until_utc" self.untilUtc duration

structure FeedRequest extends FeedRequestFields where
  checked : toFeedRequestFields.postInit = .ok ()
  deriving DecidableEq

/-- What the constructor of a request has established. -/
structure FeedRequest.Facts (request : FeedRequest) (duration : TimeDelta) : Prop where
  duration_pos : 0 < duration
  warmup_nonneg : 0 ≤ request.warmupBarCount
  distinct : (request.series.map fun entry => (entry.market, entry.symbol)).Nodup
  forward : request.exposedFromUtc < request.untilUtc
  whole : duration * ((request.untilUtc - request.exposedFromUtc) / duration) =
    request.untilUtc - request.exposedFromUtc

namespace FeedRequest

variable (self : FeedRequest)

/-- How long one bar of the request's interval lasts; the constructor has looked it up. -/
def duration : TimeDelta := (barIntervals.lookup self.barInterval).getD 0

/-- The open time of the first warm-up bar. -/
def warmupStartUtc : DateTime := self.exposedFromUtc - self.duration * self.warmupBarCount

/-- How many bars each series must hold across warm-up and exposure together. -/
def expectedBarCount : ℤ := self.warmupBarCount + (self.untilUtc - self.exposedFromUtc) / self.duration

/-- Every open time the corpus must hold, warm-up first: steps of one interval while they stay before the
    end of the window. -/
def lattice : List DateTime := progression self.duration self.warmupStartUtc self.expectedBarCount.toNat

/-- Whether a bar opening at this instant belongs to the warm-up phase. -/
def isWarmup (openTimeUtc : DateTime) : Bool := openTimeUtc < self.exposedFromUtc

theorem facts : self.Facts self.duration := by
  have h := self.checked
  simp only [FeedRequestFields.postInit, bind_eq_ok, raiseIf_eq_ok, requireAligned, not_lt, not_le,
    not_not] at h
  obtain ⟨_, _, _, hwarmup, _, _, _, hdistinct, duration, hduration, _, hforward, _, hexposed, huntil⟩ := h
  have hlookup : barIntervals.lookup self.barInterval = some duration := by
    rw [intervalDuration] at hduration
    cases hfound : barIntervals.lookup self.barInterval with
    | none => simp [hfound] at hduration
    | some found =>
      rw [hfound] at hduration
      exact congrArg some (Except.ok.inj hduration)
  have hself : self.duration = duration := by rw [FeedRequest.duration, hlookup, Option.getD_some]
  have hpositive : 0 < duration := by
    have hall : ∀ entry ∈ barIntervals, 0 < entry.2 := by decide
    obtain ⟨before, rest, hentries, _⟩ := List.lookup_eq_some_iff.mp hlookup
    exact hall (self.barInterval, duration) (hentries ▸ List.mem_append_right _ List.mem_cons_self)
  refine ⟨hself ▸ hpositive, hwarmup, hdistinct, hforward, ?_⟩
  rw [hself]
  exact Int.mul_ediv_cancel' (Int.dvd_sub (Int.dvd_of_emod_eq_zero huntil)
    (Int.dvd_of_emod_eq_zero hexposed))

theorem expectedBarCount_nonneg : 0 ≤ self.expectedBarCount :=
  add_nonneg self.facts.warmup_nonneg
    (Int.ediv_nonneg (sub_nonneg.mpr self.facts.forward.le) self.facts.duration_pos.le)

/-- The lattice ends where the window does. -/
theorem warmupStartUtc_add : self.warmupStartUtc + self.duration * self.expectedBarCount =
    self.untilUtc := by
  rw [warmupStartUtc, expectedBarCount, mul_add, self.facts.whole]
  ring

/-- The lattice is what the loop of the source yields: one instant after another, up to the window's end. -/
theorem mem_lattice {moment : DateTime} : moment ∈ self.lattice ↔
    self.warmupStartUtc ≤ moment ∧ moment < self.untilUtc ∧
      self.duration ∣ moment - self.warmupStartUtc := by
  have hpositive := self.facts.duration_pos
  have hend := self.warmupStartUtc_add
  rw [lattice, mem_progression]
  constructor
  · rintro ⟨k, hk, rfl⟩
    have hlow : 0 ≤ self.duration * (k : ℤ) := mul_nonneg hpositive.le (Int.natCast_nonneg k)
    have hhigh : self.duration * (k : ℤ) < self.duration * self.expectedBarCount :=
      mul_lt_mul_of_pos_left (Int.lt_toNat.mp hk) hpositive
    exact ⟨by linarith, by linarith, ⟨k, by ring⟩⟩
  · rintro ⟨hlow, hhigh, k, hk⟩
    have hmoment : moment = self.warmupStartUtc + self.duration * k := by linarith
    have hnonneg : 0 ≤ k := by
      by_contra hneg
      have hproduct := mul_neg_of_pos_of_neg hpositive (not_le.mp hneg)
      linarith
    have hless : k < self.expectedBarCount := by
      by_contra hge
      have hproduct := mul_le_mul_of_nonneg_left (not_lt.mp hge) hpositive.le
      linarith
    have hk' : (k.toNat : ℤ) = k := Int.toNat_of_nonneg hnonneg
    exact ⟨k.toNat, Int.lt_toNat.mpr (by rwa [hk']), by rw [hmoment, hk']⟩

end FeedRequest

end FinanceKing.Backtest
