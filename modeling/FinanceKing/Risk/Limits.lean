import FinanceKing.Domain.Guards
import FinanceKing.Lib.Dict
import FinanceKing.Lib.SortBy

/-! Compiled-in bounds on configurable limits. A limit above its ceiling is refused, never clamped,
    and every breach is named at once. -/

namespace FinanceKing.Risk

open Lib

def advice : String :=
  " Configuration may only make this system more conservative. Moving a compiled-in bound requires " ++
    "a source edit and a pull request labelled safety:critical."

/-- An upper bound; equality is legal. -/
structure Ceiling where
  bound : Decimal
  deriving DecidableEq

def Ceiling.isExceededBy (self : Ceiling) (requested : Decimal) : Bool := self.bound < requested

/-- A lower bound; equality is legal. -/
structure Floor where
  bound : Decimal
  deriving DecidableEq

def Floor.isUndercutBy (self : Floor) (requested : Decimal) : Bool := requested < self.bound

def hardCeilings : List (String × Ceiling) :=
  [("max_portfolio_notional_usd", ⟨100000⟩), ("max_position_notional_usd", ⟨25000⟩),
    ("max_leverage", ⟨3⟩), ("max_daily_drawdown_ratio", ⟨5 / 100⟩),
    ("max_total_drawdown_ratio", ⟨20 / 100⟩), ("max_open_positions", ⟨10⟩),
    ("max_orders_per_minute", ⟨30⟩), ("max_single_order_notional_usd", ⟨10000⟩),
    ("max_correlated_exposure_ratio", ⟨40 / 100⟩)]

def hardFloors : List (String × Floor) :=
  [("min_free_margin_ratio", ⟨25 / 100⟩), ("min_trades_for_kelly", ⟨100⟩), ("conviction_floor", ⟨10 / 100⟩)]

/-- Raise once, naming every breach. -/
def refuse (breaches : List Message) : PyResult Unit :=
  raiseIf (breaches ≠ []) .valueError
    ((breaches.intersperse [.text "; "]).flatten ++ [.text ".", .text advice])

/-- Refuse a bound whose field the caller did not report. -/
def assertBoundsAreObserved (observed : Dict String Decimal) (names : List String) : PyResult Unit :=
  let missing := sortBy (fun name => name) (names.filter (fun name => name ∉ observed.keys))
  raiseIf (missing ≠ []) .valueError
    ["bounded limits ", .texts missing, " were not submitted for validation; a bound on a field " ++
      "nobody reports constrains nothing"]

/-- Refuse any submitted limit above its ceiling. -/
def assertWithinCeilings (observed : Dict String Decimal) (ceilings : List (String × Ceiling))
    (scope : String) : PyResult Unit := do
  assertBoundsAreObserved observed (ceilings.map Prod.fst)
  refuse (ceilings.filterMap fun (name, ceiling) =>
    (observed.get? name).bind fun requested =>
      if ceiling.isExceededBy requested then
        some [scope, ".", name, "=", .decimal requested, " exceeds the compiled-in hard ceiling ",
          .decimal ceiling.bound]
      else
        none)

/-- Refuse any submitted limit below its floor. -/
def assertAboveFloors (observed : Dict String Decimal) (floors : List (String × Floor))
    (scope : String) : PyResult Unit := do
  assertBoundsAreObserved observed (floors.map Prod.fst)
  refuse (floors.filterMap fun (name, floor) =>
    (observed.get? name).bind fun requested =>
      if floor.isUndercutBy requested then
        some [scope, ".", name, "=", .decimal requested, " is below the compiled-in hard floor ",
          .decimal floor.bound]
      else
        none)

/-- The submitted limits by name, a later one replacing an earlier one. -/
def submittedLimits (limits : List (String × Decimal)) : Dict String Decimal :=
  limits.foldl (fun observed (name, limit) => observed.set name limit) Dict.empty

theorem refuse_eq_ok {breaches : List Message} {u : Unit} : refuse breaches = .ok u ↔ breaches = [] := by
  rw [refuse, raiseIf_eq_ok, not_not]

/-- Limits that were accepted sit at or below their ceilings. -/
theorem assertWithinCeilings_le {observed : Dict String Decimal} {ceilings : List (String × Ceiling)}
    {scope : String} (h : assertWithinCeilings observed ceilings scope = .ok ()) {name : String}
    {ceiling : Ceiling} (hceiling : (name, ceiling) ∈ ceilings) {requested : Decimal}
    (hrequested : observed.get? name = some requested) : requested ≤ ceiling.bound := by
  simp only [assertWithinCeilings, bind_eq_ok, refuse_eq_ok, List.filterMap_eq_nil_iff] at h
  obtain ⟨_, _, hnone⟩ := h
  have hentry := hnone (name, ceiling) hceiling
  rw [hrequested, Option.bind_some] at hentry
  by_contra hlt
  have hexceeded : ceiling.isExceededBy requested = true := decide_eq_true (not_le.mp hlt)
  rw [if_pos hexceeded] at hentry
  cases hentry

/-- Limits that were accepted sit at or above their floors. -/
theorem assertAboveFloors_le {observed : Dict String Decimal} {floors : List (String × Floor)}
    {scope : String} (h : assertAboveFloors observed floors scope = .ok ()) {name : String}
    {floor : Floor} (hfloor : (name, floor) ∈ floors) {requested : Decimal}
    (hrequested : observed.get? name = some requested) : floor.bound ≤ requested := by
  simp only [assertAboveFloors, bind_eq_ok, refuse_eq_ok, List.filterMap_eq_nil_iff] at h
  obtain ⟨_, _, hnone⟩ := h
  have hentry := hnone (name, floor) hfloor
  rw [hrequested, Option.bind_some] at hentry
  by_contra hlt
  have hundercut : floor.isUndercutBy requested = true := decide_eq_true (not_le.mp hlt)
  rw [if_pos hundercut] at hentry
  cases hentry

/-! The configurable risk limits, every one of them bounded in a compiled-in direction. There are no sign
    checks: a limit at zero or below it halts trading. -/

structure RiskLimitsFields where
  maxPortfolioNotionalUsd : Decimal := 25000
  maxPositionNotionalUsd : Decimal := 5000
  maxLeverage : Decimal := 2
  maxDailyDrawdownRatio : Decimal := 3 / 100
  maxTotalDrawdownRatio : Decimal := 10 / 100
  maxOpenPositions : ℤ := 5
  maxOrdersPerMinute : ℤ := 10
  maxSingleOrderNotionalUsd : Decimal := 2000
  maxCorrelatedExposureRatio : Decimal := 25 / 100
  minFreeMarginRatio : Decimal := 40 / 100
  minTradesForKelly : ℤ := 100
  convictionFloor : Decimal := 15 / 100
  killSwitchEnabled : Bool := true
  requireInvalidationLevel : Bool := true
  deriving DecidableEq

namespace RiskLimitsFields

variable (self : RiskLimitsFields)

/-- Every bounded limit, the integer-valued ones widened. -/
def boundedValues : Dict String Decimal :=
  submittedLimits
    [("max_portfolio_notional_usd", self.maxPortfolioNotionalUsd),
      ("max_position_notional_usd", self.maxPositionNotionalUsd), ("max_leverage", self.maxLeverage),
      ("max_daily_drawdown_ratio", self.maxDailyDrawdownRatio),
      ("max_total_drawdown_ratio", self.maxTotalDrawdownRatio),
      ("max_open_positions", self.maxOpenPositions), ("max_orders_per_minute", self.maxOrdersPerMinute),
      ("max_single_order_notional_usd", self.maxSingleOrderNotionalUsd),
      ("max_correlated_exposure_ratio", self.maxCorrelatedExposureRatio),
      ("min_free_margin_ratio", self.minFreeMarginRatio),
      ("min_trades_for_kelly", self.minTradesForKelly), ("conviction_floor", self.convictionFloor)]

/-- Refuse a disabled gate. -/
def assertGatesAreEngaged : PyResult Unit :=
  let states := [("kill_switch_enabled", self.killSwitchEnabled),
    ("require_invalidation_level", self.requireInvalidationLevel)]
  let disabled := sortBy id ((states.filter fun (_, state) => !state).map Prod.fst)
  raiseIf (disabled ≠ []) .valueError
    ["risk gates ", .texts disabled, " are disabled; a gate is not configurable, because gates exist for " ++
      "the moment somebody is in a hurry"]

def postInit : PyResult Unit := do
  self.assertGatesAreEngaged
  assertWithinCeilings self.boundedValues hardCeilings "risk"
  assertAboveFloors self.boundedValues hardFloors "risk"

end RiskLimitsFields

/-- Risk limits as configured, refused at construction if any bound is crossed. -/
structure RiskLimits extends RiskLimitsFields where
  checked : toRiskLimitsFields.postInit = .ok ()
  deriving DecidableEq

/-- The shipped limits pass their own check. -/
def defaultRiskLimits : RiskLimits := ⟨{}, by decide +kernel⟩

end FinanceKing.Risk
