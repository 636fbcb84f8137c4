import FinanceKing.Domain.Guards
import FinanceKing.Lib.SortBy
import FinanceKing.Lib.Dict

/-! The calibrated cost model, as far as a fill is priced from it: spreads by hour, the two depth
    quantities the archive supports, latency in three stages, fees and the passive markout. What the
    model's validators refuse cannot be built. -/

namespace FinanceKing.Backtest

open Lib

/-- Basis points per unit of notional. -/
def bpsPerUnit : Decimal := 10000

/-- The band is ±1%, which is a hundred basis points. -/
def bandWidthBps : Decimal := 100

/-! ### Spreads -/

inductive SpreadQuantile where
  | p50
  | p99
  deriving DecidableEq

/-- One hour's calibrated spread at both quantiles, in basis points of notional. -/
structure SpreadQuantiles where
  p50Bps : Decimal
  p99Bps : Decimal
  p50_nonneg : 0 ≤ p50Bps
  ordered : p50Bps ≤ p99Bps
  deriving DecidableEq

def SpreadQuantiles.at (self : SpreadQuantiles) : SpreadQuantile → Decimal
  | .p50 => self.p50Bps
  | .p99 => self.p99Bps

theorem SpreadQuantiles.at_nonneg (self : SpreadQuantiles) (quantile : SpreadQuantile) :
    0 ≤ self.at quantile := by
  cases quantile with
  | p50 => exact self.p50_nonneg
  | p99 => exact self.p50_nonneg.trans self.ordered

/-- One symbol's spread distribution; every one of the 24 UTC hours is present. -/
structure SymbolSpreadProfile where
  hourly : Fin 24 → SpreadQuantiles
  deriving DecidableEq

/-- The full quoted spread for that UTC hour. -/
def SymbolSpreadProfile.spreadBps (self : SymbolSpreadProfile) (hourUtc : Fin 24)
    (quantile : SpreadQuantile) : Decimal := (self.hourly hourUtc).at quantile

/-- What a marketable order pays to cross: half the quoted spread. -/
def SymbolSpreadProfile.halfSpreadBps (self : SymbolSpreadProfile) (hourUtc : Fin 24)
    (quantile : SpreadQuantile) : Decimal := self.spreadBps hourUtc quantile / 2

/-- `datetime.hour` of a UTC instant. -/
def hourOf (t : DateTime) : Fin 24 := ⟨(t / 3600000000 % 24).toNat, by omega⟩

/-! ### Depth -/

/-- The quoted top-of-book quantity and the ±1% band, which is cumulative. -/
structure DepthProfile where
  depthAtTouchBase : Decimal
  band1pctBase : Decimal
  touch_pos : 0 < depthAtTouchBase
  band_contains_touch : depthAtTouchBase ≤ band1pctBase
  deriving DecidableEq

/-- One side of a round trip: what was asked for, when, and how it was worked. -/
structure ExecutionLeg where
  symbol : String
  baseQuantity : Decimal
  decidedAtUtc : DateTime
  isPassive : Bool
  quantity_pos : 0 < baseQuantity
  deriving DecidableEq

/-- Why the modelled venue refused an order. -/
inductive RejectionReason where
  | unfillableDepth
  deriving DecidableEq

/-- What the book did to an order of a given size. -/
structure DepthWalk where
  filledBaseQuantity : Decimal
  depthSlippageBps : Decimal
  fillCount : ℕ
  isUnfillable : Bool
  deriving DecidableEq

def DepthWalk.rejection (self : DepthWalk) : Option RejectionReason :=
  if self.isUnfillable then some .unfillableDepth else none

/-- Fill a quantity against the profile, or refuse it as unfillable: the touch at no slippage, the
    band at a linearly interpolated price, nothing beyond the band. -/
def walkDepth (profile : DepthProfile) (baseQuantity : Decimal) : PyResult DepthWalk :=
  let requested := |baseQuantity|
  if requested ≤ 0 then
    raise .costModelConfig ["base_quantity must be non-zero; got ", .decimal baseQuantity]
  else if requested ≤ profile.depthAtTouchBase then
    .ok ⟨requested, 0, 1, false⟩
  else if profile.band1pctBase < requested then
    .ok ⟨0, 0, 0, true⟩
  else
    let walked := requested - profile.depthAtTouchBase
    let bandDepth := profile.band1pctBase - profile.depthAtTouchBase
    let averageWalkBps := bandWidthBps * (walked / bandDepth) / 2
    .ok ⟨requested, averageWalkBps * walked / requested, 2, false⟩

/-- A positive quantity is always walked, and is unfillable exactly beyond the band. -/
theorem walkDepth_of_pos (profile : DepthProfile) {baseQuantity : Decimal} (h : 0 < baseQuantity) :
    ∃ walk, walkDepth profile baseQuantity = .ok walk ∧
      (walk.isUnfillable ↔ profile.band1pctBase < baseQuantity) := by
  have hband := profile.band_contains_touch
  simp only [walkDepth, abs_of_pos h, if_neg (not_le.mpr h)]
  split
  · next htouch => exact ⟨_, rfl, by simpa using htouch.trans hband⟩
  split
  · next hbeyond => exact ⟨_, rfl, by simpa using hbeyond⟩
  · next hbeyond => exact ⟨_, rfl, by simpa using hbeyond⟩

/-! ### Latency, fees and the model -/

/-- The three stages of latency, none of which runs backwards, and the drift they expose an order to. -/
structure LatencyProfile where
  decisionToSend : TimeDelta
  sendToAck : TimeDelta
  ackToFill : TimeDelta
  adverseDriftBpsPerSecond : Decimal
  decisionToSend_nonneg : 0 ≤ decisionToSend
  sendToAck_nonneg : 0 ≤ sendToAck
  ackToFill_nonneg : 0 ≤ ackToFill
  drift_nonneg : 0 ≤ adverseDriftBpsPerSecond
  deriving DecidableEq

def LatencyProfile.totalLatency (self : LatencyProfile) : TimeDelta :=
  self.decisionToSend + self.sendToAck + self.ackToFill

def LatencyProfile.totalLatencySeconds (self : LatencyProfile) : Decimal := (self.totalLatency : Decimal) / 1000000

/-- The cost of being late, in basis points of notional. -/
def LatencyProfile.latencyBps (self : LatencyProfile) : Decimal :=
  self.adverseDriftBpsPerSecond * self.totalLatencySeconds

/-- Exchange fees, per fill, in basis points of notional at the fill price. -/
structure FeeSchedule where
  makerFeeBps : Decimal
  takerFeeBps : Decimal
  maker_nonneg : 0 ≤ makerFeeBps
  taker_nonneg : 0 ≤ takerFeeBps
  deriving DecidableEq

/-- The rate a leg pays, chosen by whether it added or removed liquidity. -/
def FeeSchedule.feeBpsFor (self : FeeSchedule) (isPassive : Bool) : Decimal :=
  if isPassive then self.makerFeeBps else self.takerFeeBps

theorem FeeSchedule.feeBpsFor_nonneg (self : FeeSchedule) (isPassive : Bool) :
    0 ≤ self.feeBpsFor isPassive := by
  cases isPassive with
  | false => exact self.taker_nonneg
  | true => exact self.maker_nonneg

/-- Adverse selection charged against a passive print, and the re-quote charged per print behind the first. -/
structure PartialFillProfile where
  passiveMarkoutBps : Decimal
  requoteCostBpsPerExtraFill : Decimal
  markout_nonneg : 0 ≤ passiveMarkoutBps
  requote_nonneg : 0 ≤ requoteCostBpsPerExtraFill
  deriving DecidableEq

structure CostModel where
  version : String
  calibrationSource : String
  fees : FeeSchedule
  latency : LatencyProfile
  partialFills : PartialFillProfile
  spreads : Dict String SymbolSpreadProfile
  depth : Dict String DepthProfile
  deriving DecidableEq

namespace CostModel

variable (self : CostModel) (symbol : String)

def spreadProfileFor : PyResult SymbolSpreadProfile :=
  match self.spreads.get? symbol with
  | none => raise .costModelConfig
      [self.version, " has no calibrated spread profile for ", .quoted symbol,
        "; calibrated symbols are ", .texts (sortBy id self.spreads.keys)]
  | some profile => .ok profile

def depthProfileFor : PyResult DepthProfile :=
  match self.depth.get? symbol with
  | none => raise .costModelConfig
      [self.version, " has no calibrated depth profile for ", .quoted symbol,
        "; calibrated symbols are ", .texts (sortBy id self.depth.keys)]
  | some profile => .ok profile

end CostModel

end FinanceKing.Backtest
