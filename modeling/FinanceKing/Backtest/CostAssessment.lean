import FinanceKing.Backtest.CostReport
import FinanceKing.Domain.Results

/-! The assessment of a run's costs. It charges the trips whose two legs fill and nothing else, in any order to
    the same report; it costs more at the wider quantile and for a larger order; and its verdict is the gate
    on gross edge and mean cost. -/

namespace FinanceKing.Backtest

open Lib

/-! ### Breakdowns add -/

namespace CostBreakdown

instance : Zero CostBreakdown := ⟨zero⟩

instance : Add CostBreakdown := ⟨plus⟩

theorem plus_eq (a b : CostBreakdown) : a.plus b = a + b := rfl

theorem zero_eq : zero = (0 : CostBreakdown) := rfl

theorem roundTripCostBp_eq (self : CostBreakdown) : self.roundTripCostBp = self.feesBps + self.spreadBps +
    self.depthSlippageBps + self.latencyBps + self.partialFillBps + self.fundingBps := by
  simp only [roundTripCostBp, asTerms, List.map_cons, List.map_nil, List.sum_cons, List.sum_nil]
  ring

instance : AddCommMonoid CostBreakdown where
  add_assoc a b c := by
    simp only [← plus_eq, plus, add_assoc]
  zero_add a := by
    simp only [← plus_eq, ← zero_eq, plus, zero, zero_add]
  add_zero a := by
    simp only [← plus_eq, ← zero_eq, plus, zero, add_zero]
  add_comm a b := by
    simp only [← plus_eq, plus, add_comm]
  nsmul := nsmulRec

@[simp] theorem roundTripCostBp_zero : (0 : CostBreakdown).roundTripCostBp = 0 := by
  rw [← zero_eq, roundTripCostBp_eq]
  simp [zero]

@[simp] theorem roundTripCostBp_add (a b : CostBreakdown) :
    (a + b).roundTripCostBp = a.roundTripCostBp + b.roundTripCostBp := by
  rw [← plus_eq, roundTripCostBp_eq, roundTripCostBp_eq, roundTripCostBp_eq, plus]
  ring

theorem roundTripCostBp_sum (l : List CostBreakdown) :
    l.sum.roundTripCostBp = (l.map roundTripCostBp).sum := by
  induction l with
  | nil => simp
  | cons a l ih => rw [List.sum_cons, roundTripCostBp_add, ih, List.map_cons, List.sum_cons]

/-- Averaging a breakdown averages its total. -/
theorem dividedBy_of_pos (self : CostBreakdown) {divisor : ℤ} (h : 0 < divisor) :
    ∃ mean, self.dividedBy divisor = .ok mean ∧ mean.roundTripCostBp = self.roundTripCostBp / divisor := by
  refine ⟨_, by rw [dividedBy, raiseIf, if_neg (not_le.mpr h)]; rfl, ?_⟩
  rw [roundTripCostBp_eq, roundTripCostBp_eq]
  ring

end CostBreakdown

/-! ### Walks -/

/-- What the book does to a positive quantity. -/
def walkOf (profile : DepthProfile) (baseQuantity : Decimal) : DepthWalk :=
  if baseQuantity ≤ profile.depthAtTouchBase then ⟨baseQuantity, 0, 1, false⟩
  else if profile.band1pctBase < baseQuantity then ⟨0, 0, 0, true⟩
  else ⟨baseQuantity, bandWidthBps * ((baseQuantity - profile.depthAtTouchBase) /
    (profile.band1pctBase - profile.depthAtTouchBase)) / 2 * (baseQuantity - profile.depthAtTouchBase) /
      baseQuantity, 2, false⟩

theorem walkDepth_eq (profile : DepthProfile) {baseQuantity : Decimal} (h : 0 < baseQuantity) :
    walkDepth profile baseQuantity = .ok (walkOf profile baseQuantity) := by
  simp only [walkDepth, walkOf, abs_of_pos h, if_neg (not_le.mpr h)]
  split
  · rfl
  split
  · rfl
  · rfl

theorem walkOf_isUnfillable (profile : DepthProfile) (baseQuantity : Decimal) :
    (walkOf profile baseQuantity).isUnfillable = true ↔ profile.band1pctBase < baseQuantity := by
  have hband := profile.band_contains_touch
  rw [walkOf]
  split
  · next htouch => simpa using htouch.trans hband
  split
  · next hbeyond => simpa using hbeyond
  · next hbeyond => simpa using hbeyond

/-- The walk averaged over the whole order rises with the order. -/
theorem averageWalk_mono {touch q q' : Decimal} (htouch : 0 < touch) (hq : touch ≤ q) (hle : q ≤ q') :
    (q - touch) ^ 2 / q ≤ (q' - touch) ^ 2 / q' := by
  have hpos : 0 < q := htouch.trans_le hq
  have hpos' : 0 < q' := hpos.trans_le hle
  rw [div_le_div_iff₀ hpos hpos', ← sub_nonneg]
  have hfactor : (q' - touch) ^ 2 * q - (q - touch) ^ 2 * q' = (q' - q) * (q * q' - touch * touch) := by ring
  rw [hfactor]
  have hsquares : touch * touch ≤ q * q' := mul_le_mul hq (hq.trans hle) htouch.le hpos.le
  exact mul_nonneg (sub_nonneg.mpr hle) (sub_nonneg.mpr hsquares)

/-- Inside the band a larger order slips no less and takes no fewer prints. -/
theorem walkOf_mono (profile : DepthProfile) {q q' : Decimal} (hle : q ≤ q')
    (hband : q' ≤ profile.band1pctBase) :
    (walkOf profile q).depthSlippageBps ≤ (walkOf profile q').depthSlippageBps ∧
      (walkOf profile q).fillCount ≤ (walkOf profile q').fillCount := by
  have htouchPos := profile.touch_pos
  have hnotBeyond : ∀ x ≤ q', ¬ profile.band1pctBase < x := fun x hx => not_lt.mpr (hx.trans hband)
  have hslippage : ∀ x : Decimal, bandWidthBps * ((x - profile.depthAtTouchBase) /
      (profile.band1pctBase - profile.depthAtTouchBase)) / 2 * (x - profile.depthAtTouchBase) / x =
      50 / (profile.band1pctBase - profile.depthAtTouchBase) * ((x - profile.depthAtTouchBase) ^ 2 / x) := by
    intro x
    rw [bandWidthBps]
    ring
  have hscale : 0 ≤ 50 / (profile.band1pctBase - profile.depthAtTouchBase) :=
    div_nonneg (by norm_num) (sub_nonneg.mpr profile.band_contains_touch)
  by_cases htouch : q ≤ profile.depthAtTouchBase
  · by_cases htouch' : q' ≤ profile.depthAtTouchBase
    · rw [walkOf, walkOf, if_pos htouch, if_pos htouch']
      exact ⟨le_rfl, le_rfl⟩
    · rw [walkOf, walkOf, if_pos htouch, if_neg htouch', if_neg (hnotBeyond q' le_rfl)]
      refine ⟨?_, one_le_two⟩
      have hpos' : 0 ≤ q' := (htouchPos.trans (not_le.mp htouch')).le
      rw [hslippage]
      exact mul_nonneg hscale (div_nonneg (sq_nonneg _) hpos')
  · have htouch' : ¬ q' ≤ profile.depthAtTouchBase := fun h => htouch (hle.trans h)
    rw [walkOf, walkOf, if_neg htouch, if_neg htouch', if_neg (hnotBeyond q hle), if_neg (hnotBeyond q' le_rfl)]
    refine ⟨?_, le_rfl⟩
    rw [hslippage, hslippage]
    exact mul_le_mul_of_nonneg_left (averageWalk_mono htouchPos (not_le.mp htouch).le hle) hscale

/-! ### Legs -/

section Legs

variable (model : CostModel)

/-- A symbol the model holds both profiles of. -/
structure Calibrated (symbol : String) : Prop where
  depth : (model.depth.get? symbol).isSome
  spread : (model.spreads.get? symbol).isSome

/-- A leg the book absorbs inside the band. -/
def legFillable (leg : ExecutionLeg) : Bool :=
  (model.depth.get? leg.symbol).any fun profile => leg.baseQuantity ≤ profile.band1pctBase

/-- The terms the model charges a leg. -/
def legTerms (quantile : SpreadQuantile) (leg : ExecutionLeg) : CostBreakdown :=
  (chargeLeg model leg quantile).toOption.getD 0

variable {model} {leg : ExecutionLeg}

theorem depthProfileFor_eq {profile : DepthProfile} {symbol : String}
    (h : model.depth.get? symbol = some profile) : model.depthProfileFor symbol = .ok profile := by
  rw [CostModel.depthProfileFor, h]

theorem spreadProfileFor_eq {profile : SymbolSpreadProfile} {symbol : String}
    (h : model.spreads.get? symbol = some profile) : model.spreadProfileFor symbol = .ok profile := by
  rw [CostModel.spreadProfileFor, h]

/-- What the model charges a leg on a calibrated symbol. -/
theorem chargeLeg_eq {depth : DepthProfile} {spread : SymbolSpreadProfile} (quantile : SpreadQuantile)
    (hdepth : model.depth.get? leg.symbol = some depth) (hspread : model.spreads.get? leg.symbol = some spread) :
    chargeLeg model leg quantile = .ok {
      feesBps := model.fees.feeBpsFor leg.isPassive
      spreadBps := if leg.isPassive then 0 else spread.halfSpreadBps leg.hourUtc quantile
      depthSlippageBps := if leg.isPassive then 0 else (walkOf depth leg.baseQuantity).depthSlippageBps
      latencyBps := model.latency.latencyBps
      partialFillBps := if leg.isPassive then model.partialFills.passiveMarkoutBps
        else model.partialFills.requoteCostBpsPerExtraFill *
          (max (((walkOf depth leg.baseQuantity).fillCount : ℤ) - 1) 0 : ℤ)
      fundingBps := 0 } := by
  rw [chargeLeg, depthProfileFor_eq hdepth]
  change (walkDepth depth leg.baseQuantity >>= _) = _
  rw [walkDepth_eq depth leg.quantity_pos]
  change (model.spreadProfileFor leg.symbol >>= _) = _
  rw [spreadProfileFor_eq hspread]
  rfl

theorem chargeLeg_eq_terms (h : Calibrated model leg.symbol) (quantile : SpreadQuantile) :
    chargeLeg model leg quantile = .ok (legTerms model quantile leg) := by
  obtain ⟨depth, hdepth⟩ := Option.isSome_iff_exists.mp h.depth
  obtain ⟨spread, hspread⟩ := Option.isSome_iff_exists.mp h.spread
  rw [legTerms, chargeLeg_eq quantile hdepth hspread]
  rfl

theorem countLeg_eq (h : Calibrated model leg.symbol) (rejections : Dict RejectionReason ℤ) :
    countLeg model rejections leg = .ok (if legFillable model leg then rejections else
      countRejections rejections .unfillableDepth 1) := by
  obtain ⟨depth, hdepth⟩ := Option.isSome_iff_exists.mp h.depth
  rw [countLeg, depthProfileFor_eq hdepth]
  change (walkDepth depth leg.baseQuantity >>= _) = _
  rw [walkDepth_eq depth leg.quantity_pos]
  change Except.ok ((walkOf depth leg.baseQuantity).rejection.elim _ _) = _
  have hband := walkOf_isUnfillable depth leg.baseQuantity
  by_cases hfills : leg.baseQuantity ≤ depth.band1pctBase
  · have hfilled : (walkOf depth leg.baseQuantity).isUnfillable = false := by
      rw [← Bool.not_eq_true, hband]
      exact not_lt.mpr hfills
    simp [DepthWalk.rejection, hfilled, legFillable, hdepth, hfills]
  · have hunfilled := hband.mpr (not_le.mp hfills)
    simp [DepthWalk.rejection, hunfilled, legFillable, hdepth, hfills]

/-- At the wider quantile a leg costs no less. -/
theorem legTerms_mono_quantile (h : Calibrated model leg.symbol) :
    (legTerms model .p50 leg).roundTripCostBp ≤ (legTerms model .p99 leg).roundTripCostBp := by
  obtain ⟨depth, hdepth⟩ := Option.isSome_iff_exists.mp h.depth
  obtain ⟨spread, hspread⟩ := Option.isSome_iff_exists.mp h.spread
  have hordered : spread.halfSpreadBps leg.hourUtc .p50 ≤ spread.halfSpreadBps leg.hourUtc .p99 :=
    div_le_div_of_nonneg_right (spread.hourly leg.hourUtc).ordered zero_le_two
  rw [legTerms, legTerms, chargeLeg_eq .p50 hdepth hspread, chargeLeg_eq .p99 hdepth hspread]
  simp only [Except.toOption, Option.getD_some, CostBreakdown.roundTripCostBp_eq]
  split <;> linarith

/-- A marketable leg with a larger quantity that still fills costs no less. -/
theorem legTerms_mono_quantity {larger : ExecutionLeg} (h : Calibrated model leg.symbol)
    (hsymbol : larger.symbol = leg.symbol) (hhour : larger.hourUtc = leg.hourUtc)
    (hmarketable : leg.isPassive = false) (hpassive : larger.isPassive = leg.isPassive)
    (hle : leg.baseQuantity ≤ larger.baseQuantity) (hfills : legFillable model larger = true)
    (quantile : SpreadQuantile) :
    (legTerms model quantile leg).roundTripCostBp ≤ (legTerms model quantile larger).roundTripCostBp := by
  obtain ⟨depth, hdepth⟩ := Option.isSome_iff_exists.mp h.depth
  obtain ⟨spread, hspread⟩ := Option.isSome_iff_exists.mp h.spread
  have hdepth' : model.depth.get? larger.symbol = some depth := hsymbol ▸ hdepth
  have hspread' : model.spreads.get? larger.symbol = some spread := hsymbol ▸ hspread
  have hband : larger.baseQuantity ≤ depth.band1pctBase := by simpa [legFillable, hdepth'] using hfills
  obtain ⟨hslippage, hprints⟩ := walkOf_mono depth hle hband
  have hrequote : model.partialFills.requoteCostBpsPerExtraFill *
      (max (((walkOf depth leg.baseQuantity).fillCount : ℤ) - 1) 0 : ℤ) ≤
      model.partialFills.requoteCostBpsPerExtraFill *
        (max (((walkOf depth larger.baseQuantity).fillCount : ℤ) - 1) 0 : ℤ) := by
    have hcounts : ((walkOf depth leg.baseQuantity).fillCount : ℤ) ≤
        (walkOf depth larger.baseQuantity).fillCount := by exact_mod_cast hprints
    have hextra := max_le_max (sub_le_sub_right hcounts 1) (le_refl (0 : ℤ))
    exact mul_le_mul_of_nonneg_left (Int.cast_le.mpr hextra) model.partialFills.requote_nonneg
  rw [legTerms, legTerms, chargeLeg_eq quantile hdepth hspread, chargeLeg_eq quantile hdepth' hspread', hpassive,
    hmarketable, hhour]
  simp only [Except.toOption, Option.getD_some, CostBreakdown.roundTripCostBp_eq, Bool.false_eq_true, if_false]
  linarith

end Legs

/-! ### Round trips -/

/-- So many refusals, counted under the one reason there is. -/
def tally (n : ℕ) : Dict RejectionReason ℤ := if n = 0 then Dict.empty else Dict.empty.set .unfillableDepth n

theorem countRejections_tally (n : ℕ) {m : ℕ} (hm : 0 < m) :
    countRejections (tally n) .unfillableDepth m = tally (n + m) := by
  have hsum : n + m ≠ 0 := by omega
  rw [countRejections, tally, tally, if_neg hsum]
  by_cases hn : n = 0
  · subst hn
    simp
  · rw [if_neg hn, Dict.get?_set_self, Option.getD_some]
    simp [Dict.set, Dict.empty, putEntry]

theorem tally_entries {n : ℕ} (h : n ≠ 0) : (tally n).entries = [(.unfillableDepth, (n : ℤ))] := by
  rw [tally, if_neg h]
  rfl

theorem tally_entries_ne_nil {n : ℕ} : (tally n).entries ≠ [] ↔ n ≠ 0 := by
  constructor
  · rintro h rfl
    exact h rfl
  · intro h
    rw [tally_entries h]
    exact List.cons_ne_nil _ _

/-- Merging one count of refusals into another. -/
theorem foldl_countRejections_tally (n m : ℕ) :
    (tally m).entries.foldl (fun rejections entry => countRejections rejections entry.1 entry.2) (tally n) =
      tally (n + m) := by
  by_cases hm : m = 0
  · subst hm
    rfl
  · rw [tally_entries hm]
    exact countRejections_tally n (Nat.pos_of_ne_zero hm)

section Trips

variable (model : CostModel)

/-- A round trip whose legs both fill. -/
def tripFillable (trip : RoundTrip) : Bool := legFillable model trip.entryLeg && legFillable model trip.exitLeg

/-- How many of the two legs the book cannot absorb. -/
def refusedLegs (trip : RoundTrip) : ℕ :=
  [trip.entryLeg, trip.exitLeg].countP fun leg => !legFillable model leg

/-- The terms of both legs, and the funding of the trip. -/
def tripTerms (quantile : SpreadQuantile) (trip : RoundTrip) : CostBreakdown :=
  { legTerms model quantile trip.entryLeg + legTerms model quantile trip.exitLeg with
    fundingBps := trip.funding.fundingBps }

structure TripCalibrated (trip : RoundTrip) : Prop where
  entry : Calibrated model trip.entryLeg.symbol
  exit : Calibrated model trip.exitLeg.symbol

variable {model} {trip : RoundTrip}

theorem refusedLegs_eq_zero_iff : refusedLegs model trip = 0 ↔ tripFillable model trip = true := by
  rw [refusedLegs, tripFillable]
  cases hentry : legFillable model trip.entryLeg <;> cases hexit : legFillable model trip.exitLeg <;>
    simp [hentry, hexit]

/-- What a round trip on calibrated symbols is charged. -/
theorem chargeRoundTrip_eq (h : TripCalibrated model trip) (quantile : SpreadQuantile) :
    chargeRoundTrip model trip quantile = .ok (if tripFillable model trip then
      ⟨some (tripTerms model quantile trip), Dict.empty⟩ else ⟨none, tally (refusedLegs model trip)⟩) := by
  have hcounted : [trip.entryLeg, trip.exitLeg].foldlM (countLeg model) Dict.empty =
      .ok (tally (refusedLegs model trip)) := by
    rw [List.foldlM_cons, countLeg_eq h.entry]
    change ([trip.exitLeg].foldlM (countLeg model) _) = _
    rw [List.foldlM_cons, countLeg_eq h.exit]
    change Except.ok _ = _
    rw [refusedLegs, List.countP_cons, List.countP_singleton]
    cases legFillable model trip.entryLeg <;> cases legFillable model trip.exitLeg <;> rfl
  rw [chargeRoundTrip, hcounted]
  change (if (tally (refusedLegs model trip)).entries ≠ [] then _ else _) = _
  by_cases hfills : tripFillable model trip = true
  · have hnone := refusedLegs_eq_zero_iff.mpr hfills
    rw [if_neg (by rw [not_not, hnone]; rfl), chargeLeg_eq_terms h.entry, chargeLeg_eq_terms h.exit, if_pos hfills]
    rfl
  · have hsome := mt refusedLegs_eq_zero_iff.mp hfills
    rw [if_pos (tally_entries_ne_nil.mpr hsome), if_neg hfills]
    rfl

theorem tripTerms_cost (h : TripCalibrated model trip) (quantile : SpreadQuantile) :
    (tripTerms model quantile trip).roundTripCostBp = (legTerms model quantile trip.entryLeg).roundTripCostBp +
      (legTerms model quantile trip.exitLeg).roundTripCostBp + trip.funding.fundingBps := by
  have hfunding : ∀ leg : ExecutionLeg, Calibrated model leg.symbol →
      (legTerms model quantile leg).fundingBps = 0 := by
    intro leg hleg
    obtain ⟨depth, hdepth⟩ := Option.isSome_iff_exists.mp hleg.depth
    obtain ⟨spread, hspread⟩ := Option.isSome_iff_exists.mp hleg.spread
    rw [legTerms, chargeLeg_eq quantile hdepth hspread]
    rfl
  rw [CostBreakdown.roundTripCostBp_eq, CostBreakdown.roundTripCostBp_eq, CostBreakdown.roundTripCostBp_eq,
    hfunding _ h.entry, hfunding _ h.exit, tripTerms, ← CostBreakdown.plus_eq, CostBreakdown.plus]
  ring

end Trips

/-! ### What moves a trip's cost -/

/-- A marketable leg asked for more. -/
def LegEnlarged (leg larger : ExecutionLeg) : Prop :=
  leg.isPassive = false ∧ ∃ (baseQuantity : Decimal) (hpos : 0 < baseQuantity), leg.baseQuantity ≤ baseQuantity ∧
    larger = { leg with baseQuantity := baseQuantity, quantity_pos := hpos }

/-- A round trip with one marketable leg asked for more. -/
inductive TripEnlarged (trip : RoundTrip) : RoundTrip → Prop
  | entry {larger : ExecutionLeg} (h : LegEnlarged trip.entryLeg larger) :
      TripEnlarged trip { trip with entryLeg := larger }
  | exit {larger : ExecutionLeg} (h : LegEnlarged trip.exitLeg larger) :
      TripEnlarged trip { trip with exitLeg := larger }

/-- The other direction. -/
def reversed : Direction → Direction
  | .long => .short
  | .short => .long
  | .flat => .flat

/-- The same round trip held in the other direction. -/
def RoundTrip.reversed (self : RoundTrip) : RoundTrip :=
  { self with funding := { self.funding with direction := Backtest.reversed self.funding.direction } }

/-- The same breakdown with its funding term negated. -/
def CostBreakdown.negateFunding (self : CostBreakdown) : CostBreakdown :=
  { self with fundingBps := -self.fundingBps }

theorem legFillable_of_enlarged {model : CostModel} {leg larger : ExecutionLeg} (h : LegEnlarged leg larger)
    (hfills : legFillable model larger = true) : legFillable model leg = true := by
  obtain ⟨_, quantity, hpos, hle, rfl⟩ := h
  rw [legFillable, Option.any_eq_true] at hfills ⊢
  obtain ⟨profile, hprofile, hband⟩ := hfills
  exact ⟨profile, hprofile, by simpa using hle.trans (by simpa using hband)⟩

theorem legTerms_mono_of_enlarged {model : CostModel} {leg larger : ExecutionLeg}
    (hleg : Calibrated model leg.symbol) (h : LegEnlarged leg larger)
    (hfills : legFillable model larger = true) (quantile : SpreadQuantile) :
    (legTerms model quantile leg).roundTripCostBp ≤ (legTerms model quantile larger).roundTripCostBp := by
  obtain ⟨hmarketable, quantity, hpos, hle, rfl⟩ := h
  refine legTerms_mono_quantity hleg ?_ ?_ hmarketable ?_ hle hfills quantile <;> rfl

/-- A trip asked for more never starts to fill, and costs no less while it does. -/
theorem chargeRoundTrip_enlarged {model : CostModel} {trip larger : RoundTrip} (hcal : TripCalibrated model trip)
    (h : TripEnlarged trip larger) (quantile : SpreadQuantile) :
    ∃ cost largerCost, chargeRoundTrip model trip quantile = .ok cost ∧
      chargeRoundTrip model larger quantile = .ok largerCost ∧
      ∀ enlarged, largerCost.breakdown = some enlarged →
        ∃ breakdown, cost.breakdown = some breakdown ∧ breakdown.roundTripCostBp ≤ enlarged.roundTripCostBp := by
  have hsymbols : larger.entryLeg.symbol = trip.entryLeg.symbol ∧
      larger.exitLeg.symbol = trip.exitLeg.symbol := by
    cases h with
    | entry h => obtain ⟨_, _, _, _, rfl⟩ := h; exact ⟨rfl, rfl⟩
    | exit h => obtain ⟨_, _, _, _, rfl⟩ := h; exact ⟨rfl, rfl⟩
  have hcal' : TripCalibrated model larger := ⟨hsymbols.1 ▸ hcal.entry, hsymbols.2 ▸ hcal.exit⟩
  refine ⟨_, _, chargeRoundTrip_eq hcal quantile, chargeRoundTrip_eq hcal' quantile, fun enlarged henlarged => ?_⟩
  by_cases hfills : tripFillable model larger = true
  · rw [if_pos hfills] at henlarged
    obtain rfl := Option.some.inj henlarged
    rw [tripFillable, Bool.and_eq_true] at hfills
    have hboth : tripFillable model trip = true := by
      rw [tripFillable, Bool.and_eq_true]
      cases h with
      | entry h => exact ⟨legFillable_of_enlarged h hfills.1, hfills.2⟩
      | exit h => exact ⟨hfills.1, legFillable_of_enlarged h hfills.2⟩
    refine ⟨_, by rw [if_pos hboth], ?_⟩
    rw [tripTerms_cost hcal, tripTerms_cost hcal']
    cases h with
    | entry h =>
      have hentry := legTerms_mono_of_enlarged hcal.entry h hfills.1 quantile
      exact add_le_add_left (add_le_add_left hentry _) _
    | exit h =>
      have hexit := legTerms_mono_of_enlarged hcal.exit h hfills.2 quantile
      exact add_le_add_left (add_le_add_right hexit _) _
  · rw [if_neg hfills] at henlarged
    cases henlarged

/-- The direction moves the sign of the funding term and nothing else. -/
theorem chargeRoundTrip_reversed (model : CostModel) (trip : RoundTrip) (quantile : SpreadQuantile) :
    chargeRoundTrip model trip.reversed quantile = (chargeRoundTrip model trip quantile).map fun cost =>
      { cost with breakdown := cost.breakdown.map CostBreakdown.negateFunding } := by
  have hfunding : trip.reversed.funding.fundingBps = -trip.funding.fundingBps := by
    rw [FundingExposure.fundingBps, FundingExposure.fundingBps, RoundTrip.reversed]
    cases trip.funding.direction <;> simp [Backtest.reversed, fundingMultiplier]
  rw [chargeRoundTrip, chargeRoundTrip]
  change (([trip.entryLeg, trip.exitLeg].foldlM (countLeg model) Dict.empty) >>= _) = _
  cases [trip.entryLeg, trip.exitLeg].foldlM (countLeg model) Dict.empty with
  | error e => rfl
  | ok rejections =>
    change (if rejections.entries ≠ [] then _ else _) =
      Except.map _ (if rejections.entries ≠ [] then _ else _)
    split
    · rfl
    · change (chargeLeg model trip.entryLeg quantile >>= _) = Except.map _ (chargeLeg model trip.entryLeg quantile >>= _)
      cases chargeLeg model trip.entryLeg quantile with
      | error e => rfl
      | ok entryCost =>
        change (chargeLeg model trip.exitLeg quantile >>= _) =
          Except.map _ (chargeLeg model trip.exitLeg quantile >>= _)
        cases chargeLeg model trip.exitLeg quantile with
        | error e => rfl
        | ok exitCost =>
          change Except.ok _ = Except.ok _
          rw [hfunding]
          rfl

/-! ### The run -/

section Run

variable (model : CostModel) (quantile : SpreadQuantile)

/-- The trips that fill. -/
def filledTrips (trips : List RoundTrip) : List RoundTrip := trips.filter (tripFillable model)

/-- What the loop carries behind these trips. -/
def chargedOf (trips : List RoundTrip) : Charged where
  accumulated := ((filledTrips model trips).map (tripTerms model quantile)).sum
  rejections := tally (trips.map (refusedLegs model)).sum
  filledTradeCount := (filledTrips model trips).length

variable {model}

theorem chargedOf_perm {trips trips' : List RoundTrip} (h : trips'.Perm trips) :
    chargedOf model quantile trips' = chargedOf model quantile trips := by
  have hfilled := h.filter (tripFillable model)
  rw [chargedOf, chargedOf, filledTrips, filledTrips, (hfilled.map _).sum_eq, (h.map _).sum_eq, hfilled.length_eq]

/-- One more trip is charged if it fills, and its refused legs are counted if it does not. -/
theorem chargeNext_eq {trip : RoundTrip} (h : TripCalibrated model trip) (accumulated : CostBreakdown)
    (refused : ℕ) (filled : ℤ) :
    chargeNext model quantile ⟨accumulated, tally refused, filled⟩ trip =
      .ok ⟨accumulated + if tripFillable model trip then tripTerms model quantile trip else 0,
        tally (refused + refusedLegs model trip), filled + if tripFillable model trip then 1 else 0⟩ := by
  rw [chargeNext, chargeRoundTrip_eq h]
  by_cases hfills : tripFillable model trip = true
  · have hnone := refusedLegs_eq_zero_iff.mpr hfills
    rw [if_pos hfills, if_pos hfills, if_pos hfills, hnone]
    rfl
  · rw [if_neg hfills, if_neg hfills, if_neg hfills, add_zero, add_zero]
    change Except.ok _ = Except.ok _
    rw [foldl_countRejections_tally]

theorem foldlM_chargeNext : ∀ {trips : List RoundTrip}, (∀ trip ∈ trips, TripCalibrated model trip) →
    ∀ (accumulated : CostBreakdown) (refused : ℕ) (filled : ℤ),
      trips.foldlM (chargeNext model quantile) ⟨accumulated, tally refused, filled⟩ =
        .ok ⟨accumulated + (chargedOf model quantile trips).accumulated,
          tally (refused + (trips.map (refusedLegs model)).sum),
          filled + (chargedOf model quantile trips).filledTradeCount⟩
  | [], _, accumulated, refused, filled => by simp [chargedOf, filledTrips, pure, Except.pure]
  | trip :: trips, h, accumulated, refused, filled => by
    obtain ⟨htrip, htrips⟩ := List.forall_mem_cons.mp h
    rw [List.foldlM_cons, chargeNext_eq quantile htrip]
    change trips.foldlM _ _ = _
    rw [foldlM_chargeNext htrips]
    by_cases hfills : tripFillable model trip = true
    · simp only [chargedOf, filledTrips, List.filter_cons, hfills, if_true, List.map_cons, List.sum_cons,
        List.length_cons, Nat.cast_add, Nat.cast_one, add_assoc]
      rw [add_comm (1 : ℤ)]
    · simp only [chargedOf, filledTrips, List.filter_cons, hfills, Bool.false_eq_true, if_false, List.map_cons,
        List.sum_cons, add_zero, add_assoc]

theorem charge_all {trips : List RoundTrip} (h : ∀ trip ∈ trips, TripCalibrated model trip) :
    trips.foldlM (chargeNext model quantile) ⟨.zero, Dict.empty, 0⟩ = .ok (chargedOf model quantile trips) := by
  have hrun := foldlM_chargeNext quantile h 0 0 0
  simp only [zero_add] at hrun
  exact hrun

/-- Over the same trips the wider quantile costs no less. -/
theorem chargedOf_mono {trips : List RoundTrip} (h : ∀ trip ∈ trips, TripCalibrated model trip) :
    (chargedOf model .p50 trips).accumulated.roundTripCostBp ≤
      (chargedOf model .p99 trips).accumulated.roundTripCostBp := by
  simp only [chargedOf, CostBreakdown.roundTripCostBp_sum, List.map_map]
  refine List.sum_le_sum fun trip htrip => ?_
  have hcal := h trip (List.mem_of_mem_filter htrip)
  simp only [Function.comp_apply, tripTerms_cost hcal]
  exact add_le_add_left (add_le_add (legTerms_mono_quantile hcal.entry) (legTerms_mono_quantile hcal.exit)) _

end Run

/-! ### The gate -/

/-- The gate on a positive mean cost: void below an edge of nothing, rejected below twice the cost. -/
theorem verdictFor_of_pos {gross cost : Decimal} (hcost : 0 < cost) :
    (verdictFor gross cost).2.1 = if gross < 0 then .void else if gross < 2 * cost then .rejectedEdgeToCost
      else .accepted := by
  have hnegative : gross / cost < 0 ↔ gross < 0 := by rw [div_lt_iff₀ hcost, zero_mul]
  have hbelow : gross / cost < minEdgeToCostRatio ↔ gross < 2 * cost := by
    rw [div_lt_iff₀ hcost, minEdgeToCostRatio]
  rw [verdictFor, if_neg hcost.ne', if_neg (not_lt.mpr hcost.le)]
  simp only [hnegative, hbelow]
  split
  · rfl
  split
  · rfl
  · rfl

theorem verdictFor_of_nonpos {gross cost : Decimal} (hcost : cost ≤ 0) : (verdictFor gross cost).2.1 = .void := by
  rw [verdictFor]
  split
  · rfl
  · next hne => rw [if_pos (lt_of_le_of_ne hcost hne)]

theorem verdictFor_accepted_iff {gross cost : Decimal} :
    (verdictFor gross cost).2.1 = .accepted ↔ 0 < cost ∧ 2 * cost ≤ gross := by
  rcases le_or_gt cost 0 with hcost | hcost
  · rw [verdictFor_of_nonpos hcost]
    simp [not_lt.mpr hcost]
  · rw [verdictFor_of_pos hcost]
    split
    · next hgross => exact iff_of_false (by simp) fun h => by linarith [h.1, h.2]
    split
    · next hbelow => exact iff_of_false (by simp) fun h => by linarith [h.2]
    · next hbelow => exact iff_of_true rfl ⟨hcost, not_lt.mp hbelow⟩

theorem verdictFor_void_iff {gross cost : Decimal} :
    (verdictFor gross cost).2.1 = .void ↔ cost ≤ 0 ∨ gross < 0 := by
  rcases le_or_gt cost 0 with hcost | hcost
  · rw [verdictFor_of_nonpos hcost]
    simp [hcost]
  · rw [verdictFor_of_pos hcost]
    split
    · next hgross => simp [hgross]
    · next hgross =>
      refine iff_of_false (by split <;> simp) ?_
      rintro (hnone | hlow)
      · exact absurd hcost (not_lt.mpr hnone)
      · exact hgross hlow

/-! ### The report -/

/-- What an assessment reports of its round trips, and what moves it. -/
structure Assesses (model : CostModel) (trips : List RoundTrip) (grossEdgePerTradeBp : Decimal)
    (quantile : SpreadQuantile) (report : RunCostReport) : Prop where
  reordered : ∀ trips' : List RoundTrip, trips'.Perm trips →
    assessRun model trips' grossEdgePerTradeBp quantile = .ok report
  filled : report.filledTradeCount = (filledTrips model trips).length
  gross : report.grossEdgePerTradeBp = grossEdgePerTradeBp
  total : report.totalCostBps = ((filledTrips model trips).map fun trip =>
    (legTerms model quantile trip.entryLeg).roundTripCostBp +
      (legTerms model quantile trip.exitLeg).roundTripCostBp + trip.funding.fundingBps).sum
  mean : report.filledTradeCount ≠ 0 → report.roundTripCostBp = report.totalCostBps / report.filledTradeCount
  netPerTrade : report.filledTradeCount ≠ 0 →
    report.netEdgePerTradeBp + report.roundTripCostBp = report.grossEdgePerTradeBp
  netInTotal : report.netReturnBps + report.totalCostBps = report.grossReturnBps
  accepted_iff : report.verdict = .accepted ↔ 0 < report.filledTradeCount ∧ 0 < report.roundTripCostBp ∧
    2 * report.roundTripCostBp ≤ grossEdgePerTradeBp
  void_iff : report.verdict = .void ↔ report.filledTradeCount = 0 ∨ report.roundTripCostBp ≤ 0 ∨
    grossEdgePerTradeBp < 0

section Report

variable {model : CostModel} {trips : List RoundTrip} {gross : Decimal}

theorem assessRun_perm (h : ∀ trip ∈ trips, TripCalibrated model trip) (quantile : SpreadQuantile)
    {trips' : List RoundTrip} (hperm : trips'.Perm trips) :
    assessRun model trips' gross quantile = assessRun model trips gross quantile := by
  have h' : ∀ trip ∈ trips', TripCalibrated model trip := fun trip htrip => h trip (hperm.mem_iff.mp htrip)
  rw [assessRun, assessRun, charge_all quantile h, charge_all quantile h', chargedOf_perm quantile hperm]

theorem total_eq (h : ∀ trip ∈ trips, TripCalibrated model trip) (quantile : SpreadQuantile) :
    (chargedOf model quantile trips).accumulated.roundTripCostBp = ((filledTrips model trips).map fun trip =>
      (legTerms model quantile trip.entryLeg).roundTripCostBp +
        (legTerms model quantile trip.exitLeg).roundTripCostBp + trip.funding.fundingBps).sum := by
  rw [chargedOf, CostBreakdown.roundTripCostBp_sum, List.map_map]
  refine congrArg List.sum (List.map_congr_left fun trip htrip => ?_)
  exact tripTerms_cost (h trip (List.mem_of_mem_filter htrip)) quantile

/-- The report of a run in which nothing filled. -/
theorem assessRun_unfilled (h : ∀ trip ∈ trips, TripCalibrated model trip) (gross : Decimal)
    (quantile : SpreadQuantile)
    (hnone : filledTrips model trips = []) :
    ∃ report, assessRun model trips gross quantile = .ok report ∧ report.filledTradeCount = 0 ∧
      report.grossEdgePerTradeBp = gross ∧ report.roundTripCostBp = 0 ∧ report.totalCostBps = 0 ∧
      report.netReturnBps = 0 ∧ report.grossReturnBps = 0 ∧ report.verdict = .void := by
  have hcount : (chargedOf model quantile trips).filledTradeCount = 0 := by rw [chargedOf, hnone]; rfl
  refine ⟨_, by rw [assessRun, charge_all quantile h]; exact if_pos hcount, rfl, rfl, rfl, rfl, rfl, rfl, rfl⟩

/-- The report of a run in which something filled. -/
theorem assessRun_filled (h : ∀ trip ∈ trips, TripCalibrated model trip) (gross : Decimal)
    (quantile : SpreadQuantile)
    (hsome : filledTrips model trips ≠ []) :
    ∃ report mean, assessRun model trips gross quantile = .ok report ∧
      report.filledTradeCount = (filledTrips model trips).length ∧ report.grossEdgePerTradeBp = gross ∧
      mean = (chargedOf model quantile trips).accumulated.roundTripCostBp / (filledTrips model trips).length ∧
      report.roundTripCostBp = mean ∧ report.netEdgePerTradeBp = gross - mean ∧
      report.grossReturnBps = gross * (filledTrips model trips).length ∧
      report.totalCostBps = mean * (filledTrips model trips).length ∧
      report.netReturnBps = (gross - mean) * (filledTrips model trips).length ∧
      report.verdict = (verdictFor gross mean).2.1 := by
  have hlength : 0 < (filledTrips model trips).length := List.length_pos_iff.mpr hsome
  have hcount : (chargedOf model quantile trips).filledTradeCount = (filledTrips model trips).length := rfl
  obtain ⟨perTrade, hdivided, hmean⟩ :=
    (chargedOf model quantile trips).accumulated.dividedBy_of_pos (Int.natCast_pos.mpr hlength)
  rw [Int.cast_natCast] at hmean
  have hne : ¬ (chargedOf model quantile trips).filledTradeCount = 0 := by rw [hcount]; omega
  apply Exists.intro
  refine ⟨perTrade.roundTripCostBp, ?_, ?_⟩
  · rw [assessRun, charge_all quantile h]
    refine (if_neg hne).trans ?_
    rw [hcount, hdivided]
    rfl
  · refine ⟨rfl, rfl, hmean, rfl, rfl, ?_, ?_, ?_, rfl⟩ <;> rw [← Int.cast_natCast (R := Decimal)]

theorem assessRun_reports (h : ∀ trip ∈ trips, TripCalibrated model trip) (gross : Decimal)
    (quantile : SpreadQuantile) :
    ∃ report, assessRun model trips gross quantile = .ok report ∧ Assesses model trips gross quantile report := by
  have htotal := total_eq h quantile
  by_cases hnone : filledTrips model trips = []
  · obtain ⟨report, hreport, hcount, hgross, hcost, htotal', hnet, hreturn, hverdict⟩ :=
      assessRun_unfilled h gross quantile hnone
    refine ⟨report, hreport, fun trips' hperm => (assessRun_perm h quantile hperm).trans hreport, ?_, hgross, ?_,
      fun hne => absurd hcount hne, fun hne => absurd hcount hne, ?_, ?_, ?_⟩
    · rw [hcount, hnone]
      rfl
    · rw [htotal', hnone]
      rfl
    · rw [hnet, htotal', hreturn, add_zero]
    · simp [hverdict, hcount]
    · simp [hverdict, hcount]
  · obtain ⟨report, mean, hreport, hcount, hgross, hmean, hcost, hnet, hreturn, htotal', hnetReturn, hverdict⟩ :=
      assessRun_filled h gross quantile hnone
    have hlength : (0 : ℤ) < (filledTrips model trips).length :=
      Int.natCast_pos.mpr (List.length_pos_iff.mpr hnone)
    have hscale : ((filledTrips model trips).length : Decimal) ≠ 0 := by exact_mod_cast hlength.ne'
    refine ⟨report, hreport, fun trips' hperm => (assessRun_perm h quantile hperm).trans hreport, hcount, hgross, ?_,
      fun _ => ?_, fun _ => ?_, ?_, ?_, ?_⟩
    · rw [htotal', hmean, div_mul_cancel₀ _ hscale, htotal]
    · rw [hcost, htotal', hcount, Int.cast_natCast, mul_div_cancel_right₀ _ hscale]
    · rw [hnet, hcost, hgross, sub_add_cancel]
    · rw [hnetReturn, htotal', hreturn]
      ring
    · rw [hverdict, verdictFor_accepted_iff, hcost, hcount]
      exact ⟨fun h => ⟨hlength, h⟩, fun h => h.2⟩
    · rw [hverdict, verdictFor_void_iff, hcost, hcount]
      exact ⟨.inr, fun h => h.resolve_left hlength.ne'⟩

end Report

/-- Every run on calibrated symbols is reported exactly; the wider quantile and a larger marketable leg never cost
    less, and the direction moves the sign of the funding alone. -/
theorem assessRun_exact (model : CostModel) (trips : List RoundTrip) (gross : Decimal)
    (h : ∀ trip ∈ trips, TripCalibrated model trip) :
    (∀ quantile, ∃ report, assessRun model trips gross quantile = .ok report ∧
      Assesses model trips gross quantile report) ∧
    (∀ median wide, assessRun model trips gross .p50 = .ok median → assessRun model trips gross .p99 = .ok wide →
      median.roundTripCostBp ≤ wide.roundTripCostBp ∧ median.totalCostBps ≤ wide.totalCostBps) ∧
    (∀ quantile trip larger, TripCalibrated model trip → TripEnlarged trip larger →
      ∃ cost largerCost, chargeRoundTrip model trip quantile = .ok cost ∧
        chargeRoundTrip model larger quantile = .ok largerCost ∧
        ∀ enlarged, largerCost.breakdown = some enlarged →
          ∃ breakdown, cost.breakdown = some breakdown ∧ breakdown.roundTripCostBp ≤ enlarged.roundTripCostBp) ∧
    ∀ quantile trip, chargeRoundTrip model (RoundTrip.reversed trip) quantile =
      (chargeRoundTrip model trip quantile).map fun cost =>
        { cost with breakdown := cost.breakdown.map CostBreakdown.negateFunding } := by
  refine ⟨assessRun_reports h gross, fun median wide hmedian hwide => ?_,
    fun quantile trip larger hcal hlarger => chargeRoundTrip_enlarged hcal hlarger quantile,
    fun quantile trip => chargeRoundTrip_reversed model trip quantile⟩
  obtain ⟨_, hmedian', hreport⟩ := assessRun_reports h gross .p50
  obtain ⟨_, hwide', hreport'⟩ := assessRun_reports h gross .p99
  obtain rfl := Except.ok.inj (hmedian'.symm.trans hmedian)
  obtain rfl := Except.ok.inj (hwide'.symm.trans hwide)
  have htotals : _ ≤ _ := chargedOf_mono h
  rw [total_eq h .p50, total_eq h .p99, ← hreport.total, ← hreport'.total] at htotals
  refine ⟨?_, htotals⟩
  by_cases hnone : filledTrips model trips = []
  · have hcosts : ∀ quantile report, assessRun model trips gross quantile = .ok report →
        report.roundTripCostBp = 0 := by
      intro quantile report hrun
      obtain ⟨_, hrun', _, _, hcost, _⟩ := assessRun_unfilled h gross quantile hnone
      obtain rfl := Except.ok.inj (hrun'.symm.trans hrun)
      exact hcost
    rw [hcosts _ _ hmedian, hcosts _ _ hwide]
  · have hlength : (filledTrips model trips).length ≠ 0 := fun hzero => hnone (List.length_eq_zero_iff.mp hzero)
    have hfilled : ((filledTrips model trips).length : ℤ) ≠ 0 := by exact_mod_cast hlength
    rw [hreport.mean (by rw [hreport.filled]; exact hfilled), hreport'.mean (by rw [hreport'.filled]; exact hfilled),
      hreport.filled, hreport'.filled]
    exact div_le_div_of_nonneg_right htotals (Int.cast_nonneg (Int.natCast_nonneg _))

/-! ### A model of one symbol -/

theorem makerBps_nonneg : (0 : Decimal) ≤ 2 := by norm_num

theorem takerBps_nonneg : (0 : Decimal) ≤ 5 := by norm_num

theorem noDelay_nonneg : (0 : TimeDelta) ≤ 0 := le_rfl

def oneSymbolCosts : CostModel where
  version := "cost-1"
  calibrationSource := "binance_um_production_2026-03..2026-05"
  fees := ⟨2, 5, makerBps_nonneg, takerBps_nonneg⟩
  latency := ⟨1000000, 0, 0, 1 / 10, by norm_num, noDelay_nonneg, noDelay_nonneg, by norm_num⟩
  partialFills := ⟨16 / 5, 1 / 2, by norm_num, by norm_num⟩
  spreads := Dict.empty.set "BTCUSDT" ⟨fun _ => ⟨1, 3, by norm_num, by norm_num⟩⟩
  depth := Dict.empty.set "BTCUSDT" ⟨2, 10, by norm_num, by norm_num⟩

def oneSymbolLeg (isPassive : Bool) : ExecutionLeg := ⟨"BTCUSDT", 4, 0, isPassive, by norm_num⟩

def oneSymbolTrip : RoundTrip := ⟨oneSymbolLeg false, oneSymbolLeg true, ⟨.short, 1 / 10000, 1, zero_le_one⟩⟩

/-- A run of one trip, in at the market and out on a resting order. -/
theorem assessRun_exact_oneSymbol : ∃ report,
    assessRun oneSymbolCosts [oneSymbolTrip] 50 .p50 = .ok report ∧
      Assesses oneSymbolCosts [oneSymbolTrip] 50 .p50 report := by
  refine (assessRun_exact oneSymbolCosts [oneSymbolTrip] 50 fun trip htrip => ?_).1 .p50
  obtain rfl := List.mem_singleton.mp htrip
  exact ⟨⟨rfl, rfl⟩, ⟨rfl, rfl⟩⟩

/-- A run of no trips keeps the edge it was given and reports neither cost nor net. -/
theorem unfilled_net_is_not_gross : ¬ ∀ (model : CostModel) (trips : List RoundTrip) (gross : Decimal)
    (quantile : SpreadQuantile) (report : RunCostReport), (∀ trip ∈ trips, TripCalibrated model trip) →
    assessRun model trips gross quantile = .ok report →
    report.netEdgePerTradeBp + report.roundTripCostBp = report.grossEdgePerTradeBp := by
  intro h
  have hsum := h oneSymbolCosts [] 50 .p50 _ (fun _ htrip => absurd htrip List.not_mem_nil) rfl
  norm_num at hsum

end FinanceKing.Backtest
