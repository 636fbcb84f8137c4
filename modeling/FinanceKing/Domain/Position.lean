import FinanceKing.Domain.Order
import FinanceKing.Lib.Fold

/-! Position arithmetic. The quantity is signed and the direction derived, a transition is a value
    that says what one fill did, and realised PnL is gross of fees. Idempotence on `fillId` is part of
    the state: a fill already applied changes nothing. -/

namespace FinanceKing

structure PositionFields where
  instrument : Instrument
  signedBaseQuantity : Decimal
  averageEntryQuotePrice : Decimal
  realisedPnlQuote : Decimal
  feeQuotePaid : Decimal
  openedAtUtc : Option DateTime
  appliedFillIds : Finset Uuid
  deriving DecidableEq

def PositionFields.postInit (self : PositionFields) : PyResult Unit := do
  requireNonNegativeDecimal self.averageEntryQuotePrice "average_entry_quote_price"
  requireNonNegativeDecimal self.feeQuotePaid "fee_quote_paid"
  if self.signedBaseQuantity = 0 then
    raiseIf (self.averageEntryQuotePrice ≠ 0) .domainError
      ["flat position in ", self.instrument.symbol, " carries a stale entry price of ",
        .decimal self.averageEntryQuotePrice]
    match self.openedAtUtc with
    | none => .ok ()
    | some openedAtUtc =>
      raise .domainError
        ["flat position in ", self.instrument.symbol, " carries an open time of ",
          .instant openedAtUtc]
  else
    requirePositiveDecimal self.averageEntryQuotePrice "average_entry_quote_price"
    match self.openedAtUtc with
    | some _ => .ok ()
    | none =>
      raise .domainError
        ["open position of ", .decimal self.signedBaseQuantity, " ", self.instrument.baseAsset,
          " carries no opened_at_utc"]

/-- What the constructor accepts: signs, and flat exactly when there is no basis and no open time. -/
theorem PositionFields.postInit_eq_ok (self : PositionFields) :
    self.postInit = .ok () ↔
      0 ≤ self.averageEntryQuotePrice ∧ 0 ≤ self.feeQuotePaid ∧
        (self.signedBaseQuantity = 0 → self.averageEntryQuotePrice = 0 ∧ self.openedAtUtc = none) ∧
        (self.signedBaseQuantity ≠ 0 →
          0 < self.averageEntryQuotePrice ∧ self.openedAtUtc.isSome) := by
  rw [postInit]
  rcases eq_or_ne self.signedBaseQuantity 0 with hflat | hflat <;>
    cases hopened : self.openedAtUtc <;>
    simp [hflat]

/-- Exposure to one instrument, as a value. -/
structure Position extends PositionFields where
  checked : toPositionFields.postInit = .ok ()
  deriving DecidableEq

structure PositionTransitionFields where
  before : Position
  after : Position
  closedBaseQuantity : Decimal
  openedBaseQuantity : Decimal
  realisedPnlQuote : Decimal
  crossedFlat : Bool
  deriving DecidableEq

def PositionTransitionFields.postInit (self : PositionTransitionFields) : PyResult Unit := do
  requireNonNegativeDecimal self.closedBaseQuantity "closed_base_quantity"
  requireNonNegativeDecimal self.openedBaseQuantity "opened_base_quantity"
  raiseIf (self.before.instrument ≠ self.after.instrument) .domainError
    ["transition spans two instruments: ", self.before.instrument.symbol, " and ",
      self.after.instrument.symbol]
  raiseIf (self.crossedFlat ∧ ¬(0 < self.closedBaseQuantity ∧ 0 < self.openedBaseQuantity))
    .domainError ["crossed_flat claims a flip, but the transition did not both close and open"]

/-- What one fill did to one position. -/
structure PositionTransition extends PositionTransitionFields where
  checked : toPositionTransitionFields.postInit = .ok ()
  deriving DecidableEq

def PositionTransition.make (fields : PositionTransitionFields) : PyResult PositionTransition :=
  construct PositionTransitionFields.postInit PositionTransition.mk fields

/-- Whether the fill was a duplicate and changed nothing. -/
def PositionTransition.isNoop (self : PositionTransition) : Bool := self.before = self.after

namespace Position

def make (fields : PositionFields) : PyResult Position :=
  construct PositionFields.postInit Position.mk fields

/-- A position with no exposure and no history. -/
def flat (instrument : Instrument) : Position where
  instrument := instrument
  signedBaseQuantity := 0
  averageEntryQuotePrice := 0
  realisedPnlQuote := 0
  feeQuotePaid := 0
  openedAtUtc := none
  appliedFillIds := ∅
  checked := (PositionFields.postInit_eq_ok _).mpr
    ⟨le_rfl, le_rfl, fun _ => ⟨rfl, rfl⟩, fun h => absurd rfl h⟩

variable (self : Position)

/-- Derived, never stored, so it cannot contradict the quantity. -/
def direction : Direction :=
  if 0 < self.signedBaseQuantity then .long
  else if self.signedBaseQuantity < 0 then .short
  else .flat

/-- Realised PnL after the fees actually charged. -/
def netRealisedPnlQuote : Decimal := self.realisedPnlQuote - self.feeQuotePaid

/-- Absolute exposure at a mark price, in the quote asset. -/
def notionalQuote (markQuotePrice : Decimal) : PyResult Decimal := do
  requirePositiveDecimal markQuotePrice "mark_quote_price"
  return |self.signedBaseQuantity| * markQuotePrice

/-- Open PnL at a mark price, gross of the fee that closing it would cost. -/
def unrealisedPnlQuote (markQuotePrice : Decimal) : PyResult Decimal := do
  requirePositiveDecimal markQuotePrice "mark_quote_price"
  return self.signedBaseQuantity * (markQuotePrice - self.averageEntryQuotePrice)

/-- Open a new position or add to an existing one on the same side; the basis blends on
    magnitudes. -/
def opened (fill : Fill) : PyResult PositionTransition := do
  let afterBaseQuantity := self.signedBaseQuantity + fill.signedBaseQuantity
  let priorCostQuote := |self.signedBaseQuantity| * self.averageEntryQuotePrice
  let addedCostQuote := fill.baseQuantity * fill.quotePrice
  let after ← make { self.toPositionFields with
    signedBaseQuantity := afterBaseQuantity
    averageEntryQuotePrice := (priorCostQuote + addedCostQuote) / |afterBaseQuantity|
    feeQuotePaid := self.feeQuotePaid + fill.feeQuote
    openedAtUtc := some (self.openedAtUtc.getD fill.eventTimeUtc)
    appliedFillIds := insert fill.fillId self.appliedFillIds }
  PositionTransition.make {
    before := self
    after := after
    closedBaseQuantity := 0
    openedBaseQuantity := fill.baseQuantity
    realisedPnlQuote := 0
    crossedFlat := false }

/-- Close some or all of the position, and open the other side if the fill overshoots. -/
def reduced (fill : Fill) : PyResult PositionTransition := do
  let heldBaseQuantity := |self.signedBaseQuantity|
  let closedBaseQuantity := min fill.baseQuantity heldBaseQuantity
  let heldSign : Decimal := if 0 < self.signedBaseQuantity then 1 else -1
  let realisedPnlQuote :=
    closedBaseQuantity * (fill.quotePrice - self.averageEntryQuotePrice) * heldSign
  let afterBaseQuantity := self.signedBaseQuantity + fill.signedBaseQuantity
  let openedBaseQuantity := fill.baseQuantity - closedBaseQuantity
  let crossedFlat : Bool := 0 < openedBaseQuantity
  let basis : Decimal × Option DateTime :=
    if crossedFlat then (fill.quotePrice, some fill.eventTimeUtc)
    else if afterBaseQuantity = 0 then (0, none)
    else (self.averageEntryQuotePrice, self.openedAtUtc)
  let after ← make { self.toPositionFields with
    signedBaseQuantity := afterBaseQuantity
    averageEntryQuotePrice := basis.1
    realisedPnlQuote := self.realisedPnlQuote + realisedPnlQuote
    feeQuotePaid := self.feeQuotePaid + fill.feeQuote
    openedAtUtc := basis.2
    appliedFillIds := insert fill.fillId self.appliedFillIds }
  PositionTransition.make {
    before := self
    after := after
    closedBaseQuantity := closedBaseQuantity
    openedBaseQuantity := openedBaseQuantity
    realisedPnlQuote := realisedPnlQuote
    crossedFlat := crossedFlat }

/-- Whether a fill opens or adds rather than reduces. -/
def isOpening (fill : Fill) : Bool :=
  self.signedBaseQuantity = 0 ∨ (0 < self.signedBaseQuantity ↔ 0 < fill.signedBaseQuantity)

/-- Apply a fill and report what it did. Idempotent on `fillId`. -/
def withFill (fill : Fill) : PyResult PositionTransition := do
  raiseIf (fill.instrument ≠ self.instrument) .domainError
    ["cannot apply a ", fill.instrument.symbol, " fill to a ", self.instrument.symbol, " position"]
  if fill.fillId ∈ self.appliedFillIds then
    PositionTransition.make {
      before := self
      after := self
      closedBaseQuantity := 0
      openedBaseQuantity := 0
      realisedPnlQuote := 0
      crossedFlat := false }
  else if self.isOpening fill then self.opened fill
  else self.reduced fill

/-! ### What one fill books -/

/-- Realised PnL plus the open PnL at a mark, gross of fees. -/
def grossPnlQuote (markQuotePrice : Decimal) : Decimal :=
  self.realisedPnlQuote + self.signedBaseQuantity * (markQuotePrice - self.averageEntryQuotePrice)

/-- A fill is booked: the quantity, the fees and the ids move by that fill, and at every mark the
    position is worth what it was plus what the fill alone is worth. -/
structure Booked (before after : Position) (fill : Fill) : Prop where
  instrument : after.instrument = before.instrument
  quantity : after.signedBaseQuantity = before.signedBaseQuantity + fill.signedBaseQuantity
  fees : after.feeQuotePaid = before.feeQuotePaid + fill.feeQuote
  ids : after.appliedFillIds = insert fill.fillId before.appliedFillIds
  value : ∀ mark, after.grossPnlQuote mark =
    before.grossPnlQuote mark + fill.signedBaseQuantity * (mark - fill.quotePrice)

theorem postInit_facts :
    0 ≤ self.averageEntryQuotePrice ∧ 0 ≤ self.feeQuotePaid ∧
      (self.signedBaseQuantity = 0 → self.averageEntryQuotePrice = 0 ∧ self.openedAtUtc = none) ∧
      (self.signedBaseQuantity ≠ 0 → 0 < self.averageEntryQuotePrice ∧ self.openedAtUtc.isSome) :=
  self.toPositionFields.postInit_eq_ok.mp self.checked

theorem feeQuotePaid_nonneg : 0 ≤ self.feeQuotePaid := self.postInit_facts.2.1

theorem make_eq_ok {fields : PositionFields} (h : fields.postInit = .ok ()) :
    make fields = .ok ⟨fields, h⟩ := construct_ok h

theorem feeQuotePaid_add_nonneg (fill : Fill) : 0 ≤ self.feeQuotePaid + fill.feeQuote :=
  add_nonneg self.feeQuotePaid_nonneg fill.feeQuote_nonneg

/-- An opening fill points the way the position already points. -/
theorem opening_cases {fill : Fill} (h : self.isOpening fill) :
    0 ≤ self.signedBaseQuantity ∧ fill.signedBaseQuantity = fill.baseQuantity ∨
      self.signedBaseQuantity ≤ 0 ∧ fill.signedBaseQuantity = -fill.baseQuantity := by
  have hpos := fill.baseQuantity_pos
  rw [isOpening, decide_eq_true_iff] at h
  rcases fill.signedBaseQuantity_cases with ⟨_, hs⟩ | ⟨_, hs⟩ <;> rw [hs] at h ⊢
  · refine Or.inl ⟨?_, rfl⟩
    rcases h with h | h
    · exact h.ge
    · exact (h.mpr hpos).le
  · refine Or.inr ⟨?_, rfl⟩
    rcases h with h | h
    · exact h.le
    · exact not_lt.mp fun hlt => absurd (h.mp hlt) (by linarith)

/-- A reducing fill points against the position, whose sign is `heldSign`. -/
theorem reducing_cases {fill : Fill} (h : ¬self.isOpening fill) :
    0 < self.signedBaseQuantity ∧ fill.signedBaseQuantity = -fill.baseQuantity ∨
      self.signedBaseQuantity < 0 ∧ fill.signedBaseQuantity = fill.baseQuantity := by
  have hpos := fill.baseQuantity_pos
  simp only [isOpening, decide_eq_true_eq, not_or] at h
  obtain ⟨hne, hside⟩ := h
  rcases fill.signedBaseQuantity_cases with ⟨_, hs⟩ | ⟨_, hs⟩ <;> rw [hs] at hside ⊢
  · refine Or.inr ⟨lt_of_le_of_ne (not_lt.mp fun hlt => hside ⟨fun _ => hpos, fun _ => hlt⟩) hne, rfl⟩
  · refine Or.inl ⟨lt_of_le_of_ne (not_lt.mp fun hlt => hside ?_) (Ne.symm hne), rfl⟩
    exact ⟨fun hq => absurd hq (by linarith), fun hf => absurd hf (by linarith)⟩

theorem abs_add_of_opening {fill : Fill} (h : self.isOpening fill) :
    |self.signedBaseQuantity + fill.signedBaseQuantity| =
      |self.signedBaseQuantity| + fill.baseQuantity := by
  have hpos := fill.baseQuantity_pos
  rcases self.opening_cases h with ⟨hq, hs⟩ | ⟨hq, hs⟩ <;> rw [hs]
  · rw [abs_of_nonneg hq, abs_of_nonneg (by linarith)]
  · rw [abs_of_nonpos hq, abs_of_nonpos (by linarith)]
    ring

/-- The blended basis times the new signed quantity is the two signed costs added. -/
theorem signed_cost_of_opening {fill : Fill} (h : self.isOpening fill) :
    (self.signedBaseQuantity + fill.signedBaseQuantity) *
        ((|self.signedBaseQuantity| * self.averageEntryQuotePrice +
          fill.baseQuantity * fill.quotePrice) /
          |self.signedBaseQuantity + fill.signedBaseQuantity|) =
      self.signedBaseQuantity * self.averageEntryQuotePrice +
        fill.signedBaseQuantity * fill.quotePrice := by
  have hden : 0 < |self.signedBaseQuantity| + fill.baseQuantity :=
    add_pos_of_nonneg_of_pos (abs_nonneg _) fill.baseQuantity_pos
  rw [self.abs_add_of_opening h, mul_div_assoc', div_eq_iff hden.ne']
  rcases self.opening_cases h with ⟨hq, hs⟩ | ⟨hq, hs⟩ <;> rw [hs]
  · rw [abs_of_nonneg hq]
    ring
  · rw [abs_of_nonpos hq]
    ring

theorem opened_spec {fill : Fill} (h : self.isOpening fill) :
    ∃ t, self.opened fill = .ok t ∧ t.before = self ∧ Booked self t.after fill := by
  have hpos := fill.baseQuantity_pos
  have hden : 0 < |self.signedBaseQuantity + fill.signedBaseQuantity| := by
    rw [self.abs_add_of_opening h]
    exact add_pos_of_nonneg_of_pos (abs_nonneg _) hpos
  have hcost : 0 < |self.signedBaseQuantity| * self.averageEntryQuotePrice +
      fill.baseQuantity * fill.quotePrice :=
    add_pos_of_nonneg_of_pos (mul_nonneg (abs_nonneg _) self.postInit_facts.1)
      (mul_pos hpos fill.quotePrice_pos)
  have hbasis := div_pos hcost hden
  have hsigned := self.signed_cost_of_opening h
  rw [opened]
  simp only [bind_eq_ok]
  refine ⟨_, ⟨_, make_eq_ok ?_, construct_ok ?_⟩, rfl, ?_⟩
  · rw [PositionFields.postInit_eq_ok]
    exact ⟨hbasis.le, self.feeQuotePaid_add_nonneg fill,
      fun h0 => absurd h0 (abs_pos.mp hden), fun _ => ⟨hbasis, rfl⟩⟩
  · simp [PositionTransitionFields.postInit, hpos.le]
  · refine ⟨rfl, rfl, rfl, rfl, fun mark => ?_⟩
    simp only [grossPnlQuote]
    linarith

/-- A reducing fill lands on zero exactly when it closes what is held. -/
theorem reducing_eq_zero_iff {fill : Fill} (h : ¬self.isOpening fill) :
    self.signedBaseQuantity + fill.signedBaseQuantity = 0 ↔
      fill.baseQuantity = |self.signedBaseQuantity| := by
  rcases self.reducing_cases h with ⟨hq, hs⟩ | ⟨hq, hs⟩ <;> rw [hs]
  · rw [abs_of_pos hq]
    exact ⟨fun h => by linarith, fun h => by linarith⟩
  · rw [abs_of_neg hq]
    exact ⟨fun h => by linarith, fun h => by linarith⟩

theorem reduced_spec {fill : Fill} (h : ¬self.isOpening fill) :
    ∃ t, self.reduced fill = .ok t ∧ t.before = self ∧ Booked self t.after fill := by
  have hpos := fill.baseQuantity_pos
  have hprice := fill.quotePrice_pos
  have hfees := self.feeQuotePaid_add_nonneg fill
  have hafter := self.reducing_eq_zero_iff h
  have hcases := self.reducing_cases h
  have hq : self.signedBaseQuantity ≠ 0 := by
    rcases hcases with ⟨hq, _⟩ | ⟨hq, _⟩
    · exact hq.ne'
    · exact hq.ne
  obtain ⟨hbasis, hopen⟩ := self.postInit_facts.2.2.2 hq
  have hclosed : 0 < min fill.baseQuantity |self.signedBaseQuantity| :=
    lt_min hpos (abs_pos.mpr hq)
  have hopened : 0 ≤ fill.baseQuantity - min fill.baseQuantity |self.signedBaseQuantity| :=
    sub_nonneg.mpr (min_le_left _ _)
  rw [reduced]
  simp only [bind_eq_ok]
  refine ⟨_, ⟨_, make_eq_ok ?_, construct_ok ?_⟩, rfl, ?_⟩
  · -- the basis that is left behind suits the quantity that is left behind
    rw [PositionFields.postInit_eq_ok]
    dsimp only
    rcases lt_trichotomy fill.baseQuantity |self.signedBaseQuantity| with hlt | heq | hgt
    · rw [min_eq_left hlt.le, sub_self]
      simp [hafter, hlt.ne, hbasis, hbasis.le, hopen, hfees]
    · rw [min_eq_left heq.le, sub_self]
      simp [hafter, heq, hfees]
    · rw [min_eq_right hgt.le]
      simp [hafter, hgt.ne', hgt, hprice, hprice.le, hfees]
  · simp [PositionTransitionFields.postInit, hopened, hclosed, hclosed.le]
  · refine ⟨rfl, rfl, rfl, rfl, fun mark => ?_⟩
    simp only [grossPnlQuote]
    -- under, exactly at, and over what is held, on either side
    rcases lt_trichotomy fill.baseQuantity |self.signedBaseQuantity| with hlt | heq | hgt
    · simp only [min_eq_left hlt.le, sub_self, lt_irrefl, decide_false, Bool.false_eq_true,
        if_false, hafter, hlt.ne]
      rcases hcases with ⟨hq, hs⟩ | ⟨hq, hs⟩
      · rw [if_pos hq, hs]
        ring
      · rw [if_neg hq.not_gt, hs]
        ring
    · simp only [hafter.mpr heq, zero_mul, add_zero, min_eq_left heq.le]
      rcases hcases with ⟨hq, hs⟩ | ⟨hq, hs⟩
      · rw [if_pos hq, hs, heq, abs_of_pos hq]
        ring
      · rw [if_neg hq.not_gt, hs, heq, abs_of_neg hq]
        ring
    · simp only [min_eq_right hgt.le, sub_pos, hgt, decide_true, if_true]
      rcases hcases with ⟨hq, hs⟩ | ⟨hq, hs⟩
      · rw [if_pos hq, hs, abs_of_pos hq]
        ring
      · rw [if_neg hq.not_gt, hs, abs_of_neg hq]
        ring

/-- Applying a fill of the position's own instrument never raises: a repeat changes nothing and a
    new fill is booked. -/
theorem withFill_spec {fill : Fill} (h : fill.instrument = self.instrument) :
    ∃ t, self.withFill fill = .ok t ∧ t.before = self ∧
      (fill.fillId ∈ self.appliedFillIds → t.after = self) ∧
      (fill.fillId ∉ self.appliedFillIds → Booked self t.after fill) := by
  rw [withFill]
  simp only [bind_eq_ok, raiseIf_eq_ok, h, ne_eq, not_true_eq_false, not_false_eq_true, true_and,
    exists_const]
  rcases Decidable.em (fill.fillId ∈ self.appliedFillIds) with hid | hid
  · rw [if_pos hid]
    refine ⟨_, construct_ok ?_, rfl, fun _ => rfl, fun hnew => absurd hid hnew⟩
    simp [PositionTransitionFields.postInit]
  · rw [if_neg hid]
    have hbook : ∃ t, (if self.isOpening fill then self.opened fill else self.reduced fill) = .ok t ∧
        t.before = self ∧ Booked self t.after fill := by
      split
      · next hopening => exact self.opened_spec hopening
      · next hopening => exact self.reduced_spec hopening
    obtain ⟨t, ht, hbefore, hbooked⟩ := hbook
    exact ⟨t, ht, hbefore, fun hold => absurd hold hid, fun _ => hbooked⟩

end Position

end FinanceKing

/-! The accounting identity of a position over any deliveries of fills. A position is worth, at every
    mark, what the distinct fills are worth taken one by one; quantity and fees are their sums. One
    fill books exactly itself (`Booked`), so the identity is the run of that step. -/

namespace FinanceKing

open Lib

namespace Position

/-- Apply fills in order, each to the position the last one left. -/
def applyFills (self : Position) (fills : List Fill) : PyResult Position :=
  fills.foldlM (fun position fill => do
    let transition ← position.withFill fill
    return transition.after) self

/-- The books of a position: what it holds, paid and is worth, from the fills booked so far. -/
structure Accounts (instrument : Instrument) (booked : List Fill) (position : Position) : Prop where
  instrument : position.instrument = instrument
  quantity : position.signedBaseQuantity = (booked.map (·.signedBaseQuantity)).sum
  fees : position.feeQuotePaid = (booked.map (·.feeQuote)).sum
  ids : ∀ id, id ∈ position.appliedFillIds ↔ id ∈ booked.map (·.fillId)
  value : ∀ mark, position.grossPnlQuote mark =
    (booked.map (fun fill => fill.signedBaseQuantity * (mark - fill.quotePrice))).sum

theorem accounts_flat (instrument : Instrument) : Accounts instrument [] (flat instrument) :=
  ⟨rfl, rfl, rfl, fun id => by simp [flat], fun mark => by simp [flat, grossPnlQuote]⟩

/-- Booking one more fill extends the accounts by it. -/
theorem accounts_step {instrument : Instrument} {booked : List Fill} {before after : Position}
    {fill : Fill} (h : Accounts instrument booked before) (hfill : Booked before after fill) :
    Accounts instrument (booked ++ [fill]) after := by
  refine ⟨hfill.instrument.trans h.instrument, ?_, ?_, ?_, ?_⟩
  · rw [hfill.quantity, h.quantity, List.map_append, List.sum_append]
    simp
  · rw [hfill.fees, h.fees, List.map_append, List.sum_append]
    simp
  · intro id
    rw [hfill.ids, Finset.mem_insert, h.ids, List.map_append, List.mem_append, or_comm]
    simp
  · intro mark
    rw [hfill.value, h.value, List.map_append, List.sum_append]
    simp

/-- One delivery: a repeat leaves the position, a new fill extends the accounts. -/
theorem accounts_delivery {instrument : Instrument} {booked : List Fill} {position : Position}
    {fill : Fill} (h : Accounts instrument booked position) (hfill : fill.instrument = instrument) :
    ∃ after, (do let transition ← position.withFill fill; return transition.after) = .ok after ∧
      (fill.fillId ∈ booked.map (·.fillId) → after = position) ∧
      (fill.fillId ∉ booked.map (·.fillId) → Accounts instrument (booked ++ [fill]) after) := by
  obtain ⟨t, ht, _, hrepeat, hnew⟩ := position.withFill_spec (hfill.trans h.instrument.symm)
  refine ⟨t.after, by simp [ht], ?_, ?_⟩
  · intro hid
    exact hrepeat ((h.ids _).mpr hid)
  · intro hid
    exact accounts_step h (hnew fun hmem => hid ((h.ids _).mp hmem))

/-- Over any deliveries, the accounts of the distinct fills. -/
theorem accounts_run (instrument : Instrument) (fills : List Fill)
    (hfills : ∀ fill ∈ fills, fill.instrument = instrument) :
    ∃ position, (flat instrument).applyFills fills = .ok position ∧
      Accounts instrument (distinctBy (·.fillId) fills) position :=
  foldlM_deliveries (accounts_flat instrument) (fun _ _ _ h hfill => accounts_delivery h hfill)
    fills hfills

/-- Flat exactly when there is no basis, and exactly when there is no open time. -/
theorem flat_iff (self : Position) :
    (self.signedBaseQuantity = 0 ↔ self.averageEntryQuotePrice = 0) ∧
      (self.signedBaseQuantity = 0 ↔ self.openedAtUtc = none) := by
  obtain ⟨_, _, hflat, hopen⟩ := self.postInit_facts
  rcases eq_or_ne self.signedBaseQuantity 0 with hq | hq
  · exact ⟨⟨fun _ => (hflat hq).1, fun _ => hq⟩, ⟨fun _ => (hflat hq).2, fun _ => hq⟩⟩
  · obtain ⟨hbasis, hsome⟩ := hopen hq
    refine ⟨⟨fun h => absurd h hq, fun h => absurd h hbasis.ne'⟩, ⟨fun h => absurd h hq, fun h => ?_⟩⟩
    rw [h] at hsome
    simp at hsome

/-- From flat, any deliveries of an instrument's fills are applied without raising, and at every mark
    the position is worth the sum over the distinct fills; quantity and fees are their sums, a
    repeated id changes nothing, and every position on the way is one the constructor accepts. -/
theorem applyFills_accounting (instrument : Instrument) (fills : List Fill)
    (hfills : ∀ fill ∈ fills, fill.instrument = instrument) (mark : Decimal) :
    ∃ position, (flat instrument).applyFills fills = .ok position ∧
      position.realisedPnlQuote +
          position.signedBaseQuantity * (mark - position.averageEntryQuotePrice) =
        ((distinctBy (·.fillId) fills).map
          (fun fill => fill.signedBaseQuantity * (mark - fill.quotePrice))).sum ∧
      position.signedBaseQuantity =
        ((distinctBy (·.fillId) fills).map (·.signedBaseQuantity)).sum ∧
      position.feeQuotePaid = ((distinctBy (·.fillId) fills).map (·.feeQuote)).sum ∧
      (∀ fill ∈ fills, ∀ again : Fill, again.instrument = instrument → again.fillId = fill.fillId →
        position.applyFills [again] = .ok position) ∧
      (∀ applied rest, applied ++ rest = fills → ∃ onTheWay,
        (flat instrument).applyFills applied = .ok onTheWay ∧
        onTheWay.applyFills rest = .ok position ∧
        onTheWay.toPositionFields.postInit = .ok () ∧
        (onTheWay.signedBaseQuantity = 0 ↔ onTheWay.averageEntryQuotePrice = 0) ∧
        (onTheWay.signedBaseQuantity = 0 ↔ onTheWay.openedAtUtc = none)) := by
  obtain ⟨position, hrun, haccounts⟩ := accounts_run instrument fills hfills
  refine ⟨position, hrun, haccounts.value mark, haccounts.quantity, haccounts.fees, ?_, ?_⟩
  · intro fill hfill again hagain hid
    obtain ⟨after, hafter, hrepeat, _⟩ := accounts_delivery haccounts hagain
    have hmem : again.fillId ∈ (distinctBy (·.fillId) fills).map (·.fillId) := by
      rw [mem_keys_distinctBy, hid]
      exact List.mem_map.mpr ⟨fill, hfill, rfl⟩
    have hsame : after = position := hrepeat hmem
    rw [applyFills, List.foldlM_cons, hafter, hsame]
    rfl
  · intro applied rest hsplit
    have hhere : ∀ fill ∈ applied, fill.instrument = instrument := fun fill hfill =>
      hfills fill (hsplit ▸ List.mem_append_left _ hfill)
    obtain ⟨onTheWay, hway, _⟩ := accounts_run instrument applied hhere
    have hrest : onTheWay.applyFills rest = .ok position := by
      rw [← hsplit, applyFills, List.foldlM_append] at hrun
      simp only [applyFills] at hway ⊢
      rw [hway] at hrun
      exact hrun
    exact ⟨onTheWay, hway, hrest, onTheWay.checked, onTheWay.flat_iff.1, onTheWay.flat_iff.2⟩

/-- A round trip that overshoots: one coin bought at 100, three sold at 110, the sale delivered
    twice. -/
def overshootFills : List Fill :=
  let fill (id : Uuid) (side : Side) (quotePrice baseQuantity : Decimal)
      (h : (FillFields.mk id id "t" .sample side 0 quotePrice baseQuantity 1).postInit = .ok ()) :
      Fill := ⟨⟨id, id, "t", .sample, side, 0, quotePrice, baseQuantity, 1⟩, h⟩
  [fill 1 .buy 100 1 (by decide +kernel), fill 2 .sell 110 3 (by decide +kernel),
    fill 2 .sell 110 3 (by decide +kernel)]

theorem applyFills_accounting_overshoot :
    ∃ position, (flat .sample).applyFills overshootFills = .ok position ∧
      position.realisedPnlQuote + position.signedBaseQuantity *
        (120 - position.averageEntryQuotePrice) = 1 * (120 - 100) + -3 * (120 - 110) ∧
      position.signedBaseQuantity = -2 ∧ position.feeQuotePaid = 2 := by
  obtain ⟨position, hrun, hvalue, hquantity, hfees, _⟩ :=
    applyFills_accounting .sample overshootFills (by decide +kernel) 120
  exact ⟨position, hrun, hvalue.trans (by decide +kernel), hquantity.trans (by decide +kernel),
    hfees.trans (by decide +kernel)⟩

end Position

end FinanceKing
