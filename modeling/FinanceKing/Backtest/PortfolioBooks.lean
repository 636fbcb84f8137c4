import FinanceKing.Backtest.PortfolioState

/-! The equity identity of the books over any calls. The abstract ledger is the list of calls that were
    booked: accepted and not a repeat. Cash, fees, funding and holdings are functions of that list,
    one booked call moves each of them by itself, and equity at any marks follows by adding the open
    positions up. -/

namespace FinanceKing.Backtest

open Lib

/-! ### The abstract ledger -/

/-- The fills among the booked calls. -/
def fillsOf (booked : List PortfolioCall) : List Fill :=
  booked.filterMap (fun | .withFill fill => some fill | _ => none)

/-- The settlements among the booked calls, by the venue's identity for them. -/
def fundingKeysOf (booked : List PortfolioCall) : List FundingKey :=
  booked.filterMap (fun | .withFunding instrument occursAtUtc _ _ => some (instrument, occursAtUtc)
                        | _ => none)

/-- What the booked fills leave held in one instrument. -/
def heldAfter (booked : List PortfolioCall) (instrument : Instrument) : Decimal :=
  (((fillsOf booked).filter (fun fill => fill.instrument = instrument)).map
    (·.signedBaseQuantity)).sum

/-- What one settlement pays on the holding the earlier calls left. -/
def payment (earlier : List PortfolioCall) : PortfolioCall → Decimal
  | .withFunding instrument _ fundingRate markQuotePrice =>
    heldAfter earlier instrument * markQuotePrice * fundingRate
  | _ => 0

/-- Every funding payment, each on the holding at its own instant. -/
def fundingPayments (earlier : List PortfolioCall) : List PortfolioCall → Decimal
  | [] => 0
  | call :: rest => payment earlier call + fundingPayments (earlier ++ [call]) rest

theorem fundingPayments_concat (call : PortfolioCall) : ∀ earlier calls : List PortfolioCall,
    fundingPayments earlier (calls ++ [call]) =
      fundingPayments earlier calls + payment (earlier ++ calls) call
  | earlier, [] => by simp [fundingPayments]
  | earlier, c :: calls => by
    rw [List.cons_append, fundingPayments, fundingPayments,
      fundingPayments_concat call (earlier ++ [c]) calls, List.append_assoc, add_assoc]
    rfl

/-- A call repeats one already booked, by the identity its state keeps; a breach has none. -/
def Repeats (booked : List PortfolioCall) : PortfolioCall → Prop
  | .withFill fill => fill.fillId ∈ (fillsOf booked).map (·.fillId)
  | .withFunding instrument occursAtUtc _ _ => (instrument, occursAtUtc) ∈ fundingKeysOf booked
  | .withRiskLimitBreach _ _ => False

instance (booked : List PortfolioCall) : DecidablePred (Repeats booked)
  | .withFill fill => inferInstanceAs (Decidable (fill.fillId ∈ (fillsOf booked).map (·.fillId)))
  | .withFunding instrument occursAtUtc _ _ =>
    inferInstanceAs (Decidable ((instrument, occursAtUtc) ∈ fundingKeysOf booked))
  | .withRiskLimitBreach _ _ => inferInstanceAs (Decidable False)

def PortfolioCall.occursAtUtc : PortfolioCall → DateTime
  | .withFill fill => fill.eventTimeUtc
  | .withFunding _ occursAtUtc _ _ => occursAtUtc
  | .withRiskLimitBreach occursAtUtc _ => occursAtUtc

/-- One call of a run: a call that raises leaves the state, and an accepted one that is not a repeat
    is booked. -/
def step (books : PortfolioState × List PortfolioCall) (call : PortfolioCall) :
    PortfolioState × List PortfolioCall :=
  match books.1.advance call with
  | .error _ => books
  | .ok after => (after, if Repeats books.2 call then books.2 else books.2 ++ [call])

/-- Any calls on a starting state: the state they leave and the calls that were booked. -/
def run (start : PortfolioState) (calls : List PortfolioCall) :
    PortfolioState × List PortfolioCall :=
  calls.foldl step (start, [])

/-! ### The books -/

/-- What a position cost, net of what it realised. -/
def netCostQuote (position : Position) : Decimal :=
  position.signedBaseQuantity * position.averageEntryQuotePrice - position.realisedPnlQuote

/-- The fill ids the position in one instrument has applied. -/
def heldFillIds (state : PortfolioState) (instrument : Instrument) : Finset Uuid :=
  ((state.positions.get? instrument).getD (.flat instrument)).appliedFillIds

/-- The state agrees with the calls booked so far. -/
structure Books (startingCashUsd : Decimal) (booked : List PortfolioCall) (state : PortfolioState) :
    Prop where
  cash : state.quoteCashUsd = startingCashUsd - (state.positions.values.map netCostQuote).sum -
    state.feePaidUsd - state.fundingPaidUsd
  fees : state.feePaidUsd = ((fillsOf booked).map (·.feeQuote)).sum
  funding : state.fundingPaidUsd = fundingPayments [] booked
  held : ∀ instrument, state.heldQuantity instrument = heldAfter booked instrument
  fillIds : ∀ id, id ∈ state.appliedFillIds ↔ id ∈ (fillsOf booked).map (·.fillId)
  distinctFills : ((fillsOf booked).map (·.fillId)).Nodup
  fundingKeys : ∀ key, key ∈ state.appliedFundingKeys ↔ key ∈ fundingKeysOf booked
  distinctFunding : (fundingKeysOf booked).Nodup
  positionIds : ∀ id, id ∈ state.appliedFillIds ↔ ∃ instrument, id ∈ heldFillIds state instrument

variable {startingCashUsd : Decimal} {booked : List PortfolioCall} {state : PortfolioState}

theorem fillsOf_concat (call : PortfolioCall) :
    fillsOf (booked ++ [call]) = fillsOf booked ++ fillsOf [call] :=
  List.filterMap_append

theorem fundingKeysOf_concat (call : PortfolioCall) :
    fundingKeysOf (booked ++ [call]) = fundingKeysOf booked ++ fundingKeysOf [call] :=
  List.filterMap_append

theorem heldAfter_concat (call : PortfolioCall) (instrument : Instrument) :
    heldAfter (booked ++ [call]) instrument =
      heldAfter booked instrument + heldAfter [call] instrument := by
  rw [heldAfter, fillsOf_concat, List.filter_append, List.map_append, List.sum_append]
  rfl

theorem books_opening {asOfUtc : DateTime} {opened : PortfolioState}
    (h : PortfolioState.opening asOfUtc startingCashUsd = .ok opened) :
    Books startingCashUsd [] opened := by
  rw [PortfolioState.opening] at h
  simp only [bind_eq_ok] at h
  obtain ⟨_, _, hmake⟩ := h
  obtain ⟨_, rfl⟩ := construct_eq_ok hmake
  refine ⟨?_, rfl, rfl, fun _ => rfl, ?_, List.nodup_nil, ?_, List.nodup_nil, ?_⟩
  · simp [Dict.values, Dict.empty, PortfolioState.feePaidUsd]
  · simp [fillsOf]
  · simp [fundingKeysOf]
  · simp [heldFillIds, Position.flat]

/-! ### What one booked call moves -/

/-- A total over the held positions, at the one a fill names: never traded counts as flat. -/
theorem elim_held (state : PortfolioState) (instrument : Instrument) {f : Position → Decimal}
    (hflat : f (.flat instrument) = 0) :
    (state.positions.get? instrument).elim 0 f =
      f ((state.positions.get? instrument).getD (.flat instrument)) := by
  cases state.positions.get? instrument with
  | none => exact hflat.symm
  | some position => rfl

theorem netCostQuote_of_booked {before after : Position} {fill : Fill}
    (h : Position.Booked before after fill) :
    netCostQuote after = netCostQuote before + fill.signedBaseQuantity * fill.quotePrice := by
  have hvalue := h.value 0
  simp only [Position.grossPnlQuote] at hvalue
  rw [netCostQuote, netCostQuote]
  linarith

theorem books_fill (h : Books startingCashUsd booked state) {fill : Fill} {after : PortfolioState}
    (hnew : ¬Repeats booked (.withFill fill)) (hok : state.withFill fill = .ok after) :
    Books startingCashUsd (booked ++ [.withFill fill]) after := by
  have hid : fill.fillId ∉ state.appliedFillIds := fun hmem => hnew ((h.fillIds _).mp hmem)
  have hclock : state.asOfUtc ≤ fill.eventTimeUtc := by
    by_contra hlate
    obtain ⟨e, he⟩ := state.withFill_late hid (not_le.mp hlate)
    rw [he] at hok
    cases hok
  obtain ⟨t, booked', ht, hok', hfields⟩ := state.withFill_accepted hid hclock
  obtain rfl : booked' = after := Except.ok.inj (hok'.symm.trans hok)
  have hbooked : Position.Booked
      ((state.positions.get? fill.instrument).getD (.flat fill.instrument)) t.after fill := by
    obtain ⟨t', ht', _, _, hnew'⟩ :=
      Position.withFill_spec _ (state.held_instrument fill.instrument).symm
    obtain rfl : t' = t := Except.ok.inj (ht'.symm.trans ht)
    exact hnew' fun hmem => hid ((h.positionIds _).mpr ⟨_, hmem⟩)
  have hcost := netCostQuote_of_booked hbooked
  have hflat : netCostQuote (.flat fill.instrument) = 0 := by simp [netCostQuote, Position.flat]
  have hpaid : booked'.feePaidUsd = state.feePaidUsd + fill.feeQuote := by
    rw [PortfolioState.feePaidUsd, hfields, Dict.sum_values_set, elim_held state _ rfl, hbooked.fees,
      PortfolioState.feePaidUsd]
    ring
  have hset : ∀ instrument, booked'.positions.get? instrument =
      if instrument = fill.instrument then some t.after else state.positions.get? instrument := by
    intro instrument
    rw [hfields, Dict.get?_set]
  refine ⟨?_, ?_, ?_, ?_, ?_, ?_, ?_, ?_, ?_⟩
  · rw [hpaid, hfields, Dict.sum_values_set, elim_held state _ hflat, hcost]
    simp only [h.cash]
    ring
  · rw [hpaid, h.fees, fillsOf_concat, List.map_append, List.sum_append]
    simp [fillsOf]
  · rw [fundingPayments_concat, hfields]
    simp only [h.funding, payment, add_zero]
  · intro instrument
    rw [heldAfter_concat, ← h.held, PortfolioState.heldQuantity, hset]
    rcases eq_or_ne instrument fill.instrument with rfl | hother
    · rw [if_pos rfl, Option.elim_some, hbooked.quantity, PortfolioState.heldQuantity,
        elim_held state _ rfl]
      simp [heldAfter, fillsOf]
    · rw [if_neg hother, PortfolioState.heldQuantity]
      simp [heldAfter, fillsOf, hother.symm]
  · intro id
    rw [hfields, fillsOf_concat, List.map_append, List.mem_append, ← h.fillIds, Finset.mem_insert,
      or_comm]
    simp [fillsOf]
  · rw [fillsOf_concat, List.map_append]
    refine List.Nodup.append h.distinctFills (List.nodup_singleton _) ?_
    intro id hold hlast
    obtain rfl : id = fill.fillId := List.mem_singleton.mp hlast
    exact hnew hold
  · intro key
    rw [hfields, fundingKeysOf_concat, List.mem_append, h.fundingKeys]
    simp [fundingKeysOf]
  · rw [fundingKeysOf_concat]
    simpa [fundingKeysOf] using h.distinctFunding
  · intro id
    have hids : ∀ instrument, heldFillIds booked' instrument =
        if instrument = fill.instrument then insert fill.fillId (heldFillIds state instrument)
        else heldFillIds state instrument := by
      intro instrument
      rcases eq_or_ne instrument fill.instrument with rfl | hother
      · rw [heldFillIds, hset, if_pos rfl, if_pos rfl, Option.getD_some, hbooked.ids, heldFillIds]
      · rw [heldFillIds, hset, if_neg hother, if_neg hother, heldFillIds]
    rw [hfields, Finset.mem_insert, h.positionIds]
    constructor
    · rintro (rfl | ⟨instrument, hmem⟩)
      · exact ⟨fill.instrument, by simp [hids]⟩
      · refine ⟨instrument, ?_⟩
        rw [hids]
        split
        · exact Finset.mem_insert_of_mem hmem
        · exact hmem
    · rintro ⟨instrument, hmem⟩
      rw [hids] at hmem
      split at hmem
      · exact (Finset.mem_insert.mp hmem).imp_right fun hold => ⟨instrument, hold⟩
      · exact Or.inr ⟨instrument, hmem⟩

/-- A call that leaves positions and fills alone keeps their part of the books. -/
theorem books_funding (h : Books startingCashUsd booked state) {instrument : Instrument}
    {occursAtUtc : DateTime} {fundingRate markQuotePrice : Decimal} {after : PortfolioState}
    (hnew : ¬Repeats booked (.withFunding instrument occursAtUtc fundingRate markQuotePrice))
    (hok : state.withFunding instrument occursAtUtc fundingRate markQuotePrice = .ok after) :
    Books startingCashUsd
      (booked ++ [.withFunding instrument occursAtUtc fundingRate markQuotePrice]) after := by
  have hkey : (instrument, occursAtUtc) ∉ state.appliedFundingKeys :=
    fun hmem => hnew ((h.fundingKeys _).mp hmem)
  have hfields := state.withFunding_accepted hok hkey
  have hpaid : after.feePaidUsd = state.feePaidUsd := by
    rw [PortfolioState.feePaidUsd, hfields, PortfolioState.feePaidUsd]
  refine ⟨?_, ?_, ?_, ?_, ?_, ?_, ?_, ?_, ?_⟩
  · rw [hpaid, hfields]
    simp only [h.cash]
    ring
  · rw [hpaid, h.fees, fillsOf_concat]
    simp [fillsOf]
  · rw [fundingPayments_concat, hfields]
    simp only [h.funding, payment, List.nil_append, h.held]
  · intro other
    rw [heldAfter_concat, ← h.held, PortfolioState.heldQuantity, hfields]
    simp [PortfolioState.heldQuantity, heldAfter, fillsOf]
  · intro id
    rw [hfields, fillsOf_concat]
    simpa [fillsOf] using h.fillIds id
  · rw [fillsOf_concat]
    simpa [fillsOf] using h.distinctFills
  · intro key
    rw [hfields, fundingKeysOf_concat, List.mem_append, ← h.fundingKeys, Finset.mem_insert, or_comm]
    simp [fundingKeysOf]
  · rw [fundingKeysOf_concat]
    refine List.Nodup.append h.distinctFunding (List.nodup_singleton _) ?_
    intro key hold hlast
    obtain rfl : key = (instrument, occursAtUtc) := List.mem_singleton.mp hlast
    exact hnew hold
  · intro id
    rw [hfields]
    simpa only [heldFillIds, hfields] using h.positionIds id

theorem books_breach (h : Books startingCashUsd booked state) {occursAtUtc : DateTime}
    {breachCount : ℤ} {after : PortfolioState}
    (hok : state.withRiskLimitBreach occursAtUtc breachCount = .ok after) :
    Books startingCashUsd (booked ++ [.withRiskLimitBreach occursAtUtc breachCount]) after := by
  have hfields := state.withRiskLimitBreach_accepted hok
  have hpaid : after.feePaidUsd = state.feePaidUsd := by
    rw [PortfolioState.feePaidUsd, hfields, PortfolioState.feePaidUsd]
  refine ⟨?_, ?_, ?_, ?_, ?_, ?_, ?_, ?_, ?_⟩
  · rw [hpaid, hfields]
    exact h.cash
  · rw [hpaid, h.fees, fillsOf_concat]
    simp [fillsOf]
  · rw [fundingPayments_concat, hfields]
    simp only [h.funding, payment, add_zero]
  · intro other
    rw [heldAfter_concat, ← h.held, PortfolioState.heldQuantity, hfields]
    simp [PortfolioState.heldQuantity, heldAfter, fillsOf]
  · intro id
    rw [hfields, fillsOf_concat]
    simpa [fillsOf] using h.fillIds id
  · rw [fillsOf_concat]
    simpa [fillsOf] using h.distinctFills
  · intro key
    rw [hfields, fundingKeysOf_concat]
    simpa [fundingKeysOf] using h.fundingKeys key
  · rw [fundingKeysOf_concat]
    simpa [fundingKeysOf] using h.distinctFunding
  · intro id
    rw [hfields]
    simpa only [heldFillIds, hfields] using h.positionIds id

/-- A repeated call that does not raise gives back the very same state. -/
theorem advance_repeat (h : Books startingCashUsd booked state) {call : PortfolioCall}
    {after : PortfolioState} (hrepeat : Repeats booked call) (hok : state.advance call = .ok after) :
    after = state := by
  cases call with
  | withFill fill =>
    have hsame := state.withFill_repeat ((h.fillIds fill.fillId).mpr hrepeat)
    exact Except.ok.inj (hok.symm.trans hsame)
  | withFunding instrument occursAtUtc fundingRate markQuotePrice =>
    rcases le_or_gt markQuotePrice 0 with hmark | hmark
    · rw [PortfolioState.advance, PortfolioState.withFunding, raiseIf, if_pos hmark] at hok
      cases hok
    · have hsame : state.withFunding instrument occursAtUtc fundingRate markQuotePrice =
          .ok state := state.withFunding_repeat hmark ((h.fundingKeys _).mpr hrepeat)
      exact Except.ok.inj (hok.symm.trans hsame)
  | withRiskLimitBreach occursAtUtc breachCount => exact hrepeat.elim

/-- A new call stamped before the clock raises. -/
theorem advance_late (h : Books startingCashUsd booked state) {call : PortfolioCall}
    (hnew : ¬Repeats booked call) (hlate : call.occursAtUtc < state.asOfUtc) :
    ∃ e, state.advance call = .error e := by
  cases call with
  | withFill fill => exact state.withFill_late (fun hmem => hnew ((h.fillIds _).mp hmem)) hlate
  | withFunding instrument occursAtUtc fundingRate markQuotePrice =>
    exact state.withFunding_late (fun hmem => hnew ((h.fundingKeys _).mp hmem)) hlate
  | withRiskLimitBreach occursAtUtc breachCount => exact state.withRiskLimitBreach_late hlate

/-- One call keeps the books. -/
theorem books_step {books : PortfolioState × List PortfolioCall}
    (h : Books startingCashUsd books.2 books.1) (call : PortfolioCall) :
    Books startingCashUsd (step books call).2 (step books call).1 := by
  rw [step]
  split
  · exact h
  · next after hok =>
    split
    · next hrepeat =>
      obtain rfl := advance_repeat h hrepeat hok
      exact h
    · next hnew =>
      cases call with
      | withFill fill => exact books_fill h hnew hok
      | withFunding instrument occursAtUtc fundingRate markQuotePrice =>
        exact books_funding h hnew hok
      | withRiskLimitBreach occursAtUtc breachCount => exact books_breach h hok

/-- Any calls keep the books. -/
theorem books_run {asOfUtc : DateTime} {opened : PortfolioState}
    (h : PortfolioState.opening asOfUtc startingCashUsd = .ok opened)
    (calls : List PortfolioCall) :
    Books startingCashUsd (run opened calls).2 (run opened calls).1 := by
  induction calls using List.reverseRecOn with
  | nil => exact books_opening h
  | append_singleton calls call ih =>
    rw [run, List.foldl_append]
    exact books_step ih call

/-! ### Equity -/

theorem sum_filter_of_zero {α : Type} (f : α → Decimal) (p : α → Bool)
    (hf : ∀ a, p a = false → f a = 0) : ∀ l : List α, ((l.filter p).map f).sum = (l.map f).sum
  | [] => rfl
  | a :: l => by
    rw [List.filter_cons, List.map_cons, List.sum_cons, ← sum_filter_of_zero f p hf l]
    cases hp : p a with
    | true => simp
    | false => simp [hf a hp]

/-- Closed positions add nothing to a total that is zero on them. -/
theorem sum_openPositions (state : PortfolioState) (f : Position → Decimal)
    (hf : ∀ position, position.signedBaseQuantity = 0 → f position = 0) :
    (state.openPositions.map f).sum = (state.positions.values.map f).sum := by
  rw [PortfolioState.openPositions, sum_filter_of_zero]
  · exact (((perm_sortBy _ state.positions.entries).map Prod.snd).map f).sum_eq
  · intro position hclosed
    exact hf position (by simpa using hclosed)

/-- The mark supplied for a position's instrument; zero, which is no price, when there is none. -/
def markOf (markQuotePrices : Dict Instrument Decimal) (position : Position) : Decimal :=
  (markQuotePrices.get? position.instrument).getD 0

/-- With every open position covered, equity is cash plus the positions at their marks. -/
theorem equityUsd_eq (state : PortfolioState) {markQuotePrices : Dict Instrument Decimal}
    (hmarks : ∀ position ∈ state.openPositions, 0 < markOf markQuotePrices position) :
    state.equityUsd markQuotePrices = .ok (state.quoteCashUsd + (state.openPositions.map
      (fun position => position.signedBaseQuantity * markOf markQuotePrices position)).sum) := by
  rw [PortfolioState.equityUsd]
  generalize state.quoteCashUsd = cash
  generalize state.openPositions = positions at hmarks ⊢
  induction positions generalizing cash with
  | nil => simp [pure, Except.pure]
  | cons position rest ih =>
    have hpos := hmarks position List.mem_cons_self
    rw [List.foldlM_cons, List.map_cons, List.sum_cons, ← add_assoc]
    rw [markOf] at hpos ⊢
    cases hmark : markQuotePrices.get? position.instrument with
    | none => simp [hmark] at hpos
    | some mark =>
      rw [hmark, Option.getD_some] at hpos
      simp only [raiseIf, if_neg (not_le.mpr hpos), Option.getD_some]
      exact ih _ fun p hp => hmarks p (List.mem_cons_of_mem _ hp)

/-- Over any calls on an opening state, at any marks covering the open positions: equity is starting
    cash plus realised PnL minus the distinct fees minus the distinct funding payments plus the open
    PnL; a repeat gives back the very same state; a new call behind the clock raises and leaves the
    state; and the applied fill ids are the union of the positions' own. -/
theorem run_equity_identity {asOfUtc : DateTime} {opened : PortfolioState}
    (h : PortfolioState.opening asOfUtc startingCashUsd = .ok opened)
    (calls : List PortfolioCall) :
    let state := (run opened calls).1
    let booked := (run opened calls).2
    (∀ markQuotePrices : Dict Instrument Decimal,
      (∀ position ∈ state.openPositions, 0 < markOf markQuotePrices position) →
      state.equityUsd markQuotePrices = .ok (startingCashUsd + state.realisedPnlUsd -
        ((fillsOf booked).map (·.feeQuote)).sum - fundingPayments [] booked +
        (state.openPositions.map (fun position => position.signedBaseQuantity *
          (markOf markQuotePrices position - position.averageEntryQuotePrice))).sum)) ∧
    ((fillsOf booked).map (·.fillId)).Nodup ∧ (fundingKeysOf booked).Nodup ∧
    (∀ fill, fill.fillId ∈ (fillsOf booked).map (·.fillId) → state.withFill fill = .ok state) ∧
    (∀ instrument occursAtUtc fundingRate markQuotePrice, 0 < markQuotePrice →
      (instrument, occursAtUtc) ∈ fundingKeysOf booked →
      state.withFunding instrument occursAtUtc fundingRate markQuotePrice = .ok state) ∧
    (∀ call, ¬Repeats booked call → call.occursAtUtc < state.asOfUtc →
      (∃ e, state.advance call = .error e) ∧ run opened (calls ++ [call]) = run opened calls) ∧
    (∀ id, id ∈ state.appliedFillIds ↔
      ∃ position ∈ state.positions.values, id ∈ position.appliedFillIds) := by
  intro state booked
  have hbooks : Books startingCashUsd booked state := books_run h calls
  refine ⟨?_, hbooks.distinctFills, hbooks.distinctFunding, ?_, ?_, ?_, ?_⟩
  · intro markQuotePrices hmarks
    rw [equityUsd_eq state hmarks, sum_openPositions _ _ (fun p hp => by rw [hp, zero_mul]),
      sum_openPositions _ _ (fun p hp => by rw [hp, zero_mul]), hbooks.cash, hbooks.fees,
      hbooks.funding, PortfolioState.realisedPnlUsd]
    congr 1
    have hsplit : (state.positions.values.map netCostQuote).sum +
        (state.positions.values.map (·.realisedPnlQuote)).sum +
        (state.positions.values.map (fun position => position.signedBaseQuantity *
          (markOf markQuotePrices position - position.averageEntryQuotePrice))).sum =
        (state.positions.values.map (fun position =>
          position.signedBaseQuantity * markOf markQuotePrices position)).sum := by
      rw [← List.sum_map_add, ← List.sum_map_add]
      congr 1
      refine List.map_congr_left fun position _ => ?_
      rw [netCostQuote]
      ring
    linarith
  · intro fill hmem
    exact state.withFill_repeat ((hbooks.fillIds _).mpr hmem)
  · intro instrument occursAtUtc fundingRate markQuotePrice hmark hmem
    exact state.withFunding_repeat hmark ((hbooks.fundingKeys _).mpr hmem)
  · intro call hnew hlate
    obtain ⟨e, he⟩ := advance_late hbooks hnew hlate
    refine ⟨⟨e, he⟩, ?_⟩
    rw [run, List.foldl_append, List.foldl_cons, List.foldl_nil]
    change step (run opened calls) call = run opened calls
    rw [step, he]
  · intro id
    rw [hbooks.positionIds]
    constructor
    · rintro ⟨instrument, hmem⟩
      rw [heldFillIds] at hmem
      cases hget : state.positions.get? instrument with
      | none =>
        rw [hget] at hmem
        simp [Position.flat] at hmem
      | some position =>
        rw [hget] at hmem
        exact ⟨position, Dict.mem_values_of_get? hget, hmem⟩
    · rintro ⟨position, hvalue, hmem⟩
      obtain ⟨instrument, hget⟩ := (Dict.mem_values_iff _ _).mp hvalue
      exact ⟨instrument, by rw [heldFillIds, hget]; exact hmem⟩

def sampleOpening : PortfolioState where
  asOfUtc := 0
  quoteCashUsd := 1000
  positions := Dict.empty
  appliedFillIds := ∅
  appliedFundingKeys := ∅
  fundingPaidUsd := 0
  riskLimitBreachCount := 0
  checked := by decide

/-- A long of one flipped to a short of two with the flip delivered twice, then a settlement. -/
def sampleCalls : List PortfolioCall :=
  Position.overshootFills.map .withFill ++ [.withFunding .sample 5 (1 / 100) 110]

theorem run_equity_identity_overshoot :
    (run sampleOpening sampleCalls).1.equityUsd (Dict.empty.set .sample 120) =
      .ok (1000 + 10 - 2 - -22 / 10 + -2 * (120 - 110)) := by
  have hopening : PortfolioState.opening 0 1000 = .ok sampleOpening := by decide +kernel
  have hequity := (run_equity_identity hopening sampleCalls).1 (Dict.empty.set .sample 120)
    (by decide +kernel)
  exact hequity.trans (by decide +kernel)

end FinanceKing.Backtest
