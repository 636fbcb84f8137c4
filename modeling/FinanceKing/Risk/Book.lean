import FinanceKing.Lib.Sums
import FinanceKing.Risk.Exposure

/-! The priced book as holdings. Pricing the open positions one by one comes to a gross and a net value of
    the signed quantities held, for the whole book, for one asset and for one instrument. -/

namespace FinanceKing.Risk

open Lib

/-- What a portfolio holds of an instrument, signed. -/
def heldQuantity (portfolio : Portfolio) (instrument : Instrument) : Decimal :=
  (portfolio.positionFor instrument).elim 0 fun position => position.signedBaseQuantity

/-- The mark of an instrument; one without a mark is worth nothing, and is never open in a priced book. -/
def markOf (marksUsd : Dict Instrument Decimal) (instrument : Instrument) : Decimal :=
  (marksUsd.get? instrument).getD 0

/-- Every position in a list has a positive mark. -/
def Marked (marksUsd : Dict Instrument Decimal) (positions : List Position) : Prop :=
  ∀ position ∈ positions, ∃ markUsd, marksUsd.get? position.instrument = some markUsd ∧ 0 < markUsd

/-! ### Pricing the positions -/

section Price

variable {marksUsd : Dict Instrument Decimal}

/-- The notional of a position. -/
def positionNotional (marksUsd : Dict Instrument Decimal) (position : Position) : Decimal :=
  markOf marksUsd position.instrument * |position.signedBaseQuantity|

/-- What pricing some positions adds to an exposure. -/
structure PricedFrom (marksUsd : Dict Instrument Decimal) (before : PortfolioExposure)
    (positions : List Position) (after : PortfolioExposure) : Prop where
  gross : after.grossNotionalUsd =
    before.grossNotionalUsd + (positions.map (positionNotional marksUsd)).sum
  net : after.netNotionalUsd = before.netNotionalUsd +
    (positions.map fun position => markOf marksUsd position.instrument * position.signedBaseQuantity).sum
  asset : ∀ baseAsset, after.assetNotionalUsd baseAsset = before.assetNotionalUsd baseAsset +
    (positions.map fun position =>
      if position.instrument.baseAsset = baseAsset then positionNotional marksUsd position else 0).sum
  held : ∀ instrument, after.heldNotionalUsd instrument = before.heldNotionalUsd instrument +
    (positions.map fun position =>
      if position.instrument = instrument then positionNotional marksUsd position else 0).sum

/-- One marked position is priced into the exposure. -/
theorem priceInto_marked {position : Position} {markUsd : Decimal}
    (hmark : marksUsd.get? position.instrument = some markUsd) (hpos : 0 < markUsd)
    (exposure : PortfolioExposure) :
    priceInto marksUsd exposure position =
      .ok (exposure.withPosition position markUsd (positionNotional marksUsd position)) := by
  have hnotional : position.notionalQuote markUsd = .ok (positionNotional marksUsd position) := by
    simp only [Position.notionalQuote, bind_eq_ok, requirePositiveDecimal_eq_ok, pure_eq_ok]
    refine ⟨(), hpos, ?_⟩
    rw [positionNotional, markOf, hmark, Option.getD_some, mul_comm]
  rw [priceInto, hmark]
  simp only [hnotional, bind_eq_ok, pure_eq_ok]
  exact ⟨_, rfl, rfl⟩

theorem pricedFrom_cons {position : Position} {positions : List Position} {markUsd : Decimal}
    (hmark : marksUsd.get? position.instrument = some markUsd) {before after : PortfolioExposure}
    (h : PricedFrom marksUsd (before.withPosition position markUsd (positionNotional marksUsd position))
      positions after) : PricedFrom marksUsd before (position :: positions) after := by
  have hmarkOf : markOf marksUsd position.instrument = markUsd := by rw [markOf, hmark, Option.getD_some]
  constructor
  · rw [h.gross, List.map_cons, List.sum_cons, PortfolioExposure.withPosition, add_assoc]
  · rw [h.net, List.map_cons, List.sum_cons, PortfolioExposure.withPosition, hmarkOf, add_assoc,
      mul_comm markUsd]
  · intro baseAsset
    rw [h.asset, List.map_cons, List.sum_cons, ← add_assoc]
    congr 1
    rw [PortfolioExposure.withPosition, PortfolioExposure.assetNotionalUsd, Dict.get?_set]
    by_cases heq : baseAsset = position.instrument.baseAsset
    · rw [if_pos heq, if_pos heq.symm, heq, Option.getD_some]
    · rw [if_neg heq, if_neg (Ne.symm heq), add_zero]
      rfl
  · intro instrument
    rw [h.held, List.map_cons, List.sum_cons, ← add_assoc]
    congr 1
    rw [PortfolioExposure.withPosition, PortfolioExposure.heldNotionalUsd, Dict.get?_set]
    by_cases heq : instrument = position.instrument
    · rw [if_pos heq, if_pos heq.symm, heq, Option.getD_some]
    · rw [if_neg heq, if_neg (Ne.symm heq), add_zero]
      rfl

/-- Marked positions price, and what they add is their notional. -/
theorem foldlM_priceInto {positions : List Position} (h : Marked marksUsd positions)
    (before : PortfolioExposure) :
    ∃ after, positions.foldlM (priceInto marksUsd) before = .ok after ∧
      PricedFrom marksUsd before positions after := by
  induction positions generalizing before with
  | nil =>
    refine ⟨before, rfl, ⟨?_, ?_, fun _ => ?_, fun _ => ?_⟩⟩ <;> rw [List.map_nil, List.sum_nil, add_zero]
  | cons position positions ih =>
    obtain ⟨⟨markUsd, hmark, hpos⟩, hrest⟩ := List.forall_mem_cons.mp h
    obtain ⟨after, hafter, hpriced⟩ := ih hrest
      (before.withPosition position markUsd (positionNotional marksUsd position))
    refine ⟨after, ?_, pricedFrom_cons hmark hpriced⟩
    rw [List.foldlM_cons, priceInto_marked hmark hpos]
    exact hafter

/-- Positions that priced were marked. -/
theorem marked_of_foldlM {positions : List Position} {before after : PortfolioExposure}
    (h : positions.foldlM (priceInto marksUsd) before = .ok after) : Marked marksUsd positions := by
  induction positions generalizing before with
  | nil => exact fun position hposition => absurd hposition List.not_mem_nil
  | cons position positions ih =>
    simp only [List.foldlM_cons, bind_eq_ok] at h
    obtain ⟨next, hnext, hrest⟩ := h
    refine List.forall_mem_cons.mpr ⟨?_, ih hrest⟩
    rw [priceInto] at hnext
    cases hmark : marksUsd.get? position.instrument with
    | none =>
      rw [hmark] at hnext
      exact absurd hnext raise_ne_ok
    | some markUsd =>
      rw [hmark] at hnext
      simp only [Position.notionalQuote, bind_eq_ok, requirePositiveDecimal_eq_ok] at hnext
      obtain ⟨_, ⟨_, hpos, _⟩, _⟩ := hnext
      exact ⟨markUsd, rfl, hpos⟩

end Price

/-! ### The book as holdings -/

section Holdings

variable (portfolio : Portfolio)

theorem heldQuantity_of_mem {portfolio : Portfolio} {position : Position}
    (h : position ∈ portfolio.positions) :
    heldQuantity portfolio position.instrument = position.signedBaseQuantity := by
  rw [heldQuantity, Portfolio.positionFor]
  cases hfound : portfolio.positions.find? fun held => held.instrument = position.instrument with
  | none => exact absurd (decide_eq_true rfl) (List.find?_eq_none.mp hfound position h)
  | some held =>
    have hsame : held.instrument = position.instrument := by simpa using List.find?_some hfound
    rw [List.inj_on_of_nodup_map portfolio.nodup_instruments (List.mem_of_find?_eq_some hfound) h hsame,
      Option.elim_some]

/-- What is held is open. -/
theorem open_of_heldQuantity_ne {portfolio : Portfolio} {instrument : Instrument}
    (h : heldQuantity portfolio instrument ≠ 0) :
    ∃ position ∈ portfolio.openPositions, position.instrument = instrument := by
  rw [heldQuantity, Portfolio.positionFor] at h
  cases hfound : portfolio.positions.find? fun held => held.instrument = instrument with
  | none =>
    rw [hfound, Option.elim_none] at h
    exact absurd rfl h
  | some held =>
    rw [hfound, Option.elim_some] at h
    have hsame : held.instrument = instrument := by simpa using List.find?_some hfound
    exact ⟨held, List.mem_filter.mpr ⟨List.mem_of_find?_eq_some hfound, decide_eq_true h⟩, hsame⟩

theorem heldQuantity_ne_zero {portfolio : Portfolio} {position : Position}
    (h : position ∈ portfolio.openPositions) : heldQuantity portfolio position.instrument ≠ 0 := by
  rw [Portfolio.openPositions, List.mem_filter] at h
  rw [heldQuantity_of_mem h.1]
  exact of_decide_eq_true h.2

/-- A sum over the open positions is one over any instruments that include theirs. -/
theorem sum_openPositions (f : Instrument → Decimal → Decimal) (hzero : ∀ instrument, f instrument 0 = 0)
    {keys : Finset Instrument} (hkeys : ∀ position ∈ portfolio.openPositions, position.instrument ∈ keys) :
    (portfolio.openPositions.map fun position => f position.instrument position.signedBaseQuantity).sum =
      ∑ instrument ∈ keys, f instrument (heldQuantity portfolio instrument) := by
  have hnodup : (portfolio.openPositions.map fun position => position.instrument).Nodup :=
    portfolio.nodup_instruments.sublist (List.filter_sublist.map _)
  have hlist : (portfolio.openPositions.map fun position =>
      f position.instrument position.signedBaseQuantity) =
      (portfolio.openPositions.map fun position => position.instrument).map fun instrument =>
        f instrument (heldQuantity portfolio instrument) := by
    rw [List.map_map]
    refine List.map_congr_left fun position hposition => ?_
    rw [Function.comp_apply, heldQuantity_of_mem (List.mem_of_mem_filter hposition)]
  rw [hlist, ← List.sum_toFinset _ hnodup]
  refine Finset.sum_subset (fun instrument hinstrument => ?_) fun instrument _ hnotin => ?_
  · obtain ⟨position, hposition, rfl⟩ := List.mem_map.mp (List.mem_toFinset.mp hinstrument)
    exact hkeys position hposition
  · by_cases hheld : heldQuantity portfolio instrument = 0
    · rw [hheld, hzero]
    · obtain ⟨position, hposition, rfl⟩ := open_of_heldQuantity_ne hheld
      exact absurd (List.mem_toFinset.mpr (List.mem_map_of_mem hposition)) hnotin

/-- What one asset's instruments are worth. -/
def assetWorth (marksUsd : Dict Instrument Decimal) (baseAsset : String) (instrument : Instrument) : Decimal :=
  if instrument.baseAsset = baseAsset then markOf marksUsd instrument else 0

/-- What one instrument is worth. -/
def instrumentWorth (marksUsd : Dict Instrument Decimal) (key instrument : Instrument) : Decimal :=
  if instrument = key then markOf marksUsd instrument else 0

/-- A priced book is the gross and the net value of what is held. -/
structure BookOf (marksUsd : Dict Instrument Decimal) (keys : Finset Instrument)
    (held : Instrument → Decimal) (exposure : PortfolioExposure) : Prop where
  gross : exposure.grossNotionalUsd = grossValue keys (markOf marksUsd) held
  net : exposure.netNotionalUsd = netValue keys (markOf marksUsd) held
  asset : ∀ baseAsset, exposure.assetNotionalUsd baseAsset =
    grossValue keys (assetWorth marksUsd baseAsset) held
  held : ∀ key, exposure.heldNotionalUsd key = grossValue keys (instrumentWorth marksUsd key) held

variable {portfolio} {marksUsd : Dict Instrument Decimal}

theorem bookOf_priced {exposure : PortfolioExposure}
    (h : PricedFrom marksUsd .empty portfolio.openPositions exposure) {keys : Finset Instrument}
    (hkeys : ∀ position ∈ portfolio.openPositions, position.instrument ∈ keys) :
    BookOf marksUsd keys (heldQuantity portfolio) exposure := by
  constructor
  · rw [h.gross, PortfolioExposure.empty, zero_add, grossValue]
    exact sum_openPositions portfolio (fun instrument quantity => markOf marksUsd instrument * |quantity|)
      (fun instrument => by rw [abs_zero, mul_zero]) hkeys
  · rw [h.net, PortfolioExposure.empty, zero_add, netValue]
    exact sum_openPositions portfolio (fun instrument quantity => markOf marksUsd instrument * quantity)
      (fun instrument => mul_zero _) hkeys
  · intro baseAsset
    have hsum := sum_openPositions portfolio
      (fun instrument quantity => assetWorth marksUsd baseAsset instrument * |quantity|)
      (fun instrument => by rw [abs_zero, mul_zero]) hkeys
    rw [h.asset, grossValue, ← hsum]
    refine (zero_add _).trans (congrArg List.sum (List.map_congr_left fun position _ => ?_))
    rw [assetWorth, ite_mul, zero_mul]
    rfl
  · intro key
    have hsum := sum_openPositions portfolio
      (fun instrument quantity => instrumentWorth marksUsd key instrument * |quantity|)
      (fun instrument => by rw [abs_zero, mul_zero]) hkeys
    rw [h.held, grossValue, ← hsum]
    refine (zero_add _).trans (congrArg List.sum (List.map_congr_left fun position _ => ?_))
    rw [instrumentWorth, ite_mul, zero_mul]
    rfl

/-- A portfolio whose open positions are marked prices to its book. -/
theorem portfolioExposure_marked (h : Marked marksUsd portfolio.openPositions) {keys : Finset Instrument}
    (hkeys : ∀ position ∈ portfolio.openPositions, position.instrument ∈ keys) :
    ∃ exposure, portfolioExposure portfolio marksUsd = .ok exposure ∧
      BookOf marksUsd keys (heldQuantity portfolio) exposure := by
  obtain ⟨exposure, hexposure, hpriced⟩ := foldlM_priceInto h .empty
  exact ⟨exposure, hexposure, bookOf_priced hpriced hkeys⟩

end Holdings

/-! ### One trade -/

/-- The book another portfolio prices to, when it holds so much more of one marked instrument. -/
structure BookAfter (before after : PortfolioExposure) (instrument : Instrument) (addedUsd signedUsd : Decimal) :
    Prop where
  gross : after.grossNotionalUsd ≤ before.grossNotionalUsd + addedUsd
  net : after.netNotionalUsd = before.netNotionalUsd + signedUsd
  asset : after.assetNotionalUsd instrument.baseAsset ≤
    before.assetNotionalUsd instrument.baseAsset + addedUsd
  held : after.heldNotionalUsd instrument ≤ before.heldNotionalUsd instrument + addedUsd

theorem bookAfter_traded {marksUsd : Dict Instrument Decimal} {keys : Finset Instrument}
    (hworth : ∀ instrument ∈ keys, 0 ≤ markOf marksUsd instrument) {instrument : Instrument}
    (hkey : instrument ∈ keys) {held : Instrument → Decimal} {amount : Decimal}
    {before after : PortfolioExposure} (hbefore : BookOf marksUsd keys held before)
    (hafter : BookOf marksUsd keys (traded held instrument amount) after) :
    BookAfter before after instrument (markOf marksUsd instrument * |amount|)
      (markOf marksUsd instrument * amount) := by
  have hasset : ∀ key ∈ keys, 0 ≤ assetWorth marksUsd instrument.baseAsset key := fun key hmem => by
    rw [assetWorth]
    split
    · exact hworth key hmem
    · exact le_rfl
  have hinstrument : ∀ key ∈ keys, 0 ≤ instrumentWorth marksUsd instrument key := fun key hmem => by
    rw [instrumentWorth]
    split
    · exact hworth key hmem
    · exact le_rfl
  constructor
  · rw [hafter.gross, hbefore.gross]
    exact grossValue_traded_le hworth hkey held amount
  · rw [hafter.net, hbefore.net, netValue_traded hkey]
  · rw [hafter.asset, hbefore.asset]
    refine (grossValue_traded_le hasset hkey held amount).trans_eq ?_
    rw [assetWorth, if_pos rfl]
  · rw [hafter.held, hbefore.held]
    refine (grossValue_traded_le hinstrument hkey held amount).trans_eq ?_
    rw [instrumentWorth, if_pos rfl]

/-- Adding to a marked instrument of a priced book gives a book that prices, and no exposure grows by more than
    the trade. -/
theorem portfolioExposure_traded {portfolio booked : Portfolio} {marksUsd : Dict Instrument Decimal}
    {exposure : PortfolioExposure} (h : portfolioExposure portfolio marksUsd = .ok exposure)
    {instrument : Instrument} {markUsd amount : Decimal} (hmark : marksUsd.get? instrument = some markUsd)
    (hpos : 0 < markUsd) (hbooked : heldQuantity booked = traded (heldQuantity portfolio) instrument amount) :
    ∃ after, portfolioExposure booked marksUsd = .ok after ∧
      BookAfter exposure after instrument (markUsd * |amount|) (markUsd * amount) := by
  have hmarked : Marked marksUsd portfolio.openPositions := marked_of_foldlM h
  have hmarkOf : markOf marksUsd instrument = markUsd := by rw [markOf, hmark, Option.getD_some]
  -- the instruments of the open book, and the one traded
  let keys := insert instrument (portfolio.openPositions.map fun position => position.instrument).toFinset
  have hkeys : ∀ position ∈ portfolio.openPositions, position.instrument ∈ keys := fun position hposition =>
    Finset.mem_insert_of_mem (List.mem_toFinset.mpr (List.mem_map_of_mem hposition))
  have hmarks : ∀ key ∈ keys, ∃ markUsd, marksUsd.get? key = some markUsd ∧ 0 < markUsd := by
    intro key hkey
    rcases Finset.mem_insert.mp hkey with rfl | hopen
    · exact ⟨markUsd, hmark, hpos⟩
    · obtain ⟨position, hposition, rfl⟩ := List.mem_map.mp (List.mem_toFinset.mp hopen)
      exact hmarked position hposition
  have hbookedKeys : ∀ position ∈ booked.openPositions, position.instrument ∈ keys := by
    intro position hposition
    have hheld := heldQuantity_ne_zero hposition
    rw [hbooked, traded] at hheld
    by_cases hsame : position.instrument = instrument
    · rw [hsame]
      exact Finset.mem_insert_self _ _
    · rw [if_neg hsame, add_zero] at hheld
      obtain ⟨held, hopen, hinstrument⟩ := open_of_heldQuantity_ne hheld
      exact hinstrument ▸ hkeys held hopen
  obtain ⟨_, hbefore, hbeforeBook⟩ := portfolioExposure_marked hmarked hkeys
  obtain ⟨after, hafter, hafterBook⟩ := portfolioExposure_marked
    (fun position hposition => hmarks _ (hbookedKeys position hposition)) hbookedKeys
  cases h.symm.trans hbefore
  rw [hbooked] at hafterBook
  refine ⟨after, hafter, hmarkOf ▸ bookAfter_traded (fun key hkey => ?_) (Finset.mem_insert_self _ _)
    hbeforeBook hafterBook⟩
  obtain ⟨mark, hget, hposmark⟩ := hmarks key hkey
  rw [markOf, hget, Option.getD_some]
  exact hposmark.le

end FinanceKing.Risk
