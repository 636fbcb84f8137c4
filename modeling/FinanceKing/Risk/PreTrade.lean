import FinanceKing.Risk.Book

/-! Pre-trade soundness. The scan over the limits finds the least headroom in notional, and what fits under it
    fits under every limit; a trade adds at most its own notional to any exposure, so the book after it stays
    inside. The free-margin row is converted through leverage, and a negative leverage turns its breach into
    room. -/

namespace FinanceKing.Risk

open Lib Strategies

/-! ### The scan -/

/-- The scan ends at its start or at a row, and nothing it passed is below it. -/
theorem tighten_run (maxLeverage : Decimal) (rows : List LimitEvaluation) (start : Decimal × String) :
    (rows.foldl (tighten maxLeverage) start = start ∨ ∃ row ∈ rows,
      rows.foldl (tighten maxLeverage) start = (notionalHeadroomUsd maxLeverage row, row.limitName)) ∧
    (rows.foldl (tighten maxLeverage) start).1 ≤ start.1 ∧
    ∀ row ∈ rows, (rows.foldl (tighten maxLeverage) start).1 ≤ notionalHeadroomUsd maxLeverage row := by
  induction rows generalizing start with
  | nil => exact ⟨Or.inl rfl, le_rfl, fun row hrow => absurd hrow List.not_mem_nil⟩
  | cons row rows ih =>
    rw [List.foldl_cons]
    obtain ⟨hend, hle, hall⟩ := ih (tighten maxLeverage start row)
    have hstep : (tighten maxLeverage start row).1 ≤ start.1 ∧
        (tighten maxLeverage start row).1 ≤ notionalHeadroomUsd maxLeverage row := by
      rw [tighten]
      split
      · rename_i hlt
        exact ⟨hlt.le, le_rfl⟩
      · rename_i hge
        exact ⟨le_rfl, not_lt.mp hge⟩
    refine ⟨?_, hle.trans hstep.1, List.forall_mem_cons.mpr ⟨hle.trans hstep.2, hall⟩⟩
    rcases hend with heq | ⟨other, hother, heq⟩
    · rw [heq, tighten]
      split
      · exact Or.inr ⟨row, List.mem_cons_self, rfl⟩
      · exact Or.inl rfl
    · exact Or.inr ⟨other, List.mem_cons_of_mem _ hother, heq⟩

/-- A row no other is below, in notional. -/
def Tightest (maxLeverage : Decimal) (rows : List LimitEvaluation) (row : LimitEvaluation) : Prop :=
  row ∈ rows ∧ ∀ other ∈ rows, notionalHeadroomUsd maxLeverage row ≤ notionalHeadroomUsd maxLeverage other

/-- The permitted notional is the tightest row's headroom, and the name is that row's. -/
theorem permittedNotionalUsd_spec (maxLeverage : Decimal) (first : LimitEvaluation)
    (rest : List LimitEvaluation) (hfirst : first.limitName ≠ "min_free_margin_ratio") :
    ∃ row, Tightest maxLeverage (first :: rest) row ∧ permittedNotionalUsd (first :: rest) maxLeverage =
      .ok (max (notionalHeadroomUsd maxLeverage row) 0, row.limitName) := by
  have hown : notionalHeadroomUsd maxLeverage first = first.headroomUsd := if_neg hfirst
  obtain ⟨hend, _, hall⟩ := tighten_run maxLeverage (first :: rest) (first.headroomUsd, first.limitName)
  have hrow : ∃ row ∈ first :: rest, (first :: rest).foldl (tighten maxLeverage)
      (first.headroomUsd, first.limitName) = (notionalHeadroomUsd maxLeverage row, row.limitName) := by
    rcases hend with heq | hrow
    · exact ⟨first, List.mem_cons_self, heq.trans (by rw [hown])⟩
    · exact hrow
  obtain ⟨row, hmem, heq⟩ := hrow
  rw [heq] at hall
  refine ⟨row, ⟨hmem, hall⟩, ?_⟩
  simp only [permittedNotionalUsd, item, List.getElem?_cons_zero, bind_eq_ok]
  refine ⟨first, rfl, ?_⟩
  rw [heq]
  rfl

/-! ### The rows -/

section Rows

variable (instrument : Instrument) (direction : Direction) (exposure : PortfolioExposure)
  (context : PreTradeContext)

/-- The sign a direction trades with. -/
def directionalSign (direction : Direction) : Decimal := if direction = .long then 1 else -1

/-- The limits as evaluated at a leverage that divides. -/
def limitRows : List LimitEvaluation :=
  [⟨"max_position_equity_ratio", .ceiling,
      context.exposureLimits.maxPositionEquityRatio * context.equityUsd,
      exposure.heldNotionalUsd instrument⟩,
    ⟨"max_position_notional_usd", .ceiling, context.absoluteLimits.maxPositionNotionalUsd,
      exposure.heldNotionalUsd instrument⟩,
    ⟨"max_asset_exposure_ratio", .ceiling,
      context.exposureLimits.maxAssetExposureRatio * context.equityUsd,
      exposure.assetNotionalUsd instrument.baseAsset⟩,
    ⟨"max_gross_exposure_ratio", .ceiling,
      context.exposureLimits.maxGrossExposureRatio * context.equityUsd, exposure.grossNotionalUsd⟩,
    ⟨"max_portfolio_notional_usd", .ceiling, context.absoluteLimits.maxPortfolioNotionalUsd,
      exposure.grossNotionalUsd⟩,
    ⟨"max_net_exposure_ratio", .ceiling, context.exposureLimits.maxNetExposureRatio * context.equityUsd,
      exposure.netNotionalUsd * directionalSign direction⟩,
    ⟨"min_free_margin_ratio", .floor, context.exposureLimits.minFreeMarginRatio * context.equityUsd,
      context.equityUsd - exposure.grossNotionalUsd / context.absoluteLimits.maxLeverage⟩,
    ⟨"max_single_order_notional_usd", .ceiling, context.absoluteLimits.maxSingleOrderNotionalUsd, 0⟩]

theorem evaluationsFor_eq_ok {rows : List LimitEvaluation} :
    evaluationsFor instrument direction exposure context = .ok rows ↔
      context.absoluteLimits.maxLeverage ≠ 0 ∧ rows = limitRows instrument direction exposure context := by
  simp only [evaluationsFor, decimalQuotient, bind_eq_ok, raiseIf_eq_ok, pure_eq_ok, not_and_or]
  constructor
  · rintro ⟨_, ⟨_, _, _, hleverage, rfl⟩, rfl⟩
    exact ⟨hleverage, rfl⟩
  · rintro ⟨hleverage, rfl⟩
    exact ⟨_, ⟨(), Or.inl hleverage, (), hleverage, rfl⟩, rfl⟩

/-- A notional that fits under every limit of the book, the margin one converted through leverage. -/
structure RoomFor (notionalUsd : Decimal) : Prop where
  positionRatio : exposure.heldNotionalUsd instrument + notionalUsd ≤
    context.exposureLimits.maxPositionEquityRatio * context.equityUsd
  positionCap : exposure.heldNotionalUsd instrument + notionalUsd ≤
    context.absoluteLimits.maxPositionNotionalUsd
  assetRatio : exposure.assetNotionalUsd instrument.baseAsset + notionalUsd ≤
    context.exposureLimits.maxAssetExposureRatio * context.equityUsd
  grossRatio : exposure.grossNotionalUsd + notionalUsd ≤
    context.exposureLimits.maxGrossExposureRatio * context.equityUsd
  portfolioCap : exposure.grossNotionalUsd + notionalUsd ≤ context.absoluteLimits.maxPortfolioNotionalUsd
  netRatio : exposure.netNotionalUsd * directionalSign direction + notionalUsd ≤
    context.exposureLimits.maxNetExposureRatio * context.equityUsd
  freeMargin : notionalUsd ≤
    (context.equityUsd - exposure.grossNotionalUsd / context.absoluteLimits.maxLeverage -
      context.exposureLimits.minFreeMarginRatio * context.equityUsd) * context.absoluteLimits.maxLeverage
  orderCap : notionalUsd ≤ context.absoluteLimits.maxSingleOrderNotionalUsd

variable {instrument direction exposure context}

/-- To fit under every limit is to be within every row's headroom. -/
theorem roomFor_iff {notionalUsd : Decimal} :
    RoomFor instrument direction exposure context notionalUsd ↔
      ∀ row ∈ limitRows instrument direction exposure context,
        notionalUsd ≤ notionalHeadroomUsd context.absoluteLimits.maxLeverage row := by
  simp only [limitRows, List.forall_mem_cons, notionalHeadroomUsd, LimitEvaluation.headroomUsd,
    String.reduceEq, if_false, if_true, sub_zero, le_sub_iff_add_le']
  constructor
  · rintro ⟨h₁, h₂, h₃, h₄, h₅, h₆, h₇, h₈⟩
    exact ⟨h₁, h₂, h₃, h₄, h₅, h₆, h₇, h₈, fun row hrow => absurd hrow List.not_mem_nil⟩
  · rintro ⟨h₁, h₂, h₃, h₄, h₅, h₆, h₇, h₈, _⟩
    exact ⟨h₁, h₂, h₃, h₄, h₅, h₆, h₇, h₈⟩

/-- The row of free margin. -/
def marginRow (exposure : PortfolioExposure) (context : PreTradeContext) : LimitEvaluation :=
  ⟨"min_free_margin_ratio", .floor, context.exposureLimits.minFreeMarginRatio * context.equityUsd,
    context.equityUsd - exposure.grossNotionalUsd / context.absoluteLimits.maxLeverage⟩

/-- At a positive leverage a breached row has no room in notional. -/
theorem notionalHeadroom_neg_of_breached {maxLeverage : Decimal} (hleverage : 0 < maxLeverage)
    {row : LimitEvaluation} (h : row.isBreached = true) : notionalHeadroomUsd maxLeverage row < 0 := by
  have hneg : row.headroomUsd < 0 := of_decide_eq_true h
  rw [notionalHeadroomUsd]
  split
  · exact mul_neg_of_neg_of_pos hneg hleverage
  · exact hneg

theorem isBreached_eq_false {row : LimitEvaluation} : row.isBreached = false ↔ 0 ≤ row.headroomUsd :=
  decide_eq_false_iff_not.trans not_lt

/-- What fits leaves every limit unbreached on the book after it. -/
theorem unbreached_after (hleverage : 0 < context.absoluteLimits.maxLeverage) {after : PortfolioExposure}
    {notionalUsd : Decimal} (hnonneg : 0 ≤ notionalUsd)
    (hroom : RoomFor instrument direction exposure context notionalUsd)
    (hafter : BookAfter exposure after instrument notionalUsd (directionalSign direction * notionalUsd)) :
    ∀ row ∈ limitRows instrument direction after context, row.isBreached = false := by
  have hsign : directionalSign direction * directionalSign direction = 1 := by
    rw [directionalSign]
    split <;> norm_num
  have hnet : after.netNotionalUsd * directionalSign direction =
      exposure.netNotionalUsd * directionalSign direction + notionalUsd := by
    rw [hafter.net, add_mul, mul_right_comm, hsign, one_mul]
  have hmargin : after.grossNotionalUsd / context.absoluteLimits.maxLeverage ≤
      context.equityUsd - context.exposureLimits.minFreeMarginRatio * context.equityUsd := by
    have hfits := (div_le_iff₀ hleverage).mpr hroom.freeMargin
    have hgrew := div_le_div_of_nonneg_right hafter.gross hleverage.le
    rw [add_div] at hgrew
    linarith
  simp only [limitRows, List.forall_mem_cons, isBreached_eq_false, LimitEvaluation.headroomUsd, sub_nonneg,
    sub_zero, hnet]
  exact ⟨hafter.held.trans hroom.positionRatio, hafter.held.trans hroom.positionCap,
    hafter.asset.trans hroom.assetRatio, hafter.gross.trans hroom.grossRatio,
    hafter.gross.trans hroom.portfolioCap, hroom.netRatio, le_sub_comm.mp hmargin,
    hnonneg.trans hroom.orderCap, fun row hrow => absurd hrow List.not_mem_nil⟩

end Rows

/-! ### The verdict -/

section Verdict

variable {signal : Signal} {portfolio : Portfolio} {marksUsd : Dict Instrument Decimal}
  {context : PreTradeContext} {decidedAtUtc : DateTime} {assessment : ExposureAssessment}

/-- A directional signal that reached the limits: its book, its mark, and the row that bound. -/
structure Reached (signal : Signal) (portfolio : Portfolio) (marksUsd : Dict Instrument Decimal)
    (context : PreTradeContext) (exposure : PortfolioExposure) (markUsd : Decimal) : Prop where
  tradable : signal.instrument.symbol ∈ context.tradableSymbols
  priced : portfolioExposure portfolio marksUsd = .ok exposure
  directional : signal.direction ≠ .flat
  marked : marksUsd.get? signal.instrument = some markUsd
  positive : 0 < markUsd
  leveraged : context.absoluteLimits.maxLeverage ≠ 0

/-- The rows of a signal that reached the limits. -/
abbrev rowsOf (signal : Signal) (context : PreTradeContext) (exposure : PortfolioExposure) :
    List LimitEvaluation :=
  limitRows signal.instrument signal.direction exposure context

/-- One that reached them is assessed against its tightest row. -/
theorem validatePreTrade_reached (decidedAtUtc : DateTime) {exposure : PortfolioExposure} {markUsd : Decimal}
    (h : Reached signal portfolio marksUsd context exposure markUsd) :
    ∃ row, Tightest context.absoluteLimits.maxLeverage (rowsOf signal context exposure) row ∧
      validatePreTrade signal portfolio marksUsd context decidedAtUtc =
        .ok (assessHeadroom signal context decidedAtUtc (rowsOf signal context exposure) markUsd
          (max (notionalHeadroomUsd context.absoluteLimits.maxLeverage row) 0) row.limitName) := by
  have hname : "max_position_equity_ratio" ≠ "min_free_margin_ratio" := by decide
  obtain ⟨row, htight, hpermitted⟩ := permittedNotionalUsd_spec context.absoluteLimits.maxLeverage
    ⟨"max_position_equity_ratio", .ceiling,
      context.exposureLimits.maxPositionEquityRatio * context.equityUsd,
      exposure.heldNotionalUsd signal.instrument⟩
    (rowsOf signal context exposure).tail hname
  have hscan : permittedNotionalUsd (rowsOf signal context exposure) context.absoluteLimits.maxLeverage =
      .ok (max (notionalHeadroomUsd context.absoluteLimits.maxLeverage row) 0, row.limitName) := hpermitted
  have hrows := (evaluationsFor_eq_ok signal.instrument signal.direction exposure context).mpr
    ⟨h.leveraged, rfl⟩
  have hmark : (marksUsd.get? signal.instrument).filter (fun x => decide (0 < x)) = some markUsd := by
    rw [h.marked, Option.filter_some, decide_eq_true h.positive, if_pos rfl]
  refine ⟨row, htight, ?_⟩
  rw [validatePreTrade, if_neg (not_not.mpr h.tradable), h.priced]
  simp only [bind, Except.bind, if_neg h.directional, hmark, hrows, hscan]
  rfl

/-- An assessment that evaluated nothing refused the signal, or closes what is open. -/
def Unevaluated (signal : Signal) (assessment : ExposureAssessment) : Prop :=
  assessment.evaluations = [] ∧ (assessment.rejection = none → signal.direction = .flat)

/-- Every assessment evaluated nothing, or is of a signal that reached the limits. -/
theorem validatePreTrade_cases
    (h : validatePreTrade signal portfolio marksUsd context decidedAtUtc = .ok assessment) :
    Unevaluated signal assessment ∨ ∃ exposure markUsd, Reached signal portfolio marksUsd context exposure markUsd := by
  rw [validatePreTrade] at h
  by_cases htradable : signal.instrument.symbol ∈ context.tradableSymbols
  · rw [if_neg (not_not.mpr htradable)] at h
    simp only [bind_eq_ok] at h
    obtain ⟨exposure, hexposure, h⟩ := h
    by_cases hflat : signal.direction = .flat
    · rw [if_pos hflat] at h
      cases pure_eq_ok.mp h
      exact Or.inl ⟨rfl, fun _ => hflat⟩
    · rw [if_neg hflat] at h
      cases hmark : (marksUsd.get? signal.instrument).filter (fun x => decide (0 < x)) with
      | none =>
        rw [hmark] at h
        cases pure_eq_ok.mp h
        exact Or.inl ⟨rfl, fun hnone => by cases hnone⟩
      | some markUsd =>
        rw [hmark] at h
        obtain ⟨hget, hpositive⟩ := Option.filter_eq_some_iff.mp hmark
        simp only [bind_eq_ok, evaluationsFor_eq_ok] at h
        obtain ⟨_, ⟨hleveraged, _⟩, _⟩ := h
        exact Or.inr ⟨exposure, markUsd,
          ⟨htradable, hexposure, hflat, hget, of_decide_eq_true hpositive, hleveraged⟩⟩
  · rw [if_pos htradable] at h
    cases pure_eq_ok.mp h
    exact Or.inl ⟨rfl, fun hnone => by cases hnone⟩

/-- The lots that fit under a permitted notional. -/
def permittedLots (signal : Signal) (permittedUsd markUsd : Decimal) : Decimal :=
  signal.instrument.quantizeBaseQuantity (permittedUsd / markUsd)

/-- How a verdict reads its permitted notional: no room, too little for the venue, or an approval. -/
theorem assessHeadroom_cases (signal : Signal) (context : PreTradeContext) (decidedAtUtc : DateTime)
    (rows : List LimitEvaluation) (markUsd permittedUsd : Decimal) (name : String) :
    let assessed := assessHeadroom signal context decidedAtUtc rows markUsd permittedUsd name
    assessed.evaluations = rows ∧
    ((permittedUsd ≤ 0 ∧ ∃ rejection, assessed.rejection = some rejection ∧ rejection.bindingLimitName = name) ∨
      (0 < permittedUsd ∧ assessed.rejection ≠ none ∧
        (permittedLots signal permittedUsd markUsd ≤ 0 ∨
          ¬signal.instrument.meetsMinNotional (permittedLots signal permittedUsd markUsd) markUsd)) ∨
      (0 < permittedUsd ∧ assessed.rejection = none ∧
        assessed.permittedBaseQuantity = permittedLots signal permittedUsd markUsd ∧
        signal.instrument.meetsMinNotional (permittedLots signal permittedUsd markUsd) markUsd)) := by
  intro assessed
  by_cases hnone : permittedUsd ≤ 0
  · have hassessed : assessed = refused signal context decidedAtUtc rows
        [name, " leaves no headroom for ", signal.instrument.symbol,
          ": threshold and observed values are in limits_evaluated"] name := if_pos hnone
    rw [hassessed]
    exact ⟨rfl, Or.inl ⟨hnone, _, rfl, rfl⟩⟩
  · by_cases hfilters : permittedLots signal permittedUsd markUsd ≤ 0 ∨
        ¬signal.instrument.meetsMinNotional (permittedLots signal permittedUsd markUsd) markUsd
    · have hassessed : assessed = refused signal context decidedAtUtc rows
          ["permitted notional ", .decimal permittedUsd, " on ", signal.instrument.symbol, " quantizes to ",
            .decimal (permittedLots signal permittedUsd markUsd), ", below the venue MIN_NOTIONAL of ",
            .decimal signal.instrument.minNotionalQuote] "min_notional_quote" :=
        (if_neg hnone).trans (if_pos hfilters)
      rw [hassessed]
      exact ⟨rfl, Or.inr (Or.inl ⟨not_le.mp hnone, Option.some_ne_none _, hfilters⟩)⟩
    · have hassessed : assessed = _ := (if_neg hnone).trans (if_neg hfilters)
      rw [hassessed]
      rw [not_or, not_not] at hfilters
      exact ⟨rfl, Or.inr (Or.inr ⟨not_le.mp hnone, rfl, rfl, hfilters.2⟩)⟩

end Verdict

/-! ### Soundness -/

/-- What pre-trade validation promises of one assessment. -/
structure PreTradeSound (signal : Signal) (portfolio : Portfolio) (marksUsd : Dict Instrument Decimal)
    (context : PreTradeContext) (assessment : ExposureAssessment) : Prop where
  /-- The book with the permitted quantity added prices, and breaches no limit. -/
  fits : assessment.rejection = none → signal.direction ≠ .flat → ∀ booked : Portfolio,
    heldQuantity booked = traded (heldQuantity portfolio) signal.instrument
      (directionalSign signal.direction * assessment.permittedBaseQuantity) →
    ∃ after rows, portfolioExposure booked marksUsd = .ok after ∧
      evaluationsFor signal.instrument signal.direction after context = .ok rows ∧
      ∀ row ∈ rows, row.isBreached = false
  /-- The order-level limit observes the order itself. -/
  withinOrderCap : assessment.rejection = none → signal.direction ≠ .flat →
    ∀ markUsd, marksUsd.get? signal.instrument = some markUsd →
      assessment.permittedBaseQuantity * markUsd ≤ context.absoluteLimits.maxSingleOrderNotionalUsd
  refuses : (∃ row ∈ assessment.evaluations, row.isBreached = true) → assessment.rejection ≠ none
  /-- A refusal names a tightest row, unless every row left room. -/
  names : ∀ rejection, assessment.rejection = some rejection →
    (∃ row, Tightest context.absoluteLimits.maxLeverage assessment.evaluations row ∧
      row.limitName = rejection.bindingLimitName) ∨
    ∀ row ∈ assessment.evaluations, 0 < notionalHeadroomUsd context.absoluteLimits.maxLeverage row

/-- The free margin is below its floor, and a negative leverage reads the shortfall as room for some whole
    number of lots that every other limit and the venue would take. -/
structure MarginMisread (signal : Signal) (portfolio : Portfolio) (marksUsd : Dict Instrument Decimal)
    (context : PreTradeContext) (exposure : PortfolioExposure) (markUsd : Decimal) : Prop
    extends Reached signal portfolio marksUsd context exposure markUsd where
  negative : context.absoluteLimits.maxLeverage < 0
  breached : context.equityUsd - exposure.grossNotionalUsd / context.absoluteLimits.maxLeverage <
    context.exposureLimits.minFreeMarginRatio * context.equityUsd
  room : ∃ lots : ℕ, RoomFor signal.instrument signal.direction exposure context
      (lots * signal.instrument.lotStep * markUsd) ∧
    signal.instrument.meetsMinNotional (lots * signal.instrument.lotStep) markUsd = true

theorem meetsMinNotional_iff {instrument : Instrument} {baseQuantity quotePrice : Decimal}
    (hquantity : 0 ≤ baseQuantity) (hprice : 0 ≤ quotePrice) :
    instrument.meetsMinNotional baseQuantity quotePrice = true ↔
      instrument.minNotionalQuote ≤ baseQuantity * quotePrice := by
  rw [Instrument.meetsMinNotional, Instrument.notionalQuote, abs_of_nonneg (mul_nonneg hquantity hprice),
    decide_eq_true_iff]

theorem minNotionalQuote_pos (instrument : Instrument) : 0 < instrument.minNotionalQuote := by
  have h := instrument.checked
  simp only [InstrumentFields.postInit, bind_eq_ok, requirePositiveDecimal_eq_ok] at h
  obtain ⟨_, _, _, _, _, _, _, _, _, _, _, hminimum, _⟩ := h
  exact hminimum

section Sound

variable {signal : Signal} {portfolio : Portfolio} {marksUsd : Dict Instrument Decimal}
  {context : PreTradeContext} {decidedAtUtc : DateTime} {exposure : PortfolioExposure} {markUsd : Decimal}

theorem marginRow_mem (signal : Signal) (exposure : PortfolioExposure) (context : PreTradeContext) :
    marginRow exposure context ∈ rowsOf signal context exposure := by
  simp only [rowsOf, limitRows, marginRow, List.mem_cons, true_or, or_true]

/-- The lots permitted are whole, and come to no more than the permitted notional. -/
theorem permittedLots_spec (signal : Signal) {markUsd permittedUsd : Decimal} (hpermitted : 0 < permittedUsd) (hmark : 0 < markUsd) :
    (∃ lots : ℕ, permittedLots signal permittedUsd markUsd = lots * signal.instrument.lotStep) ∧
      0 ≤ permittedLots signal permittedUsd markUsd ∧
      permittedLots signal permittedUsd markUsd * markUsd ≤ permittedUsd := by
  have hlot := signal.instrument.lotStep_pos
  have hratio : 0 ≤ permittedUsd / markUsd := (div_pos hpermitted hmark).le
  exact ⟨snapTowardZero_eq_lots hlot hratio, snapTowardZero_nonneg hlot hratio,
    (le_div_iff₀ hmark).mp (snapTowardZero_le hlot hratio)⟩

/-- The lots permitted are at least any that fit. -/
theorem le_permittedLots {permittedUsd : Decimal} (hmark : 0 < markUsd) {lots : ℕ}
    (h : lots * signal.instrument.lotStep * markUsd ≤ permittedUsd) :
    lots * signal.instrument.lotStep ≤ permittedLots signal permittedUsd markUsd :=
  lots_le_snapTowardZero signal.instrument.lotStep_pos ((le_div_iff₀ hmark).mpr h)

/-- A misread margin is approved with its row breached. -/
theorem approved_of_marginMisread (decidedAtUtc : DateTime)
    (h : MarginMisread signal portfolio marksUsd context exposure markUsd) :
    ∃ assessment, validatePreTrade signal portfolio marksUsd context decidedAtUtc = .ok assessment ∧
      assessment.rejection = none ∧ ∃ row ∈ assessment.evaluations, row.isBreached = true := by
  obtain ⟨row, ⟨hrow, _⟩, hvalidated⟩ := validatePreTrade_reached decidedAtUtc h.toReached
  obtain ⟨lots, hroom, hmeets⟩ := h.room
  have hlotsnonneg : 0 ≤ lots * signal.instrument.lotStep :=
    mul_nonneg (Nat.cast_nonneg lots) signal.instrument.lotStep_pos.le
  have hminimum := (meetsMinNotional_iff hlotsnonneg h.positive.le).mp hmeets
  have hheadroom := roomFor_iff.mp hroom row hrow
  have hpositive : 0 < notionalHeadroomUsd context.absoluteLimits.maxLeverage row :=
    (minNotionalQuote_pos signal.instrument).trans_le (hminimum.trans hheadroom)
  rw [max_eq_left hpositive.le] at hvalidated
  have hlots := le_permittedLots h.positive hheadroom
  refine ⟨_, hvalidated, ?_, ?_⟩
  · obtain ⟨_, ⟨hnone, _⟩ | ⟨_, _, hfilters⟩ | ⟨_, happroved, _⟩⟩ := assessHeadroom_cases signal context
      decidedAtUtc (rowsOf signal context exposure) markUsd
      (notionalHeadroomUsd context.absoluteLimits.maxLeverage row) row.limitName
    · exact absurd hpositive hnone.not_gt
    · have hwhole : signal.instrument.minNotionalQuote ≤
          permittedLots signal (notionalHeadroomUsd context.absoluteLimits.maxLeverage row) markUsd * markUsd :=
        hminimum.trans (mul_le_mul_of_nonneg_right hlots h.positive.le)
      rcases hfilters with hnolots | hsmall
      · exact absurd ((minNotionalQuote_pos signal.instrument).trans_le hwhole)
          (mul_nonpos_of_nonpos_of_nonneg hnolots h.positive.le).not_gt
      · exact absurd ((meetsMinNotional_iff (hlotsnonneg.trans hlots) h.positive.le).mpr hwhole) hsmall
    · exact happroved
  · rw [(assessHeadroom_cases signal context decidedAtUtc (rowsOf signal context exposure) markUsd
      (notionalHeadroomUsd context.absoluteLimits.maxLeverage row) row.limitName).1]
    exact ⟨marginRow exposure context, marginRow_mem signal exposure context, decide_eq_true (sub_neg.mpr h.breached)⟩

/-- An assessment that evaluated nothing has nothing to answer for. -/
theorem sound_of_unevaluated {assessment : ExposureAssessment} (h : Unevaluated signal assessment) :
    PreTradeSound signal portfolio marksUsd context assessment := by
  obtain ⟨hrows, hflat⟩ := h
  have hnone : ∀ row, row ∉ assessment.evaluations := fun row hrow => by
    rw [hrows] at hrow
    exact List.not_mem_nil hrow
  refine ⟨fun happroved hdirectional => absurd (hflat happroved) hdirectional,
    fun happroved hdirectional => absurd (hflat happroved) hdirectional, ?_, ?_⟩
  · rintro ⟨row, hrow, _⟩
    exact absurd hrow (hnone row)
  · exact fun _ _ => Or.inr fun row hrow => absurd hrow (hnone row)

/-- An approved quantity keeps the book inside every limit, at a positive leverage. -/
theorem fits_of_approved (h : Reached signal portfolio marksUsd context exposure markUsd)
    (hleverage : 0 < context.absoluteLimits.maxLeverage) {baseQuantity : Decimal} (hquantity : 0 ≤ baseQuantity)
    (hroom : RoomFor signal.instrument signal.direction exposure context (baseQuantity * markUsd))
    {booked : Portfolio} (hbooked : heldQuantity booked =
      traded (heldQuantity portfolio) signal.instrument (directionalSign signal.direction * baseQuantity)) :
    ∃ after rows, portfolioExposure booked marksUsd = .ok after ∧
      evaluationsFor signal.instrument signal.direction after context = .ok rows ∧
      ∀ row ∈ rows, row.isBreached = false := by
  obtain ⟨after, hafter, hbook⟩ := portfolioExposure_traded h.priced h.marked h.positive hbooked
  have hsign : |directionalSign signal.direction| = 1 := by
    rw [directionalSign]
    split <;> norm_num
  have hadded : markUsd * |directionalSign signal.direction * baseQuantity| = baseQuantity * markUsd := by
    rw [abs_mul, hsign, one_mul, abs_of_nonneg hquantity, mul_comm]
  have hsigned : markUsd * (directionalSign signal.direction * baseQuantity) =
      directionalSign signal.direction * (baseQuantity * markUsd) := by ring
  rw [hadded, hsigned] at hbook
  exact ⟨after, _, hafter, (evaluationsFor_eq_ok _ _ _ _).mpr ⟨h.leveraged, rfl⟩,
    unbreached_after hleverage (mul_nonneg hquantity h.positive.le) hroom hbook⟩

/-- Room that is read as a positive notional under a negative leverage is a shortfall of margin. -/
theorem margin_breached_of_negative (hnegative : context.absoluteLimits.maxLeverage < 0)
    {notionalUsd : Decimal} (hpositive : 0 < notionalUsd)
    (hall : ∀ row ∈ rowsOf signal context exposure,
      notionalUsd ≤ notionalHeadroomUsd context.absoluteLimits.maxLeverage row) :
    context.equityUsd - exposure.grossNotionalUsd / context.absoluteLimits.maxLeverage <
      context.exposureLimits.minFreeMarginRatio * context.equityUsd := by
  have hmargin := hall _ (marginRow_mem signal exposure context)
  have hconverted : notionalHeadroomUsd context.absoluteLimits.maxLeverage (marginRow exposure context) =
      (marginRow exposure context).headroomUsd * context.absoluteLimits.maxLeverage := if_pos rfl
  rw [hconverted] at hmargin
  exact sub_neg.mp (neg_of_mul_pos_left (hpositive.trans_le hmargin) hnegative.le)

/-- An approval is sound where the margin is not misread. -/
theorem sound_of_approved (h : Reached signal portfolio marksUsd context exposure markUsd)
    (hread : ¬MarginMisread signal portfolio marksUsd context exposure markUsd)
    {assessment : ExposureAssessment} (hrows : assessment.evaluations = rowsOf signal context exposure)
    (happroved : assessment.rejection = none) {permittedUsd : Decimal} (hpermitted : 0 < permittedUsd)
    (hall : ∀ row ∈ rowsOf signal context exposure,
      permittedUsd ≤ notionalHeadroomUsd context.absoluteLimits.maxLeverage row)
    (hquantity : assessment.permittedBaseQuantity = permittedLots signal permittedUsd markUsd)
    (hmeets : signal.instrument.meetsMinNotional (permittedLots signal permittedUsd markUsd) markUsd = true) :
    PreTradeSound signal portfolio marksUsd context assessment := by
  obtain ⟨⟨lots, hlots⟩, hnonneg, hwithin⟩ := permittedLots_spec signal hpermitted h.positive
  have hroom : RoomFor signal.instrument signal.direction exposure context
      (permittedLots signal permittedUsd markUsd * markUsd) :=
    roomFor_iff.mpr fun row hrow => hwithin.trans (hall row hrow)
  have hleverage : 0 < context.absoluteLimits.maxLeverage := by
    refine (lt_or_gt_of_ne h.leveraged).resolve_left fun hnegative => hread ⟨h, hnegative, ?_, lots, ?_, ?_⟩
    · exact margin_breached_of_negative hnegative hpermitted hall
    · rwa [← hlots]
    · rwa [← hlots]
  refine ⟨fun _ _ booked hbooked => ?_, fun _ _ mark hmark => ?_, ?_, fun rejection hrejection => ?_⟩
  · rw [hquantity] at hbooked
    exact fits_of_approved h hleverage hnonneg hroom hbooked
  · cases h.marked.symm.trans hmark
    rw [hquantity]
    exact hroom.orderCap
  · rintro ⟨row, hrow, hbreached⟩
    rw [hrows] at hrow
    exact absurd (hpermitted.trans_le (hall row hrow))
      (notionalHeadroom_neg_of_breached hleverage hbreached).not_gt
  · rw [happroved] at hrejection
    cases hrejection

/-- A refusal is sound when it names a tightest row or every row left room. -/
theorem sound_of_refused {assessment : ExposureAssessment} (hrefused : assessment.rejection ≠ none)
    (hnames : ∀ rejection, assessment.rejection = some rejection →
      (∃ row, Tightest context.absoluteLimits.maxLeverage assessment.evaluations row ∧
        row.limitName = rejection.bindingLimitName) ∨
      ∀ row ∈ assessment.evaluations, 0 < notionalHeadroomUsd context.absoluteLimits.maxLeverage row) :
    PreTradeSound signal portfolio marksUsd context assessment :=
  ⟨fun happroved => absurd happroved hrefused, fun happroved => absurd happroved hrefused,
    fun _ => hrefused, hnames⟩

/-- Where the margin is not misread, what reached the limits is assessed soundly. -/
theorem sound_of_reached (h : Reached signal portfolio marksUsd context exposure markUsd)
    (hread : ¬MarginMisread signal portfolio marksUsd context exposure markUsd)
    {assessment : ExposureAssessment}
    (hassessed : validatePreTrade signal portfolio marksUsd context decidedAtUtc = .ok assessment) :
    PreTradeSound signal portfolio marksUsd context assessment := by
  obtain ⟨row, htight, hvalidated⟩ := validatePreTrade_reached decidedAtUtc h
  cases hvalidated.symm.trans hassessed
  obtain ⟨hrows, hcases⟩ := assessHeadroom_cases signal context decidedAtUtc
    (rowsOf signal context exposure) markUsd
    (max (notionalHeadroomUsd context.absoluteLimits.maxLeverage row) 0) row.limitName
  have hpositive : 0 < max (notionalHeadroomUsd context.absoluteLimits.maxLeverage row) 0 →
      0 < notionalHeadroomUsd context.absoluteLimits.maxLeverage row :=
    fun hsome => (lt_max_iff.mp hsome).resolve_right (lt_irrefl _)
  rcases hcases with ⟨_, rejection, hrejected, hname⟩ | ⟨hsome, hrefused, _⟩ |
    ⟨hsome, happroved, hquantity, hmeets⟩
  · refine sound_of_refused (hrejected ▸ Option.some_ne_none rejection) fun other hother =>
      Or.inl ⟨row, ?_, ?_⟩
    · rw [hrows]
      exact htight
    · cases hrejected.symm.trans hother
      exact hname.symm
  · refine sound_of_refused hrefused fun _ _ => Or.inr fun other hother => ?_
    rw [hrows] at hother
    exact (hpositive hsome).trans_le (htight.2 other hother)
  · exact sound_of_approved h hread hrows happroved hsome
      (fun other hother => max_le (htight.2 other hother)
        ((hpositive hsome).trans_le (htight.2 other hother)).le) hquantity hmeets

end Sound

/-- Pre-trade validation is sound exactly where a negative leverage does not misread the free margin. -/
theorem preTrade_sound_iff (signal : Signal) (portfolio : Portfolio) (marksUsd : Dict Instrument Decimal)
    (context : PreTradeContext) (decidedAtUtc : DateTime) :
    (∀ assessment, validatePreTrade signal portfolio marksUsd context decidedAtUtc = .ok assessment →
      PreTradeSound signal portfolio marksUsd context assessment) ↔
    ∀ exposure markUsd, ¬MarginMisread signal portfolio marksUsd context exposure markUsd := by
  constructor
  · intro hsound exposure markUsd hmisread
    obtain ⟨assessment, hassessed, happroved, hbreached⟩ :=
      approved_of_marginMisread decidedAtUtc hmisread
    exact (hsound assessment hassessed).refuses hbreached happroved
  · intro hread assessment hassessed
    rcases validatePreTrade_cases hassessed with hnothing | ⟨exposure, markUsd, hreached⟩
    · exact sound_of_unevaluated hnothing
    · exact sound_of_reached hreached (hread exposure markUsd) hassessed

/-- A long on an empty book. -/
def openingLong : Signal where
  strategyId := "breakout"
  instrument := Instrument.sample
  direction := .long
  conviction := 1 / 2
  horizon := 3600000000
  invalidationQuotePrice := some 90
  rationale := "range breakout"
  decidedAtUtc := 0
  checked := by decide +kernel

/-- No positions and no cash. -/
theorem emptyPortfolio_checked : (⟨0, [], Dict.empty⟩ : PortfolioFields).postInit = .ok () := by
  with_unfolding_all decide

def emptyPortfolio : Portfolio where
  asOfUtc := 0
  positions := []
  cashBalances := Dict.empty
  checked := emptyPortfolio_checked

/-- A margin floor of twice the equity under a leverage of minus one, both of which are accepted. -/
def invertedMargin : PreTradeContext where
  equityUsd := 10000
  exposureLimits := ⟨{ minFreeMarginRatio := 2 }, by decide +kernel⟩
  absoluteLimits := ⟨{ maxLeverage := -1 }, by decide +kernel⟩
  tradableSymbols := {"BTCUSDT"}

/-- The long is approved with its free margin below the floor. -/
theorem a_breached_margin_is_approved :
    (validatePreTrade openingLong emptyPortfolio (Dict.empty.set Instrument.sample 100) invertedMargin 0).map
      (fun assessment => (assessment.rejection, assessment.evaluations.map LimitEvaluation.isBreached)) =
        .ok (none, [false, false, false, false, false, false, true, false]) ∧
    ∀ assessment, validatePreTrade openingLong emptyPortfolio (Dict.empty.set Instrument.sample 100)
        invertedMargin 0 = .ok assessment →
      ¬PreTradeSound openingLong emptyPortfolio (Dict.empty.set Instrument.sample 100) invertedMargin assessment := by
  have hrun : (validatePreTrade openingLong emptyPortfolio (Dict.empty.set Instrument.sample 100)
      invertedMargin 0).map
      (fun assessment => (assessment.rejection, assessment.evaluations.map LimitEvaluation.isBreached)) =
        .ok (none, [false, false, false, false, false, false, true, false]) := by decide +kernel
  refine ⟨hrun, fun assessment hassessed hsound => ?_⟩
  rw [hassessed] at hrun
  obtain ⟨happroved, hrows⟩ := Prod.mk.inj (Except.ok.inj hrun)
  have hmem : true ∈ assessment.evaluations.map LimitEvaluation.isBreached := by
    rw [hrows]
    decide
  obtain ⟨row, hrow, hbreached⟩ := List.mem_map.mp hmem
  exact hsound.refuses ⟨row, hrow, hbreached⟩ happroved

end FinanceKing.Risk
