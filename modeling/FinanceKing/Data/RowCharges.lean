import FinanceKing.Data.ParseRows
import FinanceKing.Lib.Checks

/-! What a rejected row is charged with. The checks of a row are made in the parser's order, and the row is
    counted under the first of them that fails, whatever else is wrong with it. -/

namespace FinanceKing.Data

open Lib

def RowFault.reason? : RowFault → Option RejectionReason
  | .rejected reason => some reason
  | .raised _ => none

/-- A check of a row, under the reason its failure is counted for. -/
abbrev RowCheck := RejectionReason × Prop

/-! ### Fields -/

theorem rejectIf_makes {rejected check : Prop} [Decidable rejected] {reason : RejectionReason}
    (hcheck : check ↔ ¬ rejected) : Makes RowFault.reason? (rejectIf rejected reason) [(reason, check)] := by
  rw [rejectIf]
  split
  · next h =>
    refine ⟨fun _ hok => (by cases hok), fun e r he hr => ?_⟩
    obtain rfl := Except.error.inj he
    obtain rfl := Option.some.inj hr
    exact .here fun hpass => hcheck.mp hpass h
  · next h =>
    refine ⟨fun _ _ c hc => ?_, fun e r he _ => (by cases he)⟩
    obtain rfl := List.mem_singleton.mp hc
    exact hcheck.mpr h

/-- A call the parser does not guard makes no check. -/
theorem uncaught_makes {α : Type} (result : PyResult α) :
    Makes RowFault.reason? (uncaught result) [] := by
  refine ⟨fun _ _ c hc => absurd hc List.not_mem_nil, fun e r he hr => ?_⟩
  cases result with
  | ok _ => cases he
  | error _ =>
    obtain rfl := Except.error.inj he
    cases hr

/-- A field whose one rejection is under `reason` checks that its text is in its grammar. -/
theorem makes_of_reads {α : Type} {result : RowResult α} {reads : α → Prop} {stops : Prop}
    {reason : RejectionReason} (h : Reads RowFault.leaves result reads stops)
    (hreason : ∀ r, result = .error (.rejected r) → r = reason) :
    Makes RowFault.reason? result [(reason, ∃ a, reads a)] := by
  refine ⟨fun a ha c hc => ?_, fun e r he hr => ?_⟩
  · obtain rfl := List.mem_singleton.mp hc
    exact ⟨a, ((h.ok_iff a).mp ha).1⟩
  · cases e with
    | raised _ => cases hr
    | rejected r' =>
      obtain rfl := Option.some.inj hr
      rw [hreason _ he]
      refine .here ?_
      rintro ⟨a, ha⟩
      exact h.not_reads he id a ha

def decimalChecks (raw : String) : List RowCheck := [(.decimalUnparseable, ∃ x, DecimalText raw x)]

def priceChecks (raw : String) : List RowCheck :=
  decimalChecks raw ++ [(.priceNotPositive, ∃ x, PriceText raw x)]

def volumeChecks (raw : String) : List RowCheck :=
  decimalChecks raw ++ [(.volumeNegative, ∃ x, VolumeText raw x)]

def epochChecks (unit : EpochUnit) (nowUtc : DateTime) (raw : String) : List RowCheck :=
  [(.epochNotInteger, ∃ ticks, SpellsInteger raw.toList ticks),
    (.epochOutOfRange, ∃ moment, EpochText unit nowUtc raw moment)]

theorem parseDecimal_makes (raw : String) :
    Makes RowFault.reason? (parseDecimal raw) (decimalChecks raw) := by
  refine makes_of_reads (parseDecimal_reads escaping_leaves raw) fun r hr => ?_
  simp only [parseDecimal, rejectIf] at hr
  split at hr
  · split at hr
    · injection hr with hr
      injection hr with hr
      exact hr.symm
    · cases hr
  · injection hr with hr
    injection hr with hr
    exact hr.symm

theorem parsePositiveDecimal_makes (raw : String) :
    Makes RowFault.reason? (parsePositiveDecimal raw) (priceChecks raw) := by
  have hdecimal := parseDecimal_reads escaping_leaves raw
  refine (parseDecimal_makes raw).bind fun x hx => ?_
  refine Makes.bind (rejectIf_makes ?_) fun _ _ => Makes.pure x
  constructor
  · rintro ⟨y, hy, hpos⟩
    rw [hdecimal.eq_of_ok hx hy]
    exact not_le.mpr hpos
  · exact fun hpos => ⟨x, ((hdecimal.ok_iff x).mp hx).1, not_le.mp hpos⟩

theorem parseNonNegativeDecimal_makes (raw : String) :
    Makes RowFault.reason? (parseNonNegativeDecimal raw) (volumeChecks raw) := by
  have hdecimal := parseDecimal_reads escaping_leaves raw
  refine (parseDecimal_makes raw).bind fun x hx => ?_
  refine Makes.bind (rejectIf_makes ?_) fun _ _ => Makes.pure x
  constructor
  · rintro ⟨y, hy, hnonneg⟩
    rw [hdecimal.eq_of_ok hx hy]
    exact not_lt.mpr hnonneg
  · exact fun hnonneg => ⟨x, ((hdecimal.ok_iff x).mp hx).1, not_lt.mp hnonneg⟩

theorem parseEpoch_makes (raw : String) (unit : EpochUnit) (nowUtc : DateTime) :
    Makes RowFault.reason? (parseEpoch raw unit nowUtc) (epochChecks unit nowUtc raw) := by
  have hreads := parseEpoch_reads escaping_leaves raw unit nowUtc
  refine ⟨fun moment hmoment c hc => ?_, fun e r he hr => ?_⟩
  · have hread := ((hreads.ok_iff moment).mp hmoment).1
    rcases List.mem_pair.mp hc with rfl | rfl
    · obtain ⟨⟨ticks, hticks, _⟩, _⟩ := hread
      exact ⟨ticks, hticks⟩
    · exact ⟨moment, hread⟩
  · cases e with
    | raised _ => cases hr
    | rejected r' =>
      obtain rfl := Option.some.inj hr
      have hnone : ¬ ∃ moment, EpochText unit nowUtc raw moment := by
        rintro ⟨moment, hmoment⟩
        exact hreads.not_reads he id moment hmoment
      rw [parseEpoch] at he
      cases hspells : signedInteger raw.toList with
      | none =>
        rw [hspells] at he
        injection he with he
        injection he with he
        rw [← he]
        refine .here ?_
        rintro ⟨ticks, hticks⟩
        rw [← signedInteger_eq_some, hspells] at hticks
        cases hticks
      | some ticks =>
        simp only [hspells] at he
        have hrange : r' = .epochOutOfRange := by
          cases hint : intOf raw ticks with
          | error e =>
            simp only [hint, uncaught, bind, Except.bind] at he
            cases he
          | ok n =>
            simp only [hint, uncaught, bind, Except.bind] at he
            split at he
            · cases he
            · split at he
              · injection he with he
                injection he with he
                exact he.symm
              · cases he
        rw [hrange]
        exact .later ⟨ticks, signedInteger_eq_some.mp hspells⟩ (.here hnone)

theorem parseNonNegativeInt_makes (raw : String) : Makes RowFault.reason? (parseNonNegativeInt raw)
    [(.tradeCountNotInteger, ∃ n, CountText raw n)] := by
  refine makes_of_reads (parseNonNegativeInt_reads escaping_leaves raw) fun r hr => ?_
  rw [parseNonNegativeInt] at hr
  split at hr
  · injection hr with hr
    injection hr with hr
    exact hr.symm
  · next spelled _ =>
    cases hint : intOf raw spelled with
    | ok n =>
      rw [hint] at hr
      cases hr
    | error e =>
      rw [hint] at hr
      cases hr

theorem parseBoolean_makes (raw : String) (encoding : BooleanEncoding) :
    Makes RowFault.reason? (parseBoolean raw encoding)
      [(.booleanUnrecognised, ∃ token, BooleanText encoding raw token)] := by
  refine makes_of_reads (parseBoolean_reads escaping_leaves raw encoding) fun r hr => ?_
  rw [parseBoolean] at hr
  split at hr
  · cases hr
  · injection hr with hr
    injection hr with hr
    exact hr.symm

/-! ### Rows -/

/-- The texts of a row by position; a column the row lacks reads as an empty text. -/
def KlineTexts.ofRow (row : List String) : KlineTexts where
  openTime := row.getD 0 ""
  openPrice := row.getD 1 ""
  high := row.getD 2 ""
  low := row.getD 3 ""
  close := row.getD 4 ""
  volume := row.getD 5 ""
  closeTime := row.getD 6 ""
  quoteVolume := row.getD 7 ""
  count := row.getD 8 ""
  takerBuyBase := row.getD 9 ""
  takerBuyQuote := row.getD 10 ""
  ignored := row.getD 11 ""

/-- The checks of a kline row, in the parser's order. -/
def klineChecks (unit : EpochUnit) (nowUtc : DateTime) (row : List String) : List RowCheck :=
  let texts := KlineTexts.ofRow row
  [[(.fieldCount, row.length = klineColumns.length)],
    epochChecks unit nowUtc texts.openTime,
    epochChecks unit nowUtc texts.closeTime,
    [(.intervalNotForward, ∃ openTime closeTime, EpochText unit nowUtc texts.openTime openTime ∧
      EpochText unit nowUtc texts.closeTime closeTime ∧ openTime < closeTime)],
    priceChecks texts.openPrice, priceChecks texts.high, priceChecks texts.low, priceChecks texts.close,
    [(.ohlcNotBracketing, ∃ openPrice high low close, PriceText texts.openPrice openPrice ∧
      PriceText texts.high high ∧ PriceText texts.low low ∧ PriceText texts.close close ∧
      max openPrice close ≤ high ∧ low ≤ min openPrice close)],
    volumeChecks texts.volume, volumeChecks texts.quoteVolume,
    [(.tradeCountNotInteger, ∃ n, CountText texts.count n)],
    volumeChecks texts.takerBuyBase, volumeChecks texts.takerBuyQuote].flatten

def TradeTexts.ofRow (row : List String) : TradeTexts where
  tradeId := row.getD 0 ""
  price := row.getD 1 ""
  quantity := row.getD 2 ""
  quoteQuantity := row.getD 3 ""
  time := row.getD 4 ""
  isBuyerMaker := row.getD 5 ""
  isBestMatch := row.getD 6 ""

/-- The checks of a trade row, in the parser's order. -/
def tradeChecks (unit : EpochUnit) (encoding : BooleanEncoding) (nowUtc : DateTime) (row : List String) :
    List RowCheck :=
  let texts := TradeTexts.ofRow row
  [[(.fieldCount, row.length = tradeColumns.length)],
    [(.identifierBlank, strip texts.tradeId ≠ [])],
    epochChecks unit nowUtc texts.time,
    priceChecks texts.price, priceChecks texts.quantity, priceChecks texts.quoteQuantity,
    [(.booleanUnrecognised, ∃ token, BooleanText encoding texts.isBuyerMaker token)],
    [(.booleanUnrecognised, ∃ token, BooleanText encoding texts.isBestMatch token)]].flatten

theorem parseKlineTexts_makes (texts : KlineTexts) {spec : IngestionSpec} {unit : EpochUnit}
    (hunit : spec.archiveFormat.requireEpochUnit = .ok unit) :
    Makes RowFault.reason? (parseKlineRow texts.row spec) (klineChecks unit spec.nowUtc texts.row) := by
  have hepoch := fun raw => parseEpoch_reads escaping_leaves raw unit spec.nowUtc
  have hprice := fun raw => parsePositiveDecimal_reads escaping_leaves raw
  rw [KlineTexts.row, parseKlineRow, hunit]
  refine (rejectIf_makes (by simp [klineColumns])).bind fun _ _ =>
    (uncaught_makes _).bind fun unit' hunit' => ?_
  obtain rfl : unit = unit' := by
    injection hunit'
  refine (parseEpoch_makes _ _ _).bind fun openTime hopenTime =>
    (parseEpoch_makes _ _ _).bind fun closeTime hcloseTime =>
    (rejectIf_makes ?_).bind fun _ _ =>
    (parsePositiveDecimal_makes _).bind fun openPrice hopenPrice =>
    (parsePositiveDecimal_makes _).bind fun high hhigh =>
    (parsePositiveDecimal_makes _).bind fun low hlow =>
    (parsePositiveDecimal_makes _).bind fun close hclose =>
    (rejectIf_makes ?_).bind fun _ _ =>
    (parseNonNegativeDecimal_makes _).bind fun _ _ =>
    (parseNonNegativeDecimal_makes _).bind fun _ _ =>
    (parseNonNegativeInt_makes _).bind fun _ _ =>
    (parseNonNegativeDecimal_makes _).bind fun _ _ =>
    (parseNonNegativeDecimal_makes _).bind fun _ _ => Makes.pure _
  · rw [not_le]
    constructor
    · rintro ⟨t, t', ht, ht', hforward⟩
      rwa [(hepoch _).eq_of_ok hopenTime ht, (hepoch _).eq_of_ok hcloseTime ht']
    · exact fun hforward => ⟨openTime, closeTime, (((hepoch _).ok_iff _).mp hopenTime).1,
        (((hepoch _).ok_iff _).mp hcloseTime).1, hforward⟩
  · rw [not_or, not_lt, not_lt]
    constructor
    · rintro ⟨o, h, l, c, ho, hh, hl, hc, hbracket⟩
      rwa [(hprice _).eq_of_ok hopenPrice ho, (hprice _).eq_of_ok hhigh hh, (hprice _).eq_of_ok hlow hl,
        (hprice _).eq_of_ok hclose hc]
    · exact fun hbracket => ⟨openPrice, high, low, close, (((hprice _).ok_iff _).mp hopenPrice).1,
        (((hprice _).ok_iff _).mp hhigh).1, (((hprice _).ok_iff _).mp hlow).1,
        (((hprice _).ok_iff _).mp hclose).1, hbracket⟩

theorem parseTradeTexts_makes (texts : TradeTexts) {spec : IngestionSpec} {unit : EpochUnit}
    {encoding : BooleanEncoding} (hunit : spec.archiveFormat.requireEpochUnit = .ok unit)
    (hencoding : spec.archiveFormat.booleanEncoding = some encoding) :
    Makes RowFault.reason? (parseTradeRow texts.row spec)
      (tradeChecks unit encoding spec.nowUtc texts.row) := by
  have hrequired : requireBooleanEncoding spec.archiveFormat = .ok encoding := by
    rw [requireBooleanEncoding, hencoding]
  rw [TradeTexts.row, parseTradeRow, hunit, hrequired]
  refine (rejectIf_makes (by simp [tradeColumns])).bind fun _ _ =>
    (uncaught_makes _).bind fun encoding' hencoding' => ?_
  obtain rfl : encoding = encoding' := by
    injection hencoding'
  refine (rejectIf_makes Iff.rfl).bind fun _ _ => (uncaught_makes _).bind fun unit' hunit' => ?_
  obtain rfl : unit = unit' := by
    injection hunit'
  exact (parseEpoch_makes _ _ _).bind fun _ _ =>
    (parsePositiveDecimal_makes _).bind fun _ _ =>
    (parsePositiveDecimal_makes _).bind fun _ _ =>
    (parsePositiveDecimal_makes _).bind fun _ _ =>
    (parseBoolean_makes _ _).bind fun _ _ =>
    (parseBoolean_makes _ _).bind fun _ _ => Makes.pure _

/-- A row that has not its columns is charged with that, whatever the later checks. -/
theorem makes_fieldCount {α : Type} {row : List String} {columns : List String} {checks : List RowCheck}
    (hlength : row.length ≠ columns.length) : Makes RowFault.reason? (reject .fieldCount : RowResult α)
      ((.fieldCount, row.length = columns.length) :: checks) := by
  refine ⟨fun _ hok => (by cases hok), fun e r he hr => ?_⟩
  obtain rfl := Except.error.inj he
  obtain rfl := Option.some.inj hr
  exact .here hlength

/-- What a parser makes of a row that stops nothing: the record read of it, or the first check it fails. -/
structure Charged {Record : Type} (parser : DatasetParser Record) (spec : IngestionSpec)
    (reads : List String → Record → Prop) (checks : List String → List RowCheck) (row : List String) :
    Prop where
  goes : ¬ parser.Raises spec row
  reads_iff : ∀ record, parser.parseRow row spec = .ok record ↔ reads row record
  charged_iff : ∀ reason, parser.parseRow row spec = .error (.rejected reason) ↔
    FirstFailing (checks row) reason

theorem charged_of {Record : Type} {parser : DatasetParser Record} {spec : IngestionSpec}
    {reads : List String → Record → Prop} {checks : List String → List RowCheck} {row : List String}
    {stops : Prop} (hreads : Reads RowFault.leaves (parser.parseRow row spec) (reads row) stops)
    (hmakes : Makes RowFault.reason? (parser.parseRow row spec) (checks row)) (hgoes : ¬ stops) :
    Charged parser spec reads checks row where
  goes := by
    rintro ⟨e, he⟩
    exact hgoes (hreads.escapes_iff.mp ⟨_, he, trivial⟩)
  reads_iff record := by rw [hreads.ok_iff, and_iff_left hgoes]
  charged_iff reason := by
    constructor
    · exact fun h => hmakes.fails _ _ h rfl
    · intro h
      cases hrow : parser.parseRow row spec with
      | ok record => exact absurd (hmakes.passes record hrow) h.not_allPass
      | error fault =>
        cases fault with
        | rejected r => rw [(hmakes.fails _ r hrow rfl).unique h]
        | raised e => exact absurd (hreads.escapes_iff.mp ⟨_, hrow, trivial⟩) hgoes

theorem charged_kline {spec : IngestionSpec} {unit : EpochUnit}
    (hunit : spec.archiveFormat.requireEpochUnit = .ok unit) {row : List String}
    (hgoes : ¬ KlineRowStops spec row) :
    Charged klineParser spec (KlineRow spec) (klineChecks unit spec.nowUtc) row := by
  refine charged_of (parseKlineRow_reads escaping_leaves row hunit) ?_ hgoes
  by_cases hlength : row.length = klineColumns.length
  · obtain ⟨texts, rfl⟩ := exists_klineTexts hlength
    exact parseKlineTexts_makes texts hunit
  · have hrejected : klineParser.parseRow row spec = reject .fieldCount := by
      change parseKlineRow row spec = _
      rw [parseKlineRow.eq_def, requireFieldCount, rejectIf, if_pos hlength]
      rfl
    rw [hrejected]
    exact makes_fieldCount hlength

theorem charged_trade {spec : IngestionSpec} {unit : EpochUnit} {encoding : BooleanEncoding}
    (hunit : spec.archiveFormat.requireEpochUnit = .ok unit)
    (hencoding : spec.archiveFormat.booleanEncoding = some encoding) {row : List String}
    (hgoes : ¬ TradeRowStops spec row) :
    Charged tradeParser spec (TradeRow spec) (tradeChecks unit encoding spec.nowUtc) row := by
  refine charged_of (parseTradeRow_reads escaping_leaves row hunit hencoding) ?_ hgoes
  by_cases hlength : row.length = tradeColumns.length
  · obtain ⟨texts, rfl⟩ := exists_tradeTexts hlength
    exact parseTradeTexts_makes texts hunit hencoding
  · have hrejected : tradeParser.parseRow row spec = reject .fieldCount := by
      change parseTradeRow row spec = _
      rw [parseTradeRow.eq_def, requireFieldCount, rejectIf, if_pos hlength]
      rfl
    rw [hrejected]
    exact makes_fieldCount hlength

/-- Under a format that names no boolean encoding, a trade row is only ever charged with its columns. -/
theorem charged_trade_undeclared {spec : IngestionSpec} {unit : EpochUnit} {encoding : BooleanEncoding}
    (hencoding : spec.archiveFormat.booleanEncoding = none) {row : List String}
    (hlength : row.length ≠ tradeColumns.length) :
    Charged tradeParser spec (TradeRow spec) (tradeChecks unit encoding spec.nowUtc) row := by
  have hrejected : tradeParser.parseRow row spec = reject .fieldCount := by
    change parseTradeRow row spec = _
    rw [parseTradeRow.eq_def, requireFieldCount, rejectIf, if_pos hlength]
    rfl
  have hreads : Reads RowFault.leaves (tradeParser.parseRow row spec) (TradeRow spec row) False := by
    rw [hrejected]
    refine (reject_reads escaping_leaves).congr (fun record => iff_of_false id ?_) Iff.rfl
    rintro ⟨_, _, _, _, _, hsome, _⟩
    rw [hencoding] at hsome
    cases hsome
  refine charged_of hreads ?_ id
  rw [hrejected]
  exact makes_fieldCount hlength

end FinanceKing.Data
