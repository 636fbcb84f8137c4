import FinanceKing.Data.Ingest
import FinanceKing.Data.RowCharges

/-! What the gates make of an archive. Each row is charged with the first check it fails, the blocking gates
    hold the charges against their own thresholds, and the archive passes exactly where all of them do and
    its first row opens at a plausible instant. -/

namespace FinanceKing.Data

open Lib

variable {Bytes : Type}

/-! ### Charges -/

open Classical in
/-- How many rows are charged with a reason. -/
noncomputable def chargedRows (checks : List String → List RowCheck) (rows : List (List String))
    (reason : RejectionReason) : ℕ :=
  rows.countP fun row => FirstFailing (checks row) reason

/-- A threshold on the share of rows charged with one of the reasons. -/
def WithinCeiling (checks : List String → List RowCheck) (rows : List (List String))
    (reasons : List RejectionReason) (ceiling : Decimal) : Prop :=
  ((reasons.map (chargedRows checks rows)).sum : Decimal) ≤ ceiling * rows.length

/-- The reasons no numbered gate owns. -/
def remainingReasons : List RejectionReason :=
  [.fieldCount, .epochNotInteger, .epochOutOfRange, .decimalUnparseable, .priceNotPositive,
    .intervalNotForward, .tradeCountNotInteger, .identifierBlank]

section Parse

variable {Record : Type} {parser : DatasetParser Record} {spec : IngestionSpec}
  {reads : List String → Record → Prop} {checks : List String → List RowCheck}

/-- The tally of a loop that no row stops holds each reason as often as a row is charged with it. -/
theorem tally_charged {rows : List (List String)}
    (h : ∀ row ∈ rows, Charged parser spec reads checks row) (reason : RejectionReason)
    (tally : List (String × ℤ)) :
    ((rows.foldl (parser.tallyRow spec) tally).lookup reason.value).getD 0 =
      (tally.lookup reason.value).getD 0 + chargedRows checks rows reason := by
  classical
  induction rows generalizing tally with
  | nil => simp [chargedRows]
  | cons row rows ih =>
    obtain ⟨hrow, hrows⟩ := List.forall_mem_cons.mp h
    have hstep : ((parser.tallyRow spec tally row).lookup reason.value).getD 0 =
        (tally.lookup reason.value).getD 0 + if FirstFailing (checks row) reason then 1 else 0 := by
      rw [DatasetParser.tallyRow]
      cases hresult : parser.parseRow row spec with
      | ok record =>
        have hnone : ¬ FirstFailing (checks row) reason := by
          rw [← hrow.charged_iff, hresult]
          exact fun h => by cases h
        simp [hnone]
      | error fault =>
        cases fault with
        | raised e => exact absurd ⟨e, hresult⟩ hrow.goes
        | rejected other =>
          have hother := (hrow.charged_iff other).mp hresult
          rw [countRejection_lookup]
          by_cases hsame : reason = other
          · subst hsame
            simp [hother]
          · have hnone : ¬ FirstFailing (checks row) reason := fun h => hsame (h.unique hother)
            simp [hsame, hnone]
    rw [List.foldl_cons, ih hrows, hstep, chargedRows, chargedRows, List.countP_cons]
    by_cases hfails : FirstFailing (checks row) reason
    · simp only [hfails, if_true, decide_true]
      push_cast
      ring
    · simp [hfails]

/-- Under a ceiling of one the parse refuses nothing: it returns the accepted rows and reports the charges. -/
theorem parseText_reports {text : String} (source : String) {unit : EpochUnit}
    (hheader : HeaderAgrees text spec.archiveFormat.hasHeaderRow parser.columns)
    (hunit : spec.archiveFormat.requireEpochUnit = .ok unit)
    (h : ∀ row ∈ (dataLines text spec.archiveFormat.hasHeaderRow).map splitFields,
      Charged parser spec reads checks row) :
    ∃ outcome : NormalizationResult, parser.parseText text spec 1 source = .ok (parser.acceptedRows
        ((dataLines text spec.archiveFormat.hasHeaderRow).map splitFields) spec, outcome) ∧
      outcome.rowsIn = (dataLines text spec.archiveFormat.hasHeaderRow).length ∧
      ∀ reason, outcome.rejectedFor reason =
        chargedRows checks ((dataLines text spec.archiveFormat.hasHeaderRow).map splitFields) reason := by
  set rows := (dataLines text spec.archiveFormat.hasHeaderRow).map splitFields with hrows
  have hloop : rows.foldlM (parser.takeRow spec) ([], []) =
      .ok (parser.acceptedRows rows spec, rows.foldl (parser.tallyRow spec) []) :=
    DatasetParser.foldlM_takeRow.mpr ⟨fun row hrow => (h row hrow).goes, rfl⟩
  let outcome : NormalizationResult :=
    { rowsIn := rows.length
      rowsOut := (parser.acceptedRows rows spec).length
      rowsRejected := rows.length - (parser.acceptedRows rows spec).length
      rejectionReasons := rows.foldl (parser.tallyRow spec) []
      epochUnitApplied := unit.value
      firstEventTimeUtc := (parser.acceptedRows rows spec).head?.map parser.eventTimeUtc
      lastEventTimeUtc := (parser.acceptedRows rows spec).getLast?.map parser.eventTimeUtc }
  have hceiling : refuseAboveCeiling outcome 1 source none = .ok () := by
    rw [refuseAboveCeiling, raiseIf_eq_ok, Option.elim_none]
    rintro ⟨_, habove⟩
    have haccepted : (0 : ℤ) ≤ (parser.acceptedRows rows spec).length := Int.natCast_nonneg _
    rw [one_mul, Int.cast_lt] at habove
    simp only [outcome] at habove
    omega
  refine ⟨outcome, ?_, ?_, fun reason => ?_⟩
  · rw [DatasetParser.parseText, splitRows_eq_ok.mpr ⟨hheader, hrows⟩, hunit]
    simp only [bind, Except.bind, hloop]
    rw [hceiling]
    rfl
  · simp only [outcome, hrows, List.length_map]
  · have htally := tally_charged h reason []
    rw [List.lookup_nil, Option.getD_none, zero_add] at htally
    exact htally

/-- The accepted rows are in time order exactly where no row is read earlier than one above it. -/
theorem ordered_iff {rows : List (List String)} (h : ∀ row ∈ rows, Charged parser spec reads checks row) :
    ((parser.acceptedRows rows spec).map parser.eventTimeUtc).Pairwise (· ≤ ·) ↔
      rows.Pairwise fun row later => ∀ record, reads row record → ∀ next, reads later next →
        parser.eventTimeUtc record ≤ parser.eventTimeUtc next := by
  rw [List.pairwise_map, DatasetParser.acceptedRows, List.pairwise_filterMap]
  have hread : ∀ row ∈ rows, ∀ record, (parser.parseRow row spec).toOption = some record ↔
      reads row record := by
    intro row hrow record
    rw [← (h row hrow).reads_iff]
    cases parser.parseRow row spec with
    | ok other => simp [Except.toOption]
    | error e => simp [Except.toOption]
  constructor
  · intro hpairs
    refine hpairs.imp_of_mem fun hrow hlater hpair record hrecord next hnext => ?_
    exact hpair record ((hread _ hrow record).mpr hrecord) next ((hread _ hlater next).mpr hnext)
  · intro hpairs
    refine hpairs.imp_of_mem fun hrow hlater hpair record hrecord next hnext => ?_
    exact hpair record ((hread _ hrow record).mp hrecord) next ((hread _ hlater next).mp hnext)

end Parse

/-! ### Gates -/

/-- Gate 3 on the first row: the text is an integer as `int` reads one, and names a plausible instant. -/
def OpensPlausibly (unit : EpochUnit) (nowUtc : DateTime) (raw : String) : Prop :=
  ¬ latestUtc < nowUtc + oneDay ∧ ∃ ticks, builtinInt raw = some ticks ∧
    earliestPlausibleUtc ≤ ticks * (1000000 / unit.divisor) ∧
    ticks * (1000000 / unit.divisor) < plausibleUntil nowUtc

theorem assertFirstTimestampIsPlausible_eq_ok {raw source : String} {unit : EpochUnit} {nowUtc : DateTime} :
    assertFirstTimestampIsPlausible raw unit nowUtc source = .ok () ↔ OpensPlausibly unit nowUtc raw := by
  rw [assertFirstTimestampIsPlausible, OpensPlausibly]
  cases hint : builtinInt raw with
  | none => simp
  | some ticks =>
    have hwindow : (∃ moment, epochToUtc ticks unit nowUtc = .ok moment) ↔
        ¬ latestUtc < nowUtc + oneDay ∧ earliestPlausibleUtc ≤ ticks * (1000000 / unit.divisor) ∧
          ticks * (1000000 / unit.divisor) < plausibleUntil nowUtc := by
      simp only [epochToUtc, bind_eq_ok, raiseIf_eq_ok, pure_eq_ok, Unique.exists_iff, not_not, inWindow_iff]
      constructor
      · rintro ⟨_, hnow, hinside, _⟩
        exact ⟨hnow, hinside⟩
      · rintro ⟨hnow, hinside⟩
        exact ⟨_, hnow, hinside, rfl⟩
    have hread : (∃ ticks', some ticks = some ticks' ∧
        earliestPlausibleUtc ≤ ticks' * (1000000 / unit.divisor) ∧
          ticks' * (1000000 / unit.divisor) < plausibleUntil nowUtc) ↔
        earliestPlausibleUtc ≤ ticks * (1000000 / unit.divisor) ∧
          ticks * (1000000 / unit.divisor) < plausibleUntil nowUtc := by simp
    rw [hread, ← hwindow]
    cases hepoch : epochToUtc ticks unit nowUtc with
    | ok moment => simp [hepoch]
    | error e =>
      simp only [hepoch]
      split <;> simp

theorem assertOpensPlausibly_eq_ok {column : ℕ} {spec : IngestionSpec} {source : String}
    {rows : List (List String)} {unit : EpochUnit}
    (hunit : spec.archiveFormat.requireEpochUnit = .ok unit) :
    assertOpensPlausibly column spec source rows = .ok () ↔
      ∀ raw ∈ rows.head?.bind (·[column]?), OpensPlausibly unit spec.nowUtc raw := by
  rw [assertOpensPlausibly]
  cases rows.head?.bind (·[column]?) with
  | none => simp
  | some raw =>
    rw [hunit]
    change assertFirstTimestampIsPlausible raw unit spec.nowUtc source = .ok () ↔ _
    rw [assertFirstTimestampIsPlausible_eq_ok]
    simp

/-- A ceiling holds exactly where the counted rejections are within it. -/
theorem refuseAboveCeiling_eq_ok {outcome : NormalizationResult} {ceiling : Decimal} {source : String}
    {reasons : List RejectionReason} (hceiling : 0 ≤ ceiling) (hrows : 0 ≤ outcome.rowsIn) :
    refuseAboveCeiling outcome ceiling source (some reasons) = .ok () ↔
      (((reasons.map outcome.rejectedFor).sum : ℤ) : Decimal) ≤ ceiling * outcome.rowsIn := by
  rw [refuseAboveCeiling, raiseIf_eq_ok, Option.elim_some, not_and_or, not_not, not_lt]
  constructor
  · rintro (hnone | hwithin)
    · rw [hnone, Int.cast_zero]
      exact mul_nonneg hceiling (Int.cast_nonneg hrows)
    · exact hwithin
  · exact .inr

theorem refuseNamed_eq_ok {outcome : NormalizationResult} {gate : Gate} {reason : RejectionReason}
    {consequence source : String} {ceiling : Decimal} :
    refuseNamed outcome gate reason consequence ceiling source = .ok () ↔
      refuseAboveCeiling outcome ceiling source (some [reason]) = .ok () := by
  rw [refuseNamed]
  cases refuseAboveCeiling outcome ceiling source (some [reason]) with
  | ok u => simp
  | error e => simp

/-! ### The verdict on the rows -/

/-- What the blocking gates ask of the rows of an archive: a plausible opening, rows in time order, and each
    reason's charges under its own threshold. -/
structure Adjudicated {Record : Type} (layout : DatasetLayout Record) (spec : IngestionSpec)
    (unit : EpochUnit) (reads : List String → Record → Prop) (checks : List String → List RowCheck)
    (rows : List (List String)) : Prop where
  opens : ∀ raw ∈ rows.head?.bind (·[layout.epochColumnIndex]?), OpensPlausibly unit spec.nowUtc raw
  ordered : rows.Pairwise fun row later => ∀ record, reads row record → ∀ next, reads later next →
    layout.parser.eventTimeUtc record ≤ layout.parser.eventTimeUtc next
  booleans : WithinCeiling checks rows [.booleanUnrecognised] spec.maxRejectionFraction
  ohlc : WithinCeiling checks rows [.ohlcNotBracketing] ohlcRejectionCeiling
  volumes : chargedRows checks rows .volumeNegative = 0
  rest : WithinCeiling checks rows remainingReasons spec.maxRejectionFraction

theorem withinCeiling_iff {checks : List String → List RowCheck} {rows : List (List String)}
    {outcome : NormalizationResult} {reasons : List RejectionReason} {ceiling : Decimal} {source : String}
    (hceiling : 0 ≤ ceiling) (hrows : outcome.rowsIn = rows.length)
    (hcharged : ∀ reason, outcome.rejectedFor reason = chargedRows checks rows reason) :
    refuseAboveCeiling outcome ceiling source (some reasons) = .ok () ↔
      WithinCeiling checks rows reasons ceiling := by
  have hsum : (reasons.map outcome.rejectedFor).sum = ((reasons.map (chargedRows checks rows)).sum : ℕ) := by
    rw [List.map_congr_left fun reason _ => hcharged reason, Nat.cast_list_sum, List.map_map]
    rfl
  rw [refuseAboveCeiling_eq_ok hceiling (by rw [hrows]; exact Int.natCast_nonneg _), hsum, hrows,
    WithinCeiling, Int.cast_natCast, Int.cast_natCast]

/-- The gates let an archive through exactly where its rows are adjudicated so. -/
theorem gateRows_passes_iff {Record : Type} {layout : DatasetLayout Record} {tools : ArchiveTools Bytes}
    {member : ArchiveMember Bytes} {text : String} {unit : EpochUnit}
    {reads : List String → Record → Prop} {checks : List String → List RowCheck}
    (hsum : tools.sha256Hex member.archiveBytes = member.spec.sourceChecksumHex)
    (htext : tools.extractSingleMember member.archiveBytes member.source = .ok text)
    (hheader : HeaderAgrees text member.spec.archiveFormat.hasHeaderRow layout.parser.columns)
    (hunit : member.spec.archiveFormat.requireEpochUnit = .ok unit)
    (hcharged : ∀ row ∈ (dataLines text member.spec.archiveFormat.hasHeaderRow).map splitFields,
      Charged layout.parser member.spec reads checks row) :
    (∃ gated, gateRows layout tools member = .ok gated) ↔
      Adjudicated layout member.spec unit reads checks
        ((dataLines text member.spec.archiveFormat.hasHeaderRow).map splitFields) := by
  obtain ⟨outcome, hparse, hrowsIn, hreported⟩ := parseText_reports member.source hheader hunit hcharged
  have hordered := ordered_iff hcharged
  set rows := (dataLines text member.spec.archiveFormat.hasHeaderRow).map splitFields with hrows
  have hlength : outcome.rowsIn = rows.length := by rw [hrowsIn, hrows, List.length_map]
  have hfraction := member.spec.fraction_nonneg
  have hohlc : (0 : Decimal) ≤ ohlcRejectionCeiling := by
    rw [ohlcRejectionCeiling]
    norm_num
  have hvolumes : outcome.rejectedFor .volumeNegative = 0 ↔ chargedRows checks rows .volumeNegative = 0 := by
    rw [hreported, Nat.cast_eq_zero]
  have hresidual : (RejectionReason.all.filter fun reason => ¬ reason ∈ ownedReasons) = remainingReasons := by
    decide
  have hchecksum : assertChecksumMatches (tools.sha256Hex member.archiveBytes) member.spec.sourceChecksumHex
      member.source = .ok () := by
    rw [assertChecksumMatches, raiseIf_eq_ok, not_not]
    exact hsum
  have hsplit : relabelHeader (splitRows text member.source member.spec.archiveFormat.hasHeaderRow
      layout.parser.columns) = .ok rows := by
    rw [splitRows_eq_ok.mpr ⟨hheader, hrows⟩]
    rfl
  simp only [gateRows, hchecksum, htext, hsplit, hparse, bind_eq_ok, pure_eq_ok, Except.ok.injEq,
    exists_eq_left', exists_and_left, exists_and_right]
  simp only [Unique.exists_iff, PUnit.default_eq_unit, assertOpensPlausibly_eq_ok hunit,
    assertBarTimestampsAreMonotone_eq_ok, hordered, assertBooleanRejectionsWithinCeiling,
    assertOhlcRejectionsWithinCeiling, refuseNamed_eq_ok, assertNoNegativeVolume, raiseIf_eq_ok, not_not,
    hvolumes, assertResidualRejectionsWithinCeiling, hresidual, withinCeiling_iff hfraction hlength hreported,
    withinCeiling_iff hohlc hlength hreported, true_and]
  constructor
  · rintro ⟨hopens, hpairs, hbooleans, hcoherent, hnegative, hrest, _⟩
    exact ⟨hopens, hpairs, hbooleans, hcoherent, hnegative, hrest⟩
  · intro h
    exact ⟨h.opens, h.ordered, h.booleans, h.ohlc, h.volumes, h.rest, ⟨_, rfl⟩⟩

/-- An archive the gates let through was read under its declaration, and no row of it stopped the parse. -/
theorem gateRows_reaches {Record : Type} {layout : DatasetLayout Record} {tools : ArchiveTools Bytes}
    {member : ArchiveMember Bytes} {gated : List Record × NormalizationResult}
    (h : gateRows layout tools member = .ok gated) :
    tools.sha256Hex member.archiveBytes = member.spec.sourceChecksumHex ∧ ∃ text unit,
      tools.extractSingleMember member.archiveBytes member.source = .ok text ∧
      member.spec.archiveFormat.requireEpochUnit = .ok unit ∧
      HeaderAgrees text member.spec.archiveFormat.hasHeaderRow layout.parser.columns ∧
      ∀ row ∈ (dataLines text member.spec.archiveFormat.hasHeaderRow).map splitFields,
        ¬ layout.parser.Raises member.spec row := by
  simp only [gateRows, DatasetParser.parseText, bind_eq_ok, relabelHeader_eq_ok, splitRows_eq_ok,
    DatasetParser.foldlM_takeRow, assertChecksumMatches, raiseIf_eq_ok, not_not] at h
  obtain ⟨_, hsum, text, htext, _, ⟨hheader, _⟩, _, _, _, ⟨_, ⟨_, rfl⟩, _, ⟨hgo, _⟩, unit, hunit, _⟩, _⟩ := h
  exact ⟨hsum, text, unit, htext, hunit, hheader, hgo⟩

/-! ### The verdict on an archive -/

/-- Whether a data line stops the parse of its dataset. -/
def RowStops (spec : IngestionSpec) (row : List String) : Prop :=
  match spec.archiveFormat.dataset with
  | .klines => KlineRowStops spec row
  | .trades => TradeRowStops spec row
  | _ => False

/-- No data line of the archive stops the parse. -/
def Unstopped (tools : ArchiveTools Bytes) (member : ArchiveMember Bytes) : Prop :=
  ∀ text, tools.extractSingleMember member.archiveBytes member.source = .ok text →
    ∀ line ∈ dataLines text member.spec.archiveFormat.hasHeaderRow, ¬ RowStops member.spec (splitFields line)

/-- What the gates of a dataset ask of the text of an archive. -/
def DatasetPasses (spec : IngestionSpec) (unit : EpochUnit) (text : String) : Prop :=
  let rows := (dataLines text spec.archiveFormat.hasHeaderRow).map splitFields
  match spec.archiveFormat.dataset with
  | .klines => HeaderAgrees text spec.archiveFormat.hasHeaderRow klineColumns ∧
      Adjudicated klineLayout spec unit (KlineRow spec) (klineChecks unit spec.nowUtc) rows ∧
      ∀ interval ∈ spec.coordinate.interval, ∃ duration, cadenceIntervals.lookup interval = some duration
  | .trades => HeaderAgrees text spec.archiveFormat.hasHeaderRow tradeColumns ∧
      Adjudicated tradeLayout spec unit (TradeRow spec)
        (tradeChecks unit (spec.archiveFormat.booleanEncoding.getD .python) spec.nowUtc) rows ∧
      ((∃ row ∈ rows, row.length = tradeColumns.length) → spec.archiveFormat.booleanEncoding.isSome)
  | _ => False

/-- What `gate_archive` asks of an archive: the verified digest, one readable member, epochs of a declared
    unit, and what the gates of its dataset ask. -/
def GatesPass (tools : ArchiveTools Bytes) (member : ArchiveMember Bytes) : Prop :=
  tools.sha256Hex member.archiveBytes = member.spec.sourceChecksumHex ∧ ∃ text unit,
    tools.extractSingleMember member.archiveBytes member.source = .ok text ∧
    member.spec.archiveFormat.requireEpochUnit = .ok unit ∧ DatasetPasses member.spec unit text

theorem cadenceReport_eq_ok {interval : Option String} {records : List KlineRecord} {source : String} :
    (∃ gaps, cadenceReport interval records source = .ok gaps) ↔
      ∀ name ∈ interval, ∃ duration, cadenceIntervals.lookup name = some duration := by
  cases interval with
  | none => simp [cadenceReport]
  | some name =>
    rw [cadenceReport, detectCadenceGaps]
    cases hname : cadenceIntervals.lookup name with
    | none => simp [hname]
    | some duration => simp [hname]

theorem gateKlines_passes_iff {tools : ArchiveTools Bytes} {member : ArchiveMember Bytes} :
    (∃ gated, gateKlines tools member = .ok gated) ↔
      (∃ gated, gateRows klineLayout tools member = .ok gated) ∧
      ∀ name ∈ member.spec.coordinate.interval, ∃ duration, cadenceIntervals.lookup name = some duration := by
  simp only [gateKlines, bind_eq_ok, pure_eq_ok]
  constructor
  · rintro ⟨_, rows, hrows, gaps, hgaps, _⟩
    exact ⟨⟨rows, hrows⟩, cadenceReport_eq_ok.mp ⟨gaps, hgaps⟩⟩
  · rintro ⟨⟨rows, hrows⟩, hinterval⟩
    obtain ⟨gaps, hgaps⟩ := cadenceReport_eq_ok.mpr hinterval
    exact ⟨_, rows, hrows, gaps, hgaps, rfl⟩

theorem gateTrades_passes_iff {tools : ArchiveTools Bytes} {member : ArchiveMember Bytes} :
    (∃ gated, gateTrades tools member = .ok gated) ↔
      ∃ gated, gateRows tradeLayout tools member = .ok gated := by
  simp only [gateTrades, bind_eq_ok, pure_eq_ok]
  constructor
  · rintro ⟨_, rows, hrows, _⟩
    exact ⟨rows, hrows⟩
  · rintro ⟨rows, hrows⟩
    exact ⟨_, rows, hrows, rfl⟩

/-- A trade row of every column raises under a format that names no boolean encoding. -/
theorem raises_of_undeclared {spec : IngestionSpec} (hencoding : spec.archiveFormat.booleanEncoding = none)
    {row : List String} (hlength : row.length = tradeColumns.length) : tradeParser.Raises spec row := by
  obtain ⟨texts, rfl⟩ := exists_tradeTexts hlength
  obtain ⟨message, hraised⟩ : ∃ message, requireBooleanEncoding spec.archiveFormat =
      raise .dataIntegrity message := ⟨_, by rw [requireBooleanEncoding, hencoding]⟩
  refine ⟨⟨.dataIntegrity, message⟩, ?_⟩
  change parseTradeRow texts.row spec = _
  rw [TradeTexts.row, parseTradeRow, hraised]
  rfl

theorem charged_trades {spec : IngestionSpec} {unit : EpochUnit}
    (hunit : spec.archiveFormat.requireEpochUnit = .ok unit) {row : List String}
    (hgoes : ¬ TradeRowStops spec row)
    (hdeclared : row.length = tradeColumns.length → spec.archiveFormat.booleanEncoding.isSome) :
    Charged tradeParser spec (TradeRow spec)
      (tradeChecks unit (spec.archiveFormat.booleanEncoding.getD .python) spec.nowUtc) row := by
  cases hencoding : spec.archiveFormat.booleanEncoding with
  | some encoding => exact charged_trade hunit hencoding hgoes
  | none =>
    refine charged_trade_undeclared hencoding fun hlength => ?_
    have hsome := hdeclared hlength
    rw [hencoding] at hsome
    cases hsome

/-- A dataset without a declared layout is refused. -/
theorem gateArchive_undeclared {tools : ArchiveTools Bytes} {member : ArchiveMember Bytes}
    (hklines : member.spec.archiveFormat.dataset ≠ .klines)
    (htrades : member.spec.archiveFormat.dataset ≠ .trades) :
    (∃ gated, gateArchive tools member = .ok gated) ↔
      tools.sha256Hex member.archiveBytes = member.spec.sourceChecksumHex ∧ ∃ text unit,
        tools.extractSingleMember member.archiveBytes member.source = .ok text ∧
        member.spec.archiveFormat.requireEpochUnit = .ok unit ∧ DatasetPasses member.spec unit text := by
  refine iff_of_false ?_ ?_
  · rintro ⟨gated, hgated⟩
    rw [gateArchive.eq_def] at hgated
    split at hgated
    · next h => exact hklines h
    · next h => exact htrades h
    · simp only [bind_eq_ok, raise_ne_ok, and_false, exists_false] at hgated
  · rintro ⟨_, text, unit, _, _, hpasses⟩
    rw [DatasetPasses] at hpasses
    cases hdataset : member.spec.archiveFormat.dataset <;> simp only [hdataset] at hpasses
    · exact hklines hdataset
    · exact htrades hdataset

/-- A bar with a negative number in one of its volume columns. -/
def CarriesNegativeVolume (row : List String) : Prop :=
  ∃ raw ∈ [row.getD 5 "", row.getD 7 "", row.getD 9 "", row.getD 10 ""], ∃ x, DecimalText raw x ∧ x < 0

/-- The gates of a kline archive as they are documented: no condition on its first row, and none of its rows
    may carry a negative volume. -/
structure Documented (spec : IngestionSpec) (unit : EpochUnit) (rows : List (List String)) : Prop where
  ordered : rows.Pairwise fun row later => ∀ record, KlineRow spec row record → ∀ next,
    KlineRow spec later next → record.eventTimeUtc ≤ next.eventTimeUtc
  booleans : WithinCeiling (klineChecks unit spec.nowUtc) rows [.booleanUnrecognised] spec.maxRejectionFraction
  ohlc : WithinCeiling (klineChecks unit spec.nowUtc) rows [.ohlcNotBracketing] ohlcRejectionCeiling
  volumes : ∀ row ∈ rows, ¬ CarriesNegativeVolume row
  rest : WithinCeiling (klineChecks unit spec.nowUtc) rows remainingReasons spec.maxRejectionFraction

/-- The documented verdict on a readable archive of the declared digest and header. -/
def VerdictIsDocumented (tools : ArchiveTools Bytes) (member : ArchiveMember Bytes) : Prop :=
  ∀ text unit, tools.sha256Hex member.archiveBytes = member.spec.sourceChecksumHex →
    tools.extractSingleMember member.archiveBytes member.source = .ok text →
    member.spec.archiveFormat.requireEpochUnit = .ok unit →
    HeaderAgrees text member.spec.archiveFormat.hasHeaderRow klineColumns →
    ((∃ gated, gateArchive tools member = .ok gated) ↔
      Documented member.spec unit ((dataLines text member.spec.archiveFormat.hasHeaderRow).map splitFields))

/-- A row that is rejected or read stops nothing. -/
theorem not_klineRowStops {spec : IngestionSpec} {unit : EpochUnit}
    (hunit : spec.archiveFormat.requireEpochUnit = .ok unit) {row : List String}
    (h : ∀ e, parseKlineRow row spec ≠ .error (.raised e)) : ¬ KlineRowStops spec row := by
  intro hstops
  obtain ⟨fault, hfault, hleaves⟩ := (parseKlineRow_reads escaping_leaves row hunit).escapes_iff.mpr hstops
  cases fault with
  | rejected _ => exact hleaves
  | raised e => exact h e hfault

theorem chargedRows_singleton {Record : Type} {parser : DatasetParser Record} {spec : IngestionSpec}
    {reads : List String → Record → Prop} {checks : List String → List RowCheck} {row : List String}
    (h : Charged parser spec reads checks row) {reason : RejectionReason}
    (hrow : parser.parseRow row spec = .error (.rejected reason)) (other : RejectionReason) :
    chargedRows checks [row] other = if other = reason then 1 else 0 := by
  have hreason := (h.charged_iff reason).mp hrow
  rw [chargedRows, List.countP_singleton]
  by_cases hsame : other = reason
  · subst hsame
    simp [hreason]
  · have hnone : ¬ FirstFailing (checks row) other := fun hother => hsame (hother.unique hreason)
    simp [hnone, hsame]

/-- Archives that are their own text, verified by one digest. -/
def verbatimTools : ArchiveTools String where
  contentDigest _ _ := ""
  toTable _ := .ok ()
  sha256Hex _ := String.ofList (List.replicate 64 'a')
  extractSingleMember text _ := .ok text

def tolerantFields : IngestionSpecFields := { minuteFields with maxRejectionFraction := 1 }

/-- An archive of minute bars whose ceiling tolerates every rejection. -/
def tolerantArchive (line : String) : ArchiveMember String :=
  ⟨line, ⟨tolerantFields, by decide +kernel⟩, "BTCUSDT-1m-2024-01-01.zip"⟩

/-- The first row opens at the Unix epoch. -/
def zeroedFirst : ArchiveMember String := tolerantArchive "0,1,1,1,1,0,59999,0,0,0,0,0"

/-- A negative volume behind a price that is no decimal. -/
def hiddenNegative : ArchiveMember String :=
  tolerantArchive "1704067200000,x,1,1,1,-1,1704067259999,0,0,0,0,0"

theorem monthCoordinate_checked :
    ArchiveCoordinateFields.postInit ⟨.spot, .klines, "BTCUSDT", 19723, some "1M"⟩ = .ok () := by
  with_unfolding_all decide

def monthFields : IngestionSpecFields :=
  { minuteFields with coordinate := ⟨⟨.spot, .klines, "BTCUSDT", 19723, some "1M"⟩, monthCoordinate_checked⟩ }

/-- An archive of no rows, of bars a calendar month wide. -/
def monthBars : ArchiveMember String :=
  ⟨"", ⟨monthFields, by decide +kernel⟩, "BTCUSDT-1M-2024-01-01.zip"⟩

theorem isOk_eq_true_iff {ε α : Type} {result : Except ε α} : result.isOk = true ↔ ∃ a, result = .ok a := by
  cases result with
  | ok a => simp [Except.isOk, Except.toBool]
  | error e => simp [Except.isOk, Except.toBool]

/-- The one row of `zeroedFirst`. -/
def zeroedRow : List String := ["0", "1", "1", "1", "1", "0", "59999", "0", "0", "0", "0", "0"]

theorem zeroedRow_rejected : parseKlineRow zeroedRow zeroedFirst.spec = .error (.rejected .epochOutOfRange) := by
  with_unfolding_all decide

/-- Every documented gate tolerates the row that opens at the Unix epoch. -/
theorem zeroedFirst_documented : Documented zeroedFirst.spec .milliseconds [zeroedRow] := by
  have hgoes : ¬ KlineRowStops zeroedFirst.spec zeroedRow := by
    refine not_klineRowStops rfl fun e he => ?_
    rw [zeroedRow_rejected] at he
    cases he
  have hunit : zeroedFirst.spec.archiveFormat.requireEpochUnit = .ok .milliseconds := rfl
  have hcharged := charged_kline hunit hgoes
  have hcount := chargedRows_singleton hcharged zeroedRow_rejected
  have hceiling : zeroedFirst.spec.maxRejectionFraction = 1 := rfl
  refine ⟨List.pairwise_singleton _ _, ?_, ?_, ?_, ?_⟩
  · simp [WithinCeiling, hcount, hceiling]
  · simp [WithinCeiling, hcount, ohlcRejectionCeiling]
  · intro row hrow
    obtain rfl := List.mem_singleton.mp hrow
    rintro ⟨raw, hraw, x, hx, hnegative⟩
    have hzero : raw = "0" := by simpa [zeroedRow] using hraw
    have hparsed : parseDecimal raw = .ok 0 := by
      rw [hzero]
      with_unfolding_all decide
    rw [← (parseDecimal_reads escaping_leaves raw).eq_of_ok hparsed hx] at hnegative
    exact lt_irrefl _ hnegative
  · simp [WithinCeiling, hcount, hceiling, remainingReasons]

end FinanceKing.Data
