import FinanceKing.Data.CrossSource
import FinanceKing.Data.LiveFrames
import FinanceKing.Data.ParseRows

/-! What the cross-source gate makes of one market seen twice: bars and prints filed as archive rows, and the same
    bars and prints streamed as frames. A bar's filler column differs between the two by construction, so bars
    both sources hold are refused as well; prints pass exactly where no two share an instant. -/

namespace FinanceKing.Data

open Lib

/-! ### One market, two sources -/

/-- What the market did over one interval, keyed by its open. -/
structure ClosedBar where
  openTimeUtc : DateTime
  openQuotePrice : Decimal
  highQuotePrice : Decimal
  lowQuotePrice : Decimal
  closeQuotePrice : Decimal
  baseVolume : Decimal
  quoteVolume : Decimal
  tradeCount : ℤ
  takerBuyBaseVolume : Decimal
  takerBuyQuoteVolume : Decimal
  deriving DecidableEq

/-- A record less the two fields a source fills by its own convention: the last instant inside the interval, at
    the source's resolution, and the archive's trailing column. -/
def KlineRecord.closedBar (self : KlineRecord) : ClosedBar :=
  ⟨self.openTimeUtc, self.openQuotePrice, self.highQuotePrice, self.lowQuotePrice, self.closeQuotePrice,
    self.baseVolume, self.quoteVolume, self.tradeCount, self.takerBuyBaseVolume, self.takerBuyQuoteVolume⟩

/-- A row that files this bar, its trailing column zero. -/
def ArchivesBar (spec : IngestionSpec) (row : List String) (bar : ClosedBar) : Prop :=
  ∃ record, KlineRow spec row record ∧ ¬ KlineRowStops spec row ∧ record.closedBar = bar ∧ record.ignoredField = "0"

/-- A closed frame that streams this bar. -/
def StreamsBar (nowUtc : DateTime) (frame : KlineFrame JsonValue) (bar : ClosedBar) : Prop :=
  ∃ record, KlineFrame.Says nowUtc frame record ∧ record.closedBar = bar

/-- One aggregate print. -/
structure TradePrint where
  aggregateTradeId : ℤ
  tradeTimeUtc : DateTime
  quotePrice : Decimal
  baseQuantity : Decimal
  isBuyerMaker : Bool

/-- The record of a print. -/
def TradePrint.record (self : TradePrint) : TradeRecord :=
  ⟨toString self.aggregateTradeId, self.tradeTimeUtc, self.quotePrice, self.baseQuantity,
    self.quotePrice * self.baseQuantity, self.isBuyerMaker, true⟩

def ArchivesPrint (spec : IngestionSpec) (row : List String) (print : TradePrint) : Prop :=
  TradeRow spec row print.record ∧ ¬ TradeRowStops spec row

def StreamsPrint (nowUtc : DateTime) (frame : AggTradeFrame JsonValue) (print : TradePrint) : Prop :=
  AggTradeFrame.Says nowUtc frame print.record

/-! ### What the gate is for -/

/-- The instants both lists of bars cover. -/
def BothCover (archived streamed : List ClosedBar) (t : DateTime) : Prop :=
  InOverlap (archived.map ClosedBar.openTimeUtc) (streamed.map ClosedBar.openTimeUtc) t

instance (archived streamed : List ClosedBar) (t : DateTime) : Decidable (BothCover archived streamed t) :=
  inferInstanceAs (Decidable (InOverlap _ _ _))

/-- The two sources hold the same bars wherever both cover. -/
def BarsAgree (archived streamed : List ClosedBar) : Prop :=
  ∀ bar, BothCover archived streamed bar.openTimeUtc → (bar ∈ archived ↔ bar ∈ streamed)

/-- Every row and every frame is read, agreement is counted over the overlap, and disagreement is refused. -/
def JudgesBars (spec : IngestionSpec) (nowUtc : DateTime) (source : String) (rows : List (List String))
    (frames : List (KlineFrame JsonValue)) (archived streamed : List ClosedBar) : Prop :=
  ∃ archiveRecords streamRecords,
    List.Forall₂ (fun row record => parseKlineRow row spec = .ok record) rows archiveRecords ∧
    List.Forall₂ (fun frame record => KlineFrame.read nowUtc frame = .ok record) frames streamRecords ∧
    (BarsAgree archived streamed →
      assertCrossSourceAgreement (archiveRecords.map .kline) (streamRecords.map .kline) source =
        .ok (archived.filter fun bar => BothCover archived streamed bar.openTimeUtc).length) ∧
    (¬ BarsAgree archived streamed → ∃ message,
      assertCrossSourceAgreement (archiveRecords.map .kline) (streamRecords.map .kline) source =
        raise .qualityGate message)

/-- Every row and every frame is read, and the gate refuses nothing. -/
def AcceptsPrints (spec : IngestionSpec) (nowUtc : DateTime) (source : String) (rows : List (List String))
    (frames : List (AggTradeFrame JsonValue)) : Prop :=
  ∃ archiveRecords streamRecords,
    List.Forall₂ (fun row record => parseTradeRow row spec = .ok record) rows archiveRecords ∧
    List.Forall₂ (fun frame record => AggTradeFrame.read nowUtc frame = .ok record) frames streamRecords ∧
    ∃ compared, assertCrossSourceAgreement (archiveRecords.map .trade) (streamRecords.map .trade) source = .ok compared

/-! ### What is read -/

/-- Where each element leads to a related one, so does a list of them. -/
theorem exists_forall₂ {α β γ : Type} {R : α → γ → Prop} {S : α → β → Prop} {T : β → γ → Prop}
    (hstep : ∀ a c, R a c → ∃ b, S a b ∧ T b c) {as : List α} {cs : List γ} (h : List.Forall₂ R as cs) :
    ∃ bs, List.Forall₂ S as bs ∧ List.Forall₂ T bs cs := by
  induction h with
  | nil => exact ⟨[], .nil, .nil⟩
  | cons hR _ ih =>
    obtain ⟨b, hS, hT⟩ := hstep _ _ hR
    obtain ⟨bs, hbs, hcs⟩ := ih
    exact ⟨b :: bs, .cons hS hbs, .cons hT hcs⟩

/-- A list of calls returns one list of values. -/
theorem results_unique {ε α β : Type} {f : α → Except ε β} {as : List α} {bs cs : List β}
    (hbs : List.Forall₂ (fun a b => f a = .ok b) as bs) (hcs : List.Forall₂ (fun a b => f a = .ok b) as cs) :
    bs = cs :=
  List.right_unique_forall₂' (fun _ _ _ h h' => Except.ok.inj (h.symm.trans h')) hbs hcs

theorem map_eq_of_forall₂ {α β : Type} {f : α → β} {as : List α} {bs : List β}
    (h : List.Forall₂ (fun a b => f a = b) as bs) : as.map f = bs := by
  induction h with
  | nil => rfl
  | cons hab _ ih => rw [List.map_cons, hab, ih]

theorem parseKlineRow_eq_ok {spec : IngestionSpec} {row : List String} {record : KlineRecord}
    (hrow : KlineRow spec row record) (hstops : ¬ KlineRowStops spec row) :
    parseKlineRow row spec = .ok record := by
  have hread := hrow
  obtain ⟨_, unit, _, hunit, _⟩ := hread
  exact ((parseKlineRow_reads escaping_leaves row hunit).ok_iff record).mpr ⟨hrow, hstops⟩

theorem parseTradeRow_eq_ok {spec : IngestionSpec} {row : List String} {record : TradeRecord}
    (hrow : TradeRow spec row record) (hstops : ¬ TradeRowStops spec row) :
    parseTradeRow row spec = .ok record := by
  have hread := hrow
  obtain ⟨_, unit, encoding, _, hunit, hencoding, _⟩ := hread
  exact ((parseTradeRow_reads escaping_leaves row hunit hencoding).ok_iff record).mpr ⟨hrow, hstops⟩

section Bars

variable {spec : IngestionSpec} {nowUtc : DateTime} {source : String} {rows : List (List String)}
  {frames : List (KlineFrame JsonValue)} {archived streamed : List ClosedBar}

/-- The records of a capture: the bars it holds, under the filler of its source. -/
structure Captures (filler : String) (records : List KlineRecord) (bars : List ClosedBar) : Prop where
  bars : records.map KlineRecord.closedBar = bars
  filler : ∀ record ∈ records, record.ignoredField = filler

theorem captures_rows (h : List.Forall₂ (ArchivesBar spec) rows archived) :
    ∃ records, List.Forall₂ (fun row record => parseKlineRow row spec = .ok record) rows records ∧
      Captures "0" records archived := by
  obtain ⟨records, hread, hsaid⟩ := exists_forall₂ (T := fun record bar => record.closedBar = bar ∧ record.ignoredField = "0")
    (S := fun row record => parseKlineRow row spec = .ok record) (fun row bar ⟨record, hrow, hstops, hsaid⟩ =>
      ⟨record, parseKlineRow_eq_ok hrow hstops, hsaid⟩) h
  refine ⟨records, hread, map_eq_of_forall₂ (hsaid.imp fun _ _ h => h.1), fun record hrecord => ?_⟩
  obtain ⟨_, _, _, hfiller⟩ := exists_right_of_forall₂ hsaid hrecord
  exact hfiller

theorem captures_frames (h : List.Forall₂ (StreamsBar nowUtc) frames streamed) :
    ∃ records, List.Forall₂ (fun frame record => KlineFrame.read nowUtc frame = .ok record) frames records ∧
      Captures noIgnoredField records streamed := by
  obtain ⟨records, hread, hsaid⟩ := exists_forall₂
    (T := fun record bar => record.closedBar = bar ∧ record.ignoredField = noIgnoredField)
    (S := fun frame record => KlineFrame.read nowUtc frame = .ok record) (fun frame bar ⟨record, hsays, hbar⟩ =>
      ⟨record, KlineFrame.read_eq_ok.mpr hsays, hbar, hsays.ignored⟩) h
  refine ⟨records, hread, map_eq_of_forall₂ (hsaid.imp fun _ _ h => h.1), fun record hrecord => ?_⟩
  obtain ⟨_, _, _, hfiller⟩ := exists_right_of_forall₂ hsaid hrecord
  exact hfiller

variable {archiveRecords streamRecords : List KlineRecord}

theorem Captures.times {filler : String} {records : List KlineRecord} {bars : List ClosedBar}
    (h : Captures filler records bars) :
    (records.map ArchiveRecord.kline).map ArchiveRecord.eventTimeUtc = bars.map ClosedBar.openTimeUtc := by
  rw [← h.bars, List.map_map, List.map_map]
  rfl

/-- No archived record is a streamed one, so captures of distinct bars agree exactly where the overlap is empty. -/
theorem sourcesAgree_iff (harchive : Captures "0" archiveRecords archived)
    (hstream : Captures noIgnoredField streamRecords streamed)
    (harchived : (archived.map ClosedBar.openTimeUtc).Nodup) (hstreamed : (streamed.map ClosedBar.openTimeUtc).Nodup) :
    SourcesAgree (archiveRecords.map .kline) (streamRecords.map .kline) ↔
      (∀ bar ∈ archived, ¬ BothCover archived streamed bar.openTimeUtc) ∧
        ∀ bar ∈ streamed, ¬ BothCover archived streamed bar.openTimeUtc := by
  have hapart : ∀ record ∈ archiveRecords.map ArchiveRecord.kline, record ∉ streamRecords.map ArchiveRecord.kline := by
    intro record ha hs
    obtain ⟨a, hmema, rfl⟩ := List.mem_map.mp ha
    obtain ⟨b, hmemb, hsame⟩ := List.mem_map.mp hs
    obtain rfl := ArchiveRecord.kline.inj hsame
    have hzero := harchive.filler _ hmema
    rw [hstream.filler _ hmemb] at hzero
    exact absurd hzero (by decide)
  have hcover : ∀ record : KlineRecord, InOverlap ((archiveRecords.map ArchiveRecord.kline).map
      ArchiveRecord.eventTimeUtc) ((streamRecords.map ArchiveRecord.kline).map ArchiveRecord.eventTimeUtc)
        (ArchiveRecord.kline record).eventTimeUtc ↔ BothCover archived streamed record.closedBar.openTimeUtc := by
    intro record
    rw [harchive.times, hstream.times]
    rfl
  constructor
  · intro h
    constructor
    · intro bar hbar hin
      rw [← harchive.bars] at hbar
      obtain ⟨record, hrecord, rfl⟩ := List.mem_map.mp hbar
      have hmem := List.mem_map_of_mem (f := ArchiveRecord.kline) hrecord
      exact hapart _ hmem ((h.same _ ((hcover record).mpr hin)).mp hmem)
    · intro bar hbar hin
      rw [← hstream.bars] at hbar
      obtain ⟨record, hrecord, rfl⟩ := List.mem_map.mp hbar
      have hmem := List.mem_map_of_mem (f := ArchiveRecord.kline) hrecord
      exact hapart _ ((h.same _ ((hcover record).mpr hin)).mpr hmem) hmem
  · rintro ⟨hnoneArchived, hnoneStreamed⟩
    refine ⟨harchive.times ▸ harchived, hstream.times ▸ hstreamed, fun record hin => iff_of_false ?_ ?_⟩
    · intro hmem
      obtain ⟨a, ha, rfl⟩ := List.mem_map.mp hmem
      exact hnoneArchived a.closedBar (harchive.bars ▸ List.mem_map_of_mem ha) ((hcover a).mp hin)
    · intro hmem
      obtain ⟨b, hb, rfl⟩ := List.mem_map.mp hmem
      exact hnoneStreamed b.closedBar (hstream.bars ▸ List.mem_map_of_mem hb) ((hcover b).mp hin)

theorem overlapOf_captures (harchive : Captures "0" archiveRecords archived)
    (hstream : Captures noIgnoredField streamRecords streamed) :
    (overlapOf (archiveRecords.map .kline) (streamRecords.map .kline)).length =
      (archived.filter fun bar => BothCover archived streamed bar.openTimeUtc).length := by
  have hfilter : ∀ p : ClosedBar → Bool,
      archived.filter p = (archiveRecords.filter fun record => p record.closedBar).map KlineRecord.closedBar := by
    intro p
    rw [← harchive.bars, List.filter_map]
    rfl
  rw [overlapOf, harchive.times, hstream.times, List.filter_map, List.length_map, hfilter, List.length_map]
  rfl

/-- Two captures are judged rightly exactly where they disagree or hold no bar both cover. -/
theorem judgesBars_iff (hrows : List.Forall₂ (ArchivesBar spec) rows archived)
    (hframes : List.Forall₂ (StreamsBar nowUtc) frames streamed)
    (harchived : (archived.map ClosedBar.openTimeUtc).Nodup) (hstreamed : (streamed.map ClosedBar.openTimeUtc).Nodup) :
    JudgesBars spec nowUtc source rows frames archived streamed ↔
      (BarsAgree archived streamed → ∀ bar ∈ archived, ¬ BothCover archived streamed bar.openTimeUtc) := by
  obtain ⟨archiveRecords, hreadRows, harchive⟩ := captures_rows hrows
  obtain ⟨streamRecords, hreadFrames, hstream⟩ := captures_frames hframes
  have hagree := sourcesAgree_iff harchive hstream harchived hstreamed
  have hcount := overlapOf_captures harchive hstream
  obtain ⟨hcounted, hrefused⟩ :=
    assertCrossSourceAgreement_verdict (archiveRecords.map .kline) (streamRecords.map .kline) source
  constructor
  · rintro ⟨archiveRecords', streamRecords', hreadRows', hreadFrames', hjudged, _⟩ hbars
    obtain rfl := results_unique hreadRows hreadRows'
    obtain rfl := results_unique hreadFrames hreadFrames'
    exact (hagree.mp (assertCrossSourceAgreement_eq_ok.mp (hjudged hbars)).1).1
  · intro hempty
    refine ⟨archiveRecords, streamRecords, hreadRows, hreadFrames, fun hbars => ?_, fun hbars => hrefused ?_⟩
    · rw [← hcount]
      refine hcounted (hagree.mpr ⟨hempty hbars, fun bar hbar hin => ?_⟩)
      exact hempty hbars bar ((hbars bar hin).mpr hbar) hin
    · intro hsources
      obtain ⟨hnoneArchived, hnoneStreamed⟩ := hagree.mp hsources
      exact hbars fun bar hin => iff_of_false (fun h => hnoneArchived bar h hin) fun h => hnoneStreamed bar h hin

end Bars

section Prints

variable {spec : IngestionSpec} {nowUtc : DateTime} {source : String} {rows : List (List String)}
  {frames : List (AggTradeFrame JsonValue)} {archived streamed : List TradePrint}

/-- Two sources of the same prints agree exactly where each holds one print an instant. -/
theorem sourcesAgree_prints (hsame : archived.Perm streamed) :
    SourcesAgree (archived.map fun print => .trade print.record) (streamed.map fun print => .trade print.record) ↔
      (archived.map TradePrint.tradeTimeUtc).Nodup := by
  have htimes : ∀ prints : List TradePrint, (prints.map fun print => ArchiveRecord.trade print.record).map
      ArchiveRecord.eventTimeUtc = prints.map TradePrint.tradeTimeUtc := by
    intro prints
    rw [List.map_map]
    rfl
  constructor
  · intro h
    exact htimes archived ▸ h.archivedOnce
  · intro hdistinct
    have hstreamed := (hsame.map TradePrint.tradeTimeUtc).nodup_iff.mp hdistinct
    exact ⟨(htimes archived).symm ▸ hdistinct, (htimes streamed).symm ▸ hstreamed, fun _ _ => (hsame.map _).mem_iff⟩

theorem acceptsPrints_iff (hsame : archived.Perm streamed) (hrows : List.Forall₂ (ArchivesPrint spec) rows archived)
    (hframes : List.Forall₂ (StreamsPrint nowUtc) frames streamed) :
    AcceptsPrints spec nowUtc source rows frames ↔ (archived.map TradePrint.tradeTimeUtc).Nodup := by
  have hreadRows : List.Forall₂ (fun row record => parseTradeRow row spec = .ok record) rows
      (archived.map TradePrint.record) :=
    List.forall₂_map_right_iff.mpr (hrows.imp fun _ _ h => parseTradeRow_eq_ok h.1 h.2)
  have hreadFrames : List.Forall₂ (fun frame record => AggTradeFrame.read nowUtc frame = .ok record) frames
      (streamed.map TradePrint.record) :=
    List.forall₂_map_right_iff.mpr (hframes.imp fun _ _ h => AggTradeFrame.read_eq_ok.mpr h)
  rw [← sourcesAgree_prints hsame]
  constructor
  · rintro ⟨archiveRecords, streamRecords, hreadRows', hreadFrames', compared, hcompared⟩
    obtain rfl := results_unique hreadRows hreadRows'
    obtain rfl := results_unique hreadFrames hreadFrames'
    rw [List.map_map, List.map_map] at hcompared
    exact (assertCrossSourceAgreement_eq_ok.mp hcompared).1
  · intro hagree
    obtain ⟨hcounted, _⟩ := assertCrossSourceAgreement_verdict (archived.map fun print => .trade print.record)
      (streamed.map fun print => .trade print.record) source
    refine ⟨_, _, hreadRows, hreadFrames, (overlapOf (archived.map fun print => .trade print.record)
      (streamed.map fun print => .trade print.record)).length, ?_⟩
    rw [List.map_map, List.map_map]
    exact hcounted hagree

end Prints

/-- Bars captured twice are judged rightly exactly where the captures disagree or hold no bar both cover; prints
    captured twice are accepted exactly where no two share an instant. -/
theorem crossSource_judges_iff (spec : IngestionSpec) (nowUtc : DateTime) (source : String) :
    (∀ rows frames archived streamed, List.Forall₂ (ArchivesBar spec) rows archived →
      List.Forall₂ (StreamsBar nowUtc) frames streamed → (archived.map ClosedBar.openTimeUtc).Nodup →
      (streamed.map ClosedBar.openTimeUtc).Nodup →
      (JudgesBars spec nowUtc source rows frames archived streamed ↔
        (BarsAgree archived streamed → ∀ bar ∈ archived, ¬ BothCover archived streamed bar.openTimeUtc))) ∧
    ∀ rows frames archived streamed, archived.Perm streamed → List.Forall₂ (ArchivesPrint spec) rows archived →
      List.Forall₂ (StreamsPrint nowUtc) frames streamed →
      (AcceptsPrints spec nowUtc source rows frames ↔ (archived.map TradePrint.tradeTimeUtc).Nodup) :=
  ⟨fun _ _ _ _ hrows hframes harchived hstreamed => judgesBars_iff hrows hframes harchived hstreamed,
    fun _ _ _ _ hsame hrows hframes => acceptsPrints_iff hsame hrows hframes⟩

/-! ### One bar, and prints of one millisecond -/

/-- The first minute of 2024 at a price of one. -/
def minuteBar : ClosedBar := ⟨TimeDelta.ofSeconds 1704067200, 1, 1, 1, 1, 0, 0, 0, 0, 0⟩

def minuteRow : List String := ["1704067200000", "1", "1", "1", "1", "0", "1704067259999", "0", "0", "0", "0", "0"]

def minuteFrame : KlineFrame JsonValue where
  eventTimeMs := 1704067260000
  symbol := "BTCUSDT"
  kline := ⟨1704067200000, 1704067259999, "BTCUSDT", "1m", .text "1", .text "1", .text "1", .text "1", .text "0", 0,
    true, .text "0", .text "0", .text "0"⟩

theorem minuteRow_archives : ArchivesBar minuteSpec.toIngestionSpec minuteRow minuteBar := by
  have hunit : minuteSpec.archiveFormat.requireEpochUnit = .ok .milliseconds := rfl
  have hparsed : parseKlineRow minuteRow minuteSpec.toIngestionSpec =
      .ok ⟨TimeDelta.ofSeconds 1704067200, 1704067259999000, 1, 1, 1, 1, 0, 0, 0, 0, 0, "0"⟩ := by with_unfolding_all decide
  obtain ⟨hrow, hstops⟩ := ((parseKlineRow_reads escaping_leaves minuteRow hunit).ok_iff _).mp hparsed
  exact ⟨_, hrow, hstops, rfl, rfl⟩

theorem minuteFrame_streams : StreamsBar minuteSpec.nowUtc minuteFrame minuteBar := by
  have hread : minuteFrame.read minuteSpec.nowUtc =
      .ok ⟨TimeDelta.ofSeconds 1704067200, 1704067259999000, 1, 1, 1, 1, 0, 0, 0, 0, 0, ""⟩ := by with_unfolding_all decide
  exact ⟨_, KlineFrame.read_eq_ok.mp hread, rfl⟩

theorem dayOfPrints_checked :
    ArchiveCoordinateFields.postInit ⟨.spot, .trades, "BTCUSDT", 19723, none⟩ = .ok () := by
  with_unfolding_all decide

def printFields : IngestionSpecFields :=
  { minuteFields with
    coordinate := ⟨⟨.spot, .trades, "BTCUSDT", 19723, none⟩, dayOfPrints_checked⟩
    archiveFormat :=
      ⟨.spot, .trades, .epochMilliseconds, false, some .python, spotArchiveGenesis, some spotMicrosecondCutover⟩ }

/-- A day of prints under its declared format. -/
def printSpec : IngestionSpec := ⟨printFields, by decide +kernel⟩

/-- A print in the first millisecond of 2024. -/
def firstPrint (aggregateTradeId : ℤ) : TradePrint :=
  ⟨aggregateTradeId, TimeDelta.ofSeconds 1704067200, 1, 1, true⟩

def printRow (tradeId : String) : List String := [tradeId, "1", "1", "1", "1704067200000", "True", "True"]

def printFrame (aggregateTradeId : ℤ) : AggTradeFrame JsonValue :=
  ⟨1704067200000, "BTCUSDT", aggregateTradeId, .text "1", .text "1", 1, 1, 1704067200000, true⟩

theorem printRow_archives {tradeId : String} {aggregateTradeId : ℤ}
    (h : parseTradeRow (printRow tradeId) printSpec = .ok (firstPrint aggregateTradeId).record) :
    ArchivesPrint printSpec (printRow tradeId) (firstPrint aggregateTradeId) :=
  ((parseTradeRow_reads escaping_leaves (printRow tradeId) rfl rfl).ok_iff _).mp h

theorem printFrame_streams (aggregateTradeId : ℤ) :
    StreamsPrint printSpec.nowUtc (printFrame aggregateTradeId) (firstPrint aggregateTradeId) := by
  have hone : DecimalJson (.text "1") 1 := ⟨"1", rfl, by with_unfolding_all decide⟩
  have htime : EpochMs printSpec.nowUtc 1704067200000 (TimeDelta.ofSeconds 1704067200) := by constructor <;> decide
  exact ⟨rfl, htime, hone, hone, rfl, rfl, rfl⟩

/-- An archived minute against an empty stream is judged, and a single print is accepted. -/
theorem crossSource_judges_minute :
    JudgesBars minuteSpec.toIngestionSpec minuteSpec.nowUtc "spot/klines" [minuteRow] [] [minuteBar] [] ∧
      AcceptsPrints printSpec printSpec.nowUtc "spot/trades" [printRow "1"] [printFrame 1] := by
  constructor
  · refine ((crossSource_judges_iff minuteSpec.toIngestionSpec minuteSpec.nowUtc "spot/klines").1 _ _ _ _
      (.cons minuteRow_archives .nil) .nil (by decide) (by decide)).mpr fun _ bar _ hin => ?_
    obtain ⟨⟨_, hmem, _⟩, _⟩ := hin.2
    cases hmem
  · exact ((crossSource_judges_iff printSpec printSpec.nowUtc "spot/trades").2 _ _ [firstPrint 1] [firstPrint 1]
      (List.Perm.refl _) (.cons (printRow_archives (by decide +kernel)) .nil) (.cons (printFrame_streams 1) .nil)).mpr
      (by decide)

/-- A bar both sources hold is refused over its filler column, and so are two prints of one millisecond. -/
theorem sources_of_one_market_are_refused :
    (∃ row frame bar, ArchivesBar minuteSpec.toIngestionSpec row bar ∧ StreamsBar minuteSpec.nowUtc frame bar ∧
      ¬ JudgesBars minuteSpec.toIngestionSpec minuteSpec.nowUtc "spot/klines" [row] [frame] [bar] [bar]) ∧
    ∃ rows frames prints, List.Forall₂ (ArchivesPrint printSpec) rows prints ∧
      List.Forall₂ (StreamsPrint printSpec.nowUtc) frames prints ∧
      ¬ AcceptsPrints printSpec printSpec.nowUtc "spot/trades" rows frames := by
  constructor
  · refine ⟨minuteRow, minuteFrame, minuteBar, minuteRow_archives, minuteFrame_streams, fun h => ?_⟩
    have hempty := (judgesBars_iff (.cons minuteRow_archives .nil) (.cons minuteFrame_streams .nil) (by decide)
      (by decide)).mp h
    exact hempty (fun _ _ => Iff.rfl) minuteBar List.mem_cons_self (by decide)
  · have hrows : List.Forall₂ (ArchivesPrint printSpec) [printRow "1", printRow "2"] [firstPrint 1, firstPrint 2] :=
      .cons (printRow_archives (by decide +kernel)) (.cons (printRow_archives (by decide +kernel)) .nil)
    have hframes : List.Forall₂ (StreamsPrint printSpec.nowUtc) [printFrame 1, printFrame 2]
        [firstPrint 1, firstPrint 2] := .cons (printFrame_streams 1) (.cons (printFrame_streams 2) .nil)
    refine ⟨_, _, _, hrows, hframes, fun h => ?_⟩
    have hdistinct := (acceptsPrints_iff (List.Perm.refl _) hrows hframes).mp h
    exact absurd hdistinct (by decide)

end FinanceKing.Data
