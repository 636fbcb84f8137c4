import FinanceKing.Data.QualityGates
import FinanceKing.Domain.Results
import FinanceKing.Lib.Merge
import FinanceKing.Lib.SortBy

/-! Gate 10: where an archive and a live stream cover the same instant, they must agree. The comparison is
    restricted to the overlap of the two coverages, and a disagreement is an escalation. -/

namespace FinanceKing.Data

open Lib

/-- Every record shape a declared dataset can produce. -/
inductive ArchiveRecord where
  | kline (record : KlineRecord)
  | trade (record : TradeRecord)
  deriving DecidableEq

namespace ArchiveRecord

def eventTimeUtc : ArchiveRecord → DateTime
  | kline record => record.eventTimeUtc
  | trade record => record.eventTimeUtc

/-- `type(record).__name__`. -/
def typeName : ArchiveRecord → String
  | kline _ => "KlineRecord"
  | trade _ => "TradeRecord"

/-- `dataclasses.fields(record)`, with the value each holds. -/
def fields : ArchiveRecord → List (String × Piece)
  | kline record =>
    [("open_time_utc", .instant record.openTimeUtc), ("close_time_utc", .instant record.closeTimeUtc),
      ("open_quote_price", .decimal record.openQuotePrice), ("high_quote_price", .decimal record.highQuotePrice),
      ("low_quote_price", .decimal record.lowQuotePrice), ("close_quote_price", .decimal record.closeQuotePrice),
      ("base_volume", .decimal record.baseVolume), ("quote_volume", .decimal record.quoteVolume),
      ("trade_count", .count record.tradeCount), ("taker_buy_base_volume", .decimal record.takerBuyBaseVolume),
      ("taker_buy_quote_volume", .decimal record.takerBuyQuoteVolume), ("ignored_field", .quoted record.ignoredField)]
  | trade record =>
    [("venue_trade_id", .quoted record.venueTradeId), ("event_time_utc", .instant record.eventTimeUtc),
      ("quote_price", .decimal record.quotePrice), ("base_quantity", .decimal record.baseQuantity),
      ("quote_quantity", .decimal record.quoteQuantity),
      ("is_buyer_maker", .text (if record.isBuyerMaker then "True" else "False")),
      ("is_best_match", .text (if record.isBestMatch then "True" else "False"))]

end ArchiveRecord

/-- `", ".join(parts)`. -/
def commaSeparated : List Message → Message
  | [] => []
  | [part] => part
  | part :: rest => part ++ ([", "] : Message) ++ commaSeparated rest

/-- Every field on which the two records disagree, rendered for a message. -/
def fieldDifferences (archived streamed : ArchiveRecord) : Message :=
  if archived.typeName ≠ streamed.typeName then
    ["record type (", archived.typeName, " vs ", streamed.typeName, ")"]
  else
    commaSeparated (((archived.fields.zip streamed.fields).filter fun pair => pair.1.2 ≠ pair.2.2).map fun pair =>
      [.text pair.1.1, " (", pair.1.2, " vs ", pair.2.2, ")"])

def disagrees (message : Message) : Message := Gate.crossSourceAgreement.refusal message

/-- One record filed under its instant; a second one there is refused. -/
def fileByEventTime (side source : String) (indexed : Dict DateTime ArchiveRecord) (record : ArchiveRecord) :
    PyResult (Dict DateTime ArchiveRecord) := do
  raiseIf (record.eventTimeUtc ∈ indexed.keys) .qualityGate (disagrees
    [source, " ", side, " holds two records at ", .instant record.eventTimeUtc, "; a duplicated instant makes any ",
      "agreement verdict depend on which copy was compared"])
  return indexed.set record.eventTimeUtc record

/-- `_index_by_event_time`. -/
def indexByEventTime (records : List ArchiveRecord) (side source : String) :
    PyResult (Dict DateTime ArchiveRecord) :=
  records.foldlM (fileByEventTime side source) Dict.empty

/-- The first and the last instant a source holds, where it holds any. -/
def coverage (byTime : Dict DateTime ArchiveRecord) : Option (DateTime × DateTime) :=
  match byTime.keys.min?, byTime.keys.max? with
  | some first, some last => some (first, last)
  | _, _ => none

/-- One instant of the archive against what the stream holds there. -/
def compareInstant (streamByTime : Dict DateTime ArchiveRecord) (first last : DateTime) (source : String)
    (compared : ℤ) (archived : DateTime × ArchiveRecord) : PyResult ℤ :=
  match streamByTime.get? archived.1 with
  | none => raise .qualityGate (disagrees
      [source, " at ", .instant archived.1, " is in the archive and absent from the stream, inside the overlap [",
        .instant first, ", ", .instant last, "]. One source is missing a record the other observed, which is a ",
        "coverage change upstream rather than a difference of opinion about a value"])
  | some streamed => do
    let differences := fieldDifferences archived.2 streamed
    raiseIf differences.isTruthy .qualityGate (disagrees
      (([source, " at ", .instant archived.1, " differs between archive and stream on "] : Message) ++ differences ++
        ([". Neither copy is preferred: both were believed correct, so the divergence is escalated rather than ",
          "resolved -- a silent merge would leave the schema revision, epoch-unit change or symbol rename that ",
          "caused it undiagnosed"] : Message)))
    return compared + 1

/-- An instant of the stream inside the overlap that the archive does not hold. -/
def refuseStreamOnly (archiveByTime : Dict DateTime ArchiveRecord) (first last : DateTime) (source : String)
    (eventTime : DateTime) : PyResult Unit :=
  raiseIf (first ≤ eventTime ∧ eventTime ≤ last ∧ eventTime ∉ archiveByTime.keys) .qualityGate (disagrees
    [source, " at ", .instant eventTime, " is in the stream and absent from the archive, inside the overlap [",
      .instant first, ", ", .instant last, "]. The archive is the source a backtest reads, so a stream-only ",
      "record is a hole in the corpus rather than a surplus in the buffer"])

/-- The comparison of two indexed sources over the instants between the later start and the earlier end. -/
def compareIndexed (archiveByTime streamByTime : Dict DateTime ArchiveRecord) (source : String) : PyResult ℤ :=
  match coverage archiveByTime, coverage streamByTime with
  | some archived, some streamed =>
    let first := max archived.1 streamed.1
    let last := min archived.2 streamed.2
    if last < first then .ok 0 else do
      let inside := archiveByTime.entries.filter fun entry => first ≤ entry.1 ∧ entry.1 ≤ last
      let compared ← (sortBy Prod.fst inside).foldlM (compareInstant streamByTime first last source) 0
      streamByTime.keys.forM (refuseStreamOnly archiveByTime first last source)
      return compared
  | _, _ => .ok 0

/-- How many instants both sources cover, where they agree about every one of them. -/
def assertCrossSourceAgreement (archiveRecords streamRecords : List ArchiveRecord) (source : String) :
    PyResult ℤ := do
  let archiveByTime ← indexByEventTime archiveRecords "archive" source
  let streamByTime ← indexByEventTime streamRecords "stream" source
  compareIndexed archiveByTime streamByTime source

/-! ### What the gate reports -/

/-- The instants between the first a source holds and its last. -/
def Covers (times : List DateTime) (t : DateTime) : Prop := (∃ first ∈ times, first ≤ t) ∧ ∃ last ∈ times, t ≤ last

instance (times : List DateTime) (t : DateTime) : Decidable (Covers times t) := inferInstanceAs (Decidable (_ ∧ _))

/-- The instants both sources cover. -/
def InOverlap (archived streamed : List DateTime) (t : DateTime) : Prop := Covers archived t ∧ Covers streamed t

instance (archived streamed : List DateTime) (t : DateTime) : Decidable (InOverlap archived streamed t) :=
  inferInstanceAs (Decidable (_ ∧ _))

/-- The records of a source at the instants both cover. -/
def overlapOf (archived streamed : List ArchiveRecord) : List ArchiveRecord :=
  archived.filter fun record =>
    InOverlap (archived.map ArchiveRecord.eventTimeUtc) (streamed.map ArchiveRecord.eventTimeUtc) record.eventTimeUtc

/-- One record an instant in either source, and the same records wherever both cover. -/
structure SourcesAgree (archived streamed : List ArchiveRecord) : Prop where
  archivedOnce : (archived.map ArchiveRecord.eventTimeUtc).Nodup
  streamedOnce : (streamed.map ArchiveRecord.eventTimeUtc).Nodup
  same : ∀ record, InOverlap (archived.map ArchiveRecord.eventTimeUtc) (streamed.map ArchiveRecord.eventTimeUtc)
    record.eventTimeUtc → (record ∈ archived ↔ record ∈ streamed)

theorem commaSeparated_isTruthy {parts : List Message} (h : ∀ part ∈ parts, part.isTruthy) :
    (commaSeparated parts).isTruthy ↔ parts ≠ [] := by
  match parts with
  | [] => simp [commaSeparated, Message.isTruthy]
  | [part] => simpa [commaSeparated] using h
  | part :: other :: rest =>
    have hpart : part.isTruthy := h part List.mem_cons_self
    simp only [Message.isTruthy] at hpart ⊢
    simp [commaSeparated, List.any_append, hpart]

/-- The differences are an empty text exactly between two records that are one. -/
theorem fieldDifferences_isTruthy {archived streamed : ArchiveRecord} :
    (fieldDifferences archived streamed).isTruthy ↔ archived ≠ streamed := by
  have hparts : ∀ pairs : List ((String × Piece) × (String × Piece)),
      (commaSeparated (pairs.map fun pair => ([.text pair.1.1, " (", pair.1.2, " vs ", pair.2.2, ")"] : Message))
        ).isTruthy ↔ pairs ≠ [] := by
    intro pairs
    rw [commaSeparated_isTruthy, ne_eq, List.map_eq_nil_iff]
    intro part hpart
    obtain ⟨pair, _, rfl⟩ := List.mem_map.mp hpart
    simp [Message.isTruthy]
  cases archived with
  | kline a =>
    cases streamed with
    | kline s =>
      have htype : (ArchiveRecord.kline a).typeName = (ArchiveRecord.kline s).typeName := rfl
      rw [fieldDifferences, if_neg (not_not.mpr htype), hparts, not_iff_not]
      cases a
      cases s
      simp [ArchiveRecord.fields]
    | trade s => simp [fieldDifferences, ArchiveRecord.typeName, Message.isTruthy]
  | trade a =>
    cases streamed with
    | kline s => simp [fieldDifferences, ArchiveRecord.typeName, Message.isTruthy]
    | trade s =>
      have htype : (ArchiveRecord.trade a).typeName = (ArchiveRecord.trade s).typeName := rfl
      rw [fieldDifferences, if_neg (not_not.mpr htype), hparts, not_iff_not]
      obtain ⟨_, _, _, _, _, amaker, amatch⟩ := a
      obtain ⟨_, _, _, _, _, smaker, smatch⟩ := s
      cases amaker <;> cases amatch <;> cases smaker <;> cases smatch <;> simp [ArchiveRecord.fields]

/-- Records are filed in order, and exactly where each finds its instant free. -/
theorem foldlM_fileByEventTime {side source : String} {records : List ArchiveRecord}
    {indexed after : Dict DateTime ArchiveRecord} :
    records.foldlM (fileByEventTime side source) indexed = .ok after ↔
      (indexed.keys ++ records.map ArchiveRecord.eventTimeUtc).Nodup ∧
        after.entries = indexed.entries ++ records.map fun record => (record.eventTimeUtc, record) := by
  induction records generalizing indexed with
  | nil =>
    have hkeys : indexed.keys.Nodup := indexed.nodupKeys
    have hext : after = indexed ↔ after.entries = indexed.entries := by
      cases after
      cases indexed
      simp
    rw [List.foldlM_nil, pure_eq_ok, eq_comm, hext]
    simp [hkeys]
  | cons record records ih =>
    simp only [List.foldlM_cons, fileByEventTime, bind_eq_ok, raiseIf_eq_ok, pure_eq_ok, Unique.exists_iff]
    constructor
    · rintro ⟨_, ⟨hfree, rfl⟩, hrest⟩
      have hentries : (indexed.set record.eventTimeUtc record).entries =
          indexed.entries ++ [(record.eventTimeUtc, record)] := Dict.putEntry_of_notMem record hfree
      obtain ⟨hnodup, hafter⟩ := ih.mp hrest
      rw [Dict.keys_set, if_neg hfree, List.append_assoc] at hnodup
      rw [hentries, List.append_assoc] at hafter
      exact ⟨hnodup, hafter⟩
    · rintro ⟨hnodup, hafter⟩
      have hfree : record.eventTimeUtc ∉ indexed.keys := fun hmem =>
        (List.disjoint_of_nodup_append hnodup) hmem List.mem_cons_self
      have hentries : (indexed.set record.eventTimeUtc record).entries =
          indexed.entries ++ [(record.eventTimeUtc, record)] := Dict.putEntry_of_notMem record hfree
      refine ⟨_, ⟨hfree, rfl⟩, ih.mpr ⟨?_, ?_⟩⟩
      · rwa [Dict.keys_set, if_neg hfree, List.append_assoc]
      · rwa [hentries, List.append_assoc]

/-- A source is indexed exactly where it holds one record an instant. -/
theorem indexByEventTime_eq_ok {records : List ArchiveRecord} {side source : String}
    {indexed : Dict DateTime ArchiveRecord} : indexByEventTime records side source = .ok indexed ↔
      (records.map ArchiveRecord.eventTimeUtc).Nodup ∧
        indexed.entries = records.map fun record => (record.eventTimeUtc, record) :=
  foldlM_fileByEventTime

/-- What an index of a source's records holds. -/
structure Indexes (records : List ArchiveRecord) (indexed : Dict DateTime ArchiveRecord) : Prop where
  entries : indexed.entries = records.map fun record => (record.eventTimeUtc, record)

namespace Indexes

variable {records : List ArchiveRecord} {indexed : Dict DateTime ArchiveRecord} (h : Indexes records indexed)

include h

theorem keys : indexed.keys = records.map ArchiveRecord.eventTimeUtc := by
  rw [Dict.keys, h.entries, List.map_map]
  rfl

theorem get? {t : DateTime} {record : ArchiveRecord} :
    indexed.get? t = some record ↔ record ∈ records ∧ record.eventTimeUtc = t := by
  rw [Dict.get?_eq_some_iff, h.entries, List.mem_map]
  constructor
  · rintro ⟨record', hmem, hpair⟩
    obtain ⟨rfl, rfl⟩ := Prod.mk.inj hpair
    exact ⟨hmem, rfl⟩
  · rintro ⟨hmem, rfl⟩
    exact ⟨record, hmem, rfl⟩

/-- The coverage runs from the least instant to the greatest. -/
theorem coverage_some {bounds : DateTime × DateTime} (hbounds : coverage indexed = some bounds) (t : DateTime) :
    Covers (records.map ArchiveRecord.eventTimeUtc) t ↔ bounds.1 ≤ t ∧ t ≤ bounds.2 := by
  rw [coverage, h.keys] at hbounds
  split at hbounds
  · next first last hfirst hlast =>
    obtain rfl := Option.some.inj hbounds
    obtain ⟨hfirstMem, hfirst⟩ := List.min?_eq_some_iff.mp hfirst
    obtain ⟨hlastMem, hlast⟩ := List.max?_eq_some_iff.mp hlast
    constructor
    · rintro ⟨⟨a, ha, hat⟩, b, hb, htb⟩
      exact ⟨(hfirst a ha).trans hat, htb.trans (hlast b hb)⟩
    · exact fun hin => ⟨⟨first, hfirstMem, hin.1⟩, last, hlastMem, hin.2⟩
  · cases hbounds

theorem coverage_none (hbounds : coverage indexed = none) (t : DateTime) :
    ¬ Covers (records.map ArchiveRecord.eventTimeUtc) t := by
  rw [coverage, h.keys] at hbounds
  split at hbounds
  · cases hbounds
  · next hnone =>
    rintro ⟨⟨a, ha, _⟩, _⟩
    have hne : records.map ArchiveRecord.eventTimeUtc ≠ [] := List.ne_nil_of_mem ha
    obtain ⟨first, hfirst⟩ := Option.isSome_iff_exists.mp (List.isSome_min?_of_ne_nil hne)
    obtain ⟨last, hlast⟩ := Option.isSome_iff_exists.mp (List.isSome_max?_of_ne_nil hne)
    exact hnone first last hfirst hlast

end Indexes

/-- The archive's instants are compared one by one, each with the record the stream holds there. -/
theorem foldlM_compareInstant {streamByTime : Dict DateTime ArchiveRecord} {first last : DateTime} {source : String}
    {inside : List (DateTime × ArchiveRecord)} {compared total : ℤ} :
    inside.foldlM (compareInstant streamByTime first last source) compared = .ok total ↔
      (∀ entry ∈ inside, streamByTime.get? entry.1 = some entry.2) ∧ total = compared + inside.length := by
  induction inside generalizing compared with
  | nil =>
    rw [List.foldlM_nil, pure_eq_ok, eq_comm]
    simp
  | cons entry inside ih =>
    have hstep : ∀ next, compareInstant streamByTime first last source compared entry = .ok next ↔
        streamByTime.get? entry.1 = some entry.2 ∧ next = compared + 1 := by
      intro next
      rw [compareInstant]
      cases hstream : streamByTime.get? entry.1 with
      | none => simp
      | some streamed =>
        simp only [bind_eq_ok, raiseIf_eq_ok, pure_eq_ok, Unique.exists_iff, fieldDifferences_isTruthy, not_not,
          Option.some.injEq]
        rw [eq_comm (a := streamed), eq_comm (a := next)]
    simp only [List.foldlM_cons, bind_eq_ok, hstep, ih, List.forall_mem_cons, List.length_cons]
    constructor
    · rintro ⟨_, ⟨hentry, rfl⟩, hrest, rfl⟩
      exact ⟨⟨hentry, hrest⟩, by push_cast; ring⟩
    · rintro ⟨⟨hentry, hrest⟩, rfl⟩
      exact ⟨_, ⟨hentry, rfl⟩, hrest, by push_cast; ring⟩

section Verdict

variable {archived streamed : List ArchiveRecord} {source : String}

/-- Indexed sources pass exactly where they hold the same records inside the overlap. -/
theorem compareIndexed_eq_ok {archiveByTime streamByTime : Dict DateTime ArchiveRecord} {total : ℤ}
    (harchive : Indexes archived archiveByTime) (hstream : Indexes streamed streamByTime) :
    compareIndexed archiveByTime streamByTime source = .ok total ↔
      (∀ record, InOverlap (archived.map ArchiveRecord.eventTimeUtc) (streamed.map ArchiveRecord.eventTimeUtc)
        record.eventTimeUtc → (record ∈ archived ↔ record ∈ streamed)) ∧
      total = (overlapOf archived streamed).length := by
  have hempty (hnone : ∀ t, ¬ InOverlap (archived.map ArchiveRecord.eventTimeUtc)
      (streamed.map ArchiveRecord.eventTimeUtc) t) : overlapOf archived streamed = [] := by
    simp [overlapOf, hnone]
  rw [compareIndexed]
  split
  · next bounds bounds' hbounds hbounds' =>
    have hin : ∀ t, InOverlap (archived.map ArchiveRecord.eventTimeUtc) (streamed.map ArchiveRecord.eventTimeUtc) t ↔
        max bounds.1 bounds'.1 ≤ t ∧ t ≤ min bounds.2 bounds'.2 := by
      intro t
      rw [InOverlap, harchive.coverage_some hbounds, hstream.coverage_some hbounds', max_le_iff, le_min_iff]
      exact and_and_and_comm
    generalize max bounds.1 bounds'.1 = first at hin ⊢
    generalize min bounds.2 bounds'.2 = last at hin ⊢
    dsimp only
    by_cases hdisjoint : last < first
    · have hnone : ∀ t, ¬ InOverlap (archived.map ArchiveRecord.eventTimeUtc)
          (streamed.map ArchiveRecord.eventTimeUtc) t := by
        intro t ht
        obtain ⟨hfirst, hlast⟩ := (hin t).mp ht
        exact absurd (hfirst.trans hlast) (not_le.mpr hdisjoint)
      rw [if_pos hdisjoint, hempty hnone]
      simp [hnone, eq_comm]
    · have hlength : (sortBy Prod.fst (archiveByTime.entries.filter fun entry => first ≤ entry.1 ∧ entry.1 ≤ last)).length
          = (overlapOf archived streamed).length := by
        rw [(perm_sortBy _ _).length_eq, harchive.entries, List.filter_map, List.length_map, overlapOf]
        simp only [hin]
        rfl
      simp only [if_neg hdisjoint, bind_eq_ok, foldlM_compareInstant, Unique.exists_iff, PUnit.default_eq_unit,
        forM_eq_ok, refuseStreamOnly, raiseIf_eq_ok, pure_eq_ok, hlength, zero_add]
      constructor
      · rintro ⟨_, ⟨hheld, rfl⟩, honly, rfl⟩
        refine ⟨fun record hrecord => ?_, rfl⟩
        obtain ⟨hfirst, hlast⟩ := (hin _).mp hrecord
        have hstreamed : ∀ other ∈ archived, other.eventTimeUtc = record.eventTimeUtc →
            streamByTime.get? record.eventTimeUtc = some other := by
          intro other hother htime
          refine hheld (record.eventTimeUtc, other) ((mem_sortBy _).mpr (List.mem_filter.mpr ⟨?_, ?_⟩))
          · rw [harchive.entries, List.mem_map]
            exact ⟨other, hother, by rw [htime]⟩
          · exact decide_eq_true ⟨hfirst, hlast⟩
        constructor
        · intro hmem
          exact (hstream.get?.mp (hstreamed record hmem rfl)).1
        · intro hmem
          have hkey : record.eventTimeUtc ∈ streamByTime.keys := hstream.keys ▸ List.mem_map_of_mem hmem
          have harchived : record.eventTimeUtc ∈ archiveByTime.keys := by
            by_contra hmissing
            exact honly _ hkey ⟨hfirst, hlast, hmissing⟩
          rw [harchive.keys] at harchived
          obtain ⟨other, hother, htime⟩ := List.mem_map.mp harchived
          have hsame := (hstream.get?.mpr ⟨hmem, rfl⟩).symm.trans (hstreamed other hother htime)
          rwa [Option.some.inj hsame]
      · rintro ⟨hsame, rfl⟩
        refine ⟨_, ⟨fun entry hentry => ?_, rfl⟩, fun t ht => ?_, rfl⟩
        · obtain ⟨hmem, hinside⟩ := List.mem_filter.mp ((mem_sortBy _).mp hentry)
          rw [harchive.entries] at hmem
          obtain ⟨record, hrecord, rfl⟩ := List.mem_map.mp hmem
          exact hstream.get?.mpr ⟨(hsame record ((hin _).mpr (of_decide_eq_true hinside))).mp hrecord, rfl⟩
        · rintro ⟨hfirst, hlast, hmissing⟩
          rw [hstream.keys] at ht
          obtain ⟨record, hrecord, rfl⟩ := List.mem_map.mp ht
          have harchived := (hsame record ((hin _).mpr ⟨hfirst, hlast⟩)).mpr hrecord
          exact hmissing (harchive.keys ▸ List.mem_map_of_mem harchived)
  · next hbounds =>
    have hnone : ∀ t, ¬ InOverlap (archived.map ArchiveRecord.eventTimeUtc)
        (streamed.map ArchiveRecord.eventTimeUtc) t := by
      intro t ht
      cases harchived : coverage archiveByTime with
      | none => exact harchive.coverage_none harchived t ht.1
      | some bounds =>
        cases hstreamed : coverage streamByTime with
        | none => exact hstream.coverage_none hstreamed t ht.2
        | some bounds' => exact hbounds bounds bounds' harchived hstreamed
    rw [hempty hnone]
    simp [hnone, eq_comm]

/-- The gate returns exactly where both sources hold one record an instant and the same records inside the
    overlap, and then how many the overlap holds. -/
theorem assertCrossSourceAgreement_eq_ok {total : ℤ} :
    assertCrossSourceAgreement archived streamed source = .ok total ↔
      SourcesAgree archived streamed ∧ total = (overlapOf archived streamed).length := by
  simp only [assertCrossSourceAgreement, bind_eq_ok, indexByEventTime_eq_ok]
  constructor
  · rintro ⟨archiveByTime, ⟨harchivedOnce, harchive⟩, streamByTime, ⟨hstreamedOnce, hstream⟩, hcompared⟩
    obtain ⟨hsame, htotal⟩ := (compareIndexed_eq_ok ⟨harchive⟩ ⟨hstream⟩).mp hcompared
    exact ⟨⟨harchivedOnce, hstreamedOnce, hsame⟩, htotal⟩
  · rintro ⟨hagree, htotal⟩
    have hindex : ∀ records : List ArchiveRecord, (records.map ArchiveRecord.eventTimeUtc).Nodup →
        ∃ indexed : Dict DateTime ArchiveRecord,
          indexed.entries = records.map fun record => (record.eventTimeUtc, record) := by
      intro records hnodup
      refine ⟨⟨records.map fun record => (record.eventTimeUtc, record), ?_⟩, rfl⟩
      rwa [List.map_map]
    obtain ⟨archiveByTime, harchive⟩ := hindex archived hagree.archivedOnce
    obtain ⟨streamByTime, hstream⟩ := hindex streamed hagree.streamedOnce
    exact ⟨_, ⟨hagree.archivedOnce, harchive⟩, _, ⟨hagree.streamedOnce, hstream⟩,
      (compareIndexed_eq_ok ⟨harchive⟩ ⟨hstream⟩).mpr ⟨hagree.same, htotal⟩⟩

theorem indexByEventTime_error {records : List ArchiveRecord} {side : String} {e : PyError}
    (h : indexByEventTime records side source = .error e) : e.kind = .qualityGate := by
  obtain ⟨indexed, record, _, hfile⟩ := foldlM_error h
  rcases bind_eq_error hfile with hraised | ⟨_, _, hset⟩
  · exact raiseIf_error hraised
  · cases hset

theorem compareInstant_error {streamByTime : Dict DateTime ArchiveRecord} {first last : DateTime} {compared : ℤ}
    {entry : DateTime × ArchiveRecord} {e : PyError}
    (h : compareInstant streamByTime first last source compared entry = .error e) : e.kind = .qualityGate := by
  rw [compareInstant] at h
  split at h
  · cases h
    rfl
  · rcases bind_eq_error h with hraised | ⟨_, _, hnext⟩
    · exact raiseIf_error hraised
    · cases hnext

/-- Whatever the gate raises is its own refusal. -/
theorem assertCrossSourceAgreement_error {e : PyError}
    (h : assertCrossSourceAgreement archived streamed source = .error e) : e.kind = .qualityGate := by
  rcases bind_eq_error h with hindex | ⟨archiveByTime, _, h⟩
  · exact indexByEventTime_error hindex
  rcases bind_eq_error h with hindex | ⟨streamByTime, _, h⟩
  · exact indexByEventTime_error hindex
  rw [compareIndexed] at h
  split at h
  · dsimp only at h
    split at h
    · cases h
    · rcases bind_eq_error h with hinside | ⟨compared, _, h⟩
      · obtain ⟨_, _, _, hstep⟩ := foldlM_error hinside
        exact compareInstant_error hstep
      · rcases bind_eq_error h with honly | ⟨_, _, hreturn⟩
        · obtain ⟨t, _, hraised⟩ := forM_error honly
          exact raiseIf_error hraised
        · cases hreturn
  · cases h

/-- Sources that agree are counted, and sources that do not are refused. -/
theorem assertCrossSourceAgreement_verdict (archived streamed : List ArchiveRecord) (source : String) :
    (SourcesAgree archived streamed →
      assertCrossSourceAgreement archived streamed source = .ok (overlapOf archived streamed).length) ∧
    (¬ SourcesAgree archived streamed →
      ∃ message, assertCrossSourceAgreement archived streamed source = raise .qualityGate message) := by
  refine ⟨fun hagree => assertCrossSourceAgreement_eq_ok.mpr ⟨hagree, rfl⟩, fun hagree => ?_⟩
  cases hgate : assertCrossSourceAgreement archived streamed source with
  | ok total => exact absurd (assertCrossSourceAgreement_eq_ok.mp hgate).1 hagree
  | error e =>
    obtain ⟨kind, message⟩ := e
    obtain rfl : kind = .qualityGate := assertCrossSourceAgreement_error hgate
    exact ⟨message, rfl⟩

end Verdict

end FinanceKing.Data
