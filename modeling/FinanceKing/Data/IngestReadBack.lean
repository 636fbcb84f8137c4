import FinanceKing.Data.Backfill
import FinanceKing.Domain.Results

/-! What an ingested partition is worth to its reader. The ordering gate lets two bars share an instant,
    the cadence gate sees no step between them, and the reader refuses them: a partition reads back
    exactly when no two accepted rows open together. -/

namespace FinanceKing.Data

open Lib

variable {Bytes : Type}

/-! ### What is accepted -/

/-- The rows of one archive that become records, in file order. -/
def ArchiveMember.acceptedRecords (tools : ArchiveTools Bytes) (member : ArchiveMember Bytes) :
    List KlineRecord :=
  match tools.extractSingleMember member.archiveBytes member.source with
  | .ok text =>
    match splitRows text member.source member.spec.archiveFormat.hasHeaderRow klineColumns with
    | .ok rows => klineParser.acceptedRows rows member.spec
    | .error _ => []
  | .error _ => []

/-- The rows accepted from the archives of a partition, in the order they are concatenated. -/
def acceptedRecords (tools : ArchiveTools Bytes) (members : List (ArchiveMember Bytes)) :
    List KlineRecord :=
  members.flatMap (ArchiveMember.acceptedRecords tools)

/-- What the gates let through of one archive is what its parser accepts. -/
theorem gateKlines_records {tools : ArchiveTools Bytes} {member : ArchiveMember Bytes}
    {gated : List KlineRecord × IngestionOutcome} (h : gateKlines tools member = .ok gated) :
    gated.1 = member.acceptedRecords tools := by
  simp only [gateKlines, gateRows, DatasetParser.parseText, bind_eq_ok, relabelHeader_eq_ok,
    DatasetParser.foldlM_takeRow] at h
  obtain ⟨_, ⟨_, _, text, htext, rows, hrows, _, _, _, ⟨rows', hrows', _, ⟨_, rfl⟩, _, _, _, _, hparsed⟩, _, _,
    _, _, _, _, _, _, _, _, hkept⟩, _, _, hreturn⟩ := h
  injection hreturn with hgated
  injection hkept with hkept
  injection hparsed with hparsed
  rw [hrows] at hrows'
  obtain rfl := Except.ok.inj hrows'
  have hsplit : splitRows text member.source member.spec.archiveFormat.hasHeaderRow klineColumns = .ok rows :=
    hrows
  rw [← hgated, ← hkept, ← hparsed, ArchiveMember.acceptedRecords, htext]
  simp only [hsplit, List.nil_append]
  rfl

theorem gateMembers_records {tools : ArchiveTools Bytes} : ∀ {members : List (ArchiveMember Bytes)}
    {gated : List (List KlineRecord × IngestionOutcome)}, gateMembers tools members = .ok gated →
    gated.flatMap (·.1) = acceptedRecords tools members
  | [], gated, h => by
    injection h with h
    rw [← h]
    rfl
  | member :: members, gated, h => by
    simp only [gateMembers, List.mapM_cons, bind_eq_ok] at h
    obtain ⟨first, hfirst, rest, hrest, hreturn⟩ := h
    injection hreturn with hgated
    rw [← hgated, List.flatMap_cons, gateKlines_records hfirst, gateMembers_records hrest]
    rfl

/-- The interval of a kline partition has a declared duration once the cadence gate has run. -/
structure Gated (tools : ArchiveTools Bytes) (members : List (ArchiveMember Bytes))
    (partition : KlinePartition) (records : List KlineRecord) (gaps : List CadenceGap) : Prop where
  accepted : records = acceptedRecords tools members
  nonempty : records ≠ []
  monotone : (records.map KlineRecord.eventTimeUtc).Pairwise (· ≤ ·)
  cadence : ∃ interval duration, partition.coordinate.interval = some interval ∧
    cadenceIntervals.lookup interval = some duration ∧ gaps = cadenceGaps duration records

theorem gatePartition_gated {tools : ArchiveTools Bytes} {members : List (ArchiveMember Bytes)}
    {partition : KlinePartition} {records : List KlineRecord} {outcomes : List IngestionOutcome}
    {gaps : List CadenceGap}
    (h : gatePartition tools members partition = .ok (records, outcomes, gaps)) :
    Gated tools members partition records gaps := by
  simp only [gatePartition, bind_eq_ok, raiseIf_eq_ok, assertBarTimestampsAreMonotone_eq_ok] at h
  obtain ⟨_, _, _, _, gated, hgated, _, hnonempty, _, _, _, hmonotone, found, hfound, hreturn⟩ := h
  injection hreturn with hpair
  injection hpair with hrecords hrest
  injection hrest with _ hgaps
  rw [hrecords] at hnonempty hmonotone hfound
  refine ⟨?_, hnonempty, hmonotone, ?_⟩
  · rw [← hrecords]
    exact gateMembers_records hgated
  · have hchecked := partition.coordinate.checked
    simp only [ArchiveCoordinateFields.postInit, bind_eq_ok, raiseIf_eq_ok] at hchecked
    obtain ⟨_, _, _, hneeds, _⟩ := hchecked
    cases hinterval : partition.coordinate.interval with
    | none => simp [Dataset.needsInterval, partition.isKlines, hinterval] at hneeds
    | some interval =>
      rw [hinterval] at hfound
      simp only [cadenceReport, detectCadenceGaps] at hfound
      cases hduration : cadenceIntervals.lookup interval with
      | none => simp [hduration, raise] at hfound
      | some duration =>
        rw [hduration] at hfound
        injection hfound with hfound
        exact ⟨interval, duration, rfl, hduration, hgaps.symm.trans hfound.symm⟩

/-! ### What is written -/

/-- The instants a file's rows open at. -/
def PartitionFile.openTimes (self : PartitionFile) : List DateTime :=
  self.rows.filterMap fun row => row.openTimeUtc.moment?

theorem openTimes_rows (records : List KlineRecord) (digest : String) (ingestedAtUtc : DateTime) :
    (PartitionFile.mk (records.map KlineRecord.row) digest ingestedAtUtc).openTimes =
      records.map KlineRecord.openTimeUtc := by
  simp [PartitionFile.openTimes, List.filterMap_map, Function.comp_def, KlineRecord.row,
    StoredMoment.moment?]

/-- What a write that returned did: it replaced the file, or found its digest there already. -/
structure Writes (corpus : Corpus) (tools : ParquetTools) (records : List KlineRecord)
    (coordinate : ArchiveCoordinate) (ingestedAtUtc : DateTime) (after : Corpus)
    (written : WriteOutcome) : Prop where
  inside : ∀ record ∈ records, yearMonth (dateOf record.openTimeUtc) = yearMonth coordinate.archiveDate
  rowsWritten : written.rowsWritten = records.length
  digest : written.contentDigestHex =
    tools.contentDigest (sortBy KlineRecord.eventTimeUtc records) .archive
  stored : written.wasRewritten = true ∧ after = corpus.set (partitionKey coordinate)
      ⟨(sortBy KlineRecord.eventTimeUtc records).map KlineRecord.row, written.contentDigestHex,
        ingestedAtUtc⟩ ∨
    written.wasRewritten = false ∧ after = corpus ∧
      corpus.alreadyHolds (partitionKey coordinate) written.contentDigestHex

/-- A write changes the corpus only where it returns. -/
theorem writeRecords_cases (corpus : Corpus) (tools : ParquetTools) (records : List KlineRecord)
    (coordinate : ArchiveCoordinate) (ingestedAtUtc : DateTime) :
    (∃ e, corpus.writeRecords tools records coordinate .archive ingestedAtUtc = (corpus, .error e)) ∨
    ∃ after written, corpus.writeRecords tools records coordinate .archive ingestedAtUtc =
      (after, .ok written) ∧ Writes corpus tools records coordinate ingestedAtUtc after written := by
  rw [Corpus.writeRecords]
  split
  · exact .inl ⟨_, rfl⟩
  · next hchecks =>
    simp only [bind_eq_ok, forM_eq_ok, requireInsidePartition, raiseIf_eq_ok, not_not] at hchecks
    obtain ⟨_, _, hinside⟩ := hchecks
    have hrecords : ∀ record ∈ records,
        yearMonth (dateOf record.openTimeUtc) = yearMonth coordinate.archiveDate := by
      intro record hrecord
      exact hinside record ((mem_sortBy _).mpr hrecord)
    have hlength : ((sortBy KlineRecord.eventTimeUtc records).length : ℤ) = records.length := by
      rw [(perm_sortBy _ records).length_eq]
    split
    · next hholds => exact .inr ⟨_, _, rfl, hrecords, hlength, rfl, .inr ⟨rfl, rfl, hholds⟩⟩
    · split
      · exact .inl ⟨_, rfl⟩
      · exact .inr ⟨_, _, rfl, hrecords, hlength, rfl, .inl ⟨rfl, rfl⟩⟩

/-- A refused ingestion leaves the corpus as it was. -/
theorem ingestPartition_refused {tools : ArchiveTools Bytes} {corpus : Corpus}
    {members : List (ArchiveMember Bytes)} {partition : KlinePartition} {ingestedAtUtc : DateTime}
    {e : PyError} (h : (ingestPartition tools corpus members partition ingestedAtUtc).2 = .error e) :
    (ingestPartition tools corpus members partition ingestedAtUtc).1 = corpus := by
  rw [ingestPartition] at h ⊢
  split at h
  · rfl
  · next records outcomes gaps hgate =>
    rcases writeRecords_cases corpus tools.toParquetTools records partition.coordinate
      ingestedAtUtc with ⟨_, hwrite⟩ | ⟨_, _, hwrite, _⟩ <;> simp only [hwrite] at h ⊢
    cases h

/-- What an ingestion that returned did with the rows its gates accepted. -/
structure Ingests (tools : ArchiveTools Bytes) (corpus : Corpus) (members : List (ArchiveMember Bytes))
    (partition : KlinePartition) (ingestedAtUtc : DateTime) (after : Corpus)
    (ingested : PartitionIngestion) : Prop where
  gated : Gated tools members partition (acceptedRecords tools members) ingested.cadenceGaps
  writes : Writes corpus tools.toParquetTools (acceptedRecords tools members) partition.coordinate
    ingestedAtUtc after ingested.write
  first : ingested.firstEventTimeUtc =
    ((acceptedRecords tools members).head?.map KlineRecord.eventTimeUtc).getD 0
  last : ingested.lastEventTimeUtc =
    ((acceptedRecords tools members).getLast?.map KlineRecord.eventTimeUtc).getD 0

theorem ingestPartition_ingests {tools : ArchiveTools Bytes} {corpus after : Corpus}
    {members : List (ArchiveMember Bytes)} {partition : KlinePartition} {ingestedAtUtc : DateTime}
    {ingested : PartitionIngestion}
    (h : ingestPartition tools corpus members partition ingestedAtUtc = (after, .ok ingested)) :
    Ingests tools corpus members partition ingestedAtUtc after ingested := by
  rw [ingestPartition] at h
  split at h
  · cases h
  · next records outcomes gaps hgate =>
    have hgated := gatePartition_gated hgate
    obtain rfl := hgated.accepted
    rcases writeRecords_cases corpus tools.toParquetTools (acceptedRecords tools members)
      partition.coordinate ingestedAtUtc with ⟨_, hwrite⟩ | ⟨stored, written, hwrite, hwrites⟩ <;>
        simp only [hwrite] at h
    · cases h
    · injection h with hafter hresult
      injection hresult with hingested
      rw [← hafter, ← hingested]
      exact ⟨hgated, hwrites, rfl, rfl⟩

/-- The accepted rows are in order already, so the file holds them as they were concatenated. -/
theorem Ingests.file {tools : ArchiveTools Bytes} {corpus after : Corpus}
    {members : List (ArchiveMember Bytes)} {partition : KlinePartition} {ingestedAtUtc : DateTime}
    {ingested : PartitionIngestion}
    (h : Ingests tools corpus members partition ingestedAtUtc after ingested)
    (hrewritten : ingested.write.wasRewritten) :
    after.get? (partitionKey partition.coordinate) =
      some ⟨(acceptedRecords tools members).map KlineRecord.row, ingested.write.contentDigestHex,
        ingestedAtUtc⟩ := by
  rcases h.writes.stored with ⟨_, hafter⟩ | ⟨hheld, _, _⟩
  · rw [hafter, Dict.get?_set_self, sortBy_eq_self _ (List.pairwise_map.mp h.gated.monotone)]
  · rw [hheld] at hrewritten
    cases hrewritten

/-! ### Rows and missing bars -/

theorem pos_of_lookup_cadenceIntervals {interval : String} {duration : TimeDelta}
    (h : cadenceIntervals.lookup interval = some duration) : 0 < duration := by
  have hall : ∀ entry ∈ cadenceIntervals, 0 < entry.2 := by decide
  obtain ⟨before, rest, hentries, _⟩ := List.lookup_eq_some_iff.mp h
  refine hall (interval, duration) ?_
  rw [hentries]
  exact List.mem_append_right _ List.mem_cons_self

theorem cadenceGapsFrom_cons (duration : TimeDelta) (previous : DateTime) (record : KlineRecord)
    (records : List KlineRecord) : cadenceGapsFrom duration previous (record :: records) =
      if record.openTimeUtc - previous ≤ duration then
        cadenceGapsFrom duration record.openTimeUtc records
      else ⟨previous, record.openTimeUtc, missingBars (record.openTimeUtc - previous) duration⟩ ::
        cadenceGapsFrom duration record.openTimeUtc records := rfl

/-- The instant of the last record, or the one before them all. -/
def lastTime (previous : DateTime) : List KlineRecord → DateTime
  | [] => previous
  | record :: records => lastTime record.openTimeUtc records

/-- Over strictly later bars on the lattice, every interval ends at a bar or is counted as missing. -/
theorem length_add_missing {duration : TimeDelta} (hduration : 0 < duration) :
    ∀ (records : List KlineRecord) (previous : DateTime), duration ∣ previous →
      (∀ record ∈ records, duration ∣ record.openTimeUtc) →
      (previous :: records.map KlineRecord.openTimeUtc).IsChain (· < ·) →
      ((records.length : ℤ) + ((cadenceGapsFrom duration previous records).map
        CadenceGap.missingBarCount).sum) * duration = lastTime previous records - previous
  | [], previous, _, _, _ => by simp [cadenceGapsFrom, lastTime]
  | record :: records, previous, hprevious, hlattice, hchain => by
    rw [List.map_cons, List.isChain_cons_cons] at hchain
    have hcurrent := hlattice record List.mem_cons_self
    have hrest := length_add_missing hduration records record.openTimeUtc hcurrent
      (fun other hother => hlattice other (List.mem_cons_of_mem _ hother)) hchain.2
    obtain ⟨steps, hsteps⟩ : duration ∣ record.openTimeUtc - previous := Int.dvd_sub hcurrent hprevious
    have hpositive : 0 < steps := by
      have hforward : 0 < duration * steps := hsteps ▸ sub_pos.mpr hchain.1
      exact (pos_iff_pos_of_mul_pos hforward).mp hduration
    simp only [cadenceGapsFrom_cons, lastTime, List.length_cons]
    by_cases hshort : record.openTimeUtc - previous ≤ duration
    · have hle : duration * steps ≤ duration * 1 := by
        rw [mul_one, ← hsteps]
        exact hshort
      have hone : steps = 1 := le_antisymm (le_of_mul_le_mul_left hle hduration) hpositive
      rw [if_pos hshort]
      rw [hone, mul_one] at hsteps
      push_cast
      linarith
    · have hcount : missingBars (record.openTimeUtc - previous) duration = steps - 1 := by
        rw [missingBars, hsteps, Int.mul_ediv_cancel_left _ hduration.ne', Int.mul_emod_right]
        simp
      rw [if_neg hshort, List.map_cons, List.sum_cons, hcount]
      push_cast
      linarith

/-! ### The reader -/

/-- The corpus that holds one file and nothing else. -/
def Corpus.alone (key : PartitionKey) (file : PartitionFile) : Corpus := Dict.empty.set key file

theorem resolveUnits_error {market : Market} {months : List YearMonth} {e : PyError}
    (h : resolveUnits market months = .error e) : e.kind = .ambiguousEpochUnit := by
  have hmonth : ∀ period ∈ months,
      (∃ unit, (do let unit ← resolvePartitionEpochUnit market period; return (period, unit)) =
        (.ok unit : PyResult (YearMonth × EpochUnit)) ∧ True) ∨
      ∃ e, (do let unit ← resolvePartitionEpochUnit market period; return (period, unit)) =
        (.error e : PyResult (YearMonth × EpochUnit)) ∧ e.kind = .ambiguousEpochUnit := by
    intro period _
    cases hunit : resolvePartitionEpochUnit market period with
    | ok unit => exact .inl ⟨_, rfl, trivial⟩
    | error refusal =>
      refine .inr ⟨refusal, rfl, ?_⟩
      rw [resolvePartitionEpochUnit] at hunit
      repeat' split at hunit
      all_goals first
        | cases hunit
          done
        | injection hunit with hunit
          rw [← hunit]
  rcases mapM_cases (fun _ _ => True) (fun _ e => e.kind = .ambiguousEpochUnit) hmonth with
    ⟨_, hok, _⟩ | ⟨_, _, _, herror, hkind⟩
  · rw [resolveUnits, hok] at h
    cases h
  · rw [resolveUnits, herror] at h
    injection h with h
    exact h ▸ hkind

/-- The bar the reader makes of a row the writer wrote. -/
def KlineRecord.bar (self : KlineRecord) : ArchiveBar :=
  ⟨self.openTimeUtc, self.closeTimeUtc, self.openQuotePrice, self.highQuotePrice, self.lowQuotePrice,
    self.closeQuotePrice, self.baseVolume, self.tradeCount⟩

theorem barFrom_row (record : KlineRecord) (located : String) (unit : EpochUnit) (nowUtc : DateTime) :
    barFrom record.row located unit nowUtc = .ok record.bar := rfl

theorem scan_alone (key : PartitionKey) (file : PartitionFile) (series : SeriesKey)
    (months : List YearMonth) : (Corpus.alone key file).scan series months =
      if key.1 = series ∧ key.2 ∈ months then file.rows.map fun row => (key.2, row) else [] := by
  rw [Corpus.scan]
  exact List.flatMap_singleton _ _

/-- Rows whose instants are stored as such are read, in whatever order the scan returned them. -/
theorem readRows_written (located : String) (units : List (YearMonth × EpochUnit)) (nowUtc : DateTime)
    {period : YearMonth} {records : List KlineRecord} {rows : List (YearMonth × CorpusRow)}
    (h : rows.Perm (records.map fun record => (period, record.row))) :
    ∃ bars, readRows located units nowUtc rows = .ok bars ∧
      (bars.map ArchiveBar.openTimeUtc).Perm (records.map KlineRecord.openTimeUtc) := by
  have hrow : ∀ row ∈ rows, ∃ bar, barFrom row.2 located (unitOf units row.1) nowUtc = .ok bar ∧
      StoredMoment.instant bar.openTimeUtc = row.2.openTimeUtc := by
    intro row hrow
    obtain ⟨record, _, rfl⟩ := List.mem_map.mp (h.mem_iff.mp hrow)
    exact ⟨record.bar, barFrom_row record located _ nowUtc, rfl⟩
  obtain ⟨bars, hbars, hall⟩ := exists_mapM (fun (bar : ArchiveBar) (row : YearMonth × CorpusRow) =>
    StoredMoment.instant bar.openTimeUtc = row.2.openTimeUtc) hrow
  refine ⟨bars, hbars, ?_⟩
  have hmoments : bars.map (fun bar => StoredMoment.instant bar.openTimeUtc) =
      rows.map fun row => row.2.openTimeUtc := List.forall₂_eq_eq_eq ▸
    (List.forall₂_map_left_iff.mpr (List.forall₂_map_right_iff.mpr hall))
  have hperm := (h.map fun row => row.2.openTimeUtc).filterMap StoredMoment.moment?
  rw [← hmoments] at hperm
  simpa [List.filterMap_map, Function.comp_def, StoredMoment.moment?, KlineRecord.row] using hperm

theorem ArchiveCoordinateFields.postInit_error {fields : ArchiveCoordinateFields} {e : PyError}
    (h : fields.postInit = .error e) : e.kind = .dataIntegrity := by
  rw [ArchiveCoordinateFields.postInit] at h
  rcases bind_eq_error h with h | ⟨_, _, h⟩
  · exact raiseIf_error h
  rcases bind_eq_error h with h | ⟨_, _, h⟩
  · exact raiseIf_error h
  · exact raiseIf_error h

/-- Read on its own, a file the writer wrote is never refused for what it holds, unless two of its rows open
    together. -/
theorem readSeries_alone {order : ScanOrder} {key : PartitionKey} {records : List KlineRecord}
    {digest symbol barInterval : String} {ingestedAtUtc fromUtc untilUtc nowUtc : DateTime}
    {market : Market} {e : PyError} (hdistinct : (records.map KlineRecord.openTimeUtc).Nodup)
    (h : (Corpus.alone key ⟨records.map KlineRecord.row, digest, ingestedAtUtc⟩).readSeries order market
      symbol barInterval fromUtc untilUtc nowUtc = .error e) : e.kind ≠ .corpusIntegrity := by
  by_cases hseries : (Corpus.alone key ⟨records.map KlineRecord.row, digest, ingestedAtUtc⟩).hasSeries
      ⟨market, .klines, symbol, barInterval⟩
  · rw [Corpus.readSeries_eq _ hseries] at h
    cases hunits : resolveUnits market (monthsBetween fromUtc untilUtc) with
    | error refusal =>
      rw [hunits] at h
      injection h with h
      rw [← h, resolveUnits_error hunits]
      decide
    | ok units =>
      have hscan : ∃ kept : List KlineRecord, kept.Sublist records ∧ (order.arrange ((Corpus.alone key
          ⟨records.map KlineRecord.row, digest, ingestedAtUtc⟩).scan
          ⟨market, .klines, symbol, barInterval⟩ (monthsBetween fromUtc untilUtc))).Perm
            (kept.map fun record => (key.2, record.row)) := by
        rw [scan_alone]
        split
        · exact ⟨records, List.Sublist.refl _, by simpa [Function.comp_def] using order.perm _⟩
        · exact ⟨[], List.nil_sublist _, order.perm _⟩
      obtain ⟨kept, hkept, hperm⟩ := hscan
      obtain ⟨bars, hbars, htimes⟩ :=
        readRows_written (market.value ++ "/" ++ symbol) units nowUtc hperm
      have hbarsDistinct : (bars.map ArchiveBar.openTimeUtc).Nodup :=
        htimes.nodup_iff.mpr (hdistinct.sublist (hkept.map _))
      have hinside : requireDistinctOpenTimes (market.value ++ "/" ++ symbol)
          (barsInside fromUtc untilUtc bars) = .ok () := by
        rw [requireDistinctOpenTimes_eq_ok, barsInside,
          ((perm_sortBy ArchiveBar.openTimeUtc _).map _).nodup_iff]
        exact hbarsDistinct.sublist (List.filter_sublist.map _)
      cases hcoordinate : ArchiveCoordinateFields.postInit
          ⟨market, .klines, symbol, dateOf fromUtc, some barInterval⟩ with
      | error refusal =>
        simp only [hunits, bind, Except.bind, hcoordinate] at h
        injection h with h
        rw [← h, ArchiveCoordinateFields.postInit_error hcoordinate]
        decide
      | ok checked =>
        simp only [hunits, bind, Except.bind, hcoordinate, hbars, hinside] at h
        cases h
  · rw [Corpus.readSeries, if_pos hseries] at h
    cases h

/-! ### Read back exactly when no two accepted rows open together -/

/-- What the feed needs of a partition file, and what the gaps recorded beside it say about its rows. -/
structure ReadsBack (coordinate : ArchiveCoordinate) (file : PartitionFile)
    (ingested : PartitionIngestion) : Prop where
  increasing : file.openTimes.Pairwise (· < ·)
  accepted : ∀ (order : ScanOrder) (fromUtc untilUtc nowUtc : DateTime) (e : PyError),
    (Corpus.alone (partitionKey coordinate) file).readSeries order coordinate.market coordinate.symbol
      (coordinate.interval.getD noInterval) fromUtc untilUtc nowUtc = .error e →
    e.kind ≠ .corpusIntegrity
  counted : ∀ interval duration first last, coordinate.interval = some interval →
    cadenceIntervals.lookup interval = some duration → file.openTimes.head? = some first →
    file.openTimes.getLast? = some last → (∀ moment ∈ file.openTimes, duration ∣ moment) →
    ingested.write.rowsWritten + (ingested.cadenceGaps.map CadenceGap.missingBarCount).sum =
      (last - first) / duration + 1

theorem getLast?_cons_lastTime : ∀ (records : List KlineRecord) (previous : DateTime),
    (previous :: records.map KlineRecord.openTimeUtc).getLast? = some (lastTime previous records)
  | [], _ => rfl
  | record :: records, previous => by
    rw [List.map_cons, List.getLast?_cons_cons, getLast?_cons_lastTime]
    rfl

/-- The rows and the recorded missing bars together tile the span of a partition on the lattice. -/
theorem rows_add_missing {duration : TimeDelta} {records : List KlineRecord} {first last : DateTime}
    (hduration : 0 < duration) (hincreasing : (records.map KlineRecord.openTimeUtc).Pairwise (· < ·))
    (hfirst : (records.map KlineRecord.openTimeUtc).head? = some first)
    (hlast : (records.map KlineRecord.openTimeUtc).getLast? = some last)
    (hlattice : ∀ moment ∈ records.map KlineRecord.openTimeUtc, duration ∣ moment) :
    (records.length : ℤ) + ((cadenceGaps duration records).map CadenceGap.missingBarCount).sum =
      (last - first) / duration + 1 := by
  cases records with
  | nil => cases hfirst
  | cons record records =>
    rw [List.map_cons] at hincreasing hfirst hlast
    rw [getLast?_cons_lastTime] at hlast
    obtain rfl := Option.some.inj hfirst
    obtain rfl := Option.some.inj hlast
    have hcount := length_add_missing hduration records record.openTimeUtc
      (hlattice _ List.mem_cons_self)
      (fun other hother => hlattice _ (List.mem_cons_of_mem _ (List.mem_map_of_mem hother)))
      (List.isChain_iff_pairwise.mpr hincreasing)
    have hgaps : cadenceGaps duration (record :: records) =
        cadenceGapsFrom duration record.openTimeUtc records := rfl
    rw [hgaps, ← hcount, Int.mul_ediv_cancel _ hduration.ne', List.length_cons]
    push_cast
    ring

/-- Everything one call of `ingest_partition` promises: a refusal leaves the files as they were, a visit
    it refuses leaves the registry too, and a file it wrote reads back exactly when no two of the rows
    accepted for it open together. -/
structure IngestContract (tools : ArchiveTools Bytes) (members : List (ArchiveMember Bytes))
    (partition : KlinePartition) (ingestedAtUtc : DateTime) (corpus : Corpus) : Prop where
  refused : ∀ e, (ingestPartition tools corpus members partition ingestedAtUtc).2 = .error e →
    (ingestPartition tools corpus members partition ingestedAtUtc).1 = corpus
  visitRefused : ∀ (registry : IngestTables) (store : ObjectStore Bytes) (request : BackfillRequest)
    (plan : PartitionPlan) (present : List (FetchedMember Bytes)) (e : PyError),
    visitMembers store request plan ⟨corpus, registry⟩ = .ok (present, members) →
    (ingestPartition tools corpus members (plan.partition request.series) request.nowUtc).2 =
      .error e →
    (BackfillWorld.backfillPartition ⟨corpus, registry⟩ tools store request plan).1 = ⟨corpus, registry⟩
  held : ∀ after ingested, ingestPartition tools corpus members partition ingestedAtUtc =
    (after, .ok ingested) → ingested.write.wasRewritten = false → after = corpus
  written : ∀ after ingested, ingestPartition tools corpus members partition ingestedAtUtc =
    (after, .ok ingested) → ingested.write.wasRewritten = true →
    ∃ file, after.get? (partitionKey partition.coordinate) = some file ∧
      (ReadsBack partition.coordinate file ingested ↔
        ((acceptedRecords tools members).map KlineRecord.openTimeUtc).Nodup)

theorem backfillPartition_refused {tools : ArchiveTools Bytes} {members : List (ArchiveMember Bytes)}
    {corpus : Corpus} {registry : IngestTables} {store : ObjectStore Bytes} {request : BackfillRequest}
    {plan : PartitionPlan} {present : List (FetchedMember Bytes)} {e : PyError}
    (hmembers : visitMembers store request plan ⟨corpus, registry⟩ = .ok (present, members))
    (hrefused : (ingestPartition tools corpus members (plan.partition request.series)
      request.nowUtc).2 = .error e) :
    (BackfillWorld.backfillPartition ⟨corpus, registry⟩ tools store request plan).1 =
      ⟨corpus, registry⟩ := by
  rw [BackfillWorld.backfillPartition, hmembers]
  split
  · rfl
  · cases present with
    | nil => rfl
    | cons first rest =>
      have hresult : ingestPartition tools corpus members (plan.partition request.series)
          request.nowUtc = (corpus, .error e) := Prod.ext (ingestPartition_refused hrefused) hrefused
      simp only [hresult]

theorem Ingests.readsBack_iff {tools : ArchiveTools Bytes} {corpus after : Corpus}
    {members : List (ArchiveMember Bytes)} {partition : KlinePartition} {ingestedAtUtc : DateTime}
    {ingested : PartitionIngestion} {digest : String}
    (h : Ingests tools corpus members partition ingestedAtUtc after ingested) :
    ReadsBack partition.coordinate
        ⟨(acceptedRecords tools members).map KlineRecord.row, digest, ingestedAtUtc⟩ ingested ↔
      ((acceptedRecords tools members).map KlineRecord.openTimeUtc).Nodup := by
  constructor
  · intro hreads
    have hincreasing := hreads.increasing
    rw [openTimes_rows] at hincreasing
    exact hincreasing.imp ne_of_lt
  · intro hdistinct
    have hincreasing : ((acceptedRecords tools members).map KlineRecord.openTimeUtc).Pairwise (· < ·) :=
      (h.gated.monotone.and hdistinct).imp fun hboth => lt_of_le_of_ne hboth.1 hboth.2
    refine ⟨by rwa [openTimes_rows], ?_, ?_⟩
    · intro order fromUtc untilUtc nowUtc e herror
      exact readSeries_alone hdistinct herror
    · intro interval duration first last hinterval hduration hfirst hlast hlattice
      rw [openTimes_rows] at hfirst hlast hlattice
      obtain ⟨interval', duration', hinterval', hduration', hgaps⟩ := h.gated.cadence
      rw [hinterval] at hinterval'
      obtain rfl := Option.some.inj hinterval'
      rw [hduration] at hduration'
      obtain rfl := Option.some.inj hduration'
      rw [h.writes.rowsWritten, hgaps]
      exact rows_add_missing (pos_of_lookup_cadenceIntervals hduration) hincreasing hfirst hlast hlattice

/-- The contract of an ingestion, at every list of archives and every corpus. -/
theorem ingest_partition_contract (tools : ArchiveTools Bytes) (members : List (ArchiveMember Bytes))
    (partition : KlinePartition) (ingestedAtUtc : DateTime) (corpus : Corpus) :
    IngestContract tools members partition ingestedAtUtc corpus where
  refused _ := ingestPartition_refused
  visitRefused _ _ _ _ _ _ := backfillPartition_refused
  held after ingested hresult hheld := by
    rcases (ingestPartition_ingests hresult).writes.stored with ⟨hrewritten, _⟩ | ⟨_, hafter, _⟩
    · rw [hheld] at hrewritten
      cases hrewritten
    · exact hafter
  written after ingested hresult hrewritten :=
    have hingests := ingestPartition_ingests hresult
    ⟨_, hingests.file hrewritten, hingests.readsBack_iff⟩

/-! ### A repeated row -/

/-- A store of archives that are their own text, verified by one digest. -/
def plainTools : ArchiveTools String where
  contentDigest records _ := String.ofList (records.map fun _ => 'b')
  toTable _ := .ok ()
  sha256Hex _ := String.ofList (List.replicate 64 'a')
  extractSingleMember text _ := .ok text

/-- The minute bars of January 2024. -/
def januaryBars : KlinePartition :=
  ⟨⟨⟨.spot, .klines, "BTCUSDT", 19723, some "1m"⟩, by decide +kernel⟩, rfl⟩

/-- The month's archive, holding its first minute twice. -/
def repeatedRow : ArchiveMember String where
  archiveBytes := "1704067200000,1,1,1,1,0,1704067259999,0,0,0,0,0\n" ++
    "1704067200000,1,1,1,1,0,1704067259999,0,0,0,0,0\n"
  spec := ⟨⟨januaryBars.coordinate,
    ⟨.spot, .klines, .epochMilliseconds, false, none, spotArchiveGenesis, some spotMicrosecondCutover⟩,
    String.ofList (List.replicate 64 'a'), TimeDelta.ofSeconds 1706745600, 1 / 1000⟩, by decide +kernel⟩
  source := "BTCUSDT-1m-2024-01.zip"

/-- The order of the directory listing. -/
def listingOrder : ScanOrder := ⟨id, fun _ => List.Perm.refl _⟩

/-- The kind of exception a call raised. -/
def raisedKind {α : Type} : PyResult α → Option ErrorKind
  | .ok _ => none
  | .error e => some e.kind

/-- An archive that repeats a row passes every gate and is written; its reader refuses the file, and its
    two rows cover one bar. -/
theorem repeated_row_is_not_read_back : ∃ after ingested file,
    ingestPartition plainTools Dict.empty [repeatedRow] januaryBars 0 = (after, .ok ingested) ∧
    ingested.write.wasRewritten = true ∧
    after.get? (partitionKey januaryBars.coordinate) = some file ∧
    ¬ file.openTimes.Pairwise (· < ·) ∧
    raisedKind ((Corpus.alone (partitionKey januaryBars.coordinate) file).readSeries listingOrder .spot
      "BTCUSDT" "1m" (TimeDelta.ofSeconds 1704067200) (TimeDelta.ofSeconds 1704067260) 0) =
        some .corpusIntegrity ∧
    ingested.write.rowsWritten + (ingested.cadenceGaps.map CadenceGap.missingBarCount).sum = 2 ∧
    file.openTimes.head? = file.openTimes.getLast? := by
  have hreported : (ingestPartition plainTools Dict.empty [repeatedRow] januaryBars 0).2.toOption.map
      (fun ingested => (ingested.write.wasRewritten, ingested.write.rowsWritten +
        (ingested.cadenceGaps.map CadenceGap.missingBarCount).sum)) = some (true, 2) := by
    decide +kernel
  have hfile : ((ingestPartition plainTools Dict.empty [repeatedRow] januaryBars 0).1.get?
      (partitionKey januaryBars.coordinate)).map (fun file => (file.openTimes,
        raisedKind ((Corpus.alone (partitionKey januaryBars.coordinate) file).readSeries listingOrder
          .spot "BTCUSDT" "1m" (TimeDelta.ofSeconds 1704067200) (TimeDelta.ofSeconds 1704067260) 0))) =
      some ([1704067200000000, 1704067200000000], some .corpusIntegrity) := by
    decide +kernel
  cases hresult : (ingestPartition plainTools Dict.empty [repeatedRow] januaryBars 0).2 with
  | error e =>
    rw [hresult] at hreported
    cases hreported
  | ok ingested =>
    rw [hresult] at hreported
    obtain ⟨hrewritten, hcount⟩ := Prod.mk.inj (Option.some.inj hreported)
    obtain ⟨file, hget, hread⟩ := Option.map_eq_some_iff.mp hfile
    obtain ⟨htimes, hkind⟩ := Prod.mk.inj hread
    refine ⟨_, ingested, file, Prod.ext rfl hresult, hrewritten, hget, ?_, hkind, hcount, ?_⟩
    · rw [htimes]
      decide
    · rw [htimes]
      rfl

end FinanceKing.Data
