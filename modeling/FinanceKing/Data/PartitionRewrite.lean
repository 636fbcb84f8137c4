import FinanceKing.Data.IngestReadBack

/-! What a rewrite of a partition keeps. The file is written whole, from the archives that are published this
    time; the guard compares the first and the last date they cover with the ones on record. -/

namespace FinanceKing.Data

open Lib

variable {Bytes : Type}

/-- A bar of the file opens on that day. -/
def PartitionFile.HoldsDay (self : PartitionFile) (day : Date) : Prop :=
  ∃ moment ∈ self.openTimes, dateOf moment = day

/-- Where the file of a plan lies. -/
def PartitionPlan.key (plan : PartitionPlan) (request : BackfillRequest) : PartitionKey :=
  (request.series.key, yearMonth plan.periodStartDate)

/-- The corpus holds bars of that day in the file of the plan. -/
def BackfillWorld.HoldsDay (self : BackfillWorld) (request : BackfillRequest) (plan : PartitionPlan)
    (day : Date) : Prop :=
  ∃ file, self.corpus.get? (plan.key request) = some file ∧ file.HoldsDay day

/-- The writer replaces the file: every row is inside the period and fits the schema, and the file does not
    carry the digest of these rows already. -/
def WriterReplaces (corpus : Corpus) (tools : ParquetTools) (records : List KlineRecord)
    (coordinate : ArchiveCoordinate) : Prop :=
  (∀ record ∈ records, yearMonth (dateOf record.openTimeUtc) = yearMonth coordinate.archiveDate) ∧
    tools.toTable (sortBy KlineRecord.eventTimeUtc records) = .ok () ∧
    corpus.alreadyHolds (partitionKey coordinate)
      (tools.contentDigest (sortBy KlineRecord.eventTimeUtc records) .archive) = false

section Visit

variable (tools : ArchiveTools Bytes) (store : ObjectStore Bytes) (request : BackfillRequest)
  (plan : PartitionPlan) (world : BackfillWorld)

/-- The visit refuses and leaves the file and the registry row as they were, or every day the file held is
    still held. -/
def LosesNoDay : Prop :=
  let visited := world.backfillPartition tools store request plan
  (∃ e, visited.2 = .error e ∧
    visited.1.corpus.get? (plan.key request) = world.corpus.get? (plan.key request) ∧
    visited.1.registry.partitionState request.series.key plan.periodStartDate =
      world.registry.partitionState request.series.key plan.periodStartDate) ∨
  ∀ day, world.HoldsDay request plan day → visited.1.HoldsDay request plan day

/-- An archive of the plan is published this time, and one of its rows is a bar of that day. -/
def Serves (day : Date) : Prop :=
  ∃ planned ∈ plan.archives, ∃ archive member,
    store.fetch planned.coordinate planned.granularity = .ok (some archive) ∧
    memberFor request ⟨planned, archive⟩ = .ok member ∧
    ∃ record ∈ member.acceptedRecords tools, dateOf record.openTimeUtc = day

/-- The visit comes to its write: the partition is not complete, an archive is published, neither the guard
    nor a gate refuses, and the writer replaces the file. -/
def ComesToWrite : Prop :=
  isComplete world request plan = false ∧ ∃ present members records outcomes gaps,
    visitMembers store request plan world = .ok (present, members) ∧ present ≠ [] ∧
    gatePartition tools members (plan.partition request.series) = .ok (records, outcomes, gaps) ∧
    WriterReplaces world.corpus tools.toParquetTools records (plan.partition request.series).coordinate

end Visit

/-! ### The write -/

theorem writeRecords_of_replaces {corpus : Corpus} {tools : ParquetTools} {records : List KlineRecord}
    {coordinate : ArchiveCoordinate} (ingestedAtUtc : DateTime) (hne : records ≠ [])
    (h : WriterReplaces corpus tools records coordinate) :
    ∃ written, corpus.writeRecords tools records coordinate .archive ingestedAtUtc =
      (corpus.set (partitionKey coordinate) ⟨(sortBy KlineRecord.eventTimeUtc records).map KlineRecord.row,
        tools.contentDigest (sortBy KlineRecord.eventTimeUtc records) .archive, ingestedAtUtc⟩,
        .ok written) := by
  obtain ⟨hinside, htable, hheld⟩ := h
  rw [Corpus.writeRecords]
  split
  · next e hchecks =>
    have hpassed : (sortBy KlineRecord.eventTimeUtc records).forM (requireInsidePartition coordinate) =
        .ok () := by
      simp only [forM_eq_ok, requireInsidePartition, raiseIf_eq_ok, not_not]
      exact fun record hrecord => hinside record ((mem_sortBy _).mp hrecord)
    rw [raiseIf, if_neg hne, hpassed] at hchecks
    cases hchecks
  · rw [if_neg (by rw [hheld]; exact Bool.false_ne_true)]
    simp only [htable]
    exact ⟨_, rfl⟩

theorem writeRecords_of_not_replaces {corpus : Corpus} {tools : ParquetTools} {records : List KlineRecord}
    {coordinate : ArchiveCoordinate} {ingestedAtUtc : DateTime}
    (h : ¬WriterReplaces corpus tools records coordinate) :
    (corpus.writeRecords tools records coordinate .archive ingestedAtUtc).1 = corpus := by
  rw [Corpus.writeRecords]
  split
  · rfl
  · next hchecks =>
    simp only [bind_eq_ok, forM_eq_ok, requireInsidePartition, raiseIf_eq_ok, not_not] at hchecks
    obtain ⟨_, _, hinside⟩ := hchecks
    split
    · rfl
    · next hheld =>
      split
      · rfl
      · next htable =>
        refine absurd ⟨fun record hrecord => ?_, htable, Bool.eq_false_iff.mpr hheld⟩ h
        exact hinside record ((mem_sortBy _).mpr hrecord)

/-! ### The archives published this time -/

theorem mem_fetchMembers {store : ObjectStore Bytes} {archives : List PlannedArchive}
    {present : List (FetchedMember Bytes)} (h : fetchMembers store archives = .ok present)
    {member : FetchedMember Bytes} : member ∈ present ↔ member.planned ∈ archives ∧
      store.fetch member.planned.coordinate member.planned.granularity = .ok (some member.fetched) := by
  simp only [fetchMembers, bind_eq_ok, mapM_eq_ok_iff] at h
  obtain ⟨fetched, hfetched, hreturn⟩ := h
  obtain rfl := Except.ok.inj hreturn
  simp only [List.mem_filterMap, id_eq, exists_eq_right]
  constructor
  · intro hmem
    obtain ⟨planned, hplanned, found, hfound, hmember⟩ := exists_left_of_forall₂ hfetched hmem
    obtain ⟨archive, rfl, rfl⟩ := Option.map_eq_some_iff.mp (Except.ok.inj hmember)
    exact ⟨hplanned, hfound⟩
  · rintro ⟨hplanned, hfound⟩
    obtain ⟨result, hresult, found, hfound', hmember⟩ := exists_right_of_forall₂ hfetched hplanned
    rw [hfound] at hfound'
    obtain rfl := Except.ok.inj hfound'
    obtain rfl := Except.ok.inj hmember
    exact hresult

/-- The rows of a visit are those of the archives published, each with its own spec. -/
theorem exists_accepted_iff {tools : ArchiveTools Bytes} {store : ObjectStore Bytes}
    {request : BackfillRequest} {plan : PartitionPlan} {world : BackfillWorld}
    {present : List (FetchedMember Bytes)} {members : List (ArchiveMember Bytes)}
    (h : visitMembers store request plan world = .ok (present, members)) (hne : present ≠ []) {day : Date} :
    (∃ record ∈ acceptedRecords tools members, dateOf record.openTimeUtc = day) ↔
      Serves tools store request plan day := by
  simp only [visitMembers, bind_eq_ok] at h
  obtain ⟨found, hfound, h⟩ := h
  split at h
  · obtain ⟨rfl, -⟩ := Prod.mk.inj (Except.ok.inj h)
    exact absurd rfl hne
  · simp only [bind_eq_ok, mapM_eq_ok_iff] at h
    obtain ⟨_, _, specced, hspecced, hreturn⟩ := h
    obtain ⟨rfl, rfl⟩ := Prod.mk.inj (Except.ok.inj hreturn)
    constructor
    · rintro ⟨record, hrecord, hday⟩
      obtain ⟨member, hmember, hrow⟩ := List.mem_flatMap.mp hrecord
      obtain ⟨fetched, hfetched, hspec⟩ := exists_left_of_forall₂ hspecced hmember
      obtain ⟨hplanned, harchive⟩ := (mem_fetchMembers hfound).mp hfetched
      exact ⟨fetched.planned, hplanned, fetched.fetched, member, harchive, hspec, record, hrow, hday⟩
    · rintro ⟨planned, hplanned, archive, member, harchive, hspec, record, hrow, hday⟩
      have hfetched : (⟨planned, archive⟩ : FetchedMember Bytes) ∈ found :=
        (mem_fetchMembers hfound).mpr ⟨hplanned, harchive⟩
      obtain ⟨member', hmember', hspec'⟩ := exists_right_of_forall₂ hspecced hfetched
      rw [hspec] at hspec'
      obtain rfl := Except.ok.inj hspec'
      exact ⟨record, List.mem_flatMap.mpr ⟨member, hmember', hrow⟩, hday⟩

/-! ### The visit -/

section Visit

variable {tools : ArchiveTools Bytes} {store : ObjectStore Bytes} {request : BackfillRequest}
  {plan : PartitionPlan} {world : BackfillWorld}

theorem corpus_backfillPartition {present : List (FetchedMember Bytes)} {members : List (ArchiveMember Bytes)}
    (hincomplete : isComplete world request plan = false)
    (hvisit : visitMembers store request plan world = .ok (present, members)) (hne : present ≠ []) :
    (world.backfillPartition tools store request plan).1.corpus = (ingestPartition tools world.corpus members
      (plan.partition request.series) request.nowUtc).1 := by
  rw [BackfillWorld.backfillPartition, hincomplete, hvisit]
  cases present with
  | nil => exact absurd rfl hne
  | cons first rest =>
    dsimp only
    rw [if_neg Bool.false_ne_true]
    split
    · next hingest => rw [hingest]
    · next hingest =>
      rw [hingest]
      split <;> rfl

theorem corpus_ingestPartition (corpus : Corpus) {members : List (ArchiveMember Bytes)}
    {partition : KlinePartition} {ingestedAtUtc : DateTime} {records : List KlineRecord}
    {outcomes : List IngestionOutcome} {gaps : List CadenceGap}
    (hgate : gatePartition tools members partition = .ok (records, outcomes, gaps)) :
    (ingestPartition tools corpus members partition ingestedAtUtc).1 =
      (corpus.writeRecords tools.toParquetTools records partition.coordinate .archive ingestedAtUtc).1 := by
  rw [ingestPartition, hgate]
  dsimp only
  split
  · next hwrite => rw [hwrite]
  · next hwrite => rw [hwrite]

/-- A visit that does not come to its write leaves every file as it was. -/
theorem corpus_of_not_comesToWrite (h : ¬ComesToWrite tools store request plan world) :
    (world.backfillPartition tools store request plan).1.corpus = world.corpus := by
  cases hincomplete : isComplete world request plan with
  | true => rw [BackfillWorld.backfillPartition, if_pos hincomplete]
  | false =>
    cases hvisit : visitMembers store request plan world with
    | error e => rw [BackfillWorld.backfillPartition, hincomplete, hvisit, if_neg Bool.false_ne_true]
    | ok visited =>
      obtain ⟨present, members⟩ := visited
      by_cases hne : present = []
      · subst hne
        rw [BackfillWorld.backfillPartition, hincomplete, hvisit, if_neg Bool.false_ne_true]
      · rw [corpus_backfillPartition hincomplete hvisit hne]
        cases hgate : gatePartition tools members (plan.partition request.series) with
        | error e => rw [ingestPartition, hgate]
        | ok gated =>
          obtain ⟨records, outcomes, gaps⟩ := gated
          rw [corpus_ingestPartition world.corpus hgate]
          exact writeRecords_of_not_replaces fun hreplaces =>
            h ⟨hincomplete, present, members, records, outcomes, gaps, hvisit, hne, hgate, hreplaces⟩

/-- A visit that comes to its write leaves the rows of the archives published in the file. -/
theorem holdsDay_of_comesToWrite (h : ComesToWrite tools store request plan world) (day : Date) :
    (world.backfillPartition tools store request plan).1.HoldsDay request plan day ↔
      Serves tools store request plan day := by
  obtain ⟨hincomplete, present, members, records, outcomes, gaps, hvisit, hne, hgate, hreplaces⟩ := h
  have hgated := gatePartition_gated hgate
  obtain ⟨written, hwrite⟩ := writeRecords_of_replaces request.nowUtc hgated.nonempty hreplaces
  have hcorpus : (world.backfillPartition tools store request plan).1.corpus = world.corpus.set
      (plan.key request) ⟨(sortBy KlineRecord.eventTimeUtc records).map KlineRecord.row,
        tools.contentDigest (sortBy KlineRecord.eventTimeUtc records) .archive, request.nowUtc⟩ := by
    rw [corpus_backfillPartition hincomplete hvisit hne, corpus_ingestPartition world.corpus hgate, hwrite]
    rfl
  rw [← exists_accepted_iff hvisit hne, ← hgated.accepted, BackfillWorld.HoldsDay, hcorpus,
    Dict.get?_set_self]
  constructor
  · rintro ⟨file, hfile, moment, hmoment, hday⟩
    obtain rfl := Option.some.inj hfile
    rw [openTimes_rows] at hmoment
    obtain ⟨record, hrecord, rfl⟩ := List.mem_map.mp hmoment
    exact ⟨record, (mem_sortBy _).mp hrecord, hday⟩
  · rintro ⟨record, hrecord, hday⟩
    refine ⟨_, rfl, record.openTimeUtc, ?_, hday⟩
    rw [openTimes_rows]
    exact List.mem_map_of_mem ((mem_sortBy _).mpr hrecord)

/-- A visit of a partition loses no day exactly when it does not come to its write, or every day the file held
    has a bar in an archive that is published this time. -/
theorem rewrite_loses_no_day_iff (tools : ArchiveTools Bytes) (store : ObjectStore Bytes)
    (request : BackfillRequest) (plan : PartitionPlan) (world : BackfillWorld) :
    LosesNoDay tools store request plan world ↔ ¬ComesToWrite tools store request plan world ∨
      ∀ day, world.HoldsDay request plan day → Serves tools store request plan day := by
  have hkept : ∀ visited : BackfillWorld, visited.corpus.get? (plan.key request) =
      world.corpus.get? (plan.key request) → ∀ day, world.HoldsDay request plan day →
        visited.HoldsDay request plan day := by
    intro visited hsame day hheld
    rw [BackfillWorld.HoldsDay, hsame]
    exact hheld
  have hlater : LosesNoDay tools store request plan world ↔ ∀ day, world.HoldsDay request plan day →
      (world.backfillPartition tools store request plan).1.HoldsDay request plan day := by
    refine ⟨fun hloses => ?_, .inr⟩
    rcases hloses with ⟨e, -, hsame, -⟩ | hheld
    · exact hkept _ hsame
    · exact hheld
  rw [hlater]
  by_cases hwrites : ComesToWrite tools store request plan world
  · simp only [holdsDay_of_comesToWrite hwrites, hwrites, not_true_eq_false, false_or]
  · refine iff_of_true (hkept _ ?_) (.inl hwrites)
    rw [corpus_of_not_comesToWrite hwrites]

end Visit

/-! ### A day between two others -/

theorem btcusdt_isSymbol : "BTCUSDT" ≠ "" ∧ strip "BTCUSDT" = "BTCUSDT".toList := by decide +kernel

theorem dailyInterval_ne : "1d" ≠ "" := by decide

/-- The daily bars of BTCUSDT. -/
def dailyBars : ArchiveSeries := ⟨.spot, "BTCUSDT", "1d", btcusdt_isSymbol, dailyInterval_ne⟩

/-- A store of plain texts whose digests name the days of the rows. -/
def datedTools : ArchiveTools String :=
  { plainTools with
    contentDigest := fun records _ => String.ofList (records.flatMap fun record =>
      DecimalFloat.paddedDigits 5 (dateOf record.openTimeUtc).toNat) }

/-- The one bar of a day. -/
def dayText (day : Date) : String :=
  toString (day * 86400000) ++ ",1,1,1,1,0," ++ toString (day * 86400000 + 86399999) ++ ",0,0,0,0,0\n"

/-- The daily archives of these days are published. -/
def storeOf (days : List Date) : ObjectStore String where
  published coordinate _ := coordinate.archiveDate ∈ days
  fetch coordinate _ := .ok (if coordinate.archiveDate ∈ days then
    some ⟨dayText coordinate.archiveDate, String.ofList (List.replicate 64 'a'), "archive.zip"⟩ else none)

/-- A run through a day of January 2024, on the sixth. -/
def runThrough (throughDate : Date) : BackfillRequest :=
  ⟨dailyBars, throughDate, 19728, TimeDelta.ofSeconds 1704499200, 19723, "data", 1 / 1000⟩

/-- The first of January 2024 is day 19723. -/
def januaryPlan (throughDate : Date) : PartitionPlan :=
  dailyBars.monthlyPartition 19723 19723 throughDate 19728

/-- Three days are held, and a run through the fourth finds the second withdrawn. -/
def heldDays : BackfillWorld :=
  ((BackfillWorld.mk Dict.empty IngestTables.empty).backfillPartition datedTools
    (storeOf [19723, 19724, 19725]) (runThrough 19725) (januaryPlan 19725)).1

/-- The days of the bars in the file of January. -/
def januaryDays (world : BackfillWorld) : Option (List Date) :=
  (world.corpus.get? (dailyBars.key, yearMonth 19723)).map fun file => file.openTimes.map dateOf

theorem withdrawn_day_visit : (januaryDays heldDays, (heldDays.registry.partitionState dailyBars.key 19723).isSome,
    raisedKind (heldDays.backfillPartition datedTools (storeOf [19723, 19725, 19726]) (runThrough 19726)
      (januaryPlan 19726)).2,
    januaryDays (heldDays.backfillPartition datedTools (storeOf [19723, 19725, 19726]) (runThrough 19726)
      (januaryPlan 19726)).1) =
    (some [19723, 19724, 19725], true, none, some [19723, 19725, 19726]) := by
  decide +kernel

/-- The dates on both sides of the withdrawn day are the ones on record, so the guard lets the rewrite pass. -/
theorem a_withdrawn_day_is_lost : ¬∀ (tools : ArchiveTools String) (store : ObjectStore String)
    (request : BackfillRequest) (plan : PartitionPlan) (world : BackfillWorld),
    (world.registry.partitionState request.series.key plan.periodStartDate).isSome = true →
      LosesNoDay tools store request plan world := by
  intro hloses
  obtain ⟨hheld, hrest⟩ := Prod.mk.inj withdrawn_day_visit
  obtain ⟨hregistered, hrest⟩ := Prod.mk.inj hrest
  obtain ⟨hpasses, hafter⟩ := Prod.mk.inj hrest
  obtain ⟨file, hfile, hdays⟩ := Option.map_eq_some_iff.mp hheld
  have hbefore : heldDays.HoldsDay (runThrough 19726) (januaryPlan 19726) 19724 := by
    refine ⟨file, hfile, List.mem_map.mp ?_⟩
    rw [hdays]
    decide
  rcases hloses datedTools (storeOf [19723, 19725, 19726]) (runThrough 19726) (januaryPlan 19726) heldDays
    hregistered with ⟨e, hraises, -⟩ | hkeeps
  · rw [hraises] at hpasses
    cases hpasses
  · obtain ⟨rewritten, hrewritten, hholds⟩ := hkeeps 19724 hbefore
    obtain ⟨found, hfound, hleft⟩ := Option.map_eq_some_iff.mp hafter
    obtain rfl := Option.some.inj (hfound.symm.trans hrewritten)
    have hmem : (19724 : Date) ∈ found.openTimes.map dateOf := List.mem_map.mpr hholds
    rw [hleft] at hmem
    exact absurd hmem (by decide)

end FinanceKing.Data
