import FinanceKing.Backtest.Feed.Feed
import FinanceKing.Data.IngestReadBack
import FinanceKing.Domain.Results

/-! What the feed promises of every corpus: a window is served bar for bar in one order, a hole anywhere
    is refused and named, and the warm-up boundary, which is drawn on open times, is enforced on closes. -/

namespace FinanceKing.Backtest

open Lib Data

/-! ### One read -/

section Read

variable {corpus : Corpus} {order : ScanOrder} {market : Market} {symbol barInterval : String}
  {fromUtc untilUtc nowUtc : DateTime} {read : SeriesRead}

/-- The bars of a read open one after another. -/
theorem readSeries_increasing
    (h : corpus.readSeries order market symbol barInterval fromUtc untilUtc nowUtc = .ok read) :
    (read.bars.map ArchiveBar.openTimeUtc).Pairwise (· < ·) := by
  by_cases hseries : corpus.hasSeries ⟨market, .klines, symbol, barInterval⟩
  · simp only [corpus.readSeries_eq hseries, bind_eq_ok, requireDistinctOpenTimes_eq_ok] at h
    obtain ⟨units, _, _, _, bars, _, _, hdistinct, hreturn⟩ := h
    injection hreturn with hread
    rw [← hread]
    have hsorted := List.pairwise_map.mpr (pairwise_sortBy ArchiveBar.openTimeUtc
      (bars.filter fun bar => fromUtc ≤ bar.openTimeUtc ∧ bar.openTimeUtc < untilUtc))
    exact (hsorted.and hdistinct).imp fun hboth => lt_of_le_of_ne hboth.1 hboth.2
  · rw [Corpus.readSeries, if_pos hseries] at h
    injection h with h
    rw [← h]
    exact List.Pairwise.nil

/-- A read that returns does not depend on the order its scan returned the rows in. -/
theorem readSeries_order (order' : ScanOrder)
    (h : corpus.readSeries order market symbol barInterval fromUtc untilUtc nowUtc = .ok read) :
    corpus.readSeries order' market symbol barInterval fromUtc untilUtc nowUtc = .ok read := by
  by_cases hseries : corpus.hasSeries ⟨market, .klines, symbol, barInterval⟩
  · simp only [corpus.readSeries_eq hseries, bind_eq_ok, requireDistinctOpenTimes_eq_ok] at h ⊢
    obtain ⟨units, hunits, u, hcoordinate, bars, hbars, _, hdistinct, hreturn⟩ := h
    obtain ⟨bars', hbars', hperm⟩ := mapM_perm ((order.perm _).trans (order'.perm _).symm) hbars
    have hinside : barsInside fromUtc untilUtc bars = barsInside fromUtc untilUtc bars' := by
      rw [barsInside, ((perm_sortBy ArchiveBar.openTimeUtc _).map _).nodup_iff] at hdistinct
      exact sortBy_eq_of_perm _ (hperm.filter _) (List.inj_on_of_nodup_map hdistinct)
    rw [hinside] at hdistinct hreturn
    exact ⟨units, hunits, u, hcoordinate, bars', hbars', (), hdistinct, hreturn⟩
  · rw [Corpus.readSeries, if_pos hseries] at h ⊢
    exact h

end Read

/-! ### Coverage -/

variable {feed : MarketDataFeed} {request : FeedRequest} {reads : List (SeriesRequest × SeriesRead)}

/-- The reads of a request, one for each series in its order. -/
theorem readAll_reads (h : feed.readAll request = .ok reads) :
    reads.map Prod.fst = request.series ∧
      ∀ entry ∈ reads, feed.readSeries request entry.1 = .ok entry.2 := by
  rw [MarketDataFeed.readAll, mapM_eq_ok_iff] at h
  have hread : List.Forall₂ (fun (entry : SeriesRequest) (pair : SeriesRequest × SeriesRead) =>
      pair.1 = entry ∧ feed.readSeries request pair.1 = .ok pair.2) request.series reads := by
    refine h.imp fun entry pair hpair => ?_
    simp only [bind_eq_ok, pure_eq_ok] at hpair
    obtain ⟨read, hread, rfl⟩ := hpair
    exact ⟨rfl, hread⟩
  refine ⟨?_, fun entry hentry => ?_⟩
  · rw [← List.forall₂_eq_eq_eq, List.forall₂_map_left_iff]
    exact (List.Forall₂.flip hread).imp fun _ _ hpair => hpair.1
  · obtain ⟨_, _, hpair⟩ := exists_left_of_forall₂ hread hentry
    exact hpair.2

/-- Every open time a series was read with, and the gaps reported beside them. -/
structure Covers (request : FeedRequest) (read : SeriesRead) (coverage : SymbolCoverage) : Prop where
  onLattice : ∀ bar ∈ read.bars, bar.openTimeUtc ∈ request.lattice
  gaps : coverage.gaps = gapsAgainst request.lattice (read.bars.map ArchiveBar.openTimeUtc)
    request.duration

theorem coverageFor_covers {entry : SeriesRequest × SeriesRead} {coverage : SymbolCoverage}
    (h : coverageFor request entry = .ok coverage) : Covers request entry.2 coverage := by
  simp only [coverageFor, requireOnLattice, bind_eq_ok, raiseIf_eq_ok, pure_eq_ok, not_not,
    List.filter_eq_nil_iff, List.forall_mem_map] at h
  obtain ⟨_, hstray, rfl⟩ := h
  exact ⟨fun bar hbar => by simpa using hstray bar hbar, rfl⟩

theorem coverageOf_covers {report : CoverageReport} (h : coverageOf request reads = .ok report) :
    List.Forall₂ (fun entry coverage => Covers request entry.2 coverage) reads report.series := by
  simp only [coverageOf, bind_eq_ok, pure_eq_ok, mapM_eq_ok_iff] at h
  obtain ⟨series, hseries, rfl⟩ := h
  exact hseries.imp fun entry coverage hcoverage => coverageFor_covers hcoverage

theorem gapsAgainst_eq_nil_iff {observed : List DateTime} :
    gapsAgainst request.lattice observed request.duration = [] ↔
      ∀ moment ∈ request.lattice, moment ∈ observed := by
  rw [gapsAgainst, List.map_eq_nil_iff, FeedRequest.lattice,
    missingRuns_eq_nil_iff request.facts.duration_pos]
  simp only [decide_eq_true_eq]

/-- A read without a gap opens at the instants of the lattice and at no other. -/
theorem openTimes_eq_lattice {entry : SeriesRequest} {read : SeriesRead} {coverage : SymbolCoverage}
    (hread : feed.readSeries request entry = .ok read) (hcovers : Covers request read coverage)
    (hcomplete : coverage.gaps = []) :
    read.bars.map ArchiveBar.openTimeUtc = request.lattice := by
  have hincreasing := readSeries_increasing hread
  have hlattice : request.lattice.Pairwise (· < ·) := pairwise_progression request.facts.duration_pos _ _
  have hperm : (read.bars.map ArchiveBar.openTimeUtc).Perm request.lattice := by
    rw [List.perm_ext_iff_of_nodup (hincreasing.imp ne_of_lt) (hlattice.imp ne_of_lt)]
    intro moment
    constructor
    · intro hmoment
      obtain ⟨bar, hbar, rfl⟩ := List.mem_map.mp hmoment
      exact hcovers.onLattice bar hbar
    · exact gapsAgainst_eq_nil_iff.mp (hcovers.gaps.symm.trans hcomplete) moment
  exact hperm.eq_of_pairwise (fun a b _ _ hab hba => absurd hab (lt_asymm hba)) hincreasing hlattice

/-! ### The served events -/

/-- A bar the feed serves is the row it was built from. -/
theorem toDomainBar_eq_ok {archiveBar : ArchiveBar} {entry : SeriesRequest} {bar : Bar}
    (h : toDomainBar archiveBar entry = .ok bar) : bar.instrument = entry.instrument ∧
      bar.openTimeUtc = archiveBar.openTimeUtc ∧ bar.closeTimeUtc = archiveBar.closeTimeUtc := by
  obtain ⟨_, rfl⟩ := construct_eq_ok h
  exact ⟨rfl, rfl, rfl⟩

/-- What a served bar keeps of its row. -/
structure Serves (row : SeriesRequest × ArchiveBar) (served : ServedBar) : Prop where
  series : served.1 = row.1
  instrument : served.2.instrument = row.1.instrument
  openTimeUtc : served.2.openTimeUtc = row.2.openTimeUtc
  closeTimeUtc : served.2.closeTimeUtc = row.2.closeTimeUtc

theorem serve_serves {served : List ServedBar} (h : serve reads = .ok served) :
    List.Forall₂ Serves (rowsOf reads) served := by
  rw [serve, mapM_eq_ok_iff] at h
  refine h.imp fun row entry hentry => ?_
  simp only [bind_eq_ok, pure_eq_ok] at hentry
  obtain ⟨bar, hbar, rfl⟩ := hentry
  obtain ⟨hinstrument, hopen, hclose⟩ := toDomainBar_eq_ok hbar
  exact ⟨rfl, hinstrument, hopen, hclose⟩

/-- What a load that returned went through. -/
structure Loads (feed : MarketDataFeed) (request : FeedRequest)
    (reads : List (SeriesRequest × SeriesRead)) (served : List ServedBar) (slice : FeedSlice) : Prop where
  readAll : feed.readAll request = .ok reads
  complete : ∀ entry ∈ reads, entry.2.bars.map ArchiveBar.openTimeUtc = request.lattice
  serves : List.Forall₂ Serves (rowsOf reads) served
  events : slice.events = (sortBy servedKey served).map fun entry => .marketBar entry.2
  warmupEventCount : slice.warmupEventCount =
    ((rowsOf reads).filter fun row => request.isWarmup row.2.openTimeUtc).length
  exposedFromUtc : slice.exposedFromUtc = request.exposedFromUtc

theorem load_loads {slice : FeedSlice} (h : feed.load request = .ok slice) :
    ∃ reads served, Loads feed request reads served slice := by
  simp only [MarketDataFeed.load, bind_eq_ok, raiseIf_eq_ok, pure_eq_ok, not_not] at h
  obtain ⟨reads, hreads, report, hreport, _, hservable, served, hserved, rfl⟩ := h
  refine ⟨reads, served, hreads, fun entry hentry => ?_, serve_serves hserved, rfl, rfl, rfl⟩
  obtain ⟨coverage, hcoverage, hcovers⟩ := exists_right_of_forall₂ (coverageOf_covers hreport) hentry
  have hcomplete : coverage.gaps = [] := by
    simpa [SymbolCoverage.isComplete] using List.all_eq_true.mp hservable coverage hcoverage
  exact openTimes_eq_lattice ((readAll_reads hreads).2 entry hentry) hcovers hcomplete

/-- The rows of complete reads are every series at every instant of the lattice. -/
theorem Loads.rows {served : List ServedBar} {slice : FeedSlice}
    (h : Loads feed request reads served slice) :
    (rowsOf reads).map (fun row => (row.1, row.2.openTimeUtc)) =
      request.series.product request.lattice := by
  rw [← (readAll_reads h.readAll).1, List.product, List.flatMap_map, rowsOf, List.map_flatMap]
  refine List.flatMap_congr fun entry hentry => ?_
  rw [List.map_map, ← h.complete entry hentry, List.map_map]
  rfl

/-- A served window: one event for each series and instant of the lattice, by close time and label. -/
structure ServesWindow (request : FeedRequest) (slice : FeedSlice) (served : List ServedBar) : Prop where
  events : slice.events = served.map fun entry => .marketBar entry.2
  bijection : (served.map fun entry => (entry.1, entry.2.openTimeUtc)).Perm
    (request.series.product request.lattice)
  nodup : (request.series.product request.lattice).Nodup
  instruments : ∀ entry ∈ served, entry.2.instrument = entry.1.instrument
  ordered : served.Pairwise fun entry later => servedKey entry ≤ servedKey later

theorem Loads.servesWindow {served : List ServedBar} {slice : FeedSlice}
    (h : Loads feed request reads served slice) :
    ServesWindow request slice (sortBy servedKey served) := by
  refine ⟨h.events, ?_, ?_, ?_, pairwise_sortBy servedKey served⟩
  · have hsame : served.map (fun entry => (entry.1, entry.2.openTimeUtc)) =
        (rowsOf reads).map fun row => (row.1, row.2.openTimeUtc) := by
      rw [← List.forall₂_eq_eq_eq, List.forall₂_map_left_iff, List.forall₂_map_right_iff]
      exact h.serves.flip.imp fun entry row hserves => by
        rw [hserves.series, hserves.openTimeUtc]
    rw [← h.rows, ← hsame]
    exact (perm_sortBy servedKey served).map _
  · refine List.Nodup.product ?_ ?_
    · exact request.facts.distinct.of_map
    · exact (pairwise_progression request.facts.duration_pos _ _).imp ne_of_lt
  · intro entry hentry
    obtain ⟨row, _, hserves⟩ := exists_left_of_forall₂ h.serves ((mem_sortBy servedKey).mp hentry)
    rw [hserves.instrument, hserves.series]

theorem readAll_order (order' : ScanOrder) (h : feed.readAll request = .ok reads) :
    (MarketDataFeed.mk feed.corpus feed.nowUtc order').readAll request = .ok reads := by
  rw [MarketDataFeed.readAll, mapM_eq_ok_iff] at h ⊢
  refine h.imp fun entry pair hpair => ?_
  simp only [bind_eq_ok, pure_eq_ok] at hpair ⊢
  obtain ⟨read, hread, hreturn⟩ := hpair
  exact ⟨read, readSeries_order order' hread, hreturn⟩

/-- A load that returns does not depend on the order rows were read in. -/
theorem load_order (order' : ScanOrder) {slice : FeedSlice} (h : feed.load request = .ok slice) :
    (MarketDataFeed.mk feed.corpus feed.nowUtc order').load request = .ok slice := by
  rw [MarketDataFeed.load, bind_eq_ok] at h ⊢
  obtain ⟨reads, hreads, hrest⟩ := h
  exact ⟨reads, readAll_order order' hreads, hrest⟩

/-! ### Refusals -/

theorem BarFields.postInit_error {fields : BarFields} {e : PyError}
    (h : fields.postInit = .error e) : e.kind = .domainError := by
  rw [BarFields.postInit] at h
  iterate 7
    rcases bind_eq_error h with h | ⟨_, _, h⟩
    · exact raiseIf_error h
  exact raiseIf_error h

theorem serve_error {e : PyError} (h : serve reads = .error e) : e.kind = .domainError := by
  obtain ⟨row, _, hrow⟩ := mapM_error h
  rcases bind_eq_error hrow with hbar | ⟨_, _, hreturn⟩
  · rw [toDomainBar, construct] at hbar
    split at hbar
    · cases hbar
    · next hchecks =>
      injection hbar with hbar
      exact hbar ▸ BarFields.postInit_error hchecks
  · cases hreturn

/-- The gaps are the maximal disjoint runs of missing bars, and count them. -/
structure NamesMissing (request : FeedRequest) (observed : List DateTime) (gaps : List CoverageGap) :
    Prop where
  covers : ∀ moment ∈ request.lattice,
    (∃ gap ∈ gaps, gap.gapStartUtc ≤ moment ∧ moment < gap.gapEndUtc) ↔ moment ∉ observed
  separated : gaps.Pairwise fun gap later => gap.gapEndUtc < later.gapStartUtc
  maximal : ∀ gap ∈ gaps,
    (gap.gapStartUtc = request.warmupStartUtc ∨ gap.gapStartUtc - request.duration ∈ observed) ∧
      (gap.gapEndUtc = request.untilUtc ∨ gap.gapEndUtc ∈ observed)
  spans : ∀ gap ∈ gaps, gap.gapStartUtc ∈ request.lattice ∧ 0 < gap.missingBarCount ∧
    gap.gapEndUtc = gap.gapStartUtc + request.duration * gap.missingBarCount
  counted : (gaps.map CoverageGap.missingBarCount).sum =
    (request.lattice.filter fun moment => moment ∉ observed).length

theorem gapsAgainst_namesMissing (observed : List DateTime) :
    NamesMissing request observed (gapsAgainst request.lattice observed request.duration) := by
  have hruns := areMissingRuns request.facts.duration_pos (fun moment => moment ∈ observed)
    request.warmupStartUtc request.expectedBarCount.toNat
  have hend : request.warmupStartUtc + request.duration * (request.expectedBarCount.toNat : ℤ) =
      request.untilUtc := by
    rw [Int.toNat_of_nonneg request.expectedBarCount_nonneg, request.warmupStartUtc_add]
  refine ⟨?_, ?_, ?_, ?_, ?_⟩
  · intro moment hmoment
    rw [← decide_eq_false_iff_not, ← hruns.covers moment hmoment]
    simp [gapsAgainst, FeedRequest.lattice]
  · exact List.pairwise_map.mpr hruns.separated
  · intro gap hgap
    obtain ⟨run, hrun, rfl⟩ := List.mem_map.mp hgap
    have hmaximal := hruns.maximal run hrun
    rw [hend] at hmaximal
    simpa using hmaximal
  · intro gap hgap
    obtain ⟨run, hrun, rfl⟩ := List.mem_map.mp hgap
    obtain ⟨hmem, hpositive, _⟩ := hruns.bounds run hrun
    exact ⟨hmem, Int.natCast_pos.mpr hpositive, rfl⟩
  · have hcounted : (((missingRuns (fun moment => moment ∈ observed) none request.lattice).map
        Prod.snd).sum : ℤ) = ((request.lattice.filter fun moment => moment ∉ observed).length : ℤ) := by
      rw [FeedRequest.lattice, hruns.counted]
      simp
    rw [gapsAgainst, List.map_map, ← hcounted, Nat.cast_list_sum, List.map_map]
    rfl

/-- A load is refused for its coverage exactly when an instant of the lattice is missing from a read. -/
theorem load_refused_iff {report : CoverageReport} (hreads : feed.readAll request = .ok reads)
    (hreport : coverageOf request reads = .ok report) :
    (∃ e, feed.load request = .error e ∧ e.kind = .coverageRefused) ↔
      ∃ entry ∈ reads, ∃ moment ∈ request.lattice,
        moment ∉ entry.2.bars.map ArchiveBar.openTimeUtc := by
  have hcovers := coverageOf_covers hreport
  have hmissing : (∃ entry ∈ reads, ∃ moment ∈ request.lattice,
      moment ∉ entry.2.bars.map ArchiveBar.openTimeUtc) ↔ report.isServable = false := by
    have hentry : ∀ (entry : SeriesRequest × SeriesRead) (coverage : SymbolCoverage),
        Covers request entry.2 coverage → ((∃ moment ∈ request.lattice,
          moment ∉ entry.2.bars.map ArchiveBar.openTimeUtc) ↔ ¬ coverage.isComplete) := by
      intro entry coverage hcover
      rw [SymbolCoverage.isComplete, hcover.gaps, decide_eq_true_eq, gapsAgainst_eq_nil_iff]
      push Not
      rfl
    rw [exists_mem_congr_of_forall₂ hcovers hentry, CoverageReport.isServable, List.all_eq_false]
  rw [hmissing]
  constructor
  · rintro ⟨e, herror, hkind⟩
    by_contra hservable
    rw [Bool.not_eq_false] at hservable
    simp only [MarketDataFeed.load, hreads, hreport, bind, Except.bind, raiseIf, hservable] at herror
    simp only [not_true_eq_false, if_false] at herror
    cases hserved : serve reads with
    | ok served =>
      rw [hserved] at herror
      cases herror
    | error refusal =>
      rw [hserved] at herror
      injection herror with herror
      rw [← herror, serve_error hserved] at hkind
      cases hkind
  · intro hservable
    cases hload : feed.load request with
    | ok slice =>
      simp only [MarketDataFeed.load, hreads, hreport, bind, Except.bind, raiseIf, hservable] at hload
      cases hload
    | error e =>
      simp only [MarketDataFeed.load, hreads, hreport, bind, Except.bind, raiseIf, hservable] at hload
      injection hload with hload
      exact ⟨e, rfl, hload ▸ rfl⟩

/-! ### The gate -/

/-- Which side of the boundary the gate puts an event on. -/
def WarmupGate.deliver (exposedFromUtc : DateTime) (event : Event) : Delivery :=
  if exposedFromUtc ≤ event.occursAtUtc then .onEvent event else .onWarmupBar event

/-- Over market data the gate never raises, and counts what it puts on the warm-up side. -/
theorem onEvents_marketData : ∀ (events : List Event) (gate : WarmupGate),
    (∀ event ∈ events, event.isMarketData) → gate.onEvents events = .ok
      { gate with
        warmupBarCount := gate.warmupBarCount +
          (events.filter fun event => event.occursAtUtc < gate.exposedFromUtc).length
        delivered := gate.delivered ++ events.map (WarmupGate.deliver gate.exposedFromUtc) }
  | [], gate, _ => by simp [WarmupGate.onEvents, pure, Except.pure]
  | event :: events, gate, h => by
    have hrest := fun gate' => onEvents_marketData events gate'
      fun other hother => h other (List.mem_cons_of_mem _ hother)
    have hmarket := h event List.mem_cons_self
    rw [WarmupGate.onEvents, List.foldlM_cons]
    by_cases hexposed : gate.exposedFromUtc ≤ event.occursAtUtc
    · have hstep : gate.onEvent event = .ok
          { gate with delivered := gate.delivered ++ [.onEvent event] } := by
        rw [WarmupGate.onEvent, if_pos hexposed]
      rw [hstep]
      refine (hrest _).trans ?_
      simp [WarmupGate.deliver, hexposed, not_lt.mpr hexposed]
    · have hstep : gate.onEvent event = .ok
          { gate with
            warmupBarCount := gate.warmupBarCount + 1
            delivered := gate.delivered ++ [.onWarmupBar event] } := by
        rw [WarmupGate.onEvent, if_neg hexposed, if_neg (not_not.mpr hmarket)]
      rw [hstep]
      refine (hrest _).trans ?_
      simp [WarmupGate.deliver, hexposed, not_le.mp hexposed, Nat.add_assoc, Nat.add_comm 1]

/-- Where an event belongs by the instant its bar opens at. -/
def FeedRequest.side (request : FeedRequest) : Event → Delivery
  | .marketBar bar => if request.isWarmup bar.openTimeUtc then .onWarmupBar (.marketBar bar)
      else .onEvent (.marketBar bar)
  | event => .onEvent event

/-- A gate that has not delivered anything. -/
def WarmupGate.opened (exposedFromUtc : DateTime) : WarmupGate := ⟨exposedFromUtc, 0, []⟩

/-- The gate suppresses the bars that open before the boundary, as many as the feed reported, and no other. -/
def GateSplits (request : FeedRequest) (slice : FeedSlice) : Prop :=
  ∃ gate, (WarmupGate.opened slice.exposedFromUtc).onEvents slice.events = .ok gate ∧
    gate.warmupBarCount = slice.warmupEventCount ∧
    gate.delivered = slice.events.map request.side

/-- Every bar that opens before the boundary closes before it. -/
def WarmupCloses (request : FeedRequest) (reads : List (SeriesRequest × SeriesRead)) : Prop :=
  ∀ entry ∈ reads, ∀ bar ∈ entry.2.bars, bar.openTimeUtc < request.exposedFromUtc →
    bar.closeTimeUtc < request.exposedFromUtc

theorem Loads.closes_iff {served : List ServedBar} {slice : FeedSlice}
    (h : Loads feed request reads served slice) : WarmupCloses request reads ↔
      ∀ entry ∈ served, entry.2.openTimeUtc < request.exposedFromUtc →
        entry.2.closeTimeUtc < request.exposedFromUtc := by
  constructor
  · intro hcloses entry hentry hopen
    obtain ⟨row, hrow, hserves⟩ := exists_left_of_forall₂ h.serves hentry
    obtain ⟨read, hread, hmem⟩ := List.mem_flatMap.mp hrow
    obtain ⟨bar, hbar, rfl⟩ := List.mem_map.mp hmem
    rw [hserves.openTimeUtc] at hopen
    rw [hserves.closeTimeUtc]
    exact hcloses read hread bar hbar hopen
  · intro hcloses read hread bar hbar hopen
    have hrow : (read.1, bar) ∈ rowsOf reads :=
      List.mem_flatMap.mpr ⟨read, hread, List.mem_map_of_mem hbar⟩
    obtain ⟨entry, hentry, hserves⟩ := exists_right_of_forall₂ h.serves hrow
    have hclose := hcloses entry hentry (hserves.openTimeUtc.trans_lt hopen)
    exact hserves.closeTimeUtc.symm.trans_lt hclose

/-- What the feed reported as warm-up is the number of served bars that open before the boundary. -/
theorem Loads.warmupEventCount_eq {served : List ServedBar} {slice : FeedSlice}
    (h : Loads feed request reads served slice) : slice.warmupEventCount =
      ((sortBy servedKey served).filter fun entry => request.isWarmup entry.2.openTimeUtc).length := by
  have hsame : served.map (fun entry => entry.2.openTimeUtc) =
      (rowsOf reads).map fun row => row.2.openTimeUtc := by
    rw [← List.forall₂_eq_eq_eq, List.forall₂_map_left_iff, List.forall₂_map_right_iff]
    exact h.serves.flip.imp fun entry row hserves => hserves.openTimeUtc
  have hcount := congrArg (List.countP request.isWarmup) hsame
  rw [List.countP_map, List.countP_map] at hcount
  rw [h.warmupEventCount, ← List.countP_eq_length_filter, ← List.countP_eq_length_filter,
    (perm_sortBy servedKey served).countP_eq]
  exact congrArg _ hcount.symm

/-- The gate splits a served window where the feed does, exactly when every warm-up bar closes in time. -/
theorem Loads.gateSplits_iff {served : List ServedBar} {slice : FeedSlice}
    (h : Loads feed request reads served slice) :
    GateSplits request slice ↔ WarmupCloses request reads := by
  have hmarket : ∀ event ∈ slice.events, event.isMarketData := by
    intro event hevent
    rw [h.events] at hevent
    obtain ⟨entry, _, rfl⟩ := List.mem_map.mp hevent
    rfl
  have hgate := onEvents_marketData slice.events (.opened slice.exposedFromUtc) hmarket
  rw [h.closes_iff]
  constructor
  · rintro ⟨gate, hrun, _, hdelivered⟩ entry hentry hopen
    rw [hgate] at hrun
    injection hrun with hrun
    rw [← hrun] at hdelivered
    have hevent : Event.marketBar entry.2 ∈ slice.events := by
      rw [h.events]
      exact List.mem_map_of_mem ((mem_sortBy servedKey).mpr hentry)
    have hside := List.map_eq_map_iff.mp hdelivered _ hevent
    have hwarm : request.side (.marketBar entry.2) = .onWarmupBar (.marketBar entry.2) := by
      simp [FeedRequest.side, FeedRequest.isWarmup, hopen]
    rw [hwarm, WarmupGate.deliver] at hside
    by_contra hlate
    rw [if_pos (by rw [WarmupGate.opened, h.exposedFromUtc]; exact not_lt.mp hlate)] at hside
    cases hside
  · intro hcloses
    have hboth : ∀ entry ∈ sortBy servedKey served, (entry.2.closeTimeUtc < request.exposedFromUtc ↔
        entry.2.openTimeUtc < request.exposedFromUtc) := by
      intro entry hentry
      obtain ⟨_, _, _, hforward, _⟩ := entry.2.postInit_facts
      exact ⟨hforward.trans, hcloses entry ((mem_sortBy servedKey).mp hentry)⟩
    refine ⟨_, hgate, ?_, ?_⟩
    · rw [h.warmupEventCount_eq, h.events, List.filter_map, List.length_map, h.exposedFromUtc]
      simp only [WarmupGate.opened, Nat.zero_add]
      congr 2
      refine List.filter_congr fun entry hentry => ?_
      simp [FeedRequest.isWarmup, Event.occursAtUtc, hboth entry hentry]
    · rw [h.events]
      simp only [WarmupGate.opened, List.nil_append, List.map_map, List.map_eq_map_iff]
      intro entry hentry
      have hiff := hboth entry hentry
      by_cases hopen : entry.2.openTimeUtc < request.exposedFromUtc
      · have hclose := hiff.mpr hopen
        simp [WarmupGate.deliver, FeedRequest.side, FeedRequest.isWarmup, Event.occursAtUtc,
          h.exposedFromUtc, hopen, not_le.mpr hclose]
      · have hclose := not_lt.mp fun hclose => hopen (hiff.mp hclose)
        simp [WarmupGate.deliver, FeedRequest.side, FeedRequest.isWarmup, Event.occursAtUtc,
          h.exposedFromUtc, hopen, hclose]

/-! ### The contract -/

/-- Everything the feed promises of one request over one corpus. -/
structure FeedContract (feed : MarketDataFeed) (request : FeedRequest) : Prop where
  serves : ∀ slice, feed.load request = .ok slice →
    (∃ served, ServesWindow request slice served) ∧
    ∀ order', (MarketDataFeed.mk feed.corpus feed.nowUtc order').load request = .ok slice
  refuses : ∀ reads report, feed.readAll request = .ok reads → coverageOf request reads = .ok report →
    ((∃ e, feed.load request = .error e ∧ e.kind = .coverageRefused) ↔
      ∃ entry ∈ reads, ∃ moment ∈ request.lattice,
        moment ∉ entry.2.bars.map ArchiveBar.openTimeUtc) ∧
    List.Forall₂ (fun entry coverage => NamesMissing request
      (entry.2.bars.map ArchiveBar.openTimeUtc) coverage.gaps) reads report.series
  splits : ∀ reads slice, feed.readAll request = .ok reads → feed.load request = .ok slice →
    (GateSplits request slice ↔ WarmupCloses request reads)

/-- The contract of the feed, at every corpus, order of rows and request. -/
theorem feed_contract (feed : MarketDataFeed) (request : FeedRequest) : FeedContract feed request where
  serves slice hload := by
    obtain ⟨reads, served, hloads⟩ := load_loads hload
    exact ⟨⟨_, hloads.servesWindow⟩, fun order' => load_order order' hload⟩
  refuses reads report hreads hreport := by
    refine ⟨load_refused_iff hreads hreport, (coverageOf_covers hreport).imp ?_⟩
    intro entry coverage hcovers
    rw [hcovers.gaps]
    exact gapsAgainst_namesMissing _
  splits reads slice hreads hload := by
    obtain ⟨reads', served, hloads⟩ := load_loads hload
    obtain rfl : reads' = reads := Except.ok.inj (hloads.readAll.symm.trans hreads)
    exact hloads.gateSplits_iff

/-! ### A bar stored to close where the next one opens -/

/-- A row that closes a while after it opens. -/
def flatRow (openTimeUtc : DateTime) (lasts : TimeDelta) : CorpusRow where
  openTimeUtc := .instant openTimeUtc
  closeTimeUtc := .instant (openTimeUtc + lasts)
  openQuotePrice := some 1
  highQuotePrice := some 1
  lowQuotePrice := some 1
  closeQuotePrice := some 1
  baseVolume := some 0
  tradeCount := some 0

/-- One warm-up minute and one exposed minute, from midnight on 1 January 2024. -/
def oneWarmupMinute : FeedRequest :=
  ⟨⟨[⟨.spot, .sample⟩], "1m", TimeDelta.ofSeconds 1704067260, TimeDelta.ofSeconds 1704067320, 1⟩, by decide +kernel⟩

/-- A feed over a corpus that holds the two minutes of the request. -/
def twoMinutes (lasts : TimeDelta) : MarketDataFeed where
  corpus := Corpus.alone (⟨.spot, .klines, "BTCUSDT", "1m"⟩, (2024, 1))
    ⟨[1704067200, 1704067260].map fun seconds => flatRow (TimeDelta.ofSeconds seconds) lasts, "", 0⟩
  nowUtc := TimeDelta.ofSeconds 1704153600
  order := listingOrder

/-- The feed reports one warm-up bar; the gate hands both bars to the strategy. -/
theorem warmup_bar_reaches_the_strategy : ∃ slice,
    (twoMinutes (.ofMinutes 1)).load oneWarmupMinute = .ok slice ∧ slice.warmupEventCount = 1 ∧
      ¬ GateSplits oneWarmupMinute slice := by
  have hload : ((twoMinutes (.ofMinutes 1)).load oneWarmupMinute).toOption.map (fun slice =>
      (slice.warmupEventCount, ((WarmupGate.opened slice.exposedFromUtc).onEvents
        slice.events).toOption.map WarmupGate.warmupBarCount)) = some (1, some 0) := by
    decide +kernel
  cases hslice : (twoMinutes (.ofMinutes 1)).load oneWarmupMinute with
  | error e =>
    rw [hslice] at hload
    cases hload
  | ok slice =>
    rw [hslice] at hload
    obtain ⟨hcount, hgate⟩ := Prod.mk.inj (Option.some.inj hload)
    refine ⟨slice, rfl, hcount, ?_⟩
    rintro ⟨gate, hrun, hequal, _⟩
    rw [hrun] at hgate
    have hzero : gate.warmupBarCount = 0 := Option.some.inj hgate
    rw [hzero, hcount] at hequal
    cases hequal

end FinanceKing.Backtest
