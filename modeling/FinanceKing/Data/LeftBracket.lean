import FinanceKing.Data.ResidualGaps

/-! Which prints a tape repair asks for: the sequence detector measures a gap from the newest print it
    saw, and the repair finds that print again as the largest id at the gap's left bound. -/

namespace FinanceKing.Data

open Lib

/-! ### The detector -/

/-- Contiguity of one symbol's aggregate ids. -/
structure SequenceGapDetector where
  lastId : Option ℤ
  lastEventTimeUtc : Option DateTime

namespace SequenceGapDetector

def new : SequenceGapDetector := ⟨none, none⟩

/-- `observe`: the print is the newest seen whatever comes of it. -/
def observe (self : SequenceGapDetector) (aggregateTradeId : ℤ) (eventTimeUtc : DateTime) :
    SequenceGapDetector × PyResult (Option RecordedGap) :=
  (⟨some aggregateTradeId, some eventTimeUtc⟩,
    match self.lastId, self.lastEventTimeUtc with
    | some previousId, some previousEventTimeUtc =>
      if aggregateTradeId = previousId then .ok none
      else if aggregateTradeId < previousId then
        raise .dataIntegrity ["aggregate trade id went backwards: ", .count previousId, " then ",
          .count aggregateTradeId, ". These are monotone by construction, so this is a crossed stream ",
          "or a reordered feed, not a gap"]
      else if aggregateTradeId - previousId - 1 = 0 then .ok none
      else .ok (some ⟨previousEventTimeUtc,
        max eventTimeUtc (previousEventTimeUtc + streamTimestampResolution), .sequence,
        some (aggregateTradeId - previousId - 1)⟩)
    | _, _ => .ok none)

/-- The detector once it has seen the prints of a tape. -/
def watch (tape : List (ℤ × DateTime)) : SequenceGapDetector :=
  tape.foldl (fun detector print => (detector.observe print.1 print.2).1) new

/-- Only the newest print is remembered. -/
theorem watch_concat (tape : List (ℤ × DateTime)) (print : ℤ × DateTime) :
    watch (tape ++ [print]) = ⟨some print.1, some print.2⟩ := by
  rw [watch, List.foldl_append]
  rfl

end SequenceGapDetector

/-- A gap the detector recorded on a tape, with the two prints either side of the loss. -/
structure DetectedLoss where
  earlier : List (ℤ × DateTime)
  previous : ℤ × DateTime
  next : ℤ × DateTime
  gap : RecordedGap
  detected : ((SequenceGapDetector.watch (earlier ++ [previous])).observe next.1 next.2).2 =
    .ok (some gap)

/-- A loss is measured from the newest print before it. -/
theorem DetectedLoss.gap_eq (self : DetectedLoss) : self.gap = ⟨self.previous.2,
    max self.next.2 (self.previous.2 + streamTimestampResolution), .sequence,
    some (self.next.1 - self.previous.1 - 1)⟩ := by
  have h := self.detected
  rw [SequenceGapDetector.watch_concat] at h
  simp only [SequenceGapDetector.observe] at h
  split_ifs at h
  · cases h
  · cases h
  · cases h
  · exact (Option.some.inj (Except.ok.inj h)).symm

/-! ### Ids as numbers -/

theorem isSpace_of_isDigit {c : Char} (h : c.isDigit) : isSpace c = false := by
  simp only [Char.isDigit, Bool.and_eq_true, decide_eq_true_eq, ge_iff_le, UInt32.le_iff_toNat_le] at h
  obtain ⟨hlo, hhi⟩ := h
  have hlo' : 48 ≤ c.toNat := hlo
  have hhi' : c.toNat ≤ 57 := hhi
  simp only [isSpace, Bool.or_eq_false_iff, Bool.and_eq_false_iff, decide_eq_false_iff_not,
    beq_eq_false_iff_ne]
  omega

theorem dropWhile_isSpace_of_digits : ∀ {l : List Char}, (∀ c ∈ l, c.isDigit) →
    l.dropWhile isSpace = l
  | [], _ => rfl
  | c :: l, h => List.dropWhile_cons_of_neg (by simp [isSpace_of_isDigit (h c List.mem_cons_self)])

theorem stripChars_of_digits {l : List Char} (h : ∀ c ∈ l, c.isDigit) : stripChars l = l := by
  rw [stripChars, dropWhile_isSpace_of_digits h,
    dropWhile_isSpace_of_digits fun c hc => h c (List.mem_reverse.mp hc), List.reverse_reverse]

theorem takeSign_of_digits {l : List Char} (h : ∀ c ∈ l, c.isDigit) : takeSign l = (false, l) := by
  rw [takeSign]
  · rintro rest rfl
    exact absurd (h '+' List.mem_cons_self) (by decide)
  · rintro rest rfl
    exact absurd (h '-' List.mem_cons_self) (by decide)

theorem signedInteger_of_digits {l : List Char} (hne : l ≠ []) (h : ∀ c ∈ l, c.isDigit) :
    signedInteger l = some (Nat.ofDigitChars 10 l 0) := by
  have hdigits : takeDigits l = (l, []) := by
    rw [takeDigits, List.span_eq_takeWhile_dropWhile, List.takeWhile_eq_self_iff.mpr h,
      List.dropWhile_eq_nil_iff.mpr h]
  rw [signedInteger, takeSign_of_digits h]
  simp only [hdigits]
  cases l with
  | nil => exact absurd rfl hne
  | cons c rest => rfl

/-- An id of digits reads as the number it spells. -/
theorem parseId_of_isDigits {venueTradeId : String} (h : isDigits venueTradeId) :
    parseId venueTradeId = .ok (idNumber venueTradeId) := by
  simp only [isDigits, Bool.and_eq_true, decide_eq_true_eq, List.all_eq_true] at h
  obtain ⟨hne, hall⟩ := h
  have hnil : venueTradeId.toList ≠ [] := fun hnil => hne (String.toList_eq_nil_iff.mp hnil)
  have hno : ∀ c ∈ venueTradeId.toList, c ≠ '_' := by
    rintro c hc rfl
    exact absurd (hall '_' hc) (by decide)
  have hparted : venueTradeId.toList.head? ≠ some '_' ∧ venueTradeId.toList.getLast? ≠ some '_' ∧
      (venueTradeId.toList.zip venueTradeId.toList.tail).all
        fun pair => pair.1 ≠ '_' ∨ pair.2 ≠ '_' := by
    refine ⟨fun hhead => hno _ (List.mem_of_mem_head? hhead) rfl,
      fun hlast => hno _ (List.mem_of_getLast? hlast) rfl, ?_⟩
    rw [List.all_eq_true]
    rintro ⟨c, d⟩ hpair
    exact decide_eq_true (.inl (hno c (List.of_mem_zip hpair).1))
  have hfilter : venueTradeId.toList.filter (· ≠ '_') = venueTradeId.toList :=
    List.filter_eq_self.mpr fun c hc => decide_eq_true (hno c hc)
  have hint : pythonInt venueTradeId = some (idNumber venueTradeId) := by
    rw [pythonInt, strip, stripChars_of_digits hall, takeSign_of_digits hall]
    simp only
    rw [if_pos hparted, hfilter, signedInteger_of_digits hnil hall, idNumber]
    rfl
  rw [parseId, hint]

/-- The ids of a reconciled seam read as the numbers the seam orders them by. -/
theorem parseId_of_reconcileTrades {held fetched : List TradeRecord} {seam : TradeSeam}
    (h : reconcileTrades held fetched = .ok seam) {record : TradeRecord} (hrecord : record ∈ seam.merged) :
    parseId record.venueTradeId = .ok record.aggregateId := by
  have hfrom := mem_of_reconcileTrades h hrecord
  simp only [reconcileTrades, SeamKind.unite, bind_eq_ok] at h
  obtain ⟨_, ⟨_, hheld, _, hfetched, _⟩, _⟩ := h
  have hcheck : checkAggregateId record = .ok () :=
    hfrom.elim ((SeamKind.index_eq_ok hheld).1 record) ((SeamKind.index_eq_ok hfetched).1 record)
  rw [checkAggregateId, raiseIf_eq_ok, not_not] at hcheck
  exact parseId_of_isDigits hcheck

/-! ### What the corpus holds -/

namespace TapeCorpus

variable (self : TapeCorpus) (series : SeriesKey)

/-- A print of this id's spelling is on disk. -/
def HoldsText (venueTradeId : String) : Prop :=
  ∃ day prints, self.get? (series, day) = some prints ∧
    ∃ entry ∈ prints, entry.record.venueTradeId = venueTradeId

/-- A print of this id is on disk. -/
def Holds (id : ℤ) : Prop :=
  ∃ venueTradeId, self.HoldsText series venueTradeId ∧ parseId venueTradeId = .ok id

/-- A print seen on the stream is in the partition of its own day. -/
def HoldsPrint (print : ℤ × DateTime) : Prop :=
  ∃ prints, self.get? (series, dateOf print.2) = some prints ∧ ∃ entry ∈ prints,
    entry.record.eventTimeUtc = print.2 ∧ parseId entry.record.venueTradeId = .ok print.1

end TapeCorpus

theorem option_mapM_eq_some {α β : Type} {f : α → Option β} : ∀ {l : List α} {bs : List β},
    l.mapM f = some bs → List.Forall₂ (fun a b => f a = some b) l bs
  | [], bs, h => by
    obtain rfl : [] = bs := by simpa using h
    exact .nil
  | a :: l, bs, h => by
    simp only [List.mapM_cons, Option.bind_eq_bind, Option.bind_eq_some_iff, Option.pure_def,
      Option.some.injEq] at h
    obtain ⟨b, hb, rest, hrest, rfl⟩ := h
    exact .cons hb (option_mapM_eq_some hrest)

/-- The window of a gap holds what its days' partitions hold of it. -/
theorem mem_heldWindow {corpus : TapeCorpus} {series : SeriesKey} {gap : RecordedGap}
    {atUtc : DateTime} {venueTradeIds : List String} {window : List SourcedRecord}
    (h : heldWindow corpus series gap atUtc venueTradeIds = some window) {entry : SourcedRecord} :
    entry ∈ window ↔ ∃ day ∈ daysSpanned gap, ∃ prints, corpus.get? (series, day) = some prints ∧
      entry ∈ tradeWindow atUtc venueTradeIds prints := by
  rw [heldWindow, Option.map_eq_some_iff] at h
  obtain ⟨parts, hparts, rfl⟩ := h
  have hrelated := option_mapM_eq_some hparts
  rw [List.mem_flatten]
  constructor
  · rintro ⟨part, hpart, hentry⟩
    obtain ⟨day, hday, hread⟩ := exists_left_of_forall₂ hrelated hpart
    obtain ⟨prints, hprints, rfl⟩ := Option.map_eq_some_iff.mp hread
    exact ⟨day, hday, prints, hprints, hentry⟩
  · rintro ⟨day, hday, prints, hprints, hentry⟩
    obtain ⟨part, hpart, hread⟩ := exists_right_of_forall₂ hrelated hday
    rw [hprints] at hread
    obtain rfl := Option.some.inj hread
    exact ⟨_, hpart, hentry⟩

/-! ### The request -/

/-- What a request was made from: the largest id at the bound, the gap's count, and the window held. -/
theorem planRepair_eq_ask {corpus : TapeCorpus} {openGap : OpenGap} {request : RepairRequest}
    (h : planRepair corpus openGap = .ok (.ask request)) :
    ∃ anchors, heldWindow corpus openGap.series openGap.gap openGap.gap.gapStartUtc [] = some anchors ∧
      leftBracketId anchors openGap.gap = .ok (some request.previousId) ∧
      request.missingCount = openGap.gap.missingBarCount.getD 0 ∧
      request.held = Dict.indexBy (·.record.venueTradeId) id
        ((heldWindow corpus openGap.series openGap.gap openGap.gap.gapStartUtc
          (windowIds request.previousId request.missingCount)).getD []) ∧
      request.held.keys.mapM parseId = .ok request.heldIds := by
  rw [planRepair] at h
  split at h
  · cases h
  · next anchors hanchors =>
    obtain ⟨bracket, hbracket, hrest⟩ := bind_eq_ok.mp h
    cases bracket with
    | none => cases hrest
    | some previousId =>
      simp only [bind_eq_ok, pure_eq_ok] at hrest
      obtain ⟨heldIds, hids, hrequest⟩ := hrest
      obtain rfl := RepairPlan.ask.inj hrequest
      exact ⟨anchors, hanchors, hbracket, rfl, rfl, hids⟩

theorem leftBracketId_eq_some {anchors : List SourcedRecord} {gap : RecordedGap} {id : ℤ}
    (h : leftBracketId anchors gap = .ok (some id)) :
    (∃ entry ∈ anchors, entry.record.eventTimeUtc = gap.gapStartUtc ∧
      parseId entry.record.venueTradeId = .ok id) ∧
    ∀ entry ∈ anchors, entry.record.eventTimeUtc = gap.gapStartUtc →
      ∃ id', parseId entry.record.venueTradeId = .ok id' ∧ id' ≤ id := by
  simp only [leftBracketId, bind_eq_ok, pure_eq_ok, mapM_eq_ok_iff] at h
  obtain ⟨ids, hids, hmax⟩ := h
  obtain ⟨hmem, hle⟩ := List.max?_eq_some_iff.mp hmax
  constructor
  · obtain ⟨entry, hentry, hparse⟩ := exists_left_of_forall₂ hids hmem
    obtain ⟨hanchor, htime⟩ := List.mem_filter.mp hentry
    exact ⟨entry, hanchor, of_decide_eq_true htime, hparse⟩
  · intro entry hentry htime
    obtain ⟨id', hid', hparse⟩ := exists_right_of_forall₂ hids
      (List.mem_filter.mpr ⟨hentry, decide_eq_true htime⟩)
    exact ⟨id', hparse, hle id' hid'⟩

/-! ### What a repair writes -/

section Writes

variable {toTable : List SourcedRecord → PyResult Unit} {series : SeriesKey} {corpus after : TapeCorpus}

/-- A day's rewrite keeps every id that was on disk and adds those of its prints. -/
theorem writeDay_holds {day : Date} {dayPrints : List TradeRecord}
    (h : writeDay toTable series corpus day dayPrints = .ok after) {venueTradeId : String}
    (hid : corpus.HoldsText series venueTradeId ∨
      ∃ record ∈ dayPrints, record.venueTradeId = venueTradeId) :
    after.HoldsText series venueTradeId := by
  simp only [writeDay, writeSourcedRecords, bind_eq_ok, pure_eq_ok, mapM_eq_ok_iff] at h
  obtain ⟨seam, hseam, sourced, hsourced, _, _, _, _, _, _, rfl⟩ := h
  -- An id of either view is written under its own day.
  have hwritten : ∀ record, record ∈ ((corpus.get? (series, day)).getD []).map (·.record) ∨
      record ∈ dayPrints → TapeCorpus.HoldsText (corpus.set (series, day)
        (sortBy (·.record.eventTimeUtc) sourced)) series record.venueTradeId := by
    intro record hrecord
    obtain ⟨kept, hkept, hsame⟩ := exists_of_reconcileTrades hseam hrecord
    obtain ⟨entry, hentry, hsource⟩ := exists_right_of_forall₂ hsourced hkept
    refine ⟨day, _, Dict.get?_set_self _ _ _, entry, (mem_sortBy _).mpr hentry, ?_⟩
    split at hsource
    · rw [← Except.ok.inj hsource]
      exact hsame
    · cases hsource
  rcases hid with ⟨other, prints, hprints, entry, hentry, rfl⟩ | ⟨record, hrecord, rfl⟩
  · by_cases hday : other = day
    · subst hday
      refine hwritten entry.record (.inl (List.mem_map.mpr ⟨entry, ?_, rfl⟩))
      rw [hprints]
      exact hentry
    · refine ⟨other, prints, ?_, entry, hentry, rfl⟩
      rw [Dict.get?_set_of_ne _ _ (by simpa using hday)]
      exact hprints
  · exact hwritten record (.inr hrecord)

theorem writeDays_holds : ∀ {days : List (Date × List TradeRecord)} {corpus : TapeCorpus},
    writeDays toTable series days corpus = (after, .ok ()) → ∀ {venueTradeId : String},
    (corpus.HoldsText series venueTradeId ∨
      ∃ group ∈ days, ∃ record ∈ group.2, record.venueTradeId = venueTradeId) →
    after.HoldsText series venueTradeId
  | [], corpus, h, venueTradeId, hid => by
    obtain rfl : corpus = after := congrArg Prod.fst h
    exact hid.resolve_right (by simp)
  | (day, dayPrints) :: rest, corpus, h, venueTradeId, hid => by
    rw [writeDays] at h
    split at h
    · cases congrArg Prod.snd h
    · next next hnext =>
      refine writeDays_holds h ?_
      rcases hid with hold | ⟨group, hgroup, record, hrecord, hsame⟩
      · exact .inl (writeDay_holds hnext (.inl hold))
      · rcases List.mem_cons.mp hgroup with rfl | hlater
        · exact .inl (writeDay_holds hnext (.inr ⟨record, hrecord, hsame⟩))
        · exact .inr ⟨group, hlater, record, hrecord, hsame⟩

/-- Every print of a list is in the group of its day. -/
theorem mem_groupByDay {records : List TradeRecord} {record : TradeRecord} (h : record ∈ records) :
    ∃ group ∈ (groupByDay records).entries, record ∈ group.2 := by
  have hmem : record ∈ records.filter fun other =>
      dateOf other.eventTimeUtc = dateOf record.eventTimeUtc :=
    List.mem_filter.mpr ⟨h, decide_eq_true rfl⟩
  have hgroup := Dict.get?_groupBy (fun record : TradeRecord => dateOf record.eventTimeUtc)
    (dateOf record.eventTimeUtc) records
  rw [if_neg (List.ne_nil_of_mem hmem), Dict.get?_eq_some_iff] at hgroup
  exact ⟨_, hgroup, hmem⟩

end Writes

/-! ### What a repair closes -/

theorem resolveGap_backfilled {tables after : IngestTables} {openGap : OpenGap}
    {residuals : List RecordedGap} {resolvedAtUtc : DateTime}
    (h : tables.resolveGap openGap residuals resolvedAtUtc = (after, .ok .backfilled)) :
    residuals = [] := by
  rw [IngestTables.resolveGap] at h
  split at h
  · cases congrArg Prod.snd h
  · simp only at h
    split at h
    · cases congrArg Prod.snd h
    · split at h
      · next hnil => exact hnil
      · cases congrArg Prod.snd h
    · cases congrArg Prod.snd h

/-- A gap is counted closed only where no residual is left of it. -/
theorem residualGaps_of_closed {backfiller : TradeGapBackfiller} {openGap : OpenGap}
    {window : RepairWindow} {tally counted : Tally} {world after : TapeWorld}
    (h : backfiller.settleGap openGap window tally world = (after, .ok counted))
    (hclosed : counted.closed = tally.closed + 1) :
    window.residualGaps openGap.gap = .ok [] ∧ after.corpus = world.corpus := by
  rw [TradeGapBackfiller.settleGap] at h
  split at h
  · cases congrArg Prod.snd h
  · next residuals hresiduals =>
    split at h
    · obtain rfl := Except.ok.inj (congrArg Prod.snd h)
      simp at hclosed
    · rcases hresolve : world.registry.resolveGap openGap residuals backfiller.nowUtc with
        ⟨registry, e | resolution⟩
      · rw [hresolve] at h
        cases congrArg Prod.snd h
      · rw [hresolve] at h
        have hcorpus : world.corpus = after.corpus := congrArg (fun result => result.1.corpus) h
        obtain rfl := Except.ok.inj (congrArg Prod.snd h)
        cases resolution with
        | superseded => simp at hclosed
        | backfilled =>
          rw [hresiduals, resolveGap_backfilled hresolve]
          exact ⟨rfl, hcorpus.symm⟩

/-! ### The repair of a detected loss -/

/-- A repair that asks the venue for the prints of a detected loss, over a corpus that holds the two
    prints either side of it. -/
structure AskedRepair (backfiller : TradeGapBackfiller) (world : TapeWorld) where
  loss : DetectedLoss
  openGap : OpenGap
  isLoss : openGap.gap = loss.gap
  holdsPrevious : world.corpus.HoldsPrint openGap.series loss.previous
  holdsNext : world.corpus.HoldsPrint openGap.series loss.next
  request : RepairRequest
  asked : planRepair world.corpus openGap = .ok (.ask request)

namespace AskedRepair

variable {backfiller : TradeGapBackfiller} {world : TapeWorld}

/-- The repair asks for the ids from one bracket to the other, and counts the gap closed only once every
    print between them is in the corpus. -/
structure RepairsTheLoss (repair : AskedRepair backfiller world) : Prop where
  asksForTheGap : repair.request.previousId = repair.loss.previous.1 ∧
    repair.request.missingCount + 2 = repair.loss.next.1 - repair.loss.previous.1 + 1
  closesOnlyWhole : ∀ tally after counted,
    backfiller.repair repair.openGap tally world = (after, .ok counted) →
    counted.closed = tally.closed + 1 → ∀ id, repair.loss.previous.1 < id → id < repair.loss.next.1 →
    after.corpus.Holds repair.openGap.series id

variable (self : AskedRepair backfiller world)

/-- No print the corpus holds at the gap's left bound has a larger id than the one the gap was measured
    from. -/
def MeasuredFromTheLargest : Prop :=
  ∀ day ∈ daysSpanned self.loss.gap, ∀ prints,
    world.corpus.get? (self.openGap.series, day) = some prints → ∀ entry ∈ prints,
    entry.record.eventTimeUtc = self.loss.previous.2 →
    ∀ id, parseId entry.record.venueTradeId = .ok id → id ≤ self.loss.previous.1

theorem missingCount_eq :
    self.request.missingCount = self.loss.next.1 - self.loss.previous.1 - 1 := by
  obtain ⟨_, _, _, hcount, _, _⟩ := planRepair_eq_ask self.asked
  rw [hcount, self.isLoss, self.loss.gap_eq]
  rfl

theorem firstDay_mem : dateOf self.loss.previous.2 ∈ daysSpanned self.loss.gap := by
  have hle : self.loss.previous.2 ≤
      max self.loss.next.2 (self.loss.previous.2 + streamTimestampResolution) :=
    le_max_of_le_right (le_add_of_nonneg_right (by decide))
  have hdate : dateOf self.loss.previous.2 ≤
      dateOf (max self.loss.next.2 (self.loss.previous.2 + streamTimestampResolution)) :=
    Int.ediv_le_ediv (by decide) hle
  rw [daysSpanned, self.loss.gap_eq, daysBetween]
  simp only [List.mem_map, List.bind_eq_flatMap, List.pure_def, List.mem_flatMap, List.mem_range,
    List.mem_singleton]
  exact ⟨0, ⟨0, Int.lt_toNat.mpr (sub_pos.mpr (Int.lt_add_one_of_le hdate)), rfl⟩, add_zero _⟩

/-- The request starts at the print the gap was measured from exactly where no print at the same instant
    has a larger id. -/
theorem previousId_eq_iff :
    self.request.previousId = self.loss.previous.1 ↔ self.MeasuredFromTheLargest := by
  obtain ⟨anchors, hanchors, hbracket, _, _, _⟩ := planRepair_eq_ask self.asked
  obtain ⟨⟨found, hfound, htime, hparse⟩, hlargest⟩ := leftBracketId_eq_some hbracket
  have hstart : self.openGap.gap.gapStartUtc = self.loss.previous.2 := by
    rw [self.isLoss, self.loss.gap_eq]
  have hanchor : ∀ entry day prints, day ∈ daysSpanned self.loss.gap →
      world.corpus.get? (self.openGap.series, day) = some prints → entry ∈ prints →
      entry.record.eventTimeUtc = self.loss.previous.2 → entry ∈ anchors := by
    intro entry day prints hday hprints hentry hat
    refine (mem_heldWindow hanchors).mpr ⟨day, ?_, prints, hprints, List.mem_filter.mpr
      ⟨hentry, decide_eq_true (.inl (hat.trans hstart.symm))⟩⟩
    rw [self.isLoss]
    exact hday
  constructor
  · intro heq day hday prints hprints entry hentry hat id hid
    obtain ⟨id', hid', hle⟩ := hlargest entry (hanchor entry day prints hday hprints hentry hat)
      (hat.trans hstart.symm)
    rw [hid] at hid'
    obtain rfl := Except.ok.inj hid'
    exact hle.trans_eq heq
  · intro hmeasured
    refine le_antisymm ?_ ?_
    · obtain ⟨day, hday, prints, hprints, hentry⟩ := (mem_heldWindow hanchors).mp hfound
      rw [self.isLoss] at hday
      exact hmeasured day hday prints hprints found (List.mem_filter.mp hentry).1
        (htime.trans hstart) _ hparse
    · obtain ⟨prints, hprints, entry, hentry, hat, hid⟩ := self.holdsPrevious
      obtain ⟨id', hid', hle⟩ := hlargest entry
        (hanchor entry _ prints self.firstDay_mem hprints hentry hat) (hat.trans hstart.symm)
      rw [hid] at hid'
      obtain rfl := Except.ok.inj hid'
      exact hle

/-- The ids a request counts as held are on disk. -/
theorem holds_of_heldIds {id : ℤ} (h : id ∈ self.request.heldIds) : ∃ venueTradeId,
    world.corpus.HoldsText self.openGap.series venueTradeId ∧ parseId venueTradeId = .ok id := by
  obtain ⟨_, _, _, _, hheld, hids⟩ := planRepair_eq_ask self.asked
  obtain ⟨key, hkey, hparse⟩ := exists_left_of_forall₂ (mapM_eq_ok_iff.mp hids) h
  rw [Dict.mem_keys_iff, Option.isSome_iff_exists] at hkey
  obtain ⟨_, hentry⟩ := hkey
  rw [hheld] at hentry
  obtain ⟨entry, hmem, rfl, -⟩ := Dict.exists_of_get?_indexBy hentry
  rcases hwindow : heldWindow world.corpus self.openGap.series self.openGap.gap
    self.openGap.gap.gapStartUtc (windowIds self.request.previousId self.request.missingCount) with _ | w
  · rw [hwindow] at hmem
    cases hmem
  · rw [hwindow] at hmem
    obtain ⟨day, _, prints, hprints, hfiltered⟩ := (mem_heldWindow hwindow).mp hmem
    exact ⟨_, ⟨day, prints, hprints, entry, (List.mem_filter.mp hfiltered).1, rfl⟩, hparse⟩

/-- A gap counted closed has, in the corpus, every print the request counted as missing. -/
theorem holds_of_closed {tally counted : Tally} {after : TapeWorld}
    (h : backfiller.repair self.openGap tally world = (after, .ok counted))
    (hclosed : counted.closed = tally.closed + 1) {id : ℤ} (hlt : self.request.previousId < id)
    (hle : id ≤ self.request.previousId + self.request.missingCount) :
    after.corpus.Holds self.openGap.series id := by
  rw [TradeGapBackfiller.repair, self.asked] at h
  simp only at h
  split at h
  · cases congrArg Prod.snd h
  · next window hfetch =>
    simp only [RepairRequest.fetch, bind_eq_ok, pure_eq_ok] at hfetch
    obtain ⟨fetched, _, seam, hseam, rfl⟩ := hfetch
    split at h
    · cases congrArg Prod.snd h
    · next corpus hwrite =>
      obtain ⟨hresiduals, hcorpus⟩ := residualGaps_of_closed h hclosed
      obtain ⟨runs, hnames, _, hcovers⟩ := RepairWindow.coversAbsent_of_residualGaps _ hresiduals
      obtain rfl : runs = [] := List.forall₂_nil_left_iff.mp hnames
      have hpresent : id ∈ (⟨self.request, seam⟩ : RepairWindow).presentIds := by
        by_contra habsent
        obtain ⟨_, hrun, _⟩ := (hcovers id).mp (RepairWindow.isAbsent_iff.mpr ⟨hlt, hle, habsent⟩)
        cases hrun
      rw [hcorpus]
      rcases List.mem_append.mp hpresent with hheld | hrecovered
      · obtain ⟨venueTradeId, hholds, hparse⟩ := self.holds_of_heldIds hheld
        exact ⟨venueTradeId, writeDays_holds hwrite (.inl hholds), hparse⟩
      · obtain ⟨record, hrecord, rfl⟩ := List.mem_map.mp hrecovered
        obtain ⟨group, hgroup, hmem⟩ := mem_groupByDay hrecord
        exact ⟨record.venueTradeId,
          writeDays_holds hwrite (.inr ⟨group, hgroup, record, hmem, rfl⟩),
          parseId_of_reconcileTrades hseam (List.mem_filter.mp hrecord).1⟩

/-- A repair fetches and closes the loss exactly where the print the gap was measured from has the
    largest id the corpus holds at its instant. -/
theorem repairsTheLoss_iff (repair : AskedRepair backfiller world) :
    repair.RepairsTheLoss ↔ repair.MeasuredFromTheLargest := by
  rw [← previousId_eq_iff]
  constructor
  · intro hrepairs
    exact hrepairs.asksForTheGap.1
  · intro heq
    have hcount := repair.missingCount_eq
    refine ⟨⟨heq, by omega⟩, fun tally after counted hrepair hclosed id hlt hgt => ?_⟩
    exact repair.holds_of_closed hrepair hclosed (by omega) (by omega)

end AskedRepair

/-! ### Brackets that share a millisecond -/

/-- An endpoint that returns every print of the requested range; 10 to 14 share one instant. -/
def wholeSource : AggTradeSource := fun _ fromId printCount =>
  .ok ([samplePrint "10" 0, samplePrint "11" 0, samplePrint "12" 0, samplePrint "13" 0,
    samplePrint "14" 0, samplePrint "15" 1000, samplePrint "16" 1000, samplePrint "17" 1000,
    samplePrint "18" 1000].filter fun record =>
      fromId ≤ record.aggregateId ∧ record.aggregateId < fromId + printCount)

def wholeBackfiller : TradeGapBackfiller := ⟨.spot, wholeSource, fun _ => .ok (), 5000⟩

/-- Prints 11 to 13 were lost, and so was 16. -/
def bracketWorld : TapeWorld where
  corpus := Dict.empty.set (sampleTapeGap.series, 0) ([samplePrint "10" 0, samplePrint "14" 0,
    samplePrint "15" 1000, samplePrint "17" 1000, samplePrint "18" 1000].map (⟨·, .stream⟩))
  registry := sampleTapeWorld.registry

def bracketLoss : DetectedLoss := ⟨[], (10, 0), (14, 0), sampleTapeGap.gap, by rfl⟩

def bracketRequest : RepairRequest where
  previousId := 14
  missingCount := 3
  held := Dict.indexBy (·.record.venueTradeId) id ([samplePrint "10" 0, samplePrint "14" 0,
    samplePrint "15" 1000, samplePrint "17" 1000, samplePrint "18" 1000].map (⟨·, .stream⟩))
  heldIds := [10, 14, 15, 17, 18]

theorem holdsPrint_of_mem {corpus : TapeCorpus} {series : SeriesKey} {print : ℤ × DateTime}
    {prints : List SourcedRecord} (hprints : corpus.get? (series, dateOf print.2) = some prints)
    (hmem : prints.any fun entry => entry.record.eventTimeUtc = print.2 ∧
      (parseId entry.record.venueTradeId).toOption = some print.1) :
    corpus.HoldsPrint series print := by
  obtain ⟨entry, hentry, hboth⟩ := List.any_eq_true.mp hmem
  obtain ⟨htime, hid⟩ := of_decide_eq_true hboth
  refine ⟨prints, hprints, entry, hentry, htime, ?_⟩
  cases hparse : parseId entry.record.venueTradeId with
  | error e => rw [hparse] at hid; cases hid
  | ok id => rw [hparse] at hid; rw [Option.some.inj hid]

/-- The repair of prints 11 to 13 asks for 14 to 18, recovers 16, and counts the gap closed. -/
theorem a_shared_millisecond_closes_the_gap_over_missing_prints :
    ∃ repair : AskedRepair wholeBackfiller bracketWorld, repair.request.previousId = 14 ∧
      (wholeBackfiller.repair repair.openGap ⟨0, 0, 0, 0, 0, 0, 0⟩ bracketWorld).2.toOption.map
        (·.closed) = some 1 ∧ ¬repair.RepairsTheLoss := by
  refine ⟨⟨bracketLoss, sampleTapeGap, rfl, holdsPrint_of_mem rfl ?_, holdsPrint_of_mem rfl ?_,
    bracketRequest, ?_⟩, rfl, ?_, ?_⟩
  · decide +kernel
  · decide +kernel
  · decide +kernel
  · decide +kernel
  · intro hrepairs
    exact absurd hrepairs.asksForTheGap.1 (by decide)

end FinanceKing.Data
