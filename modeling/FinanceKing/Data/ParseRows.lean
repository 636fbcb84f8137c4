import FinanceKing.Data.RowGrammar
import FinanceKing.Domain.Results

/-! One archive member, line by line. Every data line is a record or one counted rejection, in file order, and
    the tally adds up; the parse is stopped by something that is no `DataIntegrityError` exactly where a
    line's checks reach a text that stops it. -/

namespace FinanceKing.Data

open Lib

/-! ### Data lines -/

/-- The lines of a decoded member behind its declared header; a blank tail is dropped. -/
def dataLines (text : String) (hasHeaderRow : Bool) : List String :=
  let lines := dropBlankTail (splitLines text)
  if hasHeaderRow then lines.tail else lines

/-- Whether the first line is the header that is declared, or none where none is. -/
def HeaderAgrees (text : String) (hasHeaderRow : Bool) (columns : List String) : Prop :=
  ∀ first ∈ (dropBlankTail (splitLines text)).head?,
    looksLikeHeader (splitFields first) = hasHeaderRow ∧
      (hasHeaderRow = true → splitFields first = columns)

theorem splitRows_eq_ok {text source : String} {hasHeaderRow : Bool} {columns : List String}
    {rows : List (List String)} : splitRows text source hasHeaderRow columns = .ok rows ↔
      HeaderAgrees text hasHeaderRow columns ∧ rows = (dataLines text hasHeaderRow).map splitFields := by
  rw [splitRows, HeaderAgrees, dataLines]
  cases dropBlankTail (splitLines text) with
  | nil => simp [eq_comm]
  | cons first rest =>
    simp only [bind_eq_ok, raiseIf_eq_ok, pure_eq_ok, Unique.exists_iff, List.head?_cons, List.tail_cons,
      Option.mem_some_iff, forall_eq', eq_comm (a := rows)]
    cases hasHeaderRow <;> cases looksLikeHeader (splitFields first) <;> simp

/-- The header gate refuses with its own class. -/
theorem splitRows_error {text source : String} {hasHeaderRow : Bool} {columns : List String} {e : PyError}
    (h : splitRows text source hasHeaderRow columns = .error e) : e.kind = .headerExpectation := by
  rw [splitRows] at h
  split at h
  · cases h
  · rcases bind_eq_error h with h | ⟨_, _, h⟩
    · exact raiseIf_error h
    rcases bind_eq_error h with h | ⟨_, _, h⟩
    · exact raiseIf_error h
    rcases bind_eq_error h with h | ⟨_, _, h⟩
    · exact raiseIf_error h
    · cases h

/-! ### Verdicts -/

namespace DatasetParser

variable {Record : Type} {self : DatasetParser Record} {spec : IngestionSpec}

/-- A row that does not stop the loop is a record or a rejection. -/
theorem exists_verdicts {rows : List (List String)} (h : ∀ row ∈ rows, ¬ self.Raises spec row) :
    ∃ verdicts : List (Record ⊕ RejectionReason),
      List.Forall₂ (fun row verdict => self.parseRow row spec = Sum.elim Except.ok reject verdict)
        rows verdicts := by
  induction rows with
  | nil => exact ⟨[], .nil⟩
  | cons row rows ih =>
    obtain ⟨hrow, hrows⟩ := List.forall_mem_cons.mp h
    obtain ⟨verdicts, hverdicts⟩ := ih hrows
    cases hresult : self.parseRow row spec with
    | ok record => exact ⟨.inl record :: verdicts, .cons hresult hverdicts⟩
    | error fault =>
      cases fault with
      | rejected reason => exact ⟨.inr reason :: verdicts, .cons hresult hverdicts⟩
      | raised e => exact absurd ⟨e, hresult⟩ hrow

/-- What the loop keeps of its rows, read off their verdicts. -/
theorem kept_of_verdicts {rows : List (List String)} {verdicts : List (Record ⊕ RejectionReason)}
    (h : List.Forall₂ (fun row verdict => self.parseRow row spec = Sum.elim Except.ok reject verdict)
      rows verdicts) (tally : List (String × ℤ)) :
    self.acceptedRows rows spec = verdicts.filterMap Sum.getLeft? ∧
      rows.foldl (self.tallyRow spec) tally =
        (verdicts.filterMap Sum.getRight?).foldl (fun tally reason => countRejection reason tally) tally := by
  induction h generalizing tally with
  | nil => exact ⟨rfl, rfl⟩
  | @cons row verdict rows verdicts hrow _ ih =>
    cases verdict with
    | inl record =>
      have hkept := ih tally
      have hrecord : self.parseRow row spec = .ok record := hrow
      simp [acceptedRows, tallyRow, hrecord, Except.toOption] at hkept ⊢
      exact hkept
    | inr reason =>
      have hkept := ih (countRejection reason tally)
      have hreason : self.parseRow row spec = .error (.rejected reason) := hrow
      simp [acceptedRows, tallyRow, hreason, Except.toOption] at hkept ⊢
      exact hkept

end DatasetParser

/-! ### The tally -/

theorem RejectionReason.value_injective : Function.Injective RejectionReason.value := by
  intro a b
  cases a <;> cases b <;> simp [value]

theorem countRejection_lookup (reason other : RejectionReason) (tally : List (String × ℤ)) :
    ((DatasetParser.countRejection reason tally).lookup other.value).getD 0 =
      (tally.lookup other.value).getD 0 + if other = reason then 1 else 0 := by
  rw [DatasetParser.countRejection, lookup_putEntry]
  by_cases h : other = reason
  · rw [if_pos (congrArg _ h), if_pos h, h, Option.getD_some]
  · rw [if_neg fun hvalue => h (RejectionReason.value_injective hvalue), if_neg h, add_zero]

theorem countRejection_sum (reason : RejectionReason) (tally : List (String × ℤ)) :
    ((DatasetParser.countRejection reason tally).map Prod.snd).sum = (tally.map Prod.snd).sum + 1 := by
  have hsum := sum_putEntry reason.value ((tally.lookup reason.value).getD 0 + 1) (fun n : ℤ => n) tally
  have hold : (tally.lookup reason.value).elim 0 (fun n => n) = (tally.lookup reason.value).getD 0 := by
    cases tally.lookup reason.value <;> rfl
  rw [hold] at hsum
  rw [DatasetParser.countRejection]
  refine hsum.trans ?_
  ring

/-- A tally holds each reason as often as it was counted, and sums to how many were. -/
theorem tally_counts (reasons : List RejectionReason) (tally : List (String × ℤ)) :
    (∀ reason : RejectionReason, ((reasons.foldl (fun tally reason =>
        DatasetParser.countRejection reason tally) tally).lookup reason.value).getD 0 =
      (tally.lookup reason.value).getD 0 + reasons.count reason) ∧
    ((reasons.foldl (fun tally reason => DatasetParser.countRejection reason tally) tally).map
      Prod.snd).sum = (tally.map Prod.snd).sum + reasons.length := by
  induction reasons generalizing tally with
  | nil => simp
  | cons head reasons ih =>
    obtain ⟨hcount, hsum⟩ := ih (DatasetParser.countRejection head tally)
    rw [List.foldl_cons, hsum, countRejection_sum, List.length_cons]
    refine ⟨fun reason => ?_, by push_cast; ring⟩
    rw [hcount, countRejection_lookup, List.count_cons]
    by_cases h : head = reason
    · simp [h]
      ring
    · simp [h, Ne.symm h]

theorem length_verdicts {α β : Type} (verdicts : List (α ⊕ β)) : verdicts.length =
    (verdicts.filterMap Sum.getLeft?).length + (verdicts.filterMap Sum.getRight?).length := by
  induction verdicts with
  | nil => rfl
  | cons verdict verdicts ih =>
    cases verdict with
    | inl a =>
      simp [List.filterMap_cons, ih]
      omega
    | inr b =>
      simp [List.filterMap_cons, ih]
      omega

/-! ### What a parse returns -/

theorem IngestionSpec.fraction_nonneg (spec : IngestionSpec) : 0 ≤ spec.maxRejectionFraction := by
  have hchecked := spec.checked
  simp only [IngestionSpecFields.postInit, bind_eq_ok, raiseIf_eq_ok, not_not] at hchecked
  obtain ⟨_, _, _, _, _, _, hfraction⟩ := hchecked
  exact hfraction.1

/-- What the verdict on a line says of it: the record it reads as, or that it reads as none. -/
def Judges {Record : Type} (reads : List String → Record → Prop) (line : String) :
    Record ⊕ RejectionReason → Prop
  | .inl record => reads (splitFields line) record
  | .inr _ => ∀ record, ¬ reads (splitFields line) record

/-- What a parse that returned owes its caller: one verdict on every data line, the records of the accepted
    ones in file order, every rejection counted once, and the rejections under the declared ceiling. -/
structure Accounts {Record : Type} (reads : List String → Record → Prop) (spec : IngestionSpec)
    (lines : List String) (records : List Record) (outcome : NormalizationResult) : Prop where
  verdicts : ∃ verdicts : List (Record ⊕ RejectionReason), List.Forall₂ (Judges reads) lines verdicts ∧
    records = verdicts.filterMap Sum.getLeft? ∧
    ∀ reason, outcome.rejectedFor reason = (verdicts.filterMap Sum.getRight?).count reason
  rowsIn : outcome.rowsIn = lines.length
  rowsOut : outcome.rowsOut = records.length
  rowsRejected : outcome.rowsRejected = outcome.rowsIn - outcome.rowsOut
  tally : (outcome.rejectionReasons.map Prod.snd).sum = outcome.rowsIn - outcome.rowsOut
  ceiling : (outcome.rowsRejected : Decimal) ≤ spec.maxRejectionFraction * outcome.rowsIn

/-- The parse raises a `DataIntegrityError`, or returns and accounts for every data line. -/
def ParsesExactly {Record : Type} (parser : DatasetParser Record) (reads : List String → Record → Prop)
    (payload : ByteArray) (spec : IngestionSpec) (source : String) : Prop :=
  match parseRows payload spec parser source with
  | .error e => e.kind.isDataIntegrity = true
  | .ok (records, outcome) => ∃ text, String.fromUTF8? payload = some text ∧
      Accounts reads spec (dataLines text spec.archiveFormat.hasHeaderRow) records outcome

/-- A payload that decodes and agrees with its declared header, with a data line that stops the parse. -/
def HoldsStop (stops : List String → Prop) (columns : List String) (payload : ByteArray)
    (spec : IngestionSpec) : Prop :=
  ∃ text, String.fromUTF8? payload = some text ∧
    HeaderAgrees text spec.archiveFormat.hasHeaderRow columns ∧
    ∃ line ∈ dataLines text spec.archiveFormat.hasHeaderRow, stops (splitFields line)

/-- The faults an exception is behind. -/
def RowFault.leaves : RowFault → Prop
  | .rejected _ => False
  | .raised _ => True

/-- The faults no handler for `DataIntegrityError` catches. -/
def RowFault.foreign : RowFault → Prop
  | .rejected _ => False
  | .raised e => e.kind.isDataIntegrity = false

theorem escaping_leaves : Escaping RowFault.leaves := ⟨fun _ => id, fun _ _ => trivial⟩

theorem escaping_foreign : Escaping RowFault.foreign := ⟨fun _ => id, fun _ h => h⟩

theorem refuseAboveCeiling_error {outcome : NormalizationResult} {ceiling : Decimal} {source : String}
    {reasons : Option (List RejectionReason)} {e : PyError}
    (h : refuseAboveCeiling outcome ceiling source reasons = .error e) : e.kind = .dataIntegrity :=
  raiseIf_error h

section Parse

variable {Record : Type} {parser : DatasetParser Record} {reads : List String → Record → Prop}
  {stops : List String → Prop} {spec : IngestionSpec}

/-- A row stops the loop exactly where the grammar says so. -/
theorem raises_iff (hrows : ∀ row, Reads RowFault.leaves (parser.parseRow row spec) (reads row) (stops row))
    (row : List String) : parser.Raises spec row ↔ stops row := by
  rw [← (hrows row).escapes_iff, DatasetParser.Raises]
  constructor
  · rintro ⟨e, he⟩
    exact ⟨_, he, trivial⟩
  · rintro ⟨fault, hfault, hleaves⟩
    cases fault with
    | rejected reason => exact absurd hleaves id
    | raised e => exact ⟨e, hfault⟩

/-- What the loop raises is raised by one of its rows. -/
theorem foldlM_takeRow_error {rows : List (List String)} {e : PyError} :
    ∀ {state : List Record × List (String × ℤ)}, rows.foldlM (parser.takeRow spec) state = .error e →
      ∃ row ∈ rows, parser.parseRow row spec = .error (.raised e) := by
  induction rows with
  | nil => exact fun h => by cases h
  | cons row rows ih =>
    intro state h
    rw [List.foldlM_cons] at h
    rcases bind_eq_error h with hrow | ⟨_, _, hrest⟩
    · refine ⟨row, List.mem_cons_self, ?_⟩
      rw [DatasetParser.takeRow] at hrow
      split at hrow
      · cases hrow
      · cases hrow
      · next hraised =>
        injection hrow with he
        rw [← he]
        exact hraised
    · obtain ⟨other, hother, hraised⟩ := ih hrest
      exact ⟨other, List.mem_cons_of_mem _ hother, hraised⟩

/-- A verdict judges the line it was given on. -/
theorem judges_of_verdicts
    (hrows : ∀ row, Reads RowFault.leaves (parser.parseRow row spec) (reads row) (stops row))
    {lines : List String} (hgo : ∀ line ∈ lines, ¬ stops (splitFields line))
    {verdicts : List (Record ⊕ RejectionReason)} (h : List.Forall₂ (fun line verdict =>
      parser.parseRow (splitFields line) spec = Sum.elim Except.ok reject verdict) lines verdicts) :
    List.Forall₂ (Judges reads) lines verdicts := by
  induction h with
  | nil => exact .nil
  | @cons line verdict lines verdicts hline _ ih =>
    obtain ⟨hfirst, hrest⟩ := List.forall_mem_cons.mp hgo
    refine .cons ?_ (ih hrest)
    cases verdict with
    | inl record => exact (((hrows (splitFields line)).ok_iff record).mp hline).1
    | inr reason =>
      intro record hread
      have hok := ((hrows (splitFields line)).ok_iff record).mpr ⟨hread, hfirst⟩
      rw [hline] at hok
      cases hok

/-- A parse that returned accounts for every data line. -/
theorem parseText_accounts
    (hrows : ∀ row, Reads RowFault.leaves (parser.parseRow row spec) (reads row) (stops row))
    {text source : String} {records : List Record} {outcome : NormalizationResult}
    (h : parser.parseText text spec spec.maxRejectionFraction source = .ok (records, outcome)) :
    Accounts reads spec (dataLines text spec.archiveFormat.hasHeaderRow) records outcome := by
  simp only [DatasetParser.parseText, bind_eq_ok, splitRows_eq_ok, DatasetParser.foldlM_takeRow] at h
  obtain ⟨_, ⟨_, rfl⟩, _, ⟨hgo, rfl⟩, unit, _, _, hceiling, hreturn⟩ := h
  injection hreturn with hpair
  injection hpair with hrecords houtcome
  set lines := dataLines text spec.archiveFormat.hasHeaderRow
  obtain ⟨verdicts, hverdicts⟩ := DatasetParser.exists_verdicts hgo
  obtain ⟨haccepted, htally⟩ := DatasetParser.kept_of_verdicts hverdicts []
  have hlines := List.forall₂_map_left_iff.mp hverdicts
  obtain ⟨hcount, hsum⟩ := tally_counts (verdicts.filterMap Sum.getRight?) []
  have hlength : (lines.map splitFields).length = verdicts.length := hverdicts.length_eq
  have hsplit := length_verdicts verdicts
  rw [List.nil_append, haccepted] at hrecords
  rw [List.nil_append, haccepted, htally] at houtcome hceiling
  have hrowsIn : outcome.rowsIn = lines.length := by rw [← houtcome, List.length_map]
  have hrowsOut : outcome.rowsOut = records.length := by rw [← houtcome, ← hrecords]
  have hrejected : outcome.rowsRejected = outcome.rowsIn - outcome.rowsOut := by rw [← houtcome]
  refine ⟨⟨verdicts, ?_, hrecords.symm, fun reason => ?_⟩, hrowsIn, hrowsOut, hrejected, ?_, ?_⟩
  · refine judges_of_verdicts hrows (fun line hline hstops => ?_) hlines
    exact hgo _ (List.mem_map_of_mem hline) ((raises_iff hrows _).mpr hstops)
  · rw [← houtcome, NormalizationResult.rejectedFor, hcount]
    simp
  · rw [← houtcome]
    simp only [hsum, List.map_nil, List.sum_nil, zero_add]
    omega
  · rw [houtcome, refuseAboveCeiling, raiseIf_eq_ok, Option.elim_none] at hceiling
    rw [not_and_or, not_not, not_lt] at hceiling
    rcases hceiling with hnone | hceiling
    · rw [hnone, Int.cast_zero]
      refine mul_nonneg spec.fraction_nonneg ?_
      rw [hrowsIn]
      positivity
    · exact hceiling

/-- What a parse raises is a `DataIntegrityError` where no line stops it. -/
theorem parseText_error
    (hrows : ∀ row, Reads RowFault.leaves (parser.parseRow row spec) (reads row) (stops row))
    {unit : EpochUnit} (hunit : spec.archiveFormat.requireEpochUnit = .ok unit) {text source : String}
    (hgo : ∀ line ∈ dataLines text spec.archiveFormat.hasHeaderRow, ¬ stops (splitFields line)) {e : PyError}
    (h : parser.parseText text spec spec.maxRejectionFraction source = .error e) :
    e.kind.isDataIntegrity = true := by
  rw [DatasetParser.parseText, hunit] at h
  rcases bind_eq_error h with h | ⟨rows, hsplit, h⟩
  · rw [splitRows_error h]
    rfl
  obtain ⟨_, rfl⟩ := splitRows_eq_ok.mp hsplit
  rcases bind_eq_error h with h | ⟨state, _, h⟩
  · obtain ⟨row, hrow, hraised⟩ := foldlM_takeRow_error h
    obtain ⟨line, hline, rfl⟩ := List.mem_map.mp hrow
    exact absurd ((raises_iff hrows _).mp ⟨e, hraised⟩) (hgo line hline)
  rcases bind_eq_error h with h | ⟨_, _, h⟩
  · cases h
  rcases bind_eq_error h with h | ⟨_, _, h⟩
  · rw [refuseAboveCeiling_error h]
    rfl
  · cases h

/-- A line that stops the parse makes it raise what no handler for `DataIntegrityError` catches. -/
theorem parseText_stopped {text : String} (source : String)
    (hrows : ∀ row, Reads RowFault.leaves (parser.parseRow row spec) (reads row) (stops row))
    (hforeign : ∀ row, Reads RowFault.foreign (parser.parseRow row spec) (reads row) (stops row))
    (hheader : HeaderAgrees text spec.archiveFormat.hasHeaderRow parser.columns)
    (hstop : ∃ line ∈ dataLines text spec.archiveFormat.hasHeaderRow, stops (splitFields line)) :
    ∃ e, parser.parseText text spec spec.maxRejectionFraction source = .error e ∧
      e.kind.isDataIntegrity = false := by
  obtain ⟨line, hline, hstops⟩ := hstop
  rw [DatasetParser.parseText, splitRows_eq_ok.mpr ⟨hheader, rfl⟩]
  cases hloop : ((dataLines text spec.archiveFormat.hasHeaderRow).map splitFields).foldlM
      (parser.takeRow spec) ([], []) with
  | ok state =>
    have hgo := (DatasetParser.foldlM_takeRow.mp hloop).1 _ (List.mem_map_of_mem hline)
    exact absurd ((raises_iff hrows _).mpr hstops) hgo
  | error e =>
    obtain ⟨row, _, hraised⟩ := foldlM_takeRow_error hloop
    have hrow : stops row := (raises_iff hrows row).mp ⟨e, hraised⟩
    obtain ⟨fault, hfault, hkind⟩ := (hforeign row).escapes_iff.mpr hrow
    rw [hraised] at hfault
    obtain rfl := Except.error.inj hfault
    exact ⟨e, by simp only [bind, Except.bind, hloop], hkind⟩

/-- A parser that follows its grammar parses exactly where no data line stops it. -/
theorem parsesExactly_iff (hreads : ∀ escapes, Escaping escapes → ∀ row,
      Reads escapes (parser.parseRow row spec) (reads row) (stops row))
    {unit : EpochUnit} (hunit : spec.archiveFormat.requireEpochUnit = .ok unit) (payload : ByteArray)
    (source : String) :
    ParsesExactly parser reads payload spec source ↔ ¬ HoldsStop stops parser.columns payload spec := by
  have hrows := hreads _ escaping_leaves
  rw [ParsesExactly, parseRows, decodePayload, HoldsStop]
  cases htext : String.fromUTF8? payload with
  | none =>
    refine iff_of_true rfl ?_
    rintro ⟨_, hsome, _⟩
    cases hsome
  | some text =>
    have hbind : ((.ok text : PyResult String) >>= fun text =>
        parser.parseText text spec spec.maxRejectionFraction source) =
          parser.parseText text spec spec.maxRejectionFraction source := rfl
    simp only [hbind]
    constructor
    · rintro hparses ⟨_, hsome, hheader, hstop⟩
      obtain rfl := Option.some.inj hsome
      obtain ⟨e, herror, hkind⟩ := parseText_stopped source hrows (hreads _ escaping_foreign) hheader hstop
      rw [herror] at hparses
      exact Bool.false_ne_true (hkind.symm.trans hparses)
    · intro hgo
      split
      · next e herror =>
        by_cases hheader : HeaderAgrees text spec.archiveFormat.hasHeaderRow parser.columns
        · refine parseText_error hrows hunit (fun line hline hstops => ?_) herror
          exact hgo ⟨text, rfl, hheader, line, hline, hstops⟩
        · rw [DatasetParser.parseText] at herror
          rcases bind_eq_error herror with hsplit | ⟨_, hsplit, _⟩
          · rw [splitRows_error hsplit]
            rfl
          · exact absurd (splitRows_eq_ok.mp hsplit).1 hheader
      · next records outcome hok => exact ⟨text, rfl, parseText_accounts hrows hok⟩

end Parse

/-! ### The two datasets -/

/-- A kline or trade archive is parsed exactly where none of its data lines reaches an integer too long to
    convert, or an epoch under a reference instant too late to bound it. -/
theorem parseRows_exact_iff (payload : ByteArray) (source : String) :
    (∀ spec : DeclaredSpec .klines,
      ParsesExactly klineParser (KlineRow spec.toIngestionSpec) payload spec.toIngestionSpec source ↔
        ¬ HoldsStop (KlineRowStops spec.toIngestionSpec) klineColumns payload spec.toIngestionSpec) ∧
    (∀ spec : DeclaredSpec .trades,
      ParsesExactly tradeParser (TradeRow spec.toIngestionSpec) payload spec.toIngestionSpec source ↔
        ¬ HoldsStop (TradeRowStops spec.toIngestionSpec) tradeColumns payload spec.toIngestionSpec) := by
  refine ⟨fun spec => ?_, fun spec => ?_⟩
  · obtain ⟨unit, hunit⟩ := spec.kline_unit
    exact parsesExactly_iff (fun escapes hescapes row => parseKlineRow_reads hescapes row hunit) hunit
      payload source
  · obtain ⟨unit, hunit, hencoding⟩ := spec.trade_unit
    exact parsesExactly_iff (fun escapes hescapes row => parseTradeRow_reads hescapes row hunit hencoding)
      hunit payload source

/-! ### An epoch of 4301 digits -/

theorem decodePayload_toUTF8 (text source : String) : decodePayload text.toUTF8 source = .ok text := by
  have hdecoded : String.fromUTF8? text.toUTF8 = some text := dif_pos text.isValidUTF8
  rw [decodePayload, hdecoded]

theorem splitLinesFrom_plain {chars : List Char} (line : List Char)
    (h : ∀ c ∈ chars, isLineBreak c = false) (hne : line ≠ [] ∨ chars ≠ []) :
    splitLinesFrom line chars = [String.ofList (line.reverse ++ chars)] := by
  induction chars generalizing line with
  | nil =>
    have hline : line ≠ [] := hne.resolve_right fun hnil => hnil rfl
    rw [splitLinesFrom, if_neg hline, List.append_nil]
  | cons c rest ih =>
    obtain ⟨hc, hrest⟩ := List.forall_mem_cons.mp h
    have hplain : splitLinesFrom line (c :: rest) = splitLinesFrom (c :: line) rest := by
      rw [splitLinesFrom, if_neg (by simp [hc])]
      rintro _ rfl
      cases hc
    rw [hplain, ih _ hrest (.inl (by simp))]
    simp

theorem splitFieldsFrom_field {chars : List Char} (field rest : List Char) (h : ∀ c ∈ chars, c ≠ ',') :
    splitFieldsFrom field (chars ++ ',' :: rest) =
      String.ofList (field.reverse ++ chars) :: splitFieldsFrom [] rest := by
  induction chars generalizing field with
  | nil => simp [splitFieldsFrom]
  | cons c chars ih =>
    obtain ⟨hc, hchars⟩ := List.forall_mem_cons.mp h
    have hplain : splitFieldsFrom field (c :: chars ++ ',' :: rest) =
        splitFieldsFrom (c :: field) (chars ++ ',' :: rest) := by
      rw [List.cons_append, splitFieldsFrom]
      exact fun hcomma => hc hcomma
    rw [hplain, ih _ hchars]
    simp

/-- An epoch of zeros, one digit longer than `int` converts. -/
def longEpoch : List Char := List.replicate 4301 '0'

/-- The other eleven columns of a minute's bar. -/
def restOfBar : List Char := "1,1,1,1,0,1704067259999,0,0,0,0,0".toList

def longTexts : KlineTexts :=
  ⟨String.ofList longEpoch, "1", "1", "1", "1", "0", "1704067259999", "0", "0", "0", "0", "0"⟩

/-- One line that opens with the long epoch. -/
def longLine : String := String.ofList (longEpoch ++ ',' :: restOfBar)

theorem minuteCoordinate_checked :
    ArchiveCoordinateFields.postInit ⟨.spot, .klines, "BTCUSDT", 19723, some "1m"⟩ = .ok () := by
  with_unfolding_all decide

def minuteFields : IngestionSpecFields where
  coordinate := ⟨⟨.spot, .klines, "BTCUSDT", 19723, some "1m"⟩, minuteCoordinate_checked⟩
  archiveFormat :=
    ⟨.spot, .klines, .epochMilliseconds, false, none, spotArchiveGenesis, some spotMicrosecondCutover⟩
  sourceChecksumHex := String.ofList (List.replicate 64 'a')
  nowUtc := TimeDelta.ofSeconds 1706745600
  maxRejectionFraction := 1 / 1000

theorem minuteFields_checked : minuteFields.postInit = .ok () := by with_unfolding_all decide

/-- A day of minute bars under its declared format. -/
def minuteSpec : DeclaredSpec .klines :=
  ⟨⟨minuteFields, minuteFields_checked⟩, _, rfl, List.mem_cons_self⟩

theorem splitFields_longLine : splitFields longLine = longTexts.row := by
  have hdigits : ∀ c ∈ longEpoch, c ≠ ',' := by
    intro c hc
    rw [List.eq_of_mem_replicate hc]
    decide
  have hrest : splitFieldsFrom [] restOfBar =
      ["1", "1", "1", "1", "0", "1704067259999", "0", "0", "0", "0", "0"] := by with_unfolding_all decide
  rw [splitFields, longLine, String.toList_ofList, splitFieldsFrom_field [] _ hdigits, hrest]
  rfl

theorem dataLines_longLine : dropBlankTail (splitLines longLine) = [longLine] := by
  have hplain : ∀ c ∈ longEpoch ++ ',' :: restOfBar, isLineBreak c = false := by
    intro c hc
    rcases List.mem_append.mp hc with hc | hc
    · rw [List.eq_of_mem_replicate hc]
      decide
    · have hall : ((',' :: restOfBar).all fun c => !isLineBreak c) = true := by with_unfolding_all decide
      simpa using List.all_eq_true.mp hall c hc
  have hlines : splitLines longLine = [longLine] := by
    rw [splitLines, longLine, String.toList_ofList]
    exact splitLinesFrom_plain [] hplain (.inr (by simp))
  have hvisible : strip longLine ≠ [] := by
    rw [strip, longLine, String.toList_ofList, stripChars_ne_nil_iff]
    exact ⟨',', by simp, by decide⟩
  rw [hlines, dropBlankTail]
  simp [hvisible]

theorem longEpoch_spells : (∃ ticks, SpellsInteger longTexts.openTime.toList ticks) ∧
    LongInteger longTexts.openTime := by
  have htext : longTexts.openTime.toList = [] ++ longEpoch := String.toList_ofList
  have hdigits : AllDigits longEpoch := by
    intro c hc
    rw [List.eq_of_mem_replicate hc]
    decide
  have hlong : maxIntDigits < longEpoch.length := by
    rw [longEpoch, List.length_replicate]
    decide
  have hne : longEpoch ≠ [] := List.ne_nil_of_length_pos (Nat.lt_of_le_of_lt (Nat.zero_le _) hlong)
  exact ⟨⟨_, [], 1, longEpoch, htext, .unsigned, hne, hdigits, rfl⟩, [], 1, longEpoch, htext, .unsigned,
    hdigits, hlong⟩

/-- An integer too long to convert is a `ValueError`, whatever else its row holds. -/
theorem parseEpoch_long {raw : String} {ticks : ℤ} (hspells : SpellsInteger raw.toList ticks)
    (hlong : LongInteger raw) (unit : EpochUnit) (nowUtc : DateTime) :
    ∃ message, parseEpoch raw unit nowUtc = .error (.raised ⟨.valueError, message⟩) := by
  obtain ⟨message, hraised⟩ : ∃ message, intOf raw ticks = raise .valueError message :=
    ⟨_, by rw [intOf, raiseIf, if_pos ((longInteger_iff hspells).mpr hlong)]; rfl⟩
  refine ⟨message, ?_⟩
  rw [parseEpoch, signedInteger_eq_some.mpr hspells]
  simp only [hraised]
  rfl

/-- What the first row raises is what the parse raises. -/
theorem parseRows_first_raises {Record : Type} {parser : DatasetParser Record} {spec : IngestionSpec}
    {text source : String} {row : List String} {rest : List (List String)} {e : PyError}
    (hsplit : splitRows text source spec.archiveFormat.hasHeaderRow parser.columns = .ok (row :: rest))
    (hrow : parser.parseRow row spec = .error (.raised e)) :
    parseRows text.toUTF8 spec parser source = .error e := by
  have htake : parser.takeRow spec ([], []) row = .error e := by rw [DatasetParser.takeRow, hrow]
  have hloop : (row :: rest).foldlM (parser.takeRow spec) ([], []) = .error e := by
    rw [List.foldlM_cons, htake]
    rfl
  have hparse : parser.parseText text spec spec.maxRejectionFraction source = .error e := by
    rw [DatasetParser.parseText, hsplit]
    simp only [bind, Except.bind, hloop]
  rw [parseRows, decodePayload_toUTF8]
  exact hparse

/-- The open time is the first field read. -/
theorem parseKlineRow_openTime {texts : KlineTexts} {spec : IngestionSpec} {unit : EpochUnit}
    {fault : RowFault} (hunit : spec.archiveFormat.requireEpochUnit = .ok unit)
    (hepoch : parseEpoch texts.openTime unit spec.nowUtc = .error fault) :
    parseKlineRow texts.row spec = .error fault := by
  have hcount : requireFieldCount texts.row klineColumns.length = .ok () := rfl
  rw [KlineTexts.row] at hcount ⊢
  rw [parseKlineRow, hunit, hcount]
  simp only [uncaught, bind, Except.bind, hepoch]

theorem headerAgrees_longLine : HeaderAgrees longLine false klineColumns := by
  obtain ⟨⟨ticks, hspells⟩, _⟩ := longEpoch_spells
  have hdata : looksLikeHeader longTexts.row = false := by
    rw [looksLikeHeader, KlineTexts.row, List.head?_cons, Option.any_some, signedInteger_eq_some.mpr hspells,
      Option.isNone_some, Bool.and_false]
  rw [HeaderAgrees, dataLines_longLine]
  intro first hfirst
  obtain rfl := Option.some.inj hfirst
  rw [splitFields_longLine, hdata]
  exact ⟨rfl, fun h => absurd h Bool.false_ne_true⟩

theorem splitRows_longLine (source : String) :
    splitRows longLine source false klineColumns = .ok [longTexts.row] := by
  have hlines : dataLines longLine false = [longLine] := by
    rw [dataLines, dataLines_longLine]
    rfl
  refine splitRows_eq_ok.mpr ⟨headerAgrees_longLine, ?_⟩
  rw [hlines, List.map_singleton, splitFields_longLine]

/-- One line with an epoch of 4301 digits makes the parse raise a `ValueError`. -/
theorem long_epoch_leaves_the_parse :
    (∃ message, parseRows longLine.toUTF8 minuteSpec.toIngestionSpec klineParser "BTCUSDT-1m-2024-01-01.csv" =
      raise .valueError message) ∧
    ¬ ParsesExactly klineParser (KlineRow minuteSpec.toIngestionSpec) longLine.toUTF8
      minuteSpec.toIngestionSpec "BTCUSDT-1m-2024-01-01.csv" := by
  obtain ⟨⟨ticks, hspells⟩, hlong⟩ := longEpoch_spells
  obtain ⟨message, hepoch⟩ := parseEpoch_long hspells hlong .milliseconds minuteSpec.nowUtc
  have hrow : klineParser.parseRow longTexts.row minuteSpec.toIngestionSpec =
      .error (.raised ⟨.valueError, message⟩) := parseKlineRow_openTime rfl hepoch
  have hparse : parseRows longLine.toUTF8 minuteSpec.toIngestionSpec klineParser
      "BTCUSDT-1m-2024-01-01.csv" = raise .valueError message :=
    parseRows_first_raises (splitRows_longLine _) hrow
  refine ⟨⟨message, hparse⟩, ?_⟩
  rw [ParsesExactly, hparse]
  exact Bool.false_ne_true

end FinanceKing.Data
