import FinanceKing.Platform.Chain
import FinanceKing.Lib.SortBy

/-! The three chained tables: what each digest function hashes, what the insert trigger writes, and how
    each table's chain is read back and verified. -/

namespace FinanceKing.Platform

open Lib

/-! ### SQL text -/

/-- `convert_to(s, 'UTF8')`. -/
def convertTo (s : String) : Bytes := s.toList.flatMap String.utf8EncodeChar

/-- `n::text` of an integer column. -/
def intText (n : ℤ) : String := toString n

/-- `b::text`. -/
def boolText (b : Bool) : String := if b then "true" else "false"

/-- `u::text`: lower-case hexadecimal, grouped 8-4-4-4-12. -/
def uuidText (u : Uuid) : String :=
  let digits := (List.range 32).map fun i => hexDigit (u / 16 ^ (31 - i) % 16)
  String.ofList (digits.take 8 ++ '-' :: (digits.drop 8).take 4 ++ '-' :: (digits.drop 12).take 4 ++
    '-' :: (digits.drop 16).take 4 ++ '-' :: digits.drop 20)

/-- The conversions the digests share: `to_char` of an instant in UTC, `jsonb::text`, and `to_char` of
    a score at the column's scale. -/
structure SqlText (J : Type) where
  utcText : DateTime → String
  jsonbText : J → String
  scoreText : Decimal → String

/-! ### Rows -/

/-- A row of a chained table: its digested columns and the two hashes stored with them. -/
structure StoredRow (C : Type) where
  seq : ℤ
  columns : C
  prevHash : Bytes
  rowHash : Bytes

/-- `WHERE seq > since_seq ORDER BY seq`. -/
def rowsSince {C : Type} (sinceSeq : ℤ) (rows : List (StoredRow C)) : List (StoredRow C) :=
  sortBy StoredRow.seq (rows.filter fun row => sinceSeq < row.seq)

/-- `ORDER BY seq DESC LIMIT 1`. -/
def lastBySeq {C : Type} (rows : List (StoredRow C)) : Option (StoredRow C) :=
  (sortBy StoredRow.seq rows).getLast?

/-- A chained table: what its digest function hashes after `prev_hash`, which row its insert trigger
    takes for the predecessor, the columns the trigger computes itself, and the checks on a row. -/
structure ChainedTable (C : Type) where
  name : String
  digested : ℤ → C → Bytes
  tail : List (StoredRow C) → Option (StoredRow C)
  computed : Option (StoredRow C) → C → C
  check : C → Prop

namespace ChainedTable

variable {C : Type} (table : ChainedTable C) (sha256 : Bytes → Bytes)

/-- The byte string the digest of a stored row hashes. -/
def hashed (row : StoredRow C) : Bytes := row.prevHash ++ table.digested row.seq row.columns

/-- The row the insert trigger writes over the rows it sees. -/
def trigger (rows : List (StoredRow C)) (seq : ℤ) (columns : C) : StoredRow C :=
  let predecessor := table.tail rows
  let prevHash := (predecessor.map StoredRow.rowHash).getD genesisPrevHash
  let filled := table.computed predecessor columns
  ⟨seq, filled, prevHash, sha256 (prevHash ++ table.digested seq filled)⟩

/-- A table built by appends, one after another, each drawing a higher `seq`. -/
inductive Appended : List (StoredRow C) → Prop where
  | empty : Appended []
  | append {rows : List (StoredRow C)} {seq : ℤ} {columns : C} (h : Appended rows) (hpos : 0 < seq)
      (hseq : ∀ row ∈ rows, row.seq < seq)
      (hcheck : table.check (table.computed (table.tail rows) columns)) :
      Appended (rows ++ [table.trigger sha256 rows seq columns])

/-- One row's chain material, its digest re-derived through the table's own function. -/
def material (row : StoredRow C) : ChainRow :=
  ⟨row.seq, row.prevHash, row.rowHash, sha256 (table.hashed row)⟩

/-- `read_chain`: the rows past `since_seq` in `seq` order. -/
def readChain (rows : List (StoredRow C)) (sinceSeq : ℤ) : List ChainRow :=
  (rowsSince sinceSeq rows).map (table.material sha256)

/-- `read_tip`: the terminal link, for recording into a backup manifest. -/
def readTip (rows : List (StoredRow C)) : ChainTip :=
  match lastBySeq rows with
  | none => .empty table.name
  | some row => ⟨table.name, row.seq, hex row.rowHash⟩

/-- `verify_chain`: the table read back and verified end to end. -/
def verifyChain (rows : List (StoredRow C)) (expectedTip : Option ChainTip) : ChainVerification :=
  verifyRows table.name (table.readChain sha256 rows 0) expectedTip none

end ChainedTable

/-! ### The digests -/

section Tables

variable {J : Type} (sql : SqlText J)

/-- The columns `fking_audit_log_digest` takes after `prev_hash` and `seq`. -/
structure AuditColumns (J : Type) where
  occurredAtUtc : DateTime
  correlationId : Uuid
  causationId : Option Uuid
  actor : String
  eventType : String
  subjectId : String
  payload : J

/-- `fking_audit_log_digest`. -/
def auditLog : ChainedTable (AuditColumns J) where
  name := "audit_log"
  digested seq c :=
    convertTo (intText seq) ++ convertTo (sql.utcText c.occurredAtUtc) ++
      convertTo (uuidText c.correlationId) ++ convertTo ((c.causationId.map uuidText).getD "") ++
      convertTo c.actor ++ convertTo c.eventType ++ convertTo c.subjectId ++
      convertTo (sql.jsonbText c.payload)
  tail := lastBySeq
  computed _ c := c
  check _ := True

/-- The columns `fking_trial_ledger_digest` takes after `prev_hash` and `seq`. -/
structure TrialColumns (J : Type) where
  chargedAtUtc : DateTime
  correlationId : Uuid
  specHash : Bytes
  registeredBy : String
  statement : String
  parameterGrid : J
  trialsCharged : ℤ
  cumulativeTrials : ℤ
  holdoutTouched : Bool

/-- `ORDER BY cumulative_trials DESC, seq DESC LIMIT 1`. -/
def lastByCumulative (rows : List (StoredRow (TrialColumns J))) : Option (StoredRow (TrialColumns J)) :=
  (sortBy (fun row => toLex (row.columns.cumulativeTrials, row.seq)) rows).getLast?

/-- `fking_trial_ledger_digest`; the trigger carries the running total forward. -/
def trialLedger : ChainedTable (TrialColumns J) where
  name := "trial_ledger"
  digested seq c :=
    convertTo (intText seq) ++ convertTo (sql.utcText c.chargedAtUtc) ++
      convertTo (uuidText c.correlationId) ++ c.specHash ++ convertTo c.registeredBy ++
      convertTo c.statement ++ convertTo (sql.jsonbText c.parameterGrid) ++
      convertTo (intText c.trialsCharged) ++ convertTo (intText c.cumulativeTrials) ++
      convertTo (boolText c.holdoutTouched)
  tail := lastByCumulative
  computed predecessor c :=
    { c with cumulativeTrials :=
        (predecessor.map fun row => row.columns.cumulativeTrials).getD 0 + c.trialsCharged }
  check c := 1 ≤ c.trialsCharged

/-- The columns `evolution.lifecycle_event_digest` takes after `prev_hash` and `seq`. -/
structure LifecycleColumns (J : Type) where
  eventId : Uuid
  strategyId : String
  genomeHash : Bytes
  correlationId : Uuid
  causationId : Option Uuid
  fromState : String
  toState : String
  reasonClass : String
  reason : String
  survivalScore : Option Decimal
  scoreComponents : J
  independentEpisodeCount : ℤ
  forwardIndependentEpisodeCount : ℤ
  globalTrialIndex : ℤ
  familyTrialIndex : ℤ
  scoringVersion : String
  occurredAtUtc : DateTime

/-- `evolution.lifecycle_event_digest`. -/
def strategyLifecycleEvents : ChainedTable (LifecycleColumns J) where
  name := "strategy_lifecycle_events"
  digested seq c :=
    convertTo (intText seq) ++ convertTo (uuidText c.eventId) ++ convertTo c.strategyId ++
      c.genomeHash ++ convertTo (uuidText c.correlationId) ++
      convertTo ((c.causationId.map uuidText).getD "") ++ convertTo c.fromState ++
      convertTo c.toState ++ convertTo c.reasonClass ++ convertTo c.reason ++
      convertTo ((c.survivalScore.map sql.scoreText).getD "") ++
      convertTo (sql.jsonbText c.scoreComponents) ++ convertTo (intText c.independentEpisodeCount) ++
      convertTo (intText c.forwardIndependentEpisodeCount) ++
      convertTo (intText c.globalTrialIndex) ++ convertTo (intText c.familyTrialIndex) ++
      convertTo c.scoringVersion ++ convertTo (sql.utcText c.occurredAtUtc)
  tail := lastBySeq
  computed _ c := c
  check _ := True

end Tables

/-! ### The lifecycle verifier -/

/-- What `evolution.verify_lifecycle_chain` returns. -/
structure LifecycleVerification where
  checkedRows : ℕ
  firstBrokenSeq : Option ℤ
  reason : Option String
  deriving DecidableEq

def LifecycleVerification.isIntact (self : LifecycleVerification) : Bool := self.firstBrokenSeq.isNone

/-- The first broken row: its digest does not re-derive, or its `prev_hash` is not the hash that
    `lag(row_hash)` puts before it; the first row read has nothing before it. -/
def firstBroken : Option Bytes → List ChainRow → Option (ℤ × String)
  | _, [] => none
  | predecessor, row :: rows =>
    if row.rederivedHash ≠ row.rowHash then some (row.seq, "row_hash does not match the row contents")
    else if predecessor.any (fun hash => row.prevHash ≠ hash) then
      some (row.seq, "prev_hash does not match its predecessor")
    else firstBroken (some row.rowHash) rows

/-- `evolution.verify_lifecycle_chain`. -/
def verifyLifecycleChain {C : Type} (table : ChainedTable C) (sha256 : Bytes → Bytes)
    (rows : List (StoredRow C)) (sinceSeq : ℤ) : LifecycleVerification :=
  let derived := table.readChain sha256 rows sinceSeq
  { checkedRows := derived.length
    firstBrokenSeq := (firstBroken none derived).map Prod.fst
    reason := (firstBroken none derived).map Prod.snd }

theorem firstBroken_some_eq_none_iff {start : Bytes} {rows : List ChainRow} :
    firstBroken (some start) rows = none ↔ HoldsFrom start rows := by
  induction rows generalizing start with
  | nil => simp [firstBroken, HoldsFrom, Linked]
  | cons row rows ih =>
    rw [firstBroken, HoldsFrom, List.forall_mem_cons, Linked]
    by_cases hsound : row.rederivedHash = row.rowHash
    · by_cases hlink : row.prevHash = start
      · rw [if_neg (not_not_intro hsound), if_neg (by simp [hlink]), ih, HoldsFrom]
        simp [ChainRow.Sound, hsound, hlink]
      · rw [if_neg (not_not_intro hsound), if_pos (by simp [hlink])]
        simp [hlink]
    · rw [if_pos hsound]
      simp [ChainRow.Sound, hsound]

/-- The lifecycle verifier accepts what holds together from wherever its first row links back to. -/
theorem firstBroken_eq_none_iff {rows : List ChainRow} :
    firstBroken none rows = none ↔ ∃ start, HoldsFrom start rows := by
  cases rows with
  | nil => simp [firstBroken, HoldsFrom, Linked]
  | cons row rows =>
    have hcons : ∀ start, HoldsFrom start (row :: rows) ↔
        (row.Sound ∧ row.prevHash = start) ∧ HoldsFrom row.rowHash rows := fun start => by
      rw [HoldsFrom, HoldsFrom, List.forall_mem_cons, Linked]
      tauto
    rw [firstBroken]
    by_cases hsound : row.rederivedHash = row.rowHash
    · rw [if_neg (not_not_intro hsound), if_neg (by simp), firstBroken_some_eq_none_iff]
      constructor
      · exact fun h => ⟨row.prevHash, (hcons _).mpr ⟨⟨hsound, rfl⟩, h⟩⟩
      · rintro ⟨start, h⟩
        exact ((hcons start).mp h).2
    · rw [if_pos hsound]
      simp [hcons, ChainRow.Sound, hsound]

theorem isIntact_verifyLifecycleChain {C : Type} {table : ChainedTable C} {sha256 : Bytes → Bytes}
    {rows : List (StoredRow C)} {sinceSeq : ℤ} :
    (verifyLifecycleChain table sha256 rows sinceSeq).isIntact ↔
      ∃ start, HoldsFrom start (table.readChain sha256 rows sinceSeq) := by
  rw [LifecycleVerification.isIntact, verifyLifecycleChain, Option.isNone_iff_eq_none,
    Option.map_eq_none_iff, firstBroken_eq_none_iff]

end FinanceKing.Platform
