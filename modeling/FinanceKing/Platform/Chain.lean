import FinanceKing.Base
import FinanceKing.Lib.HashChain

/-! Hash-chain verification for the append-only tables: the pure decision half, over the rows a table
    was read back as. -/

namespace FinanceKing.Platform

open Lib

abbrev Bytes := List UInt8

def hexDigit (n : ℕ) : Char := "0123456789abcdef".toList.getD n '0'

/-- `bytes.hex()`. -/
def hex (bytes : Bytes) : String :=
  String.ofList (bytes.flatMap fun b => [hexDigit (b.toNat / 16), hexDigit (b.toNat % 16)])

/-- The `prev_hash` both triggers write for the first row of a chain. -/
def genesisPrevHash : Bytes := [0]

/-- One row's chain material, as read back from the database. -/
structure ChainRow where
  seq : ℤ
  prevHash : Bytes
  rowHash : Bytes
  rederivedHash : Bytes
  deriving DecidableEq

/-- The terminal link of a chain, as a backup manifest records it. -/
structure ChainTip where
  tableName : String
  seq : ℤ
  rowHashHex : String
  deriving DecidableEq

/-- The tip of a chain with no rows: `seq` 0 is below every identity value. -/
def ChainTip.empty (tableName : String) : ChainTip := ⟨tableName, 0, ""⟩

structure ChainVerification where
  tableName : String
  checkedRows : ℕ
  firstBrokenSeq : Option ℤ
  reason : Option Message
  deriving DecidableEq

def ChainVerification.isIntact (self : ChainVerification) : Bool := self.firstBrokenSeq.isNone

/-- The loop over the rows, from row `index` and the hash it must link back to: the first row that does
    not hold, with the number of rows before it. -/
def walkRows : ℕ → Bytes → List ChainRow → Option (ℕ × ℤ × Message)
  | _, _, [] => none
  | index, expectedPrevHash, row :: rows =>
    if row.rederivedHash ≠ row.rowHash then
      some (index, row.seq, ["row_hash does not match the digest re-derived from the row"])
    else if row.prevHash ≠ expectedPrevHash then
      some (index, row.seq, ["prev_hash does not match its predecessor's row_hash; a row ",
        "between them is missing or was rewritten"])
    else walkRows (index + 1) row.rowHash rows

/-- The observed terminal link against the recorded one: the seq to report and why. -/
def tipMismatch (rows : List ChainRow) (expectedTip : ChainTip) (sinceHash : Option Bytes) :
    Option (ℤ × Message) :=
  match rows.getLast? with
  | none =>
    if expectedTip.seq = 0 then none
    else
      let firstMissing := if sinceHash.isNone then 1 else expectedTip.seq
      some (firstMissing, ["chain is empty but the manifest records a tip at seq ",
        .count expectedTip.seq, "; every row after seq ", .count (firstMissing - 1), " is missing"])
  | some observed =>
    if observed.seq < expectedTip.seq then
      some (observed.seq + 1, ["chain ends at seq ", .count observed.seq,
        " but the manifest records a tip at seq ", .count expectedTip.seq,
        "; the tail was truncated, and a truncated chain ",
        "verifies internally because a prefix of a valid chain is a valid chain"])
    else if expectedTip.seq < observed.seq then
      some (expectedTip.seq + 1, ["chain ends at seq ", .count observed.seq,
        ", beyond the manifest tip at seq ", .count expectedTip.seq,
        "; rows were appended after the backup was taken"])
    else if hex observed.rowHash ≠ expectedTip.rowHashHex then
      some (observed.seq, ["terminal row_hash ", .text (hex observed.rowHash),
        " does not match the manifest tip ", .text expectedTip.rowHashHex,
        "; the chain was rebuilt over different content"])
    else none

/-- `verify_rows`: the walk over a contiguous run of rows, then the recorded tip. -/
def verifyRows (tableName : String) (rows : List ChainRow) (expectedTip : Option ChainTip)
    (sinceHash : Option Bytes) : ChainVerification :=
  match walkRows 0 (sinceHash.getD genesisPrevHash) rows with
  | some (index, seq, reason) => ⟨tableName, index, some seq, some reason⟩
  | none =>
    match expectedTip.bind fun tip => tipMismatch rows tip sinceHash with
    | some (seq, reason) => ⟨tableName, rows.length, some seq, some reason⟩
    | none => ⟨tableName, rows.length, none, none⟩

/-! ### What the walk accepts -/

/-- The digest re-derived from a row is the one it stores. -/
def ChainRow.Sound (row : ChainRow) : Prop := row.rederivedHash = row.rowHash

/-- Rows that hold together from `start`: every digest re-derives and every link matches. -/
def HoldsFrom (start : Bytes) (rows : List ChainRow) : Prop :=
  (∀ row ∈ rows, row.Sound) ∧ Linked ChainRow.prevHash ChainRow.rowHash start rows

theorem walkRows_eq_none_iff {index : ℕ} {start : Bytes} {rows : List ChainRow} :
    walkRows index start rows = none ↔ HoldsFrom start rows := by
  induction rows generalizing index start with
  | nil => simp [walkRows, HoldsFrom, Linked]
  | cons row rows ih =>
    rw [walkRows, HoldsFrom, List.forall_mem_cons, Linked]
    by_cases hsound : row.rederivedHash = row.rowHash
    · by_cases hlink : row.prevHash = start
      · rw [if_neg (not_not_intro hsound), if_neg (not_not_intro hlink), ih, HoldsFrom]
        simp [ChainRow.Sound, hsound, hlink]
      · rw [if_neg (not_not_intro hsound), if_pos hlink]
        simp [hlink]
    · rw [if_pos hsound]
      simp [ChainRow.Sound, hsound]

/-- The walk over a run is the walk over its first part, then over the rest from where that ended. -/
theorem walkRows_append {index : ℕ} {start : Bytes} {rows more : List ChainRow}
    (h : HoldsFrom start rows) :
    walkRows index start (rows ++ more) =
      walkRows (index + rows.length) (endHash ChainRow.rowHash start rows) more := by
  induction rows generalizing index start with
  | nil => rfl
  | cons row rows ih =>
    obtain ⟨hsound, hlink, hlinked⟩ := h
    have hrows : HoldsFrom row.rowHash rows := ⟨fun r hr => hsound r (List.mem_cons_of_mem _ hr), hlinked⟩
    have hhead : row.rederivedHash = row.rowHash := hsound row List.mem_cons_self
    rw [List.cons_append, walkRows, if_neg (not_not_intro hhead), if_neg (not_not_intro hlink), ih hrows,
      List.length_cons, endHash_cons, Nat.add_right_comm, Nat.add_assoc]

/-- Where the walk starts counting changes the count it reports, not the row. -/
theorem walkRows_seq (i j : ℕ) (start : Bytes) (rows : List ChainRow) :
    (walkRows i start rows).map (fun b => b.2.1) = (walkRows j start rows).map (fun b => b.2.1) := by
  induction rows generalizing i j start with
  | nil => rfl
  | cons row rows ih =>
    rw [walkRows, walkRows]
    split
    · rfl
    · split
      · rfl
      · exact ih (i + 1) (j + 1) row.rowHash

theorem firstBrokenSeq_verifyRows (tableName : String) (rows : List ChainRow)
    (expectedTip : Option ChainTip) (sinceHash : Option Bytes) :
    (verifyRows tableName rows expectedTip sinceHash).firstBrokenSeq =
      ((walkRows 0 (sinceHash.getD genesisPrevHash) rows).map (fun b => b.2.1)).or
        ((expectedTip.bind fun tip => tipMismatch rows tip sinceHash).map Prod.fst) := by
  rw [verifyRows]
  rcases walkRows 0 (sinceHash.getD genesisPrevHash) rows with _ | ⟨index, seq, reason⟩
  · rcases expectedTip.bind fun tip => tipMismatch rows tip sinceHash with _ | ⟨seq, reason⟩ <;> rfl
  · rfl

/-- A run is intact exactly when its rows hold together from where it starts and the tip agrees. -/
theorem isIntact_verifyRows {tableName : String} {rows : List ChainRow}
    {expectedTip : Option ChainTip} {sinceHash : Option Bytes} :
    (verifyRows tableName rows expectedTip sinceHash).isIntact ↔
      HoldsFrom (sinceHash.getD genesisPrevHash) rows ∧
        ∀ tip ∈ expectedTip, tipMismatch rows tip sinceHash = none := by
  rw [ChainVerification.isIntact, firstBrokenSeq_verifyRows, Option.isNone_iff_eq_none,
    Option.or_eq_none_iff, Option.map_eq_none_iff, Option.map_eq_none_iff, walkRows_eq_none_iff]
  refine and_congr_right fun _ => ?_
  cases expectedTip with
  | none => simp
  | some tip => simp

end FinanceKing.Platform
