import FinanceKing.Platform.ChainTamper
import FinanceKing.Lib.LockedTable

/-! Concurrent inserts into a chained table. The insert trigger chains each row under the advisory lock,
    but its `seq` is drawn before the lock is asked for and the predecessor is looked up by `seq`: the
    chain read in `seq` order holds as long as the two orders agree. -/

namespace FinanceKing.Platform

open Lib LockedTable

section Appends

variable {C : Type} (table : ChainedTable C) (sha256 : Bytes → Bytes)

/-- An insert checks nothing first, and its trigger writes the row. -/
def appendRules : TableRules C (StoredRow C) where
  admits _ _ := true
  insert rows seq columns := some (table.trigger sha256 rows seq columns)

/-- The rows committed by an interleaving of inserting transactions, in commit order. -/
def committedRows (actions : List (TableAction C)) : List (StoredRow C) :=
  (run (appendRules table sha256) actions).committed

/-- Wherever a row is inserted, the `seq` it drew is above every `seq` the trigger sees. -/
def InsertedInDrawOrder (actions : List (TableAction C)) : Prop :=
  StepsMeet (fun s a => s.step (appendRules table sha256) a)
    (fun s a => s.InsertsMeet (appendRules table sha256) (fun rows seq _ => ∀ row ∈ rows, row.seq < seq) a)
    init actions

variable {table sha256}

theorem isChain_committedRows (htail : table.tail = lastBySeq) {actions : List (TableAction C)}
    (h : InsertedInDrawOrder table sha256 actions) :
    IsChain table sha256 (committedRows table sha256 actions) := by
  have hempty : IsChain table sha256 [] := ⟨.nil, by simp, by simp, trivial⟩
  refine committed_run hempty ?_ h
  intro rows seq columns row hrows hpos hseq hrow
  obtain rfl := Option.some.inj hrow
  exact hrows.append columns hpos hseq (by rw [htail, lastBySeq_eq_getLast? hrows.ascending])

/-- A chain read back from an empty or a whole table holds together. -/
theorem IsChain.holdsFrom {rows : List (StoredRow C)} (h : IsChain table sha256 rows) :
    HoldsFrom genesisPrevHash (table.readChain sha256 rows 0) := by
  rw [holdsFrom_readChain, rowsSince_zero h.ascending h.positive]
  exact ⟨fun row hrow => (h.digests row hrow).symm, h.linked⟩

end Appends

section Tables

variable {J : Type} (sql : SqlText J)

end Tables

/-! ### Draw order against lock order -/

def auditColumns : AuditColumns Unit := (auditRow "risk" "halt" "BTC").columns

def lifecycleColumns (eventId : Uuid) (strategyId : String) : LifecycleColumns Unit :=
  { lifecycleRow.columns with eventId := eventId, strategyId := strategyId, toState := "proposed" }

/-- SHA-256 at the strings the runs below hash. -/
def raceSha256 (bytes : Bytes) : Bytes :=
  let audit := fun prevHash seq => (auditLog epochText).hashed ⟨seq, auditColumns, prevHash, []⟩
  let lifecycle := fun prevHash seq columns =>
    (strategyLifecycleEvents epochText).hashed ⟨seq, columns, prevHash, []⟩
  let second : Bytes := [254, 152, 221, 192, 132, 203, 93, 9, 13, 23, 67, 60, 145, 88, 228, 6, 74, 128, 70,
    249, 79, 72, 71, 164, 249, 130, 55, 219, 114, 205, 144, 135]
  let secondEvent : Bytes := [75, 178, 73, 57, 98, 70, 52, 71, 13, 112, 18, 55, 222, 143, 97, 94,
    150, 66, 89, 165, 146, 12, 232, 83, 128, 51, 47, 237, 245, 119, 59, 193]
  if bytes = audit genesisPrevHash 1 then (auditRow "" "" "").rowHash
  else if bytes = audit genesisPrevHash 2 then second
  else if bytes = audit second 1 then
    [8, 197, 66, 132, 214, 194, 153, 15, 44, 40, 149, 99, 187, 24, 81, 79, 35, 185, 251, 205, 53, 26, 136,
      12, 165, 140, 88, 204, 41, 51, 235, 145]
  else if bytes = audit second 3 then
    [84, 58, 193, 223, 25, 91, 222, 14, 161, 235, 85, 53, 104, 147, 38, 134, 208, 56, 45, 222, 201, 75, 151,
      77, 231, 151, 146, 135, 175, 201, 76, 36]
  else if bytes = lifecycle genesisPrevHash 2 (lifecycleColumns 9 "s2") then secondEvent
  else if bytes = lifecycle secondEvent 1 (lifecycleColumns 8 "s1") then
    [217, 37, 170, 125, 198, 226, 198, 45, 139, 97, 112, 154, 100, 157, 141, 15, 130, 43, 59, 63,
      161, 154, 165, 110, 133, 235, 236, 152, 220, 31, 34, 150]
  else []

def drawFor {C : Type} (tx : ℕ) (columns : C) : List (TableAction C) := [.check tx columns, .draw tx]

def insertFor {C : Type} (tx : ℕ) : List (TableAction C) := [.insert tx, .commit tx]

end FinanceKing.Platform
