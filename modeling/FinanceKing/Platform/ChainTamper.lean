import FinanceKing.Platform.ChainedTables
import FinanceKing.Lib.Fold

/-! Tampering with a chained table. Verification sees exactly the byte strings that are hashed: an edit
    that leaves them as they were is accepted, whatever columns it changed. -/

namespace FinanceKing.Platform

open Lib

variable {C : Type} (table : ChainedTable C) (sha256 : Bytes → Bytes)

/-! ### Chains -/

/-- Rows in `seq` order whose digests re-derive and whose links reach back to the genesis hash. -/
structure IsChain (rows : List (StoredRow C)) : Prop where
  ascending : rows.Pairwise (fun a b => a.seq < b.seq)
  positive : ∀ row ∈ rows, 0 < row.seq
  digests : ∀ row ∈ rows, row.rowHash = sha256 (table.hashed row)
  linked : Linked StoredRow.prevHash StoredRow.rowHash genesisPrevHash rows

theorem lastBySeq_eq_getLast? {rows : List (StoredRow C)}
    (h : rows.Pairwise (fun a b => a.seq < b.seq)) : lastBySeq rows = rows.getLast? := by
  rw [lastBySeq, sortBy_eq_self _ (h.imp fun hlt => hlt.le)]

theorem rowsSince_zero {rows : List (StoredRow C)} (h : rows.Pairwise (fun a b => a.seq < b.seq))
    (hpos : ∀ row ∈ rows, 0 < row.seq) : rowsSince 0 rows = rows := by
  rw [rowsSince, List.filter_eq_self.mpr (by simpa using hpos),
    sortBy_eq_self _ (h.imp fun hlt => hlt.le)]

variable {table sha256}

/-- The trigger's row extends a chain when its predecessor is the chain's last row. -/
theorem IsChain.append {rows : List (StoredRow C)} (h : IsChain table sha256 rows) {seq : ℤ}
    (columns : C) (hpos : 0 < seq) (hseq : ∀ row ∈ rows, row.seq < seq)
    (htail : table.tail rows = rows.getLast?) :
    IsChain table sha256 (rows ++ [table.trigger sha256 rows seq columns]) where
  ascending := pairwise_concat h.ascending hseq
  positive := by
    rintro row hrow
    rcases List.mem_append.mp hrow with hold | hnew
    · exact h.positive row hold
    · obtain rfl := List.mem_singleton.mp hnew
      exact hpos
  digests := by
    rintro row hrow
    rcases List.mem_append.mp hrow with hold | hnew
    · exact h.digests row hold
    · obtain rfl := List.mem_singleton.mp hnew
      rfl
  linked := by
    refine (linked_concat _ _).mpr ⟨h.linked, ?_⟩
    rw [ChainedTable.trigger, htail]
    cases hlast : rows.getLast? with
    | none =>
      obtain rfl := List.getLast?_eq_none_iff.mp hlast
      rfl
    | some last => exact (endHash_of_getLast? StoredRow.rowHash hlast).symm

theorem Appended.isChain {rows : List (StoredRow C)} (h : table.Appended sha256 rows)
    (htail : ∀ rows, table.Appended sha256 rows → rows.Pairwise (fun a b => a.seq < b.seq) →
      table.tail rows = rows.getLast?) : IsChain table sha256 rows := by
  induction h with
  | empty => exact ⟨.nil, by simp, by simp, trivial⟩
  | append hrows hpos hseq _ ih => exact ih.append _ hpos hseq (htail _ hrows ih.ascending)

theorem isChain_of_lastBySeq {rows : List (StoredRow C)} (htail : table.tail = lastBySeq)
    (h : table.Appended sha256 rows) : IsChain table sha256 rows := by
  refine Appended.isChain h fun rows _ hascending => ?_
  rw [htail, lastBySeq_eq_getLast? hascending]

section TrialLedger

variable {J : Type} {sql : SqlText J}

/-- The running total grows with every charge, so it too orders the rows. -/
theorem pairwise_cumulativeTrials {rows : List (StoredRow (TrialColumns J))}
    (h : (trialLedger sql).Appended sha256 rows) :
    rows.Pairwise (fun a b => a.columns.cumulativeTrials < b.columns.cumulativeTrials) := by
  induction h with
  | empty => exact .nil
  | @append rows seq columns hrows _ _ hcheck ih =>
    refine pairwise_concat ih fun row hrow => ?_
    have hpositive : 1 ≤ columns.trialsCharged := hcheck
    change row.columns.cumulativeTrials < (((lastByCumulative rows).map
      fun row => row.columns.cumulativeTrials).getD 0 + columns.trialsCharged)
    cases hlast : lastByCumulative rows with
    | none =>
      have hnil : rows = [] := by
        have hsorted := List.getLast?_eq_none_iff.mp hlast
        exact (hsorted ▸ perm_sortBy _ rows).nil_eq.symm
      rw [hnil] at hrow
      cases hrow
    | some last =>
      have hle := le_of_getLast?_sortBy _ hlast hrow
      have hfst := (Prod.Lex.toLex_le_toLex.mp hle)
      change row.columns.cumulativeTrials < last.columns.cumulativeTrials + columns.trialsCharged
      rcases hfst with hlt | ⟨heq, _⟩
      · omega
      · omega

theorem isChain_trialLedger {rows : List (StoredRow (TrialColumns J))}
    (h : (trialLedger sql).Appended sha256 rows) : IsChain (trialLedger sql) sha256 rows := by
  refine Appended.isChain h fun rows hrows _ => ?_
  have hsorted := pairwise_cumulativeTrials hrows
  refine congrArg List.getLast? (sortBy_eq_self _ (hsorted.imp fun {a b} hlt => ?_))
  exact (Prod.Lex.toLex_lt_toLex.mpr (.inl hlt)).le

end TrialLedger

/-! ### Tampering -/

variable (table sha256)

/-- The stored hashes of the rows left are among the original ones, each used once: columns may have
    been rewritten, rows dropped, and their order changed. -/
def Tampered (original tampered : List (StoredRow C)) : Prop :=
  (tampered.map fun row => (row.prevHash, row.rowHash)).Subperm
    (original.map fun row => (row.prevHash, row.rowHash))

/-- No two strings hashed for the tables collide, and no digest comes round again along the chain. -/
structure DigestsDistinct (original tampered : List (StoredRow C)) : Prop where
  injOn : Set.InjOn sha256 {bytes | ∃ row ∈ original ++ tampered, bytes = table.hashed row}
  fresh : FreshHashes StoredRow.rowHash genesisPrevHash original

/-- A row that keeps its stored hashes and hashes the bytes another one does. -/
structure SameBytes (row other : StoredRow C) : Prop where
  prevHash : row.prevHash = other.prevHash
  rowHash : row.rowHash = other.rowHash
  digested : table.digested row.seq row.columns = table.digested other.seq other.columns

/-- What verification against the tip cannot see: the rows read are the original ones in order, each
    hashing its old bytes, and the last one keeps its `seq`. -/
def Undetectable (original tampered : List (StoredRow C)) : Prop :=
  List.Forall₂ (SameBytes table) (rowsSince 0 tampered) original ∧
    (rowsSince 0 tampered).getLast?.map StoredRow.seq = original.getLast?.map StoredRow.seq

/-- What the lifecycle verifier cannot see: the rows read are a contiguous block of the original ones. -/
def UndetectableBlock (original tampered : List (StoredRow C)) : Prop :=
  ∃ n, List.Forall₂ (SameBytes table) (rowsSince 0 tampered)
    ((original.drop n).take (rowsSince 0 tampered).length)

/-! ### What holds together -/

variable {table sha256}

theorem holdsFrom_readChain {start : Bytes} {rows : List (StoredRow C)} {sinceSeq : ℤ} :
    HoldsFrom start (table.readChain sha256 rows sinceSeq) ↔
      (∀ row ∈ rowsSince sinceSeq rows, sha256 (table.hashed row) = row.rowHash) ∧
        Linked StoredRow.prevHash StoredRow.rowHash start (rowsSince sinceSeq rows) := by
  rw [HoldsFrom, ChainedTable.readChain, linked_map, List.forall_mem_map]
  rfl

theorem SameBytes.hashed_eq {row other : StoredRow C} (h : SameBytes table row other) :
    table.hashed row = table.hashed other := by
  rw [ChainedTable.hashed, ChainedTable.hashed, h.prevHash, h.digested]

/-- A row read back whose digest re-derives hashes the bytes of the original row it was. -/
theorem exists_sameBytes {original tampered : List (StoredRow C)} (hchain : IsChain table sha256 original)
    (htampered : Tampered original tampered) (hdistinct : DigestsDistinct table sha256 original tampered)
    {row : StoredRow C} (hrow : row ∈ tampered) (hsound : sha256 (table.hashed row) = row.rowHash) :
    ∃ o ∈ original, SameBytes table row o := by
  obtain ⟨o, ho, hstored⟩ := List.mem_map.mp
    (htampered.subset (List.mem_map_of_mem (f := fun row => (row.prevHash, row.rowHash)) hrow))
  obtain ⟨hprev, hhash⟩ := Prod.mk.inj hstored
  have hbytes : table.hashed row = table.hashed o := by
    refine hdistinct.injOn ⟨row, List.mem_append_right _ hrow, rfl⟩
      ⟨o, List.mem_append_left _ ho, rfl⟩ ?_
    rw [hsound, ← hchain.digests o ho]
    exact hhash.symm
  rw [ChainedTable.hashed, ChainedTable.hashed, ← hprev] at hbytes
  exact ⟨o, ho, hprev.symm, hhash.symm, List.append_cancel_left hbytes⟩

theorem mem_of_mem_rowsSince {sinceSeq : ℤ} {rows : List (StoredRow C)} {row : StoredRow C}
    (h : row ∈ rowsSince sinceSeq rows) : row ∈ rows :=
  (List.mem_filter.mp ((mem_sortBy _).mp h)).1

/-- Rows that hold together from where the first `n` original rows end are the next original rows. -/
theorem forall₂_of_holdsFrom {original tampered : List (StoredRow C)}
    (hchain : IsChain table sha256 original) (htampered : Tampered original tampered)
    (hdistinct : DigestsDistinct table sha256 original tampered) {n : ℕ} (hn : n ≤ original.length)
    (h : HoldsFrom (endHash StoredRow.rowHash genesisPrevHash (original.take n))
      (table.readChain sha256 tampered 0)) :
    List.Forall₂ (SameBytes table) (rowsSince 0 tampered)
      ((original.drop n).take (rowsSince 0 tampered).length) := by
  obtain ⟨hsound, hlinked⟩ := holdsFrom_readChain.mp h
  refine hchain.linked.forall₂_of_match (fun _ _ h => h.prevHash) (fun _ _ h => h.rowHash)
    hdistinct.fresh hn hlinked fun row hrow => ?_
  exact exists_sameBytes hchain htampered hdistinct (mem_of_mem_rowsSince hrow) (hsound row hrow)

/-- Rows that hash the bytes of a stretch of the chain hold together where that stretch does. -/
theorem holdsFrom_of_forall₂ {original tampered : List (StoredRow C)}
    (hchain : IsChain table sha256 original) {n m : ℕ}
    (h : List.Forall₂ (SameBytes table) (rowsSince 0 tampered) ((original.drop n).take m)) :
    HoldsFrom (endHash StoredRow.rowHash genesisPrevHash (original.take n))
      (table.readChain sha256 tampered 0) := by
  have hsplit : original = original.take n ++ ((original.drop n).take m ++ (original.drop n).drop m) := by
    rw [List.take_append_drop, List.take_append_drop]
  have hlinked := hchain.linked
  rw [hsplit, linked_append, linked_append] at hlinked
  refine holdsFrom_readChain.mpr ⟨fun row hrow => ?_, ?_⟩
  · obtain ⟨o, ho, hsame⟩ : ∃ o ∈ (original.drop n).take m, SameBytes table row o := by
      obtain ⟨i, hi, rfl⟩ := List.mem_iff_getElem.mp hrow
      exact ⟨_, List.getElem_mem (h.length_eq ▸ hi), h.get hi (h.length_eq ▸ hi)⟩
    have hmem : o ∈ original := List.mem_of_mem_drop (List.mem_of_mem_take ho)
    rw [hsame.hashed_eq, hsame.rowHash]
    exact (hchain.digests o hmem).symm
  · exact (linked_congr (fun _ _ h => h.prevHash) (fun _ _ h => h.rowHash) h).mpr hlinked.2.1

/-! ### The verdicts -/

theorem hexDigit_inj : ∀ m < 16, ∀ n < 16, hexDigit m = hexDigit n → m = n := by decide

theorem hex_injective : Function.Injective hex := by
  intro a b h
  have hchars := String.ofList_injective h
  clear h
  induction a generalizing b with
  | nil =>
    cases b with
    | nil => rfl
    | cons y b => simp at hchars
  | cons x a ih =>
    cases b with
    | nil => simp at hchars
    | cons y b =>
      simp only [List.flatMap_cons, List.cons_append, List.nil_append, List.cons.injEq] at hchars
      obtain ⟨hhigh, hlow, hrest⟩ := hchars
      have hx := x.toNat_lt
      have hy := y.toNat_lt
      have hhigh' := hexDigit_inj _ (by omega) _ (by omega) hhigh
      have hlow' := hexDigit_inj _ (by omega) _ (by omega) hlow
      have hbyte : x = y := UInt8.toNat_inj.mp (by omega)
      rw [hbyte, ih hrest]

/-- The tip agrees exactly when the rows read end at its `seq` and at its hash. -/
theorem tipMismatch_readTip {original : List (StoredRow C)} {rows : List ChainRow}
    (hchain : IsChain table sha256 original) (hpos : ∀ row ∈ rows, 0 < row.seq) :
    tipMismatch rows (table.readTip original) none = none ↔
      rows.getLast?.map ChainRow.seq = original.getLast?.map StoredRow.seq ∧
        endHash ChainRow.rowHash genesisPrevHash rows =
          endHash StoredRow.rowHash genesisPrevHash original := by
  rw [ChainedTable.readTip, lastBySeq_eq_getLast? hchain.ascending, tipMismatch]
  cases horiginal : original.getLast? with
  | none =>
    obtain rfl := List.getLast?_eq_none_iff.mp horiginal
    cases hrows : rows.getLast? with
    | none =>
      obtain rfl := List.getLast?_eq_none_iff.mp hrows
      simp [ChainTip.empty]
    | some observed =>
      have hobserved := hpos observed (List.mem_of_getLast? hrows)
      simp [ChainTip.empty, hobserved, hobserved.not_gt]
  | some last =>
    have hlast := hchain.positive last (List.mem_of_getLast? horiginal)
    cases hrows : rows.getLast? with
    | none => simp [hlast.ne']
    | some observed =>
      rw [endHash_of_getLast? _ hrows, endHash_of_getLast? _ horiginal]
      dsimp only
      rcases lt_trichotomy observed.seq last.seq with hlt | heq | hgt
      · simp [hlt, hlt.ne]
      · simp [heq, hex_injective.eq_iff]
      · simp [hgt, hgt.not_gt, hgt.ne']

theorem tipMismatch_readChain {original tampered : List (StoredRow C)}
    (hchain : IsChain table sha256 original) :
    tipMismatch (table.readChain sha256 tampered 0) (table.readTip original) none = none ↔
      (rowsSince 0 tampered).getLast?.map StoredRow.seq = original.getLast?.map StoredRow.seq ∧
        endHash StoredRow.rowHash genesisPrevHash (rowsSince 0 tampered) =
          endHash StoredRow.rowHash genesisPrevHash original := by
  have hpos : ∀ row ∈ table.readChain sha256 tampered 0, 0 < row.seq := by
    rintro _ hrow
    obtain ⟨row, hmem, rfl⟩ := List.mem_map.mp hrow
    exact of_decide_eq_true (List.mem_filter.mp ((mem_sortBy _).mp hmem)).2
  rw [tipMismatch_readTip hchain hpos, ChainedTable.readChain, endHash_map, List.getLast?_map,
    Option.map_map]
  rfl

/-- A table read whole from genesis to its tip has all the original rows. -/
theorem forall₂_of_endHash {original rows : List (StoredRow C)}
    (hfresh : FreshHashes StoredRow.rowHash genesisPrevHash original)
    (h : List.Forall₂ (SameBytes table) rows (original.take rows.length))
    (hend : endHash StoredRow.rowHash genesisPrevHash rows =
      endHash StoredRow.rowHash genesisPrevHash original) :
    List.Forall₂ (SameBytes table) rows original := by
  have hle : rows.length ≤ original.length := by
    have hlength := h.length_eq
    rw [List.length_take] at hlength
    omega
  have hlength : rows.length = original.length := by
    refine hfresh.take_inj hle le_rfl ?_
    rw [← endHash_congr (fun _ _ hsame => hsame.rowHash) h, List.take_length, hend]
  rwa [hlength, List.take_length] at h

/-- Verified against its tip, a tampered table is intact exactly when the edit is undetectable. -/
theorem isIntact_verifyChain_iff {original tampered : List (StoredRow C)}
    (hchain : IsChain table sha256 original) (htampered : Tampered original tampered)
    (hdistinct : DigestsDistinct table sha256 original tampered) :
    (table.verifyChain sha256 tampered (some (table.readTip original))).isIntact ↔
      Undetectable table original tampered := by
  rw [ChainedTable.verifyChain, isIntact_verifyRows, Option.getD_none]
  simp only [Option.mem_some_iff, forall_eq', tipMismatch_readChain hchain]
  constructor
  · rintro ⟨hholds, hseq, hend⟩
    have hforall := forall₂_of_holdsFrom hchain htampered hdistinct (Nat.zero_le _) hholds
    exact ⟨forall₂_of_endHash hdistinct.fresh hforall hend, hseq⟩
  · rintro ⟨hforall, hseq⟩
    have hwhole : List.Forall₂ (SameBytes table) (rowsSince 0 tampered)
        ((original.drop 0).take original.length) := by
      rwa [List.drop_zero, List.take_length]
    exact ⟨holdsFrom_of_forall₂ hchain hwhole, hseq,
      endHash_congr (fun _ _ hsame => hsame.rowHash) hforall⟩

/-- The lifecycle verifier, which reads no tip and no genesis, accepts any contiguous block. -/
theorem isIntact_verifyLifecycleChain_iff {original tampered : List (StoredRow C)}
    (hchain : IsChain table sha256 original) (htampered : Tampered original tampered)
    (hdistinct : DigestsDistinct table sha256 original tampered) :
    (verifyLifecycleChain table sha256 tampered 0).isIntact ↔
      UndetectableBlock table original tampered := by
  rw [isIntact_verifyLifecycleChain]
  constructor
  · rintro ⟨start, hholds⟩
    cases hrows : rowsSince 0 tampered with
    | nil => exact ⟨0, by rw [hrows]; exact .nil⟩
    | cons first rest =>
      -- The first row read is some original row, and its own link says where the block begins.
      obtain ⟨hsound, hlinked⟩ := holdsFrom_readChain.mp hholds
      have hfirst : first ∈ rowsSince 0 tampered := hrows ▸ List.mem_cons_self
      obtain ⟨o, ho, hsame⟩ := exists_sameBytes hchain htampered hdistinct
        (mem_of_mem_rowsSince hfirst) (hsound first hfirst)
      obtain ⟨n, hn, rfl⟩ := List.mem_iff_getElem.mp ho
      rw [hrows] at hlinked
      have hstart : start = endHash StoredRow.rowHash genesisPrevHash (original.take n) := by
        rw [← hchain.linked.prev_getElem hn, ← hsame.prevHash]
        exact hlinked.1.symm
      exact ⟨n, forall₂_of_holdsFrom hchain htampered hdistinct hn.le (hstart ▸ hholds)⟩
  · rintro ⟨n, hforall⟩
    exact ⟨_, holdsFrom_of_forall₂ hchain hforall⟩

section Tables

variable {J : Type} (sql : SqlText J)

end Tables

/-! ### Edits that are missed -/

/-- The SQL conversions at the values of the rows below. -/
def epochText : SqlText Unit where
  utcText _ := "1970-01-01T00:00:00.000000Z"
  jsonbText _ := "\x7b\x7d"
  scoreText _ := "1."

def auditRow (actor eventType subjectId : String) : StoredRow (AuditColumns Unit) :=
  ⟨1, ⟨0, 7, none, actor, eventType, subjectId, ()⟩, genesisPrevHash,
    [155, 128, 57, 253, 38, 181, 57, 79, 206, 221, 124, 110, 31, 26, 222, 187, 108, 40, 213, 205, 66, 84,
      64, 200, 84, 108, 212, 79, 51, 104, 138, 168]⟩

def trialRow (registeredBy statement : String) : StoredRow (TrialColumns Unit) :=
  ⟨1, ⟨0, 7, List.replicate 32 5, registeredBy, statement, (), 2, 2, false⟩, genesisPrevHash,
    [150, 123, 19, 140, 249, 203, 243, 145, 140, 173, 142, 234, 45, 50, 247, 175, 22, 239, 64, 13, 99, 84,
      211, 133, 162, 44, 216, 126, 174, 168, 169, 146]⟩

def lifecycleRow : StoredRow (LifecycleColumns Unit) :=
  ⟨1, ⟨9, "s1", List.replicate 32 6, 7, none, "nonexistent", "proposed", "genesis", "seeded", none, (),
      0, 0, 0, 0, "v1", 0⟩, genesisPrevHash,
    [230, 137, 184, 58, 194, 62, 128, 20, 230, 116, 224, 111, 37, 204, 173, 94, 123, 187, 248, 83, 146,
      233, 64, 161, 82, 190, 123, 141, 46, 175, 13, 138]⟩

/-- SHA-256 at the strings hashed below. -/
def epochSha256 (bytes : Bytes) : Bytes :=
  if bytes = (auditLog epochText).hashed (auditRow "risk" "halt" "BTC") then (auditRow "" "" "").rowHash
  else if bytes = (auditLog epochText).hashed (auditRow "risk" "halt" "ETH") then
    [142, 219, 246, 209, 122, 97, 252, 22, 104, 14, 127, 78, 140, 130, 237, 86, 184, 207, 121, 236, 113,
      214, 197, 15, 63, 34, 87, 46, 254, 35, 120, 115]
  else if bytes = (trialLedger epochText).hashed (trialRow "ann" "momentum") then (trialRow "" "").rowHash
  else if bytes = (strategyLifecycleEvents epochText).hashed lifecycleRow then lifecycleRow.rowHash
  else []

/-- One row that the trigger writes into an empty table. -/
theorem appended_one {row : StoredRow C} (hpos : 0 < row.seq)
    (hcheck : table.check (table.computed (table.tail []) row.columns))
    (hrow : table.trigger sha256 [] row.seq row.columns = row) : table.Appended sha256 [row] := by
  have hempty : table.Appended sha256 [] := .empty
  have h := hempty.append hpos (by simp) hcheck
  rwa [hrow] at h

/-- Two hashed strings whose digests tell them apart. -/
theorem digestsDistinct_one {row other : StoredRow C} {tampered : List (StoredRow C)}
    (hsub : tampered ⊆ [other]) (hfresh : row.rowHash ≠ genesisPrevHash)
    (hinj : sha256 (table.hashed row) = sha256 (table.hashed other) →
      table.hashed row = table.hashed other) :
    DigestsDistinct table sha256 [row] tampered where
  injOn := by
    have hmem : ∀ r ∈ [row] ++ tampered, r = row ∨ r = other := fun r hr =>
      (List.mem_append.mp hr).imp List.mem_singleton.mp fun h => List.mem_singleton.mp (hsub h)
    rintro _ ⟨a, ha, rfl⟩ _ ⟨b, hb, rfl⟩ heq
    rcases hmem a ha with rfl | rfl <;> rcases hmem b hb with rfl | rfl
    · rfl
    · exact hinj heq
    · exact (hinj heq.symm).symm
    · rfl
  fresh := by simpa [FreshHashes] using hfresh.symm

theorem appended_auditRow :
    (auditLog epochText).Appended epochSha256 [auditRow "risk" "halt" "BTC"] := by
  refine appended_one (by decide) trivial ?_
  have hdigest : epochSha256 ((auditLog epochText).hashed (auditRow "risk" "halt" "BTC")) =
      (auditRow "risk" "halt" "BTC").rowHash := by with_unfolding_all decide
  exact congrArg (StoredRow.mk 1 (auditRow "risk" "halt" "BTC").columns genesisPrevHash) hdigest

end FinanceKing.Platform
