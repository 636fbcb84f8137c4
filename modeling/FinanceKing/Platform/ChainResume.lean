import FinanceKing.Platform.Chain

/-! Incremental verification: a run resumed from the last hash of a verified prefix, against one walk of
    the whole sequence. The walks agree; the tip comparison does not once nothing was appended. -/

namespace FinanceKing.Platform

open Lib

/-- One verdict is intact exactly when the other is, and two breaks are reported at one seq. -/
def ChainVerification.Agrees (self other : ChainVerification) : Prop :=
  (self.isIntact ↔ other.isIntact) ∧
    ∀ s ∈ self.firstBrokenSeq, ∀ t ∈ other.firstBrokenSeq, s = t

theorem agrees_iff {v w : ChainVerification} : v.Agrees w ↔ v.firstBrokenSeq = w.firstBrokenSeq := by
  rw [ChainVerification.Agrees, ChainVerification.isIntact, ChainVerification.isIntact]
  cases v.firstBrokenSeq <;> cases w.firstBrokenSeq <;> simp

/-- When the resumed run answers as the whole one: something follows the verified prefix, or no tip is
    recorded, or the tip recorded against a last row with nothing after it happens to be one at which
    both answers fall together. -/
def ResumesFaithfully (last : ChainRow) (suffix : List ChainRow) (expectedTip : Option ChainTip) : Prop :=
  suffix ≠ [] ∨ ∀ tip ∈ expectedTip,
    if tip.seq = 0 then last.seq = 0 ∧ hex last.rowHash = tip.rowHashHex
    else last.seq + 1 = tip.seq ∨ last.seq = tip.seq ∧ hex last.rowHash ≠ tip.rowHashHex

/-! ### The walk -/

/-- Past a prefix that holds together, the whole walk breaks where the resumed one does. -/
theorem walkRows_resumed {start : Bytes} {pre suffix : List ChainRow} {last : ChainRow}
    (hlast : pre.getLast? = some last) (hpre : HoldsFrom start pre) :
    (walkRows 0 start (pre ++ suffix)).map (fun b => b.2.1) =
      (walkRows 0 last.rowHash suffix).map (fun b => b.2.1) := by
  rw [walkRows_append hpre, endHash_of_getLast? _ hlast]
  exact walkRows_seq _ _ last.rowHash suffix

/-! ### The tip -/

/-- A run with rows is compared by its last one, wherever it started. -/
theorem tipMismatch_of_ne_nil {pre suffix : List ChainRow} (hsuffix : suffix ≠ []) (tip : ChainTip)
    (since since' : Option Bytes) :
    tipMismatch (pre ++ suffix) tip since = tipMismatch suffix tip since' := by
  rw [tipMismatch, tipMismatch, List.getLast?_append_of_ne_nil pre hsuffix]
  cases h : suffix.getLast? with
  | none => exact absurd (List.getLast?_eq_none_iff.mp h) hsuffix
  | some observed => rfl

theorem tipMismatch_resumed_nil (tip : ChainTip) (since : Bytes) :
    (tipMismatch [] tip (some since)).map Prod.fst = if tip.seq = 0 then none else some tip.seq := by
  rw [tipMismatch, List.getLast?_nil]
  dsimp only
  split <;> rfl

theorem tipMismatch_last {rows : List ChainRow} {last : ChainRow} (hlast : rows.getLast? = some last)
    (tip : ChainTip) (since : Option Bytes) :
    (tipMismatch rows tip since).map Prod.fst =
      if last.seq < tip.seq then some (last.seq + 1)
      else if tip.seq < last.seq then some (tip.seq + 1)
      else if hex last.rowHash ≠ tip.rowHashHex then some last.seq else none := by
  rw [tipMismatch, hlast]
  dsimp only
  split
  · rfl
  · split
    · rfl
    · split <;> rfl

/-- With nothing appended, the two tip comparisons fall together only at the tips the condition names. -/
theorem tipMismatch_nil_iff {rows : List ChainRow} {last : ChainRow} (hlast : rows.getLast? = some last)
    (tip : ChainTip) (since : Bytes) :
    (tipMismatch [] tip (some since)).map Prod.fst = (tipMismatch rows tip none).map Prod.fst ↔
      if tip.seq = 0 then last.seq = 0 ∧ hex last.rowHash = tip.rowHashHex
      else last.seq + 1 = tip.seq ∨ last.seq = tip.seq ∧ hex last.rowHash ≠ tip.rowHashHex := by
  rw [tipMismatch_resumed_nil, tipMismatch_last hlast]
  by_cases hzero : tip.seq = 0
  · rw [if_pos hzero, if_pos hzero]
    split
    · simp; omega
    · split
      · simp; omega
      · split
        · next hhex => simp [hhex]
        · next hhex => simp at hhex ⊢; exact ⟨by omega, hhex⟩
  · rw [if_neg hzero, if_neg hzero]
    split
    · simp; omega
    · split
      · simp; omega
      · split
        · next hhex => simp [hhex]; omega
        · next hhex => simp at hhex ⊢; exact ⟨by omega, fun _ => hhex⟩

/-! ### The two verdicts -/

/-- The resumed run answers as the whole one exactly when it resumes faithfully. -/
theorem resumed_agrees_iff (tableName : String) {pre : List ChainRow} {last : ChainRow}
    (suffix : List ChainRow) (expectedTip : Option ChainTip) (hlast : pre.getLast? = some last)
    (hpre : (verifyRows tableName pre none none).isIntact) :
    (verifyRows tableName suffix expectedTip (some last.rowHash)).Agrees
        (verifyRows tableName (pre ++ suffix) expectedTip none) ↔
      ResumesFaithfully last suffix expectedTip := by
  have hholds : HoldsFrom genesisPrevHash pre := (isIntact_verifyRows.mp hpre).1
  rw [agrees_iff, firstBrokenSeq_verifyRows, firstBrokenSeq_verifyRows, Option.getD_some,
    Option.getD_none, walkRows_resumed hlast hholds]
  by_cases hsuffix : suffix = []
  · subst hsuffix
    rw [ResumesFaithfully, List.append_nil]
    cases expectedTip with
    | none => simp
    | some tip =>
      have hnil := tipMismatch_nil_iff hlast tip last.rowHash
      simpa [walkRows] using hnil
  · have htip : (expectedTip.bind fun tip => tipMismatch suffix tip (some last.rowHash)) =
        expectedTip.bind fun tip => tipMismatch (pre ++ suffix) tip none := by
      cases expectedTip with
      | none => rfl
      | some tip => exact (tipMismatch_of_ne_nil hsuffix tip none (some last.rowHash)).symm
    rw [htip]
    exact ⟨fun _ => .inl hsuffix, fun _ => rfl⟩

/-- A first row at seq 1, verified, then a second that links back to it. -/
theorem resumed_agrees_appended :
    (verifyRows "audit_log" [⟨2, [7], [9], [9]⟩] (some ⟨"audit_log", 2, "09"⟩) (some [7])).Agrees
      (verifyRows "audit_log" ([⟨1, [0], [7], [7]⟩] ++ [⟨2, [7], [9], [9]⟩])
        (some ⟨"audit_log", 2, "09"⟩) none) := by
  have hpre : (verifyRows "audit_log" [⟨1, [0], [7], [7]⟩] none none).isIntact := by decide
  exact (resumed_agrees_iff "audit_log" [⟨2, [7], [9], [9]⟩] (some ⟨"audit_log", 2, "09"⟩) rfl hpre).mpr
    (.inl (List.cons_ne_nil _ _))

/-- A quiet table: nothing was appended since the verified tip, and the resumed run calls it broken. -/
theorem resumed_quiet_broken :
    (verifyRows "audit_log" [⟨1, [0], [7], [7]⟩] none none).isIntact ∧
      (verifyRows "audit_log" ([⟨1, [0], [7], [7]⟩] ++ []) (some ⟨"audit_log", 1, "07"⟩) none).isIntact ∧
      (verifyRows "audit_log" [] (some ⟨"audit_log", 1, "07"⟩) (some [7])).firstBrokenSeq = some 1 ∧
      ¬(verifyRows "audit_log" [] (some ⟨"audit_log", 1, "07"⟩) (some [7])).Agrees
        (verifyRows "audit_log" ([⟨1, [0], [7], [7]⟩] ++ []) (some ⟨"audit_log", 1, "07"⟩) none) := by
  refine ⟨by decide, by decide, by decide, ?_⟩
  rw [agrees_iff]
  decide

end FinanceKing.Platform
