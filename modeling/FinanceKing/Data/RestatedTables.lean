import FinanceKing.Data.Registry
import FinanceKing.Lib.Restatements
import FinanceKing.Lib.Rounding

/-! The two tables that keep restated values. A row passes the constraints of its table and a taken key is
    left alone; the rows of one append are written in one transaction. -/

namespace FinanceKing.Data

open Lib

/-- To the nearest integer, a half away from zero. -/
def roundHalfAwayFromZero (x : Decimal) : ℤ := if 0 ≤ x then ⌊x + 1 / 2⌋ else ⌈x - 1 / 2⌉

/-- What a `NUMERIC(38, 18)` column keeps of a number. -/
def numericColumn (x : Decimal) : PyResult Decimal := do
  let kept := snapWith roundHalfAwayFromZero (1 / 10 ^ 18) x
  raiseIf (10 ^ 20 ≤ |kept|) .integrity ["numeric field overflow"]
  return kept

section Append

variable {κ : Type} [DecidableEq κ]

/-- A row of one of the tables. -/
abbrev StoredRow (κ : Type) := Restated κ DateTime Decimal

abbrev StoredTable (κ : Type) [DecidableEq κ] := Restatements κ DateTime Decimal

variable (guard constraints : StoredRow κ → PyResult Unit)

/-- One `INSERT … ON CONFLICT DO NOTHING` after the writer's own guard, and how many rows are new by then. -/
def insertRow (state : StoredTable κ × ℕ) (row : StoredRow κ) : PyResult (StoredTable κ × ℕ) := do
  guard row
  let kept ← numericColumn row.value
  constraints row
  return (state.1.insert { row with value := kept },
    if (state.1.get? row.key).isSome then state.2 else state.2 + 1)

/-- The rows of one append in one transaction: the table afterwards, and how many were new. -/
def appendRows (table : StoredTable κ) (rows : List (StoredRow κ)) : StoredTable κ × PyResult ℕ :=
  match rows.foldlM (insertRow guard constraints) (table, 0) with
  | .ok (written, count) => (written, .ok count)
  | .error e => (table, .error e)

variable {guard constraints}

theorem insertRow_cases {state next : StoredTable κ × ℕ} {row : StoredRow κ}
    (h : insertRow guard constraints state row = .ok next) : ∃ kept, constraints row = .ok () ∧
      numericColumn row.value = .ok kept ∧ next.1 = state.1.insert { row with value := kept } := by
  simp only [insertRow, bind_eq_ok, pure_eq_ok] at h
  obtain ⟨_, _, kept, hkept, _, hpassed, rfl⟩ := h
  exact ⟨kept, hpassed, hkept, rfl⟩

/-- What every inserted row keeps of the table, a transaction keeps. -/
theorem appendRows_keeps {P : StoredTable κ → Prop} {table : StoredTable κ} {rows : List (StoredRow κ)}
    (h : P table) (hinsert : ∀ row ∈ rows, ∀ kept table, constraints row = .ok () →
      numericColumn row.value = .ok kept → P table → P (table.insert { row with value := kept })) :
    P (appendRows guard constraints table rows).1 := by
  have hfold : ∀ rows : List (StoredRow κ), (∀ row ∈ rows, ∀ kept table, constraints row = .ok () →
      numericColumn row.value = .ok kept → P table → P (table.insert { row with value := kept })) →
      ∀ state next : StoredTable κ × ℕ, P state.1 →
        rows.foldlM (insertRow guard constraints) state = .ok next → P next.1 := by
    intro rows
    induction rows with
    | nil =>
      intro _ state next hstate hrun
      rw [List.foldlM_nil, pure_eq_ok] at hrun
      exact hrun ▸ hstate
    | cons row rows ih =>
      intro hinsert state next hstate hrun
      rw [List.foldlM_cons, bind_eq_ok] at hrun
      obtain ⟨middle, hrow, hrun⟩ := hrun
      obtain ⟨kept, hpassed, hkept, hmiddle⟩ := insertRow_cases hrow
      refine ih (fun row hrow => hinsert row (List.mem_cons_of_mem _ hrow)) middle next ?_ hrun
      rw [hmiddle]
      exact hinsert row List.mem_cons_self kept state.1 hpassed hkept hstate
  rw [appendRows]
  split
  · next written count hrun => exact hfold rows hinsert (table, 0) (written, count) h hrun
  · exact h

/-- Rows known only after an instant leave what is known at it. -/
theorem agreeUntil_appendRows {table : StoredTable κ} {rows : List (StoredRow κ)} {asOf : DateTime}
    (hlater : ∀ row ∈ rows, asOf < row.availableAt) :
    Restatements.AgreeUntil (appendRows guard constraints table rows).1 table asOf := by
  refine appendRows_keeps (P := fun written => Restatements.AgreeUntil written table asOf)
    (fun _ _ _ _ => rfl) ?_
  intro row hrow kept written _ _ hwritten
  have hinsert : Restatements.AgreeUntil (written.insert { row with value := kept }) written asOf :=
    written.agreeUntil_insert (hlater row hrow)
  exact hinsert.trans hwritten

/-- Rows at keys that are all taken change nothing. -/
theorem appendRows_of_held {table : StoredTable κ} {rows : List (StoredRow κ)}
    (hheld : ∀ row ∈ rows, (table.get? row.key).isSome) :
    (appendRows guard constraints table rows).1 = table := by
  refine appendRows_keeps (P := fun written => written = table) rfl ?_
  rintro row hrow kept written _ _ rfl
  exact written.insert_of_held (hheld row hrow)

/-- A row of the table after an append was there before, or is a row of the append that passed. -/
theorem get?_appendRows {table : StoredTable κ} {rows : List (StoredRow κ)} {row : StoredRow κ}
    (h : (appendRows guard constraints table rows).1.get? row.key = some row.value) :
    table.get? row.key = some row.value ∨ ∃ asked ∈ rows, asked.key = row.key ∧
      constraints asked = .ok () ∧ numericColumn asked.value = .ok row.value := by
  revert h
  refine appendRows_keeps (P := fun written => written.get? row.key = some row.value →
    table.get? row.key = some row.value ∨ ∃ asked ∈ rows, asked.key = row.key ∧
      constraints asked = .ok () ∧ numericColumn asked.value = .ok row.value) .inl ?_
  intro asked hasked kept written hpassed hkept hwritten hget
  rw [Restatements.insert, Dict.get?_setDefault] at hget
  split at hget
  · next hkey =>
    cases hheld : written.get? row.key with
    | some value =>
      refine hwritten ?_
      have hsame : written.get? ({ asked with value := kept } : StoredRow κ).key = some value := hkey ▸ hheld
      rw [hsame] at hget
      rw [hheld]
      exact hget
    | none =>
      have hnone : written.get? ({ asked with value := kept } : StoredRow κ).key = none := hkey ▸ hheld
      rw [hnone] at hget
      refine .inr ⟨asked, hasked, hkey.symm, hpassed, ?_⟩
      rw [hkept]
      exact congrArg Except.ok (Option.some.inj hget)
  · exact hwritten hget

end Append

end FinanceKing.Data
