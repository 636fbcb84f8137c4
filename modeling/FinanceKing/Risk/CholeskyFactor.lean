import FinanceKing.Lib.Cholesky
import FinanceKing.Risk.Covariance

/-! What the positive definiteness check finds: a lower triangular factor, row by row, whose product with its
    transpose is the matrix. With exact square roots the matrix of an accepted model is positive definite. -/

namespace FinanceKing.Risk

open Lib

variable {K : Type} [Field K] [LinearOrder K]

/-! ### Products of rows -/

/-- The product of two rows, as far as the shorter one goes. -/
def rowProduct (row other : List K) : K := (List.zipWith (· * ·) row other).sum

omit [LinearOrder K] in
theorem rowProduct_append_of_le {row other : List K} (h : other.length ≤ row.length) (more : List K) :
    rowProduct (row ++ more) other = rowProduct row other := by
  rw [rowProduct, rowProduct]
  congr 1
  conv_lhs => rw [← List.append_nil other]
  rw [← List.take_append_drop other.length row, List.append_assoc, List.zipWith_append (by simpa using h)]
  conv_rhs => rw [← List.append_nil other]
  rw [List.zipWith_append (by simpa using h)]
  simp

omit [LinearOrder K] in
theorem rowProduct_concat {row other : List K} (h : row.length = other.length) (entry last : K) :
    rowProduct (row ++ [entry]) (other ++ [last]) = rowProduct row other + entry * last := by
  rw [rowProduct, rowProduct, List.zipWith_append h]
  simp

omit [LinearOrder K] in
theorem rowProduct_comm (row other : List K) : rowProduct row other = rowProduct other row := by
  rw [rowProduct, rowProduct, List.zipWith_comm]
  simp only [mul_comm]

omit [LinearOrder K] in
/-- A product of rows, column by column. -/
theorem rowProduct_eq_sum {n : ℕ} : ∀ {row other : List K}, row.length ≤ n →
    rowProduct row other = ∑ m : Fin n, row.getD m 0 * other.getD m 0 := by
  induction n with
  | zero =>
    intro row other h
    obtain rfl := List.length_eq_zero_iff.mp (Nat.le_zero.mp h)
    rfl
  | succ n ih =>
    intro row other h
    cases row with
    | nil => simp [rowProduct]
    | cons entry row =>
      cases other with
      | nil => simp [rowProduct]
      | cons last other =>
        rw [Fin.sum_univ_succ]
        simp only [Fin.val_zero, List.getD_cons_zero, Fin.val_succ, List.getD_cons_succ]
        rw [← ih (by simpa using h)]
        simp [rowProduct]

/-! ### One row -/

variable [Root K]

/-- A factor's rows so far: each ends on its diagonal, which is positive. -/
structure IsLower (lower : List (List K)) : Prop where
  length_row : ∀ {k : ℕ} {row : List K}, lower[k]? = some row → row.length = k + 1
  diagonal_pos : ∀ {k : ℕ} {row : List K}, lower[k]? = some row → 0 < row.getLastD 0

omit [LinearOrder K] [Root K] in
/-- An entry completes the product of its row with the row above that ends at its column. -/
theorem rowProduct_choleskyEntry {row lowerRow : List K} (hlength : lowerRow.length = row.length + 1)
    (hlast : lowerRow.getLastD 0 ≠ 0) (entry : K) :
    rowProduct (row ++ [choleskyEntry row lowerRow entry]) lowerRow = entry := by
  obtain ⟨init, last, rfl⟩ := (List.eq_nil_or_concat lowerRow).resolve_left fun hnil => by
    rw [hnil] at hlength
    cases hlength
  rw [List.concat_eq_append] at hlength hlast ⊢
  have hinit : row.length = init.length := by simpa using hlength.symm
  rw [List.getLastD_concat] at hlast
  have htail : (List.zipWith (· * ·) row (init ++ [last])).sum = rowProduct row init := by
    rw [← rowProduct_comm init row, ← rowProduct_append_of_le hinit.le [last], rowProduct_comm]
    rfl
  rw [rowProduct_concat hinit, choleskyEntry, htail, List.getLastD_concat, div_mul_cancel₀ _ hlast]
  ring

/-- A row of the factor: as many entries as rows above it, and its product with each of them is that column's
    entry of the matrix. -/
structure IsRow (lower : List (List K)) (entries row : List K) : Prop where
  length_eq : row.length = lower.length
  product : ∀ {k : ℕ} {lowerRow : List K}, lower[k]? = some lowerRow → rowProduct row lowerRow = entries.getD k 0

omit [Root K] in
theorem IsLower.of_concat {lower : List (List K)} {row : List K} (h : IsLower (lower ++ [row])) :
    IsLower lower := by
  constructor <;> intro k above hk
  · exact h.length_row (List.getElem?_append_left (List.getElem?_eq_some_iff.mp hk).1 ▸ hk)
  · exact h.diagonal_pos (List.getElem?_append_left (List.getElem?_eq_some_iff.mp hk).1 ▸ hk)

/-- A list paired with a longer one, one further. -/
theorem zip_concat {α β : Type} (last : α) (missing : β) : ∀ {left : List α} {right : List β},
    left.length < right.length →
      (left ++ [last]).zip right = left.zip right ++ [(last, right.getD left.length missing)]
  | _, [], h => absurd h (Nat.not_lt_zero _)
  | [], _ :: _, _ => rfl
  | _ :: _, _ :: _, h => by
    rw [List.cons_append, List.zip_cons_cons, zip_concat last missing (Nat.lt_of_succ_lt_succ h)]
    rfl

omit [LinearOrder K] [Root K] in
/-- One more row above is one more entry. -/
theorem choleskyRow_concat {lower : List (List K)} {entries : List K} (h : lower.length < entries.length)
    (above : List K) : choleskyRow (lower ++ [above]) entries =
      choleskyRow lower entries ++
        [choleskyEntry (choleskyRow lower entries) above (entries.getD lower.length 0)] := by
  rw [choleskyRow, zip_concat above 0 h, List.foldl_append]
  rfl

omit [Root K] in
/-- The loop over the rows above completes a row of the factor. -/
theorem choleskyRow_isRow {lower : List (List K)} {entries : List K} (hlower : IsLower lower)
    (h : lower.length ≤ entries.length) : IsRow lower entries (choleskyRow lower entries) := by
  induction lower using List.reverseRecOn with
  | nil => exact ⟨rfl, fun hk => absurd hk (by simp)⟩
  | append_singleton lower above ih =>
    rw [List.length_append, List.length_singleton] at h
    obtain ⟨hlength, hproduct⟩ := ih hlower.of_concat (Nat.le_of_succ_le h)
    have habove : (lower ++ [above])[lower.length]? = some above := List.getElem?_concat_length
    have hwidth : above.length = (choleskyRow lower entries).length + 1 := by
      rw [hlower.length_row habove, hlength]
    rw [choleskyRow_concat (Nat.lt_of_succ_le h)]
    refine ⟨by simp [hlength], fun {k lowerRow} hk => ?_⟩
    rcases Nat.lt_trichotomy k lower.length with hbefore | rfl | hafter
    · rw [List.getElem?_append_left hbefore] at hk
      have hshort : lowerRow.length ≤ (choleskyRow lower entries).length := by
        rw [hlower.of_concat.length_row hk, hlength]
        exact hbefore
      rw [rowProduct_append_of_le hshort, hproduct hk]
    · obtain rfl := Option.some.inj (habove.symm.trans hk)
      exact rowProduct_choleskyEntry hwidth (hlower.diagonal_pos habove).ne' _
    · rw [List.getElem?_eq_none (by simpa using hafter)] at hk
      cases hk

/-! ### The whole factor -/

/-- The rows of a factor of a symmetric matrix: lower triangular, and their products are the entries on and
    left of the diagonal. -/
structure IsFactor (rows lower : List (List K)) : Prop extends IsLower lower where
  length_eq : lower.length = rows.length
  product : ∀ {i j : ℕ} {row above entries : List K}, lower[i]? = some row → lower[j]? = some above →
    rows[i]? = some entries → j ≤ i → rowProduct row above = entries.getD j 0

omit [Field K] [LinearOrder K] [Root K] in
/-- A concatenation's rows: the ones it had, and the new one. -/
theorem getElem?_concat_cases {rows : List (List K)} {last row : List K} {i : ℕ}
    (h : (rows ++ [last])[i]? = some row) : rows[i]? = some row ∨ i = rows.length ∧ last = row := by
  rcases Nat.lt_trichotomy i rows.length with hbefore | rfl | hafter
  · rw [List.getElem?_append_left hbefore] at h
    exact .inl h
  · rw [List.getElem?_concat_length] at h
    exact .inr ⟨rfl, Option.some.inj h⟩
  · rw [List.getElem?_eq_none (by simpa using hafter)] at h
    cases h

section

variable [ExactRoot K]

/-- A completed row with the root of its pivot multiplies with itself to the diagonal entry. -/
theorem rowProduct_self {lower : List (List K)} {entries : List K} (hpivot : 0 < choleskyPivot lower entries) :
    rowProduct (choleskyRow lower entries ++ [root (choleskyPivot lower entries)])
      (choleskyRow lower entries ++ [root (choleskyPivot lower entries)]) = entries.getD lower.length 0 := by
  have hsquares : rowProduct (choleskyRow lower entries) (choleskyRow lower entries) =
      ((choleskyRow lower entries).map fun entry => entry * entry).sum := by
    rw [rowProduct, List.zipWith_self]
  rw [rowProduct_concat rfl, hsquares, ExactRoot.root_mul_self hpivot.le, choleskyPivot]
  ring

/-- One more row of the matrix is one more row of the factor. -/
theorem choleskyStep_isFactor {rows lower after : List (List K)} {entries : List K} (hfactor : IsFactor rows lower)
    (hwidth : rows.length ≤ entries.length) (h : choleskyStep lower entries = some after) :
    IsFactor (rows ++ [entries]) after := by
  rw [choleskyStep] at h
  split at h
  · cases h
  next hpivot =>
  obtain rfl := Option.some.inj h
  rw [not_le] at hpivot
  have hrow := choleskyRow_isRow hfactor.toIsLower (hfactor.length_eq ▸ hwidth)
  set row := choleskyRow lower entries ++ [root (choleskyPivot lower entries)] with hrowdef
  have hproduct : ∀ {j : ℕ} {above : List K}, (lower ++ [row])[j]? = some above →
      rowProduct row above = entries.getD j 0 := by
    intro j above hj
    rcases getElem?_concat_cases hj with hold | ⟨rfl, rfl⟩
    · have hshort : above.length ≤ (choleskyRow lower entries).length := by
        rw [hfactor.length_row hold, hrow.length_eq]
        exact (List.getElem?_eq_some_iff.mp hold).1
      rw [hrowdef, rowProduct_append_of_le hshort, hrow.product hold]
    · exact rowProduct_self hpivot
  constructor
  · constructor <;> intro k above hk <;> rcases getElem?_concat_cases hk with hold | ⟨rfl, rfl⟩
    · exact hfactor.length_row hold
    · simp [hrowdef, hrow.length_eq]
    · exact hfactor.diagonal_pos hold
    · rw [hrowdef, List.getLastD_concat]
      exact root_pos_of_exact hpivot
  · simp [hfactor.length_eq]
  · intro i j current above matrixRow hi hj hmatrix hle
    rcases getElem?_concat_cases hi with holdi | ⟨rfl, rfl⟩
    · have hbound := (List.getElem?_eq_some_iff.mp holdi).1
      rw [List.getElem?_append_left (hle.trans_lt hbound)] at hj
      rw [List.getElem?_append_left (hfactor.length_eq ▸ hbound)] at hmatrix
      exact hfactor.product holdi hj hmatrix hle
    · rw [hfactor.length_eq, List.getElem?_concat_length] at hmatrix
      obtain rfl := Option.some.inj hmatrix
      exact hproduct hj

/-- A run over the rows of a matrix, each long enough, leaves a factor of it. -/
theorem foldlM_choleskyStep_isFactor {width : ℕ} {rows : List (List K)} : ∀ {lower : List (List K)},
    (∀ entries ∈ rows, width ≤ entries.length) → rows.length ≤ width →
      rows.foldlM choleskyStep [] = some lower → IsFactor rows lower := by
  induction rows using List.reverseRecOn with
  | nil =>
    rintro lower - - h
    obtain rfl := Option.some.inj h
    exact ⟨⟨fun hk => absurd hk (by simp), fun hk => absurd hk (by simp)⟩, rfl, fun hi => absurd hi (by simp)⟩
  | append_singleton rows entries ih =>
    intro lower hwidths hlength h
    rw [List.foldlM_append] at h
    obtain ⟨before, hbefore, hstep⟩ := Option.bind_eq_some_iff.mp h
    rw [List.length_append, List.length_singleton] at hlength
    have hfactor := ih (fun row hrow => hwidths row (List.mem_append_left _ hrow)) (by omega) hbefore
    have hwide := hwidths entries (List.mem_append_right _ (List.mem_singleton_self _))
    rw [List.foldlM_cons] at hstep
    obtain ⟨after, hafter, hdone⟩ := Option.bind_eq_some_iff.mp hstep
    obtain rfl := Option.some.inj hdone
    exact choleskyStep_isFactor hfactor (by omega) hafter

/-- An entry of the factor; there is none right of the diagonal. -/
def factorEntry (lower : List (List K)) (i m : ℕ) : K := (lower.getD i []).getD m 0

omit [Root K] [ExactRoot K] in
theorem factorEntry_of_lt {rows lower : List (List K)} (h : IsFactor rows lower) {i m : ℕ} (hlt : i < m) :
    factorEntry lower i m = 0 := by
  rw [factorEntry]
  cases hrow : lower[i]? with
  | none => simp [hrow]
  | some row =>
    have hlength := h.length_row hrow
    simp [hrow, List.getElem?_eq_none (l := row) (i := m) (by omega)]

omit [Root K] [ExactRoot K] in
theorem factorEntry_self_pos {rows lower : List (List K)} (h : IsFactor rows lower) {i : ℕ}
    (hi : i < rows.length) : 0 < factorEntry lower i i := by
  have hrow : lower[i]? = some _ := List.getElem?_eq_getElem (h.length_eq ▸ hi)
  have hpos := h.diagonal_pos hrow
  have hlength := h.length_row hrow
  rw [List.getLastD_eq_getLast?, List.getLast?_eq_getElem?, hlength, Nat.add_sub_cancel] at hpos
  rw [factorEntry, List.getD_eq_getElem?_getD, List.getD_eq_getElem?_getD, hrow]
  exact hpos

omit [Root K] [ExactRoot K] in
/-- The product of two rows of the factor, column by column, is the entry of the matrix. -/
theorem sum_factorEntry {rows lower : List (List K)} (h : IsFactor rows lower) {i j : ℕ}
    (hi : i < rows.length) (hle : j ≤ i) :
    ∑ m : Fin rows.length, factorEntry lower i m * factorEntry lower j m = (rows.getD i []).getD j 0 := by
  obtain ⟨row, hrow⟩ : ∃ row, lower[i]? = some row := ⟨_, List.getElem?_eq_getElem (h.length_eq ▸ hi)⟩
  obtain ⟨above, habove⟩ : ∃ above, lower[j]? = some above :=
    ⟨_, List.getElem?_eq_getElem (h.length_eq ▸ hle.trans_lt hi)⟩
  obtain ⟨entries, hentries⟩ : ∃ entries, rows[i]? = some entries := ⟨_, List.getElem?_eq_getElem hi⟩
  have hwidth : row.length ≤ rows.length := h.length_row hrow ▸ hi
  have hproduct := h.product hrow habove hentries hle
  rw [rowProduct_eq_sum hwidth] at hproduct
  simp only [factorEntry, List.getD_eq_getElem?_getD (l := lower), hrow, habove, Option.getD_some]
  rw [hproduct, List.getD_eq_getElem?_getD (l := rows), hentries, Option.getD_some]

/-! ### The correlation form -/

/-- The quadratic form of the correlations. -/
def correlationForm (matrix : CorrelationMatrix K) (x : String → K) : K :=
  (matrix.symbols.map fun symbolA =>
    (matrix.symbols.map fun symbolB => x symbolA * matrix.entry symbolA symbolB * x symbolB).sum).sum

omit [Root K] [ExactRoot K] in
theorem correlationForm_eq_sum (matrix : CorrelationMatrix K) (x : String → K) :
    correlationForm matrix x = ∑ i : Fin matrix.symbols.length, ∑ j : Fin matrix.symbols.length,
      x matrix.symbols[i] * matrix.entry matrix.symbols[i] matrix.symbols[j] * x matrix.symbols[j] := by
  rw [correlationForm, ← Fin.sum_univ_fun_getElem]
  exact Finset.sum_congr rfl fun i _ => (Fin.sum_univ_fun_getElem _ _).symm

omit [Root K] [ExactRoot K] in
theorem getD_rows (matrix : CorrelationMatrix K) {i j : ℕ} (hi : i < matrix.symbols.length)
    (hj : j < matrix.symbols.length) :
    (matrix.rows.getD i []).getD j 0 = matrix.entry matrix.symbols[i] matrix.symbols[j] := by
  simp [CorrelationMatrix.rows, hi, hj]

omit [Root K] [ExactRoot K] in
/-- A factor of a correlation matrix multiplies to its entries, on both sides of the diagonal. -/
theorem sum_factorEntry_rows {matrix : CorrelationMatrix K} {lower : List (List K)}
    (h : IsFactor matrix.rows lower) (i j : Fin matrix.symbols.length) :
    ∑ m : Fin matrix.symbols.length, factorEntry lower i m * factorEntry lower j m =
      matrix.entry matrix.symbols[i] matrix.symbols[j] := by
  have hlength : matrix.rows.length = matrix.symbols.length := List.length_map _
  rcases le_total (j : ℕ) i with hle | hle
  · have hsum := sum_factorEntry h (i.2.trans_eq hlength.symm) hle
    rw [getD_rows matrix i.2 j.2, hlength] at hsum
    exact hsum
  · have hsum := sum_factorEntry h (j.2.trans_eq hlength.symm) hle
    rw [getD_rows matrix j.2 i.2, hlength] at hsum
    simp only [mul_comm (factorEntry lower i _)]
    rw [hsum]
    exact (matrix.entry_facts (List.getElem_mem _) (List.getElem_mem _)).2.2.2

/-- A matrix the check accepts is positive definite. -/
theorem correlationForm_pos [IsStrictOrderedRing K] {matrix : CorrelationMatrix K}
    (hdefinite : isPositiveDefinite matrix.rows = true) {x : String → K}
    (h : ∃ symbol ∈ matrix.symbols, x symbol ≠ 0) : 0 < correlationForm matrix x := by
  obtain ⟨lower, hlower⟩ := Option.isSome_iff_exists.mp hdefinite
  have hlength : matrix.rows.length = matrix.symbols.length := List.length_map _
  have hwidths : ∀ entries ∈ matrix.rows, matrix.symbols.length ≤ entries.length := by
    intro entries hentries
    obtain ⟨symbolA, _, rfl⟩ := List.mem_map.mp hentries
    rw [List.length_map]
  have hfactor := foldlM_choleskyStep_isFactor hwidths hlength.le hlower
  obtain ⟨symbol, hsymbol, hne⟩ := h
  obtain ⟨i, hi, rfl⟩ := List.getElem_of_mem hsymbol
  rw [correlationForm_eq_sum]
  simp only [← sum_factorEntry_rows hfactor]
  exact quadraticForm_pos (fun i m hlt => factorEntry_of_lt hfactor hlt)
    (fun i => (factorEntry_self_pos hfactor (i.2.trans_eq hlength.symm)).ne') ⟨⟨i, hi⟩, hne⟩

end

end FinanceKing.Risk
