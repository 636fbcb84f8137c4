import FinanceKing.Lib.Herfindahl

/-! The line through a finite list of points that leaves the least squared error. Its slope is the covariance
    over the variance, it passes through the means, and no other line does as well once two points lie apart. -/

namespace Lib

variable {α K : Type} [Field K]

/-- The mean of a quantity over a list. -/
def listMean (f : α → K) (l : List α) : K := (l.map f).sum / l.length

/-- The sum of products of the deviations from the means; over the same quantity twice, of their squares. -/
def codeviation (f g : α → K) (l : List α) : K :=
  (l.map fun a => (f a - listMean f l) * (g a - listMean g l)).sum

/-- What a line leaves of the points. -/
def residual (x y : α → K) (slope intercept : K) (a : α) : K := y a - (slope * x a + intercept)

def squaredError (x y : α → K) (l : List α) (slope intercept : K) : K :=
  (l.map fun a => residual x y slope intercept a ^ 2).sum

/-! ### Means -/

theorem sum_map_sub (f g : α → K) (l : List α) :
    (l.map fun a => f a - g a).sum = (l.map f).sum - (l.map g).sum := by
  have h := Multiset.sum_map_sub (m := (l : Multiset α)) (f := f) (g := g)
  simpa only [Multiset.map_coe, Multiset.sum_coe] using h

theorem listMean_perm (f : α → K) {l l' : List α} (h : l'.Perm l) : listMean f l' = listMean f l := by
  rw [listMean, listMean, (h.map f).sum_eq, h.length_eq]

theorem codeviation_perm (f g : α → K) {l l' : List α} (h : l'.Perm l) :
    codeviation f g l' = codeviation f g l := by
  rw [codeviation, codeviation, listMean_perm f h, listMean_perm g h]
  exact (h.map _).sum_eq

variable {x y : α → K} {l : List α} {slope intercept : K}

section Deviations

variable [CharZero K]

theorem length_mul_listMean (f : α → K) (hl : l ≠ []) : l.length * listMean f l = (l.map f).sum := by
  have hlength : (l.length : K) ≠ 0 := Nat.cast_ne_zero.mpr (List.length_pos_iff.mpr hl).ne'
  rw [listMean, mul_div_cancel₀ _ hlength]

/-- A quantity that is the same over the whole list is its own mean. -/
theorem listMean_const (hl : l ≠ []) (c : K) : listMean (fun _ => c) l = c := by
  have hlength : (l.length : K) ≠ 0 := Nat.cast_ne_zero.mpr (List.length_pos_iff.mpr hl).ne'
  rw [listMean, List.map_const', List.sum_replicate, nsmul_eq_mul, mul_div_cancel_left₀ _ hlength]

theorem listMean_add_const (f : α → K) (hl : l ≠ []) (c : K) :
    listMean (fun a => f a + c) l = listMean f l + c := by
  have hsum : (l.map fun a => f a + c).sum = (l.map f).sum + (l.map fun _ => c).sum := List.sum_map_add
  rw [listMean, hsum, add_div, ← listMean, ← listMean, listMean_const hl]

/-- Deviations sum to nothing. -/
theorem sum_deviation (f : α → K) (hl : l ≠ []) : (l.map fun a => f a - listMean f l).sum = 0 := by
  rw [sum_map_sub, List.map_const', List.sum_replicate, nsmul_eq_mul, length_mul_listMean f hl, sub_self]

/-- Moving either quantity by a constant moves no deviation. -/
theorem codeviation_add_const (f g : α → K) (hl : l ≠ []) (c d : K) :
    codeviation (fun a => f a + c) (fun a => g a + d) l = codeviation f g l := by
  rw [codeviation, listMean_add_const f hl, listMean_add_const g hl, codeviation]
  simp only [add_sub_add_right_eq_sub]

/-- The deviation of one quantity may be left whole in the sum. -/
theorem codeviation_eq_sum_mul (f g : α → K) (hl : l ≠ []) :
    codeviation f g l = (l.map fun a => f a * (g a - listMean g l)).sum := by
  have hsplit : (l.map fun a => (f a - listMean f l) * (g a - listMean g l)).sum =
      (l.map fun a => f a * (g a - listMean g l)).sum -
        (l.map fun a => listMean f l * (g a - listMean g l)).sum := by
    simp only [sub_mul, sum_map_sub]
  rw [codeviation, hsplit, List.sum_map_mul_left, sum_deviation g hl, mul_zero, sub_zero]

/-! ### Normal equations -/

/-- What a line leaves sums to nothing, as it is and weighed by the abscissa. -/
structure Normal (x y : α → K) (l : List α) (slope intercept : K) : Prop where
  balanced : (l.map fun a => residual x y slope intercept a).sum = 0
  uncorrelated : (l.map fun a => x a * residual x y slope intercept a).sum = 0

/-- The line through the means with the slope of covariance over variance meets the normal equations. -/
theorem normal_of_slope (hl : l ≠ []) (hvariance : codeviation x x l ≠ 0) :
    Normal x y l (codeviation x y l / codeviation x x l)
      (listMean y l - codeviation x y l / codeviation x x l * listMean x l) := by
  set slope := codeviation x y l / codeviation x x l with hslope
  have hresidual : ∀ a, residual x y slope (listMean y l - slope * listMean x l) a =
      (y a - listMean y l) - slope * (x a - listMean x l) := by
    intro a
    rw [residual]
    ring
  constructor
  · simp only [hresidual]
    rw [sum_map_sub, List.sum_map_mul_left, sum_deviation y hl, sum_deviation x hl, mul_zero, sub_zero]
  · have hsplit : ∀ a, x a * residual x y slope (listMean y l - slope * listMean x l) a =
        x a * (y a - listMean y l) - slope * (x a * (x a - listMean x l)) := by
      intro a
      rw [hresidual]
      ring
    simp only [hsplit]
    rw [sum_map_sub, List.sum_map_mul_left, ← codeviation_eq_sum_mul x y hl,
      ← codeviation_eq_sum_mul x x hl, hslope, div_mul_cancel₀ _ hvariance, sub_self]

end Deviations

/-- The error of any line is that of a normal one and the squared distance between the two. -/
theorem Normal.squaredError_eq (h : Normal x y l slope intercept) (slope' intercept' : K) :
    squaredError x y l slope' intercept' = squaredError x y l slope intercept +
      (l.map fun a => ((slope' - slope) * x a + (intercept' - intercept)) ^ 2).sum := by
  have hpoint : ∀ a, residual x y slope' intercept' a ^ 2 = residual x y slope intercept a ^ 2 +
      ((slope' - slope) * x a + (intercept' - intercept)) ^ 2 -
        (2 * (slope' - slope) * (x a * residual x y slope intercept a) +
          2 * (intercept' - intercept) * residual x y slope intercept a) := by
    intro a
    rw [residual, residual]
    ring
  rw [squaredError, squaredError]
  simp only [hpoint]
  rw [sum_map_sub, List.sum_map_add, List.sum_map_add, List.sum_map_mul_left, List.sum_map_mul_left,
    h.balanced, h.uncorrelated, mul_zero, mul_zero, add_zero, sub_zero]

/-! ### The least error -/

variable [LinearOrder K] [IsStrictOrderedRing K]

theorem codeviation_self_eq_zero_iff (hl : l ≠ []) :
    codeviation x x l = 0 ↔ ∀ a ∈ l, ∀ b ∈ l, x a = x b := by
  have hsq : codeviation x x l = (l.map fun a => (x a - listMean x l) ^ 2).sum := by
    simp only [codeviation, ← pow_two]
  rw [hsq, sum_sq_eq_zero_iff fun a => x a - listMean x l]
  constructor
  · intro h a ha b hb
    exact (sub_eq_zero.mp (h a ha)).trans (sub_eq_zero.mp (h b hb)).symm
  · intro h a ha
    have hmap : l.map x = l.map fun _ => x a := List.map_congr_left fun b hb => h b hb a ha
    rw [sub_eq_zero, listMean, hmap]
    exact (listMean_const hl (x a)).symm

/-- No line leaves less error, and no other line leaves as little. -/
structure LeastSquares (x y : α → K) (l : List α) (slope intercept : K) : Prop where
  least : ∀ slope' intercept', squaredError x y l slope intercept ≤ squaredError x y l slope' intercept'
  unique : ∀ slope' intercept', squaredError x y l slope' intercept' ≤ squaredError x y l slope intercept →
    slope' = slope ∧ intercept' = intercept

/-- A normal line is the least-squares line as soon as two points lie apart. -/
theorem Normal.leastSquares (h : Normal x y l slope intercept) {a b : α} (ha : a ∈ l) (hb : b ∈ l)
    (hapart : x a ≠ x b) : LeastSquares x y l slope intercept := by
  have hnonneg : ∀ slope' intercept',
      0 ≤ (l.map fun a => ((slope' - slope) * x a + (intercept' - intercept)) ^ 2).sum := fun _ _ =>
    List.sum_nonneg (by simp only [List.mem_map]; rintro _ ⟨a, _, rfl⟩; exact sq_nonneg _)
  constructor
  · intro slope' intercept'
    rw [h.squaredError_eq slope' intercept']
    exact le_add_of_nonneg_right (hnonneg slope' intercept')
  · intro slope' intercept' hle
    rw [h.squaredError_eq slope' intercept'] at hle
    have hzero := le_antisymm (by linarith) (hnonneg slope' intercept')
    rw [sum_sq_eq_zero_iff fun a => (slope' - slope) * x a + (intercept' - intercept)] at hzero
    -- Two points of a line that vanishes at both leave it neither slope nor intercept.
    have hproduct : (slope' - slope) * (x a - x b) = 0 := by linear_combination hzero a ha - hzero b hb
    have hslope : slope' - slope = 0 :=
      (mul_eq_zero.mp hproduct).resolve_right (sub_ne_zero.mpr hapart)
    have hintercept : intercept' - intercept = 0 := by
      have hpoint := hzero a ha
      rwa [hslope, zero_mul, zero_add] at hpoint
    exact ⟨sub_eq_zero.mp hslope, sub_eq_zero.mp hintercept⟩

end Lib
