import Mathlib

/-! The Herfindahl index of a list of magnitudes: the sum of the squares of their fractions of the whole. It
    lies between one over their number, where they are equal, and one, where there is one of them; and what
    joining two parts does to it when they may partly cancel. -/

namespace Lib

variable {K : Type} [Field K]

/-- The sum of the squares of the parts' fractions of the whole. -/
def herfindahl (l : List K) : K := (l.map fun part => (part / l.sum) ^ 2).sum

/-- The sum of the squares. -/
def squareSum (l : List K) : K := (l.map fun part => part ^ 2).sum

theorem squareSum_cons (part : K) (l : List K) : squareSum (part :: l) = part ^ 2 + squareSum l := rfl

theorem herfindahl_eq_div (l : List K) : herfindahl l = squareSum l / l.sum ^ 2 := by
  have hsquare : ∀ part, (part / l.sum) ^ 2 = part ^ 2 * (l.sum ^ 2)⁻¹ := by
    intro part
    rw [div_pow, div_eq_mul_inv]
  simp only [herfindahl, squareSum, hsquare]
  rw [List.sum_map_mul_right, div_eq_mul_inv]

/-- The squares about any centre, from the plain ones. -/
theorem sum_sq_sub (centre : K) (l : List K) :
    (l.map fun part => (part - centre) ^ 2).sum = squareSum l - 2 * centre * l.sum + l.length * centre ^ 2 := by
  induction l with
  | nil => simp [squareSum]
  | cons part l ih =>
    rw [List.map_cons, List.sum_cons, ih, squareSum_cons, List.sum_cons, List.length_cons]
    push_cast
    ring

section

variable [LinearOrder K] [IsStrictOrderedRing K]

theorem squareSum_nonneg (l : List K) : 0 ≤ squareSum l :=
  List.sum_nonneg fun square hsquare => by
    obtain ⟨part, _, rfl⟩ := List.mem_map.mp hsquare
    exact sq_nonneg part

/-- A sum of squares is zero exactly when every one is. -/
theorem sum_sq_eq_zero_iff {α : Type} (f : α → K) (l : List α) :
    (l.map fun a => f a ^ 2).sum = 0 ↔ ∀ a ∈ l, f a = 0 := by
  induction l with
  | nil => simp
  | cons a l ih =>
    have hrest : 0 ≤ (l.map fun a => f a ^ 2).sum := by
      have := squareSum_nonneg (l.map f)
      rwa [squareSum, List.map_map] at this
    rw [List.map_cons, List.sum_cons, List.forall_mem_cons, ← ih,
      add_eq_zero_iff_of_nonneg (sq_nonneg _) hrest, sq_eq_zero_iff]

/-- What the squares exceed their least possible sum by. -/
theorem length_mul_squareSum_sub {l : List K} (h : l ≠ []) :
    squareSum l - l.sum ^ 2 / l.length = (l.map fun part => (part - l.sum / l.length) ^ 2).sum := by
  have hlength : (l.length : K) ≠ 0 := Nat.cast_ne_zero.mpr (List.length_pos_iff.mpr h).ne'
  rw [sum_sq_sub]
  field_simp
  ring

/-- Every part is the mean exactly when all are equal. -/
theorem forall_eq_mean_iff {l : List K} (h : l ≠ []) :
    (∀ part ∈ l, part - l.sum / l.length = 0) ↔ ∀ part ∈ l, ∀ other ∈ l, part = other := by
  have hlength : (l.length : K) ≠ 0 := Nat.cast_ne_zero.mpr (List.length_pos_iff.mpr h).ne'
  constructor
  · intro hmean part hpart other hother
    exact (sub_eq_zero.mp (hmean part hpart)).trans (sub_eq_zero.mp (hmean other hother)).symm
  · intro hequal part hpart
    have hsum : l.sum = l.length * part := by
      rw [List.eq_replicate_of_mem fun other hother => hequal other hother part hpart, List.sum_replicate,
        nsmul_eq_mul, List.length_replicate]
    rw [hsum, mul_div_cancel_left₀ _ hlength, sub_self]

/-- The index is at least one over the number of parts. -/
theorem one_div_length_le_herfindahl {l : List K} (h : l ≠ []) (hsum : 0 < l.sum) :
    1 / l.length ≤ herfindahl l := by
  have hnonneg := squareSum_nonneg (l.map fun part => part - l.sum / l.length)
  rw [squareSum, List.map_map] at hnonneg
  have hexcess : 0 ≤ squareSum l - l.sum ^ 2 / l.length := length_mul_squareSum_sub h ▸ hnonneg
  rw [herfindahl_eq_div, le_div_iff₀ (pow_pos hsum 2), one_div_mul_eq_div]
  linarith

/-- It is that exactly when the parts are equal. -/
theorem herfindahl_eq_one_div_length_iff {l : List K} (h : l ≠ []) (hsum : 0 < l.sum) :
    herfindahl l = 1 / l.length ↔ ∀ part ∈ l, ∀ other ∈ l, part = other := by
  rw [← forall_eq_mean_iff h, ← sum_sq_eq_zero_iff, ← length_mul_squareSum_sub h, sub_eq_zero,
    herfindahl_eq_div, div_eq_iff (pow_pos hsum 2).ne', one_div_mul_eq_div]

/-- Positive parts: the squares are at most the square of the whole, and reach it for a single part. -/
theorem squareSum_le_sq_sum {l : List K} (hpos : ∀ part ∈ l, 0 < part) :
    0 ≤ l.sum ∧ squareSum l ≤ l.sum ^ 2 ∧ (l ≠ [] → 0 < l.sum ∧ (squareSum l = l.sum ^ 2 ↔ l.length = 1)) := by
  induction l with
  | nil => simp [squareSum]
  | cons part l ih =>
    obtain ⟨hpart, hrest⟩ := List.forall_mem_cons.mp hpos
    obtain ⟨hnonneg, hle, hstrict⟩ := ih hrest
    have hsquare : (part + l.sum) ^ 2 = part ^ 2 + 2 * (part * l.sum) + l.sum ^ 2 := by ring
    have hcross : 0 ≤ part * l.sum := mul_nonneg hpart.le hnonneg
    rw [squareSum_cons, List.sum_cons, hsquare]
    refine ⟨by linarith, by linarith, fun _ => ⟨by linarith, ?_⟩⟩
    cases l with
    | nil => simp [squareSum]
    | cons other l =>
      have hmore := mul_pos hpart (hstrict (List.cons_ne_nil _ _)).1
      refine iff_of_false (fun h => ?_) (by simp)
      linarith

/-- The index of positive parts is at most one. -/
theorem herfindahl_le_one {l : List K} (hpos : ∀ part ∈ l, 0 < part) : herfindahl l ≤ 1 := by
  rw [herfindahl_eq_div]
  exact div_le_one_of_le₀ (squareSum_le_sq_sum hpos).2.1 (sq_nonneg _)

/-- It is one exactly for a single part. -/
theorem herfindahl_eq_one_iff {l : List K} (h : l ≠ []) (hpos : ∀ part ∈ l, 0 < part) :
    herfindahl l = 1 ↔ l.length = 1 := by
  obtain ⟨hsum, hiff⟩ := (squareSum_le_sq_sum hpos).2.2 h
  rw [herfindahl_eq_div, div_eq_one_iff_eq (pow_pos hsum 2).ne', hiff]

/-! ### Two parts joined -/

/-- Parts that add up never lower the index. -/
theorem join_same_sign {restMagnitude restSquare first second : K} (hfirst : 0 ≤ first) (hsecond : 0 ≤ second) :
    (restSquare + first ^ 2 + second ^ 2) / (restMagnitude + first + second) ^ 2 ≤
      (restSquare + (first + second) ^ 2) / (restMagnitude + (first + second)) ^ 2 := by
  rw [← add_assoc restMagnitude]
  refine div_le_div_of_nonneg_right ?_ (sq_nonneg _)
  nlinarith [mul_nonneg hfirst hsecond]

/-- Parts that cancel lower the index unless the larger is small enough beside the squares. -/
theorem join_opposite_sign_iff {restMagnitude restSquare larger smaller : K} (hsmaller : 0 < smaller)
    (hleft : 0 < restMagnitude + (larger - smaller)) :
    (restSquare + larger ^ 2 + smaller ^ 2) / (restMagnitude + larger + smaller) ^ 2 ≤
        (restSquare + (larger - smaller) ^ 2) / (restMagnitude + (larger - smaller)) ^ 2 ↔
      larger * (restMagnitude + larger + smaller) ^ 2 ≤
        2 * (restSquare + larger ^ 2 + smaller ^ 2) * (restMagnitude + larger) := by
  have hwhole : 0 < restMagnitude + larger + smaller := by linarith
  rw [div_le_div_iff₀ (pow_pos hwhole 2) (pow_pos hleft 2)]
  have hgap : (restSquare + (larger - smaller) ^ 2) * (restMagnitude + larger + smaller) ^ 2 -
      (restSquare + larger ^ 2 + smaller ^ 2) * (restMagnitude + (larger - smaller)) ^ 2 =
      2 * smaller * (2 * (restSquare + larger ^ 2 + smaller ^ 2) * (restMagnitude + larger) -
        larger * (restMagnitude + larger + smaller) ^ 2) := by
    ring
  rw [← sub_nonneg, hgap, mul_nonneg_iff_of_pos_left (mul_pos two_pos hsmaller), sub_nonneg]

/-- Parts of opposite signs leave the difference of their magnitudes. -/
theorem abs_add_of_mul_neg {first second : K} (h : first * second < 0) (hle : |second| ≤ |first|) :
    |first + second| = |first| - |second| := by
  rcases mul_neg_iff.mp h with ⟨hfirst, hsecond⟩ | ⟨hfirst, hsecond⟩
  · rw [abs_of_pos hfirst, abs_of_neg hsecond] at hle ⊢
    rw [abs_of_nonneg (by linarith), sub_neg_eq_add]
  · rw [abs_of_neg hfirst, abs_of_pos hsecond] at hle ⊢
    rw [abs_of_nonpos (by linarith)]
    ring

/-- When joining two signed parts of a whole keeps its index from falling: they do not cancel, or the larger is
    small enough beside the squares. -/
def JoinKeeps (restMagnitude restSquare first second : K) : Prop :=
  0 ≤ first * second ∨
    max |first| |second| * (restMagnitude + |first| + |second|) ^ 2 ≤
      2 • (restSquare + first ^ 2 + second ^ 2) * (restMagnitude + max |first| |second|)

omit [IsStrictOrderedRing K] in
theorem joinKeeps_comm {restMagnitude restSquare first second : K} :
    JoinKeeps restMagnitude restSquare first second ↔ JoinKeeps restMagnitude restSquare second first := by
  rw [JoinKeeps, JoinKeeps, mul_comm first, max_comm, add_right_comm restMagnitude, add_right_comm restSquare]

theorem join_le_iff_of_larger {restMagnitude restSquare first second : K} (h : first * second < 0)
    (hle : |second| ≤ |first|) (hleft : 0 < restMagnitude + |first + second|) :
    (restSquare + first ^ 2 + second ^ 2) / (restMagnitude + |first| + |second|) ^ 2 ≤
        (restSquare + (first + second) ^ 2) / (restMagnitude + |first + second|) ^ 2 ↔
      JoinKeeps restMagnitude restSquare first second := by
  have hsum := abs_add_of_mul_neg h hle
  have hsmaller : 0 < |second| := abs_pos.mpr (right_ne_zero_of_mul h.ne)
  rw [JoinKeeps, or_iff_right (not_le.mpr h), max_eq_left hle, ← sq_abs first, ← sq_abs second,
    ← sq_abs (first + second), hsum, nsmul_eq_mul, Nat.cast_ofNat]
  exact join_opposite_sign_iff hsmaller (hsum ▸ hleft)

/-- Joining two signed parts lowers the index exactly where they cancel and the larger is too large. -/
theorem join_le_iff {restMagnitude restSquare first second : K} (hleft : 0 < restMagnitude + |first + second|) :
    (restSquare + first ^ 2 + second ^ 2) / (restMagnitude + |first| + |second|) ^ 2 ≤
        (restSquare + (first + second) ^ 2) / (restMagnitude + |first + second|) ^ 2 ↔
      JoinKeeps restMagnitude restSquare first second := by
  rcases le_or_gt 0 (first * second) with hsame | hopposite
  · have hsum : |first + second| = |first| + |second| := abs_add_eq_add_abs_iff first second |>.mpr
      (mul_nonneg_iff.mp hsame)
    refine iff_of_true ?_ (.inl hsame)
    have hsquare : (first + second) ^ 2 = (|first| + |second|) ^ 2 := by rw [← hsum, sq_abs]
    rw [hsquare, hsum, ← sq_abs first, ← sq_abs second]
    exact join_same_sign (abs_nonneg _) (abs_nonneg _)
  · rcases le_total |second| |first| with hle | hle
    · exact join_le_iff_of_larger hopposite hle hleft
    · rw [joinKeeps_comm, ← join_le_iff_of_larger (mul_comm first second ▸ hopposite) hle (add_comm first second ▸ hleft),
        add_right_comm restSquare, add_right_comm restMagnitude, add_comm first]

end

end Lib
