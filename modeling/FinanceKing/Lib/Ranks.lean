import FinanceKing.Lib.SortBy
import Mathlib.Algebra.Order.Field.Basic
import Mathlib.Data.List.Pairwise
import Mathlib.Order.Lattice
import Mathlib.Tactic.Linarith
import Mathlib.Tactic.Ring

/-! Percentiles by nearest rank: the one member of a sample that fewer than so many per cent lie below, and at
    least so many lie at or below. -/

namespace Lib

variable {α : Type} [LinearOrder α]

/-- The percentile of a sample, by counts. -/
structure IsNearestRank (percent : ℕ) (sample : List α) (p : α) : Prop where
  below : 100 * sample.countP (· < p) < percent * sample.length
  reached : percent * sample.length ≤ 100 * sample.countP (· ≤ p)

variable {percent : ℕ} {sample : List α} {p q : α}

theorem IsNearestRank.le (hp : IsNearestRank percent sample p) (hq : IsNearestRank percent sample q) : q ≤ p := by
  by_contra hlt
  have hcounts : sample.countP (· ≤ p) ≤ sample.countP (· < q) :=
    List.countP_mono_left fun a _ ha => decide_eq_true ((of_decide_eq_true ha).trans_lt (not_le.mp hlt))
  have hreached := hp.reached
  have hbelow := hq.below
  omega

theorem IsNearestRank.unique (hp : IsNearestRank percent sample p) (hq : IsNearestRank percent sample q) :
    p = q :=
  le_antisymm (hq.le hp) (hp.le hq)

theorem isNearestRank_perm {other : List α} (h : sample.Perm other) :
    IsNearestRank percent sample p ↔ IsNearestRank percent other p := by
  constructor
  · rintro ⟨hbelow, hreached⟩
    exact ⟨by rwa [← h.countP_eq, ← h.length_eq], by rwa [← h.countP_eq, ← h.length_eq]⟩
  · rintro ⟨hbelow, hreached⟩
    exact ⟨by rwa [h.countP_eq, h.length_eq], by rwa [h.countP_eq, h.length_eq]⟩

/-- In ascending order, what has a downward closed property comes first. -/
theorem lt_countP_iff {property : α → Bool} (hdown : ∀ a b, a ≤ b → property b → property a) :
    ∀ {l : List α}, l.Pairwise (· ≤ ·) → ∀ {i : ℕ} {a : α}, l[i]? = some a →
    (i < l.countP property ↔ property a)
  | first :: rest, hsorted, i, a, ha => by
    obtain ⟨hfirst, hrest⟩ := List.pairwise_cons.mp hsorted
    cases hproperty : property first with
    | true =>
      rw [List.countP_cons_of_pos hproperty]
      cases i with
      | zero =>
        obtain rfl := Option.some.inj ha
        exact iff_of_true (Nat.succ_pos _) hproperty
      | succ i => rw [Nat.succ_lt_succ_iff, lt_countP_iff hdown hrest ha]
    | false =>
      have hnone : ∀ b ∈ first :: rest, ¬ property b := by
        intro b hb hholds
        have hle : first ≤ b := (List.mem_cons.mp hb).elim (fun h => h.ge) (hfirst b)
        rw [hdown first b hle hholds] at hproperty
        cases hproperty
      rw [List.countP_eq_zero.mpr hnone]
      exact iff_of_false (Nat.not_lt_zero _) (hnone a (List.mem_of_getElem? ha))

/-- The rank of a percentile, counted from one, lies in the sample. -/
theorem rank_mem (hpercent : 0 < percent ∧ percent ≤ 100) {size : ℕ} (hsize : 0 < size) :
    1 ≤ (percent * size + 99) / 100 ∧ (percent * size + 99) / 100 ≤ size := by
  have hlow : 1 * 1 ≤ percent * size := Nat.mul_le_mul hpercent.1 hsize
  have hhigh : percent * size ≤ 100 * size := Nat.mul_le_mul_right _ hpercent.2
  omega

/-- In an ascending sample the percentile stands at its rank. -/
theorem isNearestRank_iff (hpercent : 0 < percent ∧ percent ≤ 100) (hsorted : sample.Pairwise (· ≤ ·))
    (hsample : 0 < sample.length) :
    IsNearestRank percent sample p ↔ sample[(percent * sample.length + 99) / 100 - 1]? = some p := by
  obtain ⟨hfirst, hlast⟩ := rank_mem hpercent hsample
  obtain ⟨a, ha⟩ : ∃ a, sample[(percent * sample.length + 99) / 100 - 1]? = some a :=
    ⟨_, List.getElem?_eq_getElem (by omega)⟩
  have hbelow : (percent * sample.length + 99) / 100 - 1 < sample.countP (· < p) ↔ a < p :=
    (lt_countP_iff (fun b c hle hc => decide_eq_true (hle.trans_lt (of_decide_eq_true hc))) hsorted ha).trans
      decide_eq_true_iff
  have hreached : (percent * sample.length + 99) / 100 - 1 < sample.countP (· ≤ p) ↔ a ≤ p :=
    (lt_countP_iff (fun b c hle hc => decide_eq_true (hle.trans (of_decide_eq_true hc))) hsorted ha).trans
      decide_eq_true_iff
  rw [ha, Option.some.injEq]
  constructor
  · rintro ⟨hcount, hcount'⟩
    exact le_antisymm (hreached.mp (by omega)) (not_lt.mp (mt hbelow.mpr (by omega)))
  · rintro rfl
    have hnot := mt hbelow.mp (lt_irrefl _)
    have hall := hreached.mpr le_rfl
    exact ⟨by omega, by omega⟩

theorem exists_isNearestRank (hpercent : 0 < percent ∧ percent ≤ 100) (hsorted : sample.Pairwise (· ≤ ·))
    (hsample : 0 < sample.length) : ∃ p, IsNearestRank percent sample p := by
  obtain ⟨hfirst, hlast⟩ := rank_mem hpercent hsample
  exact ⟨_, (isNearestRank_iff hpercent hsorted hsample).mpr (List.getElem?_eq_getElem (by omega))⟩

end Lib

/-! Where an element stands among others: its place in a sorted list counts the elements below it, and it lies
    at or below the median exactly when at most half of the others are below it. -/

namespace Lib

/-! ### Places -/

section Place

variable {α β : Type} [LinearOrder β] (key : α → β)

/-- In a list that ascends strictly by a key, an element's place counts the elements before it. -/
theorem idxOf_of_pairwise_lt [DecidableEq α] {a : α} : ∀ {l : List α},
    l.Pairwise (fun b c => key b < key c) → a ∈ l → l.idxOf a = l.countP fun b => key b < key a
  | b :: l, hsorted, ha => by
    obtain ⟨hfirst, hrest⟩ := List.pairwise_cons.mp hsorted
    rcases List.mem_cons.mp ha with rfl | ha
    · have hnone : ∀ c ∈ a :: l, ¬ decide (key c < key a) = true := by
        intro c hc
        rw [decide_eq_true_eq, not_lt]
        rcases List.mem_cons.mp hc with rfl | hc
        · exact le_rfl
        · exact (hfirst c hc).le
      rw [List.idxOf_cons_self, List.countP_eq_zero.mpr hnone]
    · have hlt := hfirst a ha
      have hne : b ≠ a := fun heq => absurd hlt (heq ▸ lt_irrefl _)
      rw [List.idxOf_cons_ne _ hne, idxOf_of_pairwise_lt hrest ha,
        List.countP_cons_of_pos (p := fun c => decide (key c < key a)) (decide_eq_true hlt)]

theorem idxOf_sortBy [DecidableEq α] {l : List α} (hnodup : l.Nodup) (hkey : key.Injective) {a : α}
    (ha : a ∈ l) : (sortBy key l).idxOf a = l.countP fun b => key b < key a := by
  have hsorted : (sortBy key l).Pairwise fun b c => key b < key c := by
    have hne : (sortBy key l).Nodup := (perm_sortBy key l).nodup_iff.mpr hnodup
    exact ((pairwise_sortBy key l).and hne).imp fun {b c} h => lt_of_le_of_ne h.1 fun heq => h.2 (hkey heq)
  rw [idxOf_of_pairwise_lt key hsorted ((mem_sortBy key).mpr ha), (perm_sortBy key l).countP_eq]

end Place

/-! ### The median -/

section Median

variable {K : Type} [Field K] [LinearOrder K] [IsStrictOrderedRing K]

/-- The middle value, or the mean of the two in the middle. -/
def median (l : List K) : K :=
  ((sortBy id l).getD ((l.length - 1) / 2) 0 + (sortBy id l).getD (l.length / 2) 0) / (2 : ℕ)

/-- An element is at or below the median exactly when at most half of the others are below it. -/
theorem le_median_iff {l : List K} {a : K} (ha : a ∈ l) :
    a ≤ median l ↔ l.countP (fun b => b < a) ≤ (l.length - 1) / 2 := by
  have hlength : 0 < l.length := List.length_pos_of_mem ha
  have hsize : (sortBy id l).length = l.length := (perm_sortBy id l).length_eq
  have hsorted : (sortBy id l).Pairwise (· ≤ ·) := pairwise_sortBy id l
  have hlow : (l.length - 1) / 2 < (sortBy id l).length := by omega
  have hhigh : l.length / 2 < (sortBy id l).length := by omega
  have hdown : ∀ b c : K, b ≤ c → decide (c < a) = true → decide (b < a) = true := fun b c hle hc =>
    decide_eq_true (hle.trans_lt (of_decide_eq_true hc))
  have hbelow := lt_countP_iff hdown hsorted (List.getElem?_eq_getElem hlow)
  rw [(perm_sortBy id l).countP_eq, decide_eq_true_eq] at hbelow
  have hle : (sortBy id l)[(l.length - 1) / 2] ≤ (sortBy id l)[l.length / 2] :=
    hsorted.rel_get_of_le (a := ⟨_, hlow⟩) (b := ⟨_, hhigh⟩) (Fin.mk_le_mk.mpr (by omega))
  rw [median, Nat.cast_ofNat, List.getD_eq_getElem _ _ hlow, List.getD_eq_getElem _ _ hhigh, ← not_lt]
  refine (not_congr (Iff.trans ?_ hbelow.symm)).trans not_lt
  constructor
  · intro h
    linarith
  · intro h
    -- what lies above the lower middle value is no smaller than the upper one
    have hupper : (sortBy id l)[l.length / 2] ≤ a := by
      obtain ⟨i, hi, rfl⟩ := List.getElem_of_mem ((mem_sortBy id).mpr ha)
      have hi' : l.length / 2 ≤ i := by
        by_contra hlt
        have hback := hsorted.rel_get_of_le (a := ⟨i, hi⟩) (b := ⟨_, hlow⟩) (Fin.mk_le_mk.mpr (by omega))
        exact absurd h (not_lt.mpr hback)
      exact hsorted.rel_get_of_le (a := ⟨_, hhigh⟩) (b := ⟨i, hi⟩) (Fin.mk_le_mk.mpr hi')
    linarith

end Median

end Lib
