import FinanceKing.Lib.Ranks
import FinanceKing.Lib.SortBy
import Mathlib.Algebra.Order.BigOperators.Group.List
import Mathlib.Algebra.Order.Field.Basic
import Mathlib.Tactic.Linarith
import Mathlib.Tactic.Ring

/-! The least elements of a list. In ascending order the first ones have the least sum of any as many elements,
    so that sum is superadditive, and their mean grows with how many are taken. -/

namespace Lib

/-! ### Against any other elements -/

section Order

variable {α : Type} [LinearOrder α]

/-- In ascending order, an earlier window lies below a later one. -/
theorem take_cons_le : ∀ {l : List α} {a : α}, (a :: l).Pairwise (· ≤ ·) → ∀ {n : ℕ}, n ≤ l.length →
    List.Forall₂ (· ≤ ·) ((a :: l).take n) (l.take n)
  | _, _, _, 0, _ => by simp
  | [], _, _, n + 1, hn => absurd hn (by simp)
  | b :: l, a, hsorted, n + 1, hn => by
    obtain ⟨hfirst, hrest⟩ := List.pairwise_cons.mp hsorted
    rw [List.take_succ_cons, List.take_succ_cons]
    exact .cons (hfirst b List.mem_cons_self) (take_cons_le hrest (Nat.le_of_succ_le_succ hn))

end Order

section Sums

variable {K : Type} [Field K] [LinearOrder K] [IsStrictOrderedRing K]

/-- The first elements have at most the sum of any sublist with as many. -/
theorem sum_take_le_sublist {l s : List K} (h : s.Sublist l) :
    l.Pairwise (· ≤ ·) → (l.take s.length).sum ≤ s.sum := by
  induction h with
  | slnil => exact fun _ => le_rfl
  | @cons s l a h ih =>
    intro hsorted
    exact (take_cons_le hsorted h.length_le).sum_le_sum.trans (ih (List.pairwise_cons.mp hsorted).2)
  | @cons_cons s l a _ ih =>
    intro hsorted
    rw [List.length_cons, List.take_succ_cons, List.sum_cons, List.sum_cons]
    exact add_le_add le_rfl (ih (List.pairwise_cons.mp hsorted).2)

/-- The sum of so many least elements. -/
def leastSum (count : ℕ) (l : List K) : K := ((sortBy id l).take count).sum

omit [Field K] [IsStrictOrderedRing K] in
theorem pairwise_sorted (l : List K) : (sortBy id l).Pairwise (· ≤ ·) := pairwise_sortBy id l

/-- No elements as many have a smaller sum. -/
theorem leastSum_le_subperm {l s : List K} (h : s.Subperm l) : leastSum s.length l ≤ s.sum := by
  have hsub : (sortBy id s).Subperm (sortBy id l) :=
    (perm_sortBy id s).subperm_right.mpr ((perm_sortBy id l).symm.subperm_left.mp h)
  have hsublist := List.sublist_of_subperm_of_pairwise hsub (pairwise_sorted s) (pairwise_sorted l)
  have hle := sum_take_le_sublist hsublist (pairwise_sorted l)
  rwa [(perm_sortBy id s).length_eq, (perm_sortBy id s).sum_eq] at hle

omit [IsStrictOrderedRing K] in
/-- The least of the values of some records are the values of some of the records. -/
theorem exists_leastSum {ρ : Type} (value : ρ → K) {records : List ρ} {count : ℕ}
    (hcount : count ≤ records.length) : ∃ chosen : List ρ, chosen.Sublist records ∧ chosen.length = count ∧
      leastSum count (records.map value) = (chosen.map value).sum := by
  have hsub : ((sortBy id (records.map value)).take count).Subperm (records.map value) :=
    (List.take_sublist _ _).subperm.trans (perm_sortBy id _).subperm
  obtain ⟨values, hperm, hsublist⟩ := hsub
  obtain ⟨chosen, hchosen, rfl⟩ := List.sublist_map_iff.mp hsublist
  refine ⟨chosen, hchosen, ?_, hperm.sum_eq.symm⟩
  have hlength := hperm.length_eq
  rw [List.length_map, List.length_take, (perm_sortBy id _).length_eq, List.length_map] at hlength
  omega

theorem leastSum_le_chosen {ρ : Type} (value : ρ → K) {records chosen : List ρ} (h : chosen.Sublist records) :
    leastSum chosen.length (records.map value) ≤ (chosen.map value).sum := by
  have hle := leastSum_le_subperm (h.map value).subperm
  rwa [List.length_map] at hle

/-- The least of the sums of two aligned lists are no less than the least of each together. -/
theorem leastSum_add_le {xs ys : List K} (hlength : xs.length = ys.length) {count : ℕ}
    (hcount : count ≤ xs.length) :
    leastSum count xs + leastSum count ys ≤ leastSum count (List.zipWith (· + ·) xs ys) := by
  have hpairs : count ≤ (xs.zip ys).length := by
    rw [List.length_zip, ← hlength, min_self]
    exact hcount
  obtain ⟨chosen, hchosen, hlen, hsum⟩ := exists_leastSum (fun pair : K × K => pair.1 + pair.2) hpairs
  have hfirst := leastSum_le_chosen Prod.fst hchosen
  have hsecond := leastSum_le_chosen Prod.snd hchosen
  rw [hlen, List.map_fst_zip hlength.le] at hfirst
  rw [hlen, List.map_snd_zip hlength.ge] at hsecond
  rw [List.sum_map_add, List.map_zip_eq_zipWith] at hsum
  exact (add_le_add hfirst hsecond).trans hsum.ge

/-- Smaller elements have a smaller least sum. -/
theorem leastSum_mono {xs ys : List K} (h : List.Forall₂ (· ≤ ·) xs ys) {count : ℕ}
    (hcount : count ≤ ys.length) : leastSum count xs ≤ leastSum count ys := by
  have hpairs : count ≤ (xs.zip ys).length := by
    rw [List.length_zip, h.length_eq, min_self]
    exact hcount
  obtain ⟨chosen, hchosen, hlen, hsum⟩ := exists_leastSum Prod.snd hpairs
  have hfirst := leastSum_le_chosen Prod.fst hchosen
  rw [hlen, List.map_fst_zip h.length_eq.le] at hfirst
  rw [List.map_snd_zip h.length_eq.ge] at hsum
  rw [hsum]
  refine hfirst.trans (List.sum_le_sum fun pair hpair => ?_)
  exact List.forall₂_iff_zip.mp h |>.2 (hchosen.subset hpair)

omit [Field K] [IsStrictOrderedRing K] in
/-- Smaller elements have smaller order statistics. -/
theorem sorted_mono {xs ys : List K} (h : List.Forall₂ (· ≤ ·) xs ys) {i : ℕ} {x y : K}
    (hx : (sortBy id xs)[i]? = some x) (hy : (sortBy id ys)[i]? = some y) : x ≤ y := by
  have hdown : ∀ a b : K, a ≤ b → decide (b ≤ y) = true → decide (a ≤ y) = true := fun a b hle hb =>
    decide_eq_true (hle.trans (of_decide_eq_true hb))
  have hcounts : ∀ {xs ys : List K}, List.Forall₂ (· ≤ ·) xs ys → ys.countP (· ≤ y) ≤ xs.countP (· ≤ y) := by
    intro xs ys h
    induction h with
    | nil => exact le_rfl
    | @cons a b xs ys hab _ ih =>
      by_cases hb : b ≤ y
      · rw [List.countP_cons_of_pos (by simpa using hb), List.countP_cons_of_pos (by simpa using hab.trans hb)]
        omega
      · rw [List.countP_cons_of_neg (by simpa using hb), List.countP_cons]
        omega
  have hcount := (lt_countP_iff hdown (pairwise_sorted ys) hy).mpr (decide_eq_true le_rfl)
  have hfewer := hcounts h
  rw [← (perm_sortBy id xs).countP_eq, ← (perm_sortBy id ys).countP_eq] at hfewer
  exact of_decide_eq_true ((lt_countP_iff hdown (pairwise_sorted xs) hx).mp (hcount.trans_le hfewer))

/-! ### The mean of the least -/

/-- The mean of so many least elements. -/
def leastMean (count : ℕ) (l : List K) : K := leastSum count l / count

/-- The first elements of an ascending list have at most so many times the next one. -/
theorem leastSum_le_mul {l : List K} {count : ℕ} {next : K} (hnext : (sortBy id l)[count]? = some next) :
    leastSum count l ≤ count * next := by
  have hlength : count < (sortBy id l).length := (List.getElem?_eq_some_iff.mp hnext).1
  have hle : ∀ a ∈ (sortBy id l).take count, a ≤ next := by
    intro a ha
    obtain ⟨i, hi, rfl⟩ := List.getElem_of_mem ha
    rw [List.getElem_take]
    obtain ⟨_, rfl⟩ := List.getElem?_eq_some_iff.mp hnext
    rw [List.length_take] at hi
    exact List.pairwise_iff_getElem.mp (pairwise_sorted l) i count _ hlength (by omega)
  have hsum := List.sum_le_card_nsmul _ next hle
  rwa [List.length_take, min_eq_left hlength.le, nsmul_eq_mul] at hsum

/-- One more element takes the mean no lower. -/
theorem leastMean_succ {l : List K} {count : ℕ} (hpos : 0 < count) (hcount : count < l.length) :
    leastMean count l ≤ leastMean (count + 1) l := by
  have hlength : count < (sortBy id l).length := (perm_sortBy id l).length_eq ▸ hcount
  have hnext := leastSum_le_mul (List.getElem?_eq_getElem hlength)
  have hsum : leastSum (count + 1) l = leastSum count l + (sortBy id l)[count] := by
    rw [leastSum, List.take_succ_eq_append_getElem hlength, List.sum_append, List.sum_singleton, leastSum]
  have hcast : (0 : K) < count := by exact_mod_cast hpos
  rw [leastMean, leastMean, hsum, div_le_div_iff₀ hcast (by positivity)]
  push_cast
  nlinarith

theorem leastMean_mono {l : List K} {count more : ℕ} (hpos : 0 < count) (hle : count ≤ more)
    (hmore : more ≤ l.length) : leastMean count l ≤ leastMean more l := by
  induction more, hle using Nat.le_induction with
  | base => exact le_rfl
  | succ more hle ih => exact (ih (by omega)).trans (leastMean_succ (by omega) (by omega))

/-- The last element taken is no less than the mean. -/
theorem leastMean_le_last {l : List K} {count : ℕ} {last : K} (hlast : (sortBy id l)[count]? = some last) :
    leastMean (count + 1) l ≤ last := by
  have hlength : count < (sortBy id l).length := (List.getElem?_eq_some_iff.mp hlast).1
  have hle := leastSum_le_mul hlast
  have hsum : leastSum (count + 1) l = leastSum count l + last := by
    rw [leastSum, List.take_succ_eq_append_getElem hlength, List.sum_append, List.sum_singleton, leastSum]
    exact congrArg _ (List.getElem?_eq_some_iff.mp hlast).2
  rw [leastMean, hsum, div_le_iff₀ (by positivity)]
  push_cast
  linarith

end Sums

end Lib
