import Mathlib

/-! The combinations of a list in lexicographic order of position: how many there are, that they are
    distinct, and how many hold a given element. -/

namespace Lib

variable {α : Type}

/-- The ways to choose `k` elements in their given order, lexicographic by position. -/
def combinations : ℕ → List α → List (List α)
  | 0, _ => [[]]
  | _ + 1, [] => []
  | k + 1, a :: l => (combinations k l).map (a :: ·) ++ combinations (k + 1) l

theorem combinations_perm : ∀ (k : ℕ) (l : List α), (combinations k l).Perm (l.sublistsLen k)
  | 0, l => by simp [combinations]
  | k + 1, [] => by simp [combinations]
  | k + 1, a :: l => by
    rw [combinations, List.sublistsLen_succ_cons]
    exact (((combinations_perm k l).map _).append (combinations_perm (k + 1) l)).trans
      List.perm_append_comm

theorem mem_combinations {k : ℕ} {l c : List α} :
    c ∈ combinations k l ↔ c.Sublist l ∧ c.length = k := by
  rw [(combinations_perm k l).mem_iff, List.mem_sublistsLen]

theorem length_combinations (k : ℕ) (l : List α) : (combinations k l).length = l.length.choose k := by
  rw [(combinations_perm k l).length_eq, List.length_sublistsLen]

theorem nodup_combinations {k : ℕ} {l : List α} (h : l.Nodup) : (combinations k l).Nodup :=
  (combinations_perm k l).nodup_iff.mpr (List.nodup_sublistsLen k h)

/-- An element of a list without repetition stands in `C(n - 1, k)` of its choices of `k + 1`. -/
theorem countP_mem_combinations [DecidableEq α] {a : α} : ∀ {l : List α} (k : ℕ), l.Nodup → a ∈ l →
    (combinations (k + 1) l).countP (fun c => a ∈ c) = (l.length - 1).choose k
  | b :: l, k, hnodup, hmem => by
    obtain ⟨hb, hl⟩ := List.nodup_cons.mp hnodup
    rw [combinations, List.countP_append, List.countP_map]
    by_cases hab : a = b
    · subst hab
      -- every choice that starts with it holds it, and no later one does
      have hrest : (combinations (k + 1) l).countP (fun c => a ∈ c) = 0 := by
        rw [List.countP_eq_zero]
        intro c hc
        simpa using fun h => hb ((mem_combinations.mp hc).1.subset h)
      have hhead : (combinations k l).countP ((fun c => decide (a ∈ c)) ∘ (a :: ·)) =
          (combinations k l).length := by
        rw [List.countP_eq_length]
        intro c _
        simp
      rw [hrest, hhead, length_combinations, List.length_cons, Nat.add_sub_cancel, Nat.add_zero]
    · have hal : a ∈ l := (List.mem_cons.mp hmem).resolve_left hab
      have hlength : l.length = l.length - 1 + 1 := (Nat.succ_pred_eq_of_pos
        (List.length_pos_of_mem hal)).symm
      have hcomp : ((fun c => decide (a ∈ c)) ∘ (b :: ·)) = fun c : List α => decide (a ∈ c) := by
        funext c
        simp [hab]
      rw [hcomp, countP_mem_combinations k hl hal, List.length_cons, Nat.add_sub_cancel]
      cases k with
      | zero => simp [combinations]
      | succ k =>
        rw [countP_mem_combinations k hl hal]
        nth_rewrite 3 [hlength]
        rw [Nat.choose_succ_succ]

end Lib
