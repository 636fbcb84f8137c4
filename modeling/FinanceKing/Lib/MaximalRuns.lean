import Mathlib.Data.Int.Order.Basic
import Mathlib.Data.List.Pairwise
import Mathlib.Data.Nat.Count
import Mathlib.Tactic.Linarith

/-! The maximal runs of consecutive integers that have a property, found by one scan of a window. -/

namespace Lib

/-- The run `lo..hi` has the property throughout, and neither neighbour of it does. -/
structure IsMaximalRun (absent : ℤ → Bool) (lo hi : ℤ) : Prop where
  nonempty : lo ≤ hi
  inside : ∀ i, lo ≤ i → i ≤ hi → absent i
  below : absent (lo - 1) = false
  above : absent (hi + 1) = false

/-- A run of a shifted property is the shifted run. -/
theorem IsMaximalRun.shift {absent shifted : ℤ → Bool} {offset lo hi : ℤ}
    (hshift : ∀ i, shifted (offset + i) = absent i) (h : IsMaximalRun absent lo hi) :
    IsMaximalRun shifted (offset + lo) (offset + hi) where
  nonempty := by
    have := h.nonempty
    omega
  inside := fun i hlo hhi => by
    have hi' := h.inside (i - offset) (by omega) (by omega)
    rwa [← hshift, add_sub_cancel] at hi'
  below := by rw [add_sub_assoc, hshift, h.below]
  above := by rw [add_assoc, hshift, h.above]

/-- The runs a scan of `count` integers from `next` on closes, the first of them perhaps already open
    since `start`. -/
def closedRuns (absent : ℤ → Bool) : ℕ → ℤ → Option ℤ → List (ℤ × ℤ)
  | 0, _, _ => []
  | count + 1, next, start =>
    if absent next then closedRuns absent count (next + 1) (some (start.getD next))
    else match start with
      | none => closedRuns absent count (next + 1) none
      | some lo => (lo, next - 1) :: closedRuns absent count (next + 1) none

variable {absent : ℤ → Bool}

theorem closedRuns_of_absent {next : ℤ} (habsent : absent next) (count : ℕ) (start : Option ℤ) :
    closedRuns absent (count + 1) next start =
      closedRuns absent count (next + 1) (some (start.getD next)) := by
  cases start <;> rw [closedRuns, if_pos habsent]

theorem closedRuns_none {next : ℤ} (hpresent : absent next = false) (count : ℕ) :
    closedRuns absent (count + 1) next none = closedRuns absent count (next + 1) none := by
  rw [closedRuns, if_neg (by simp [hpresent])]

theorem closedRuns_some {next : ℤ} (hpresent : absent next = false) (count : ℕ) (lo : ℤ) :
    closedRuns absent (count + 1) next (some lo) =
      (lo, next - 1) :: closedRuns absent count (next + 1) none := by
  rw [closedRuns, if_neg (by simp [hpresent])]

/-- What the open run says of the integers before `next`. -/
def OpenSince (absent : ℤ → Bool) (next : ℤ) : Option ℤ → Prop
  | none => absent (next - 1) = false
  | some lo => lo < next ∧ (∀ i, lo ≤ i → i < next → absent i) ∧ absent (lo - 1) = false

theorem OpenSince.absent_next {next : ℤ} {start : Option ℤ} (h : OpenSince absent next start)
    (habsent : absent next) : OpenSince absent (next + 1) (some (start.getD next)) := by
  cases start with
  | none =>
    refine ⟨by simp, fun i hlo hhi => ?_, h⟩
    obtain rfl : i = next := by simp only [Option.getD_none] at hlo; omega
    exact habsent
  | some lo =>
    obtain ⟨hlt, hall, hbelow⟩ := h
    refine ⟨by simp only [Option.getD_some]; omega, fun i hlo hhi => ?_, hbelow⟩
    rcases Int.lt_or_eq_of_le (Int.lt_add_one_iff.mp hhi) with hold | rfl
    · exact hall i hlo hold
    · exact habsent

theorem OpenSince.present_next {next : ℤ} (hpresent : absent next = false) :
    OpenSince absent (next + 1) none := by
  simpa [OpenSince] using hpresent

/-- A scan closes exactly the maximal runs that start in it, or that it found open, and end before its
    last integer. -/
theorem mem_closedRuns {lo hi : ℤ} : ∀ {count : ℕ} {next : ℤ} {start : Option ℤ},
    OpenSince absent next start →
    ((lo, hi) ∈ closedRuns absent count next start ↔
      IsMaximalRun absent lo hi ∧ (next ≤ lo ∨ start = some lo) ∧ hi + 1 < next + count)
  | 0, next, start, hopen => by
    simp only [closedRuns, List.not_mem_nil, false_iff, not_and]
    rintro hrun (hle | rfl) hlt
    · have := hrun.nonempty
      omega
    · obtain ⟨_, hall, _⟩ := hopen
      have habsent := hall (hi + 1) (by have := hrun.nonempty; omega) (by simpa using hlt)
      rw [hrun.above] at habsent
      cases habsent
  | count + 1, next, start, hopen => by
    cases habsent : absent next with
    | true =>
      rw [closedRuns_of_absent habsent, mem_closedRuns (hopen.absent_next habsent)]
      refine and_congr_right fun hrun => and_congr ?_ (by push_cast; omega)
      cases start with
      | none => simp only [Option.getD_none, Option.some.injEq, reduceCtorEq, or_false]; omega
      | some first =>
        obtain ⟨hlt, hall, _⟩ := hopen
        have hne : lo ≠ next := by
          rintro rfl
          have hbefore := hall (lo - 1) (by omega) (by omega)
          rw [hrun.below] at hbefore
          cases hbefore
        simp only [Option.getD_some, Option.some.injEq]
        omega
    | false =>
      have hnext : OpenSince absent (next + 1) none := .present_next habsent
      have hne : IsMaximalRun absent lo hi → lo ≠ next := by
        rintro hrun rfl
        have hfirst := hrun.inside lo le_rfl hrun.nonempty
        rw [habsent] at hfirst
        cases hfirst
      cases start with
      | none =>
        rw [closedRuns_none habsent, mem_closedRuns hnext]
        refine and_congr_right fun hrun => ?_
        have := hne hrun
        simp only [reduceCtorEq, or_false]
        push_cast
        omega
      | some first =>
        rw [closedRuns_some habsent, List.mem_cons, Prod.mk.injEq, mem_closedRuns hnext]
        obtain ⟨hlt, hall, hbelow⟩ := hopen
        constructor
        · rintro (⟨rfl, rfl⟩ | ⟨hrun, hstart, hend⟩)
          · refine ⟨⟨by omega, fun i hlo hhi => hall i hlo (by omega), hbelow, ?_⟩, .inr rfl, ?_⟩
            · simpa using habsent
            · push_cast
              omega
          · simp only [reduceCtorEq, or_false] at hstart
            refine ⟨hrun, .inl (by omega), ?_⟩
            push_cast at hend ⊢
            omega
        · rintro ⟨hrun, hstart, hend⟩
          have hlone := hne hrun
          rcases hstart with hle | hfirst
          · refine .inr ⟨hrun, .inl (by omega), ?_⟩
            push_cast at hend ⊢
            omega
          · obtain rfl := Option.some.inj hfirst
            refine .inl ⟨rfl, ?_⟩
            rcases lt_trichotomy hi (next - 1) with hless | heq | hmore
            · have hinside := hall (hi + 1) (by have := hrun.nonempty; omega) (by omega)
              rw [hrun.above] at hinside
              cases hinside
            · exact heq
            · have hinside := hrun.inside next (by omega) (by omega)
              rw [habsent] at hinside
              cases hinside

/-- A scan that ends on an integer without the property closes a run over every integer with it. -/
theorem exists_closedRuns : ∀ {count : ℕ} {next : ℤ} {start : Option ℤ},
    OpenSince absent next start → absent (next + count - 1) = false → ∀ {i : ℤ}, absent i →
    (next ≤ i ∨ ∃ lo, start = some lo ∧ lo ≤ i) → i < next + count →
    ∃ run ∈ closedRuns absent count next start, run.1 ≤ i ∧ i ≤ run.2
  | 0, next, start, hopen, hlast, i, _, hfrom, hlt => by
    rcases hfrom with hle | ⟨lo, rfl, _⟩
    · simp only [Nat.cast_zero, add_zero] at hlt
      omega
    · obtain ⟨hlo, hall, _⟩ := hopen
      have hend := hall (next - 1) (by omega) (by omega)
      simp only [Nat.cast_zero, add_zero] at hlast
      rw [hlast] at hend
      cases hend
  | count + 1, next, start, hopen, hlast, i, hi, hfrom, hlt => by
    have hlast' : absent (next + 1 + count - 1) = false := by
      rw [← hlast]
      congr 1
      push_cast
      omega
    have hlt' : i < next + 1 + count := by
      push_cast at hlt
      omega
    cases habsent : absent next with
    | true =>
      rw [closedRuns_of_absent habsent]
      refine exists_closedRuns (hopen.absent_next habsent) hlast' hi (.inr ⟨_, rfl, ?_⟩) hlt'
      rcases hfrom with hle | ⟨lo, rfl, hle⟩
      · cases start with
        | none => exact hle
        | some lo => exact (hopen.1.le).trans hle
      · exact hle
    | false =>
      have hnext : OpenSince absent (next + 1) none := .present_next habsent
      have hne : i ≠ next := by
        rintro rfl
        rw [habsent] at hi
        cases hi
      cases start with
      | none =>
        rw [closedRuns_none habsent]
        obtain hle | ⟨_, hnone, _⟩ := hfrom
        · exact exists_closedRuns hnext hlast' hi (.inl (by omega)) hlt'
        · cases hnone
      | some first =>
        rw [closedRuns_some habsent]
        rcases lt_or_ge i next with hbefore | hafter
        · refine ⟨_, List.mem_cons_self, ?_, by simpa using Int.le_sub_one_of_lt hbefore⟩
          rcases hfrom with hle | ⟨lo, hlo, hle⟩
          · omega
          · obtain rfl := Option.some.inj hlo
            exact hle
        · obtain ⟨run, hrun, hin⟩ :=
            exists_closedRuns hnext hlast' hi (.inl (by omega)) hlt'
          exact ⟨run, List.mem_cons_of_mem _ hrun, hin⟩

/-- The runs come in order, with an integer outside them between any two. -/
theorem pairwise_closedRuns : ∀ {count : ℕ} {next : ℤ} {start : Option ℤ},
    OpenSince absent next start →
    (closedRuns absent count next start).Pairwise fun run later => run.2 + 1 < later.1
  | 0, _, _, _ => List.Pairwise.nil
  | count + 1, next, start, hopen => by
    cases habsent : absent next with
    | true =>
      rw [closedRuns_of_absent habsent]
      exact pairwise_closedRuns (hopen.absent_next habsent)
    | false =>
      have hnext : OpenSince absent (next + 1) none := .present_next habsent
      have hrest : (closedRuns absent count (next + 1) none).Pairwise
          fun run later => run.2 + 1 < later.1 := pairwise_closedRuns hnext
      cases start with
      | none =>
        rw [closedRuns_none habsent]
        exact hrest
      | some first =>
        rw [closedRuns_some habsent]
        refine List.Pairwise.cons (fun later hlater => ?_) hrest
        obtain ⟨_, hstart, _⟩ := (mem_closedRuns hnext).mp hlater
        simp only [reduceCtorEq, or_false] at hstart
        omega

/-- A scan that ends on an integer without the property closes runs as long, together, as there are integers
    with it. -/
theorem sum_closedRuns : ∀ {count : ℕ} {next : ℤ} {start : Option ℤ}, OpenSince absent next start →
    absent (next + count - 1) = false →
    ((closedRuns absent count next start).map fun run => run.2 - run.1 + 1).sum =
      start.elim 0 (next - ·) + Nat.count (fun i => absent (next + i)) count
  | 0, next, none, _, _ => by simp [closedRuns]
  | 0, next, some lo, hopen, hlast => by
    obtain ⟨hlo, hall, _⟩ := hopen
    have hend := hall (next - 1) (by omega) (by omega)
    rw [Nat.cast_zero, add_zero] at hlast
    rw [hlast] at hend
    cases hend
  | count + 1, next, start, hopen, hlast => by
    have hlast' : absent (next + 1 + count - 1) = false := by
      rw [← hlast]
      congr 1
      push_cast
      omega
    have hshift : Nat.count (fun i => absent (next + (i + 1 : ℕ))) count =
        Nat.count (fun i => absent (next + 1 + i)) count := by
      congr 1
      funext i
      rw [Nat.cast_add, Nat.cast_one, add_right_comm, add_assoc]
    rw [Nat.count_succ', hshift, Nat.cast_zero, add_zero]
    cases habsent : absent next with
    | true =>
      rw [closedRuns_of_absent habsent, sum_closedRuns (hopen.absent_next habsent) hlast', if_pos rfl]
      cases start with
      | none => simp only [Option.getD_none, Option.elim]; push_cast; omega
      | some lo => simp only [Option.getD_some, Option.elim]; push_cast; omega
    | false =>
      have hnext : OpenSince absent (next + 1) none := .present_next habsent
      cases start with
      | none =>
        rw [closedRuns_none habsent, sum_closedRuns hnext hlast']
        simp
      | some lo =>
        rw [closedRuns_some habsent, List.map_cons, List.sum_cons, sum_closedRuns hnext hlast']
        simp only [Option.elim, Bool.false_eq_true, if_false]
        omega

end Lib
