import Mathlib
import Mathlib.Data.Int.Order.Basic
import Mathlib.Data.List.Pairwise
import Mathlib.Logic.ExistsUnique

/-! Lists of spans of integers that follow one another without a gap. -/

namespace Lib

variable {α β : Type} {first last : α → ℤ}

/-- The spans `first a .. last a` of a list, in order, are the integers from `start` up to `stop`. -/
inductive Tiles (first last : α → ℤ) : ℤ → ℤ → List α → Prop where
  | nil (start : ℤ) : Tiles first last start start []
  | cons {start stop : ℤ} {a : α} {rest : List α} (opens : first a = start) (nonempty : first a ≤ last a)
      (tail : Tiles first last (last a + 1) stop rest) : Tiles first last start stop (a :: rest)

namespace Tiles

theorem start_le {start stop : ℤ} {l : List α} (h : Tiles first last start stop l) : start ≤ stop := by
  induction h with
  | nil => exact le_rfl
  | cons opens nonempty _ ih => omega

theorem append {start middle stop : ℤ} {l m : List α} (h : Tiles first last start middle l)
    (h' : Tiles first last middle stop m) : Tiles first last start stop (l ++ m) := by
  induction h with
  | nil => exact h'
  | cons opens nonempty _ ih => exact .cons opens nonempty (ih h')

theorem single {a : α} (h : first a ≤ last a) : Tiles first last (first a) (last a + 1) [a] :=
  .cons rfl h (.nil _)

/-- A tile lies inside what the list tiles. -/
theorem inside {start stop : ℤ} {l : List α} (h : Tiles first last start stop l) :
    ∀ a ∈ l, start ≤ first a ∧ last a < stop := by
  induction h with
  | nil => simp
  | cons opens nonempty tail ih =>
    intro a ha
    have hle := tail.start_le
    rcases List.mem_cons.mp ha with rfl | hlater
    · exact ⟨le_of_eq opens.symm, by omega⟩
    · have hrest := ih a hlater
      omega

theorem le_of_mem {start stop : ℤ} {l : List α} (h : Tiles first last start stop l) :
    ∀ a ∈ l, first a ≤ last a := by
  induction h with
  | nil => simp
  | cons _ nonempty _ ih => exact List.forall_mem_cons.mpr ⟨nonempty, ih⟩

/-- A tile ends before any later one begins. -/
theorem pairwise {start stop : ℤ} {l : List α} (h : Tiles first last start stop l) :
    l.Pairwise fun a b => last a < first b := by
  induction h with
  | nil => exact List.Pairwise.nil
  | cons _ _ tail ih =>
    refine List.Pairwise.cons (fun b hb => ?_) ih
    have hrest := (tail.inside b hb).1
    omega

/-- Every integer of the range is in a tile. -/
theorem covers {start stop : ℤ} {l : List α} (h : Tiles first last start stop l) {i : ℤ} (hstart : start ≤ i)
    (hstop : i < stop) : ∃ a ∈ l, first a ≤ i ∧ i ≤ last a := by
  induction h with
  | nil => omega
  | @cons start stop a rest opens nonempty tail ih =>
    by_cases hin : i ≤ last a
    · exact ⟨a, List.mem_cons_self, by omega, hin⟩
    · obtain ⟨b, hb, hinside⟩ := ih (by omega) hstop
      exact ⟨b, List.mem_cons_of_mem _ hb, hinside⟩

/-- An integer is in one tile only. -/
theorem eq_of_mem {start stop : ℤ} {l : List α} (h : Tiles first last start stop l) {i : ℤ} {a b : α}
    (ha : a ∈ l) (hb : b ∈ l) (hina : first a ≤ i ∧ i ≤ last a) (hinb : first b ≤ i ∧ i ≤ last b) : a = b := by
  induction h with
  | nil => cases ha
  | cons _ _ tail ih =>
    rcases List.mem_cons.mp ha with rfl | ha'
    · rcases List.mem_cons.mp hb with rfl | hb'
      · rfl
      · have hafter := (tail.inside b hb').1
        omega
    · rcases List.mem_cons.mp hb with rfl | hb'
      · have hafter := (tail.inside a ha').1
        omega
      · exact ih ha' hb'

theorem existsUnique {start stop : ℤ} {l : List α} (h : Tiles first last start stop l) {i : ℤ}
    (hstart : start ≤ i) (hstop : i < stop) : ∃! a, a ∈ l ∧ first a ≤ i ∧ i ≤ last a := by
  obtain ⟨a, ha, hinside⟩ := h.covers hstart hstop
  exact ⟨a, ⟨ha, hinside⟩, fun b hb => h.eq_of_mem hb.1 ha hb.2 hinside⟩

theorem of_map {g : β → α} : ∀ {l : List β} {start stop : ℤ},
    Tiles (first ∘ g) (last ∘ g) start stop l → Tiles first last start stop (l.map g)
  | [], _, _, .nil start => .nil start
  | _ :: _, _, _, .cons opens nonempty tail => .cons opens nonempty (of_map tail)

/-- Lists that tile adjoining ranges tile the whole of it. -/
theorem flatMap {firstOf lastOf : β → ℤ} {members : β → List α} {start stop : ℤ} {l : List β}
    (h : Tiles firstOf lastOf start stop l)
    (hmembers : ∀ b ∈ l, Tiles first last (firstOf b) (lastOf b + 1) (members b)) :
    Tiles first last start stop (l.flatMap members) := by
  induction h with
  | nil => exact .nil _
  | @cons start stop b rest opens nonempty tail ih =>
    rw [List.flatMap_cons]
    refine append ?_ (ih fun other hother => hmembers other (List.mem_cons_of_mem _ hother))
    exact opens ▸ hmembers b List.mem_cons_self

end Tiles

end Lib

/-! Arithmetic progressions of instants, and the maximal runs of their members that are missing from a
    set: one pass that opens a run at a missing member and closes it at the next one held. -/

namespace Lib

variable {d a : ℤ} {m : ℕ} {held : ℤ → Bool}

/-- `a, a + d, …`, of `m` members. -/
def progression (d a : ℤ) : ℕ → List ℤ
  | 0 => []
  | m + 1 => a :: progression d (a + d) m

theorem length_progression : ∀ (m : ℕ) (a : ℤ), (progression d a m).length = m
  | 0, _ => rfl
  | m + 1, a => by rw [progression, List.length_cons, length_progression m]

theorem mem_progression {t : ℤ} : ∀ {m : ℕ} {a : ℤ}, t ∈ progression d a m ↔ ∃ k : ℕ, k < m ∧ t = a + d * k
  | 0, a => by simp [progression]
  | m + 1, a => by
    rw [progression, List.mem_cons, mem_progression]
    constructor
    · rintro (rfl | ⟨k, hk, rfl⟩)
      · exact ⟨0, Nat.succ_pos m, by simp⟩
      · exact ⟨k + 1, Nat.succ_lt_succ hk, by push_cast; ring⟩
    · rintro ⟨k, hk, rfl⟩
      cases k with
      | zero => exact .inl (by simp)
      | succ k => exact .inr ⟨k, Nat.lt_of_succ_lt_succ hk, by push_cast; ring⟩

theorem progression_append (n : ℕ) : ∀ (m : ℕ) (a : ℤ),
    progression d a (m + n) = progression d a m ++ progression d (a + d * m) n
  | 0, a => by simp [progression]
  | m + 1, a => by
    have hstart : a + d * ((m + 1 : ℕ) : ℤ) = a + d + d * m := by push_cast; ring
    rw [Nat.add_right_comm, progression, progression, progression_append n m, hstart, List.cons_append]

theorem pairwise_progression (hd : 0 < d) : ∀ (m : ℕ) (a : ℤ), (progression d a m).Pairwise (· < ·)
  | 0, _ => List.Pairwise.nil
  | m + 1, a => by
    refine List.Pairwise.cons (fun t ht => ?_) (pairwise_progression hd m (a + d))
    obtain ⟨k, _, rfl⟩ := mem_progression.mp ht
    have hk : 0 ≤ d * k := mul_nonneg hd.le (Int.natCast_nonneg k)
    omega

/-- Windows that open at the members and are no shorter than the step leave nothing between them. -/
theorem exists_window_of_progression {width t : ℤ} (hd : d ≤ width) : ∀ {m : ℕ} {a : ℤ}, a ≤ t →
    t < a + d * m + width → ∃ s ∈ progression d a (m + 1), s ≤ t ∧ t < s + width
  | 0, a, hlow, hhigh => ⟨a, List.mem_cons_self, hlow, by simpa using hhigh⟩
  | m + 1, a, hlow, hhigh => by
    by_cases hfirst : t < a + width
    · exact ⟨a, List.mem_cons_self, hlow, hfirst⟩
    · have hstart : a + d * ((m + 1 : ℕ) : ℤ) = a + d + d * m := by push_cast; ring
      rw [hstart] at hhigh
      obtain ⟨s, hs, hinside⟩ := exists_window_of_progression hd (a := a + d) (by omega) hhigh
      exact ⟨s, List.mem_cons_of_mem _ hs, hinside⟩

/-- How many members of the progression from `a` on are at or below `bound`. -/
def membersUpTo (d a bound : ℤ) : ℕ := ((bound - a) / d + 1).toNat

theorem lt_membersUpTo_iff (hd : 0 < d) {bound : ℤ} {k : ℕ} :
    k < membersUpTo d a bound ↔ a + k * d ≤ bound := by
  rw [membersUpTo, Int.lt_toNat, Int.lt_add_one_iff, Int.le_ediv_iff_mul_le hd, le_sub_iff_add_le']

/-! ### Runs -/

/-- The runs of missing members, from the run that is open: its first member and how many it has. -/
def missingRuns (held : ℤ → Bool) : Option (ℤ × ℕ) → List ℤ → List (ℤ × ℕ)
  | none, [] => []
  | some run, [] => [run]
  | none, t :: ts => if held t then missingRuns held none ts else missingRuns held (some (t, 1)) ts
  | some run, t :: ts =>
    if held t then run :: missingRuns held none ts else missingRuns held (some (run.1, run.2 + 1)) ts

/-- The runs are the maximal stretches of the progression outside `held`, in order. -/
structure AreMissingRuns (d : ℤ) (held : ℤ → Bool) (a : ℤ) (m : ℕ) (runs : List (ℤ × ℕ)) : Prop where
  covers : ∀ t ∈ progression d a m,
    (∃ run ∈ runs, run.1 ≤ t ∧ t < run.1 + d * run.2) ↔ held t = false
  separated : runs.Pairwise fun run later => run.1 + d * run.2 < later.1
  maximal : ∀ run ∈ runs, (run.1 = a ∨ held (run.1 - d)) ∧
    (run.1 + d * run.2 = a + d * m ∨ held (run.1 + d * run.2))
  bounds : ∀ run ∈ runs, run.1 ∈ progression d a m ∧ 0 < run.2 ∧ run.1 + d * run.2 ≤ a + d * m
  counted : (runs.map Prod.snd).sum = ((progression d a m).filter fun t => !held t).length

theorem le_of_mem_progression (hd : 0 < d) {t : ℤ} (h : t ∈ progression d a m) :
    a ≤ t ∧ t + d ≤ a + d * m := by
  obtain ⟨k, hk, rfl⟩ := mem_progression.mp h
  have hlow : 0 ≤ d * k := mul_nonneg hd.le (Int.natCast_nonneg k)
  have hhigh : d * (k + 1) ≤ d * m := mul_le_mul_of_nonneg_left (by exact_mod_cast hk) hd.le
  constructor <;> linarith

/-- A member that is held, put in front. -/
theorem AreMissingRuns.cons_held (hd : 0 < d) {runs : List (ℤ × ℕ)} (hheld : held a = true)
    (h : AreMissingRuns d held (a + d) m runs) : AreMissingRuns d held a (m + 1) runs := by
  have hend : a + d * ((m + 1 : ℕ) : ℤ) = a + d + d * m := by push_cast; ring
  refine ⟨?_, h.separated, ?_, ?_, ?_⟩
  · intro t ht
    rcases List.mem_cons.mp ht with rfl | ht
    · refine iff_of_false ?_ (by simp [hheld])
      rintro ⟨run, hrun, hle, _⟩
      have hfirst := (le_of_mem_progression hd (h.bounds run hrun).1).1
      omega
    · exact h.covers t ht
  · intro run hrun
    obtain ⟨hstart, hstop⟩ := h.maximal run hrun
    rw [hend]
    refine ⟨.inr ?_, hstop⟩
    rcases hstart with hstart | hstart
    · rw [hstart, add_sub_cancel_right]
      exact hheld
    · exact hstart
  · intro run hrun
    obtain ⟨hmem, hpositive, hstop⟩ := h.bounds run hrun
    rw [hend]
    exact ⟨List.mem_cons_of_mem _ hmem, hpositive, hstop⟩
  · rw [h.counted, progression, List.filter_cons, hheld]
    rfl

/-- A whole run put in front of a member that is held, or of the end. -/
theorem AreMissingRuns.cons_run (hd : 0 < d) {runs : List (ℤ × ℕ)} {n : ℕ} (hn : 0 < n)
    (hmissing : ∀ t ∈ progression d a n, held t = false) (hnext : m = 0 ∨ held (a + d * n) = true)
    (h : AreMissingRuns d held (a + d * n) m runs) :
    AreMissingRuns d held a (n + m) ((a, n) :: runs) := by
  have hend : a + d * ((n + m : ℕ) : ℤ) = a + d * n + d * m := by push_cast; ring
  have hlater : ∀ run ∈ runs, a + d * n < run.1 := by
    intro run hrun
    obtain ⟨hmem, hpositive, _⟩ := h.bounds run hrun
    have hle := (le_of_mem_progression hd hmem).1
    rcases hnext with rfl | hheld
    · simp [progression] at hmem
    · refine lt_of_le_of_ne hle fun heq => ?_
      have hinside : held run.1 = false := (h.covers run.1 hmem).mp ⟨run, hrun, le_refl _, by
        have hpos : 0 < d * (run.2 : ℤ) := mul_pos hd (by exact_mod_cast hpositive)
        omega⟩
      rw [← heq, hheld] at hinside
      cases hinside
  refine ⟨?_, List.Pairwise.cons hlater h.separated, ?_, ?_, ?_⟩
  · intro t ht
    rw [progression_append, List.mem_append] at ht
    rcases ht with ht | ht
    · obtain ⟨hlow, hhigh⟩ := le_of_mem_progression hd ht
      exact iff_of_true ⟨(a, n), List.mem_cons_self, hlow, by dsimp only; omega⟩ (hmissing t ht)
    · have hlow := (le_of_mem_progression hd ht).1
      rw [← h.covers t ht]
      constructor
      · rintro ⟨run, hrun, hle, hlt⟩
        rcases List.mem_cons.mp hrun with rfl | hrun
        · exact absurd hlt (not_lt.mpr hlow)
        · exact ⟨run, hrun, hle, hlt⟩
      · rintro ⟨run, hrun, hbounds⟩
        exact ⟨run, List.mem_cons_of_mem _ hrun, hbounds⟩
  · intro run hrun
    rw [hend]
    rcases List.mem_cons.mp hrun with rfl | hrun
    · refine ⟨.inl rfl, ?_⟩
      rcases hnext with rfl | hheld
      · exact .inl (by simp)
      · exact .inr hheld
    · obtain ⟨hstart, hstop⟩ := h.maximal run hrun
      refine ⟨.inr ?_, hstop⟩
      rcases hstart with hstart | hstart
      · exact absurd (hlater run hrun) (by omega)
      · exact hstart
  · intro run hrun
    rw [hend, progression_append]
    rcases List.mem_cons.mp hrun with rfl | hrun
    · refine ⟨List.mem_append_left _ (mem_progression.mpr ⟨0, hn, by simp⟩), hn, ?_⟩
      have hrest : 0 ≤ d * (m : ℤ) := mul_nonneg hd.le (Int.natCast_nonneg m)
      dsimp only
      omega
    · obtain ⟨hmem, hpositive, hstop⟩ := h.bounds run hrun
      exact ⟨List.mem_append_right _ hmem, hpositive, hstop⟩
  · have hall : ((progression d a n).filter fun t => !held t) = progression d a n :=
      List.filter_eq_self.mpr fun t ht => by simp [hmissing t ht]
    rw [List.map_cons, List.sum_cons, h.counted, progression_append, List.filter_append, hall,
      List.length_append, length_progression]

/-- The pass finds the runs, whether or not one is open when it starts. -/
theorem missingRuns_run (hd : 0 < d) : ∀ (m : ℕ) (a : ℤ),
    AreMissingRuns d held a m (missingRuns held none (progression d a m)) ∧
    ∀ (s : ℤ) (n : ℕ), 0 < n → a = s + d * n → (∀ t ∈ progression d s n, held t = false) →
      AreMissingRuns d held s (n + m) (missingRuns held (some (s, n)) (progression d a m))
  | 0, a => by
    have hempty : AreMissingRuns d held a 0 [] :=
      ⟨by simp [progression], List.Pairwise.nil, by simp, by simp, by simp [progression]⟩
    refine ⟨hempty, fun s n hn ha hmissing => ?_⟩
    rw [ha] at hempty
    exact hempty.cons_run hd hn hmissing (.inl rfl)
  | m + 1, a => by
    obtain ⟨hnone, hsome⟩ := missingRuns_run hd m (a + d)
    cases hheld : held a with
    | true =>
      have hheldRuns := hnone.cons_held hd hheld
      rw [progression]
      simp only [missingRuns, hheld, if_true]
      refine ⟨hheldRuns, fun s n hn ha hmissing => ?_⟩
      rw [ha] at hheldRuns hheld
      rw [ha]
      exact hheldRuns.cons_run hd hn hmissing (.inr hheld)
    | false =>
      rw [progression]
      simp only [missingRuns, hheld, Bool.false_eq_true, if_false]
      refine ⟨?_, fun s n hn ha hmissing => ?_⟩
      · rw [Nat.add_comm]
        exact hsome a 1 Nat.one_pos (by simp) (by simpa [progression] using hheld)
      · rw [Nat.add_comm m 1, ← Nat.add_assoc]
        refine hsome s (n + 1) (Nat.succ_pos n) (by rw [ha]; push_cast; ring) fun t ht => ?_
        rw [progression_append, List.mem_append] at ht
        rcases ht with ht | ht
        · exact hmissing t ht
        · rw [← ha] at ht
          rw [List.mem_singleton.mp ht]
          exact hheld

/-- The maximal runs of missing members of a progression. -/
theorem areMissingRuns (hd : 0 < d) (held : ℤ → Bool) (a : ℤ) (m : ℕ) :
    AreMissingRuns d held a m (missingRuns held none (progression d a m)) := (missingRuns_run hd m a).1

/-- No member is missing exactly when no run is found. -/
theorem missingRuns_eq_nil_iff (hd : 0 < d) :
    missingRuns held none (progression d a m) = [] ↔ ∀ t ∈ progression d a m, held t = true := by
  have hruns := areMissingRuns hd held a m
  constructor
  · intro hnil t ht
    by_contra hmissing
    obtain ⟨run, hrun, _⟩ := (hruns.covers t ht).mpr (by simpa using hmissing)
    rw [hnil] at hrun
    cases hrun
  · intro hall
    by_contra hne
    obtain ⟨run, hrun⟩ := List.exists_mem_of_ne_nil _ hne
    obtain ⟨hmem, hpositive, _⟩ := hruns.bounds run hrun
    have hinside : held run.1 = false := (hruns.covers run.1 hmem).mp ⟨run, hrun, le_refl _, by
      have hpos : 0 < d * (run.2 : ℤ) := mul_pos hd (by exact_mod_cast hpositive)
      omega⟩
    rw [hall run.1 hmem] at hinside
    cases hinside

end Lib
