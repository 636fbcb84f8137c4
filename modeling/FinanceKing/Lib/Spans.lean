import Mathlib

/-! Lists of half-open spans `[lo, hi)` read as sets of points: fusing the spans that touch, and
    carving what a list of spans leaves of a window. -/

namespace Lib

variable {α β : Type} [LinearOrder α] [LinearOrder β]

/-- The points that some span of the list holds. -/
def points (l : List (α × α)) : Set α := {t | ∃ s ∈ l, s.1 ≤ t ∧ t < s.2}

/-- Non-empty spans, each ending no later than the next one starts. -/
structure Ascending (l : List (α × α)) : Prop where
  nonempty : ∀ s ∈ l, s.1 < s.2
  ordered : l.Pairwise (fun a b => a.2 ≤ b.1)

theorem mem_points {l : List (α × α)} {t : α} : t ∈ points l ↔ ∃ s ∈ l, s.1 ≤ t ∧ t < s.2 := Iff.rfl

@[simp] theorem mem_points_nil {t : α} : t ∈ points ([] : List (α × α)) ↔ False := by
  simp [mem_points]

@[simp] theorem mem_points_cons {s : α × α} {l : List (α × α)} {t : α} :
    t ∈ points (s :: l) ↔ (s.1 ≤ t ∧ t < s.2) ∨ t ∈ points l := by
  simp [mem_points]

@[simp] theorem mem_points_append {l m : List (α × α)} {t : α} :
    t ∈ points (l ++ m) ↔ t ∈ points l ∨ t ∈ points m := by
  simp [mem_points, or_and_right, exists_or]

theorem mem_points_ite {p : Prop} [Decidable p] {l : List (α × α)} {t : α} :
    t ∈ points (if p then l else []) ↔ p ∧ t ∈ points l := by
  by_cases hp : p <;> simp [hp]

theorem Ascending.cons {s : α × α} {l : List (α × α)} (hs : s.1 < s.2)
    (hl : ∀ b ∈ l, s.2 ≤ b.1) (h : Ascending l) : Ascending (s :: l) where
  nonempty := List.forall_mem_cons.mpr ⟨hs, h.nonempty⟩
  ordered := List.pairwise_cons.mpr ⟨hl, h.ordered⟩

/-- In an ascending list the starts ascend. -/
theorem Ascending.starts {l : List (α × α)} (h : Ascending l) :
    l.Pairwise (fun a b => a.1 ≤ b.1) := by
  refine h.ordered.imp_of_mem ?_
  intro a b ha _ hab
  exact (h.nonempty a ha).le.trans hab

/-! ### Consecutive spans -/

/-- Spans between consecutive boundaries cover what lies between the first and the last. -/
theorem mem_points_consecutive {b : ℕ → α} (hb : Monotone b) {t : α} : ∀ n : ℕ,
    t ∈ points ((List.range n).map fun i => (b i, b (i + 1))) ↔ b 0 ≤ t ∧ t < b n
  | 0 => by simp
  | n + 1 => by
    rw [List.range_succ, List.map_append, mem_points_append, mem_points_consecutive hb n]
    simp only [List.map_cons, List.map_nil, mem_points_cons, mem_points_nil, or_false]
    have hzero : b 0 ≤ b n := hb n.zero_le
    have hstep : b n ≤ b (n + 1) := hb n.le_succ
    constructor
    · rintro (⟨hlo, hhi⟩ | ⟨hlo, hhi⟩)
      · exact ⟨hlo, hhi.trans_le hstep⟩
      · exact ⟨hzero.trans hlo, hhi⟩
    · rintro ⟨hlo, hhi⟩
      exact (lt_or_ge t (b n)).imp (fun h => ⟨hlo, h⟩) fun h => ⟨h, hhi⟩

theorem ascending_consecutive {b : ℕ → α} (hb : StrictMono b) (n : ℕ) :
    Ascending ((List.range n).map fun i => (b i, b (i + 1))) where
  nonempty := by
    intro s hs
    obtain ⟨i, _, rfl⟩ := List.mem_map.mp hs
    exact hb i.lt_succ_self
  ordered := by
    rw [List.pairwise_map]
    exact List.pairwise_lt_range.imp fun hij => hb.monotone hij

/-! ### Fusing -/

/-- Fuse the spans that touch or overlap, for spans given in ascending order of their starts. -/
def fuseInto : α × α → List (α × α) → List (α × α)
  | last, [] => [last]
  | last, s :: rest =>
    if s.1 ≤ last.2 then fuseInto (last.1, max last.2 s.2) rest else last :: fuseInto s rest

/-- The fused span takes the place of the two it fuses. -/
theorem pairwise_fused {last b : α × α} {rest : List (α × α)}
    (h : (last :: b :: rest).Pairwise (fun a b => a.1 ≤ b.1)) :
    ((last.1, max last.2 b.2) :: rest).Pairwise (fun a b => a.1 ≤ b.1) := by
  obtain ⟨hlast, hrest⟩ := List.pairwise_cons.mp h
  exact List.pairwise_cons.mpr
    ⟨fun c hc => hlast c (List.mem_cons_of_mem _ hc), (List.pairwise_cons.mp hrest).2⟩

theorem fuseInto_ne_nil : ∀ (l : List (α × α)) (last : α × α), fuseInto last l ≠ []
  | [], last => by simp [fuseInto]
  | b :: rest, last => by
    rw [fuseInto]
    split
    · exact fuseInto_ne_nil rest _
    · exact List.cons_ne_nil _ _

theorem fst_le_of_mem_fuseInto : ∀ {l : List (α × α)} {last s : α × α},
    (last :: l).Pairwise (fun a b => a.1 ≤ b.1) → s ∈ fuseInto last l → last.1 ≤ s.1
  | [], last, s, _, hs => by
    rw [fuseInto, List.mem_singleton] at hs
    rw [hs]
  | b :: rest, last, s, hsorted, hs => by
    have hrest := List.pairwise_cons.mp hsorted
    have hlast : last.1 ≤ b.1 := hrest.1 b List.mem_cons_self
    rw [fuseInto] at hs
    split at hs
    · have hle : ((last.1, max last.2 b.2) : α × α).1 ≤ s.1 :=
        fst_le_of_mem_fuseInto (pairwise_fused hsorted) hs
      exact hle
    · rcases List.mem_cons.mp hs with rfl | hs
      · exact le_rfl
      · exact hlast.trans (fst_le_of_mem_fuseInto hrest.2 hs)

/-- What is fused ascends. -/
theorem ascending_fuseInto : ∀ {l : List (α × α)} {last : α × α},
    (last :: l).Pairwise (fun a b => a.1 ≤ b.1) → (∀ s ∈ last :: l, s.1 < s.2) →
    Ascending (fuseInto last l)
  | [], last, _, hpos => ⟨by simpa [fuseInto] using hpos, by simp [fuseInto]⟩
  | b :: rest, last, hsorted, hpos => by
    have hrest := List.pairwise_cons.mp hsorted
    have hlast : last.1 < last.2 := hpos last List.mem_cons_self
    rw [fuseInto]
    split
    · refine ascending_fuseInto (pairwise_fused hsorted) ?_
      intro s hs
      rcases List.mem_cons.mp hs with rfl | hs
      · exact lt_max_of_lt_left hlast
      · exact hpos s (List.mem_cons_of_mem _ (List.mem_cons_of_mem _ hs))
    · next hgap =>
      refine Ascending.cons hlast ?_ (ascending_fuseInto hrest.2 fun s hs =>
        hpos s (List.mem_cons_of_mem _ hs))
      intro s hs
      exact (not_le.mp hgap).le.trans (fst_le_of_mem_fuseInto hrest.2 hs)

/-- Fusing keeps the points, also of the spans each widened by monotone bounds on either side. -/
theorem points_map_fuseInto {f g : α → β} (hf : Monotone f) (hg : Monotone g)
    (hfg : ∀ x, f x ≤ g x) : ∀ {l : List (α × α)} {last : α × α},
    (last :: l).Pairwise (fun a b => a.1 ≤ b.1) →
    points ((fuseInto last l).map (Prod.map f g)) = points ((last :: l).map (Prod.map f g))
  | [], _, _ => rfl
  | b :: rest, last, hsorted => by
    have hrest := List.pairwise_cons.mp hsorted
    have hlast : last.1 ≤ b.1 := hrest.1 b List.mem_cons_self
    ext t
    rw [fuseInto]
    split
    · next htouch =>
      rw [points_map_fuseInto hf hg hfg (pairwise_fused hsorted)]
      simp only [List.map_cons, mem_points_cons, Prod.map_fst, Prod.map_snd, hg.map_max, lt_max_iff]
      -- the two spans touch, so together they hold what their hull holds
      have hstart : f last.1 ≤ f b.1 := hf hlast
      have hmeet : f b.1 ≤ g last.2 := (hf htouch).trans (hfg _)
      constructor
      · rintro (⟨hlo, hhi | hhi⟩ | hin)
        · exact Or.inl ⟨hlo, hhi⟩
        · rcases lt_or_ge t (f b.1) with hb | hb
          · exact Or.inl ⟨hlo, hb.trans_le hmeet⟩
          · exact Or.inr (Or.inl ⟨hb, hhi⟩)
        · exact Or.inr (Or.inr hin)
      · rintro (⟨hlo, hhi⟩ | ⟨hlo, hhi⟩ | hin)
        · exact Or.inl ⟨hlo, Or.inl hhi⟩
        · exact Or.inl ⟨hstart.trans hlo, Or.inr hhi⟩
        · exact Or.inr hin
    · simp only [List.map_cons, mem_points_cons, points_map_fuseInto hf hg hfg hrest.2]

/-! ### Carving -/

/-- What is left of `[cursor, hi)` once the blocks are taken out, for blocks given in ascending order
    of their starts. -/
def carve (hi : α) : α → List (α × α) → List (α × α)
  | cursor, [] => if cursor < hi then [(cursor, hi)] else []
  | cursor, block :: rest =>
    (if cursor < block.1 then [(cursor, min block.1 hi)] else []) ++
      if max cursor block.2 < hi then carve hi (max cursor block.2) rest else []

theorem fst_ge_of_mem_carve {hi : α} : ∀ {l : List (α × α)} {cursor : α} {s : α × α},
    s ∈ carve hi cursor l → cursor ≤ s.1
  | [], cursor, s, hs => by
    rw [carve] at hs
    split at hs
    · rw [List.mem_singleton.mp hs]
    · cases hs
  | block :: rest, cursor, s, hs => by
    rw [carve, List.mem_append] at hs
    rcases hs with hs | hs
    · split at hs
      · rw [List.mem_singleton.mp hs]
      · cases hs
    · split at hs
      · exact (le_max_left _ _).trans (fst_ge_of_mem_carve hs)
      · cases hs

theorem ascending_carve {hi : α} : ∀ {l : List (α × α)} {cursor : α}, cursor < hi →
    (∀ s ∈ l, s.1 < s.2) → Ascending (carve hi cursor l)
  | [], cursor, hlt, _ => by
    rw [carve, if_pos hlt]
    exact ⟨by simpa using hlt, by simp⟩
  | block :: rest, cursor, hlt, hpos => by
    have hrest : Ascending (if max cursor block.2 < hi then carve hi (max cursor block.2) rest
        else []) := by
      split
      · next hcut => exact ascending_carve hcut fun s hs => hpos s (List.mem_cons_of_mem _ hs)
      · exact ⟨by simp, List.Pairwise.nil⟩
    rw [carve]
    split
    · next hgap =>
      refine Ascending.cons (lt_min hgap hlt) ?_ hrest
      intro s hs
      split at hs
      · calc min block.1 hi ≤ block.1 := min_le_left _ _
          _ ≤ block.2 := (hpos block List.mem_cons_self).le
          _ ≤ max cursor block.2 := le_max_right _ _
          _ ≤ s.1 := fst_ge_of_mem_carve hs
      · cases hs
    · exact hrest

/-- Carving leaves exactly the points of the window that no block holds. -/
theorem mem_points_carve {hi : α} : ∀ {l : List (α × α)} {cursor t : α}, cursor < hi →
    l.Pairwise (fun a b => a.1 ≤ b.1) →
    (t ∈ points (carve hi cursor l) ↔ (cursor ≤ t ∧ t < hi) ∧ t ∉ points l)
  | [], cursor, t, hlt, _ => by simp [carve, hlt]
  | block :: rest, cursor, t, hlt, hsorted => by
    have hstarts := (List.pairwise_cons.mp hsorted).1
    -- a point before the block is before every later block too
    have hbefore : t < block.1 → t ∉ points (block :: rest) := by
      rintro ht ⟨s, hs, hlo, _⟩
      rcases List.mem_cons.mp hs with rfl | hs
      · exact absurd ht hlo.not_gt
      · exact absurd ht ((hstarts s hs).trans hlo).not_gt
    have happend : t ∈ points (carve hi cursor (block :: rest)) ↔
        (cursor ≤ t ∧ t < block.1 ∧ t < hi) ∨
          (max cursor block.2 < hi ∧ t ∈ points (carve hi (max cursor block.2) rest)) := by
      rw [carve, mem_points_append, mem_points_ite, mem_points_ite]
      refine or_congr ⟨?_, ?_⟩ Iff.rfl
      · rintro ⟨_, hin⟩
        simpa using hin
      · rintro ⟨hlo, hblock, hhi⟩
        exact ⟨hlo.trans_lt hblock, by simp [hlo, hblock, hhi]⟩
    rw [happend]
    constructor
    · rintro (⟨hlo, hblock, hhi⟩ | ⟨hcut, hin⟩)
      · exact ⟨⟨hlo, hhi⟩, hbefore hblock⟩
      · obtain ⟨⟨hlo, hhi⟩, hout⟩ := (mem_points_carve hcut (List.pairwise_cons.mp hsorted).2).mp hin
        refine ⟨⟨(le_max_left _ _).trans hlo, hhi⟩, ?_⟩
        rw [mem_points_cons, not_or]
        exact ⟨fun h => absurd h.2 ((le_max_right _ _).trans hlo).not_gt, hout⟩
    · rintro ⟨⟨hlo, hhi⟩, hout⟩
      rcases lt_or_ge t block.1 with hblock | hblock
      · exact Or.inl ⟨hlo, hblock, hhi⟩
      · rw [mem_points_cons, not_or] at hout
        have hpast : block.2 ≤ t := not_lt.mp fun h => hout.1 ⟨hblock, h⟩
        have hcut : max cursor block.2 < hi := max_lt hlt (hpast.trans_lt hhi)
        exact Or.inr ⟨hcut, (mem_points_carve hcut (List.pairwise_cons.mp hsorted).2).mpr
          ⟨⟨max_le hlo hpast, hhi⟩, hout.2⟩⟩

end Lib
