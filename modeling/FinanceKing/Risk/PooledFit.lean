import FinanceKing.Domain.Results
import FinanceKing.Lib.Isotonic
import FinanceKing.Risk.Calibration

/-! What the pool leaves: blocks that are front-heavy at levels that never fall, so that the levels are the
    monotone least-squares fit of the bucket means. -/

namespace FinanceKing.Risk

open Lib

/-- Bucket means as a weighted sample. -/
def weighted (observations : List (Decimal × ℤ)) : List (Weighted Decimal) :=
  observations.map fun observation => ⟨observation.1, observation.2⟩

/-- A pooled block carries the sums of the observations in it, and lies at their mean. -/
structure BlockOf (block : PooledBlock) (pooled : Block Decimal) : Prop where
  sum : block.blockSum = weightedSum pooled.members
  weight : (block.blockWeight : Decimal) = mass pooled.members
  span : block.blockSpan = pooled.members.length
  level : pooled.level = block.blockSum / block.blockWeight
  nonempty : pooled.members ≠ []
  positive : ∀ o ∈ pooled.members, 0 < o.weight
  heavy : FrontHeavy pooled.level pooled.members

/-- The stack of the pool, newest block first. -/
structure Pooled (blocks : List PooledBlock) (pooled : List (Block Decimal)) : Prop where
  blocks : List.Forall₂ BlockOf blocks pooled
  levels : pooled.Pairwise fun newer older => older.level ≤ newer.level

theorem BlockOf.weight_pos {block : PooledBlock} {pooled : Block Decimal} (h : BlockOf block pooled) :
    (0 : Decimal) < block.blockWeight := by
  rw [h.weight]
  exact mass_pos h.positive h.nonempty

/-- The cross-multiplied test compares the levels. -/
theorem BlockOf.level_le_iff {previous current : PooledBlock} {older newer : Block Decimal}
    (hprevious : BlockOf previous older) (hcurrent : BlockOf current newer) :
    previous.blockSum * current.blockWeight ≤ current.blockSum * previous.blockWeight ↔
      older.level ≤ newer.level := by
  rw [hprevious.level, hcurrent.level, div_le_div_iff₀ hprevious.weight_pos hcurrent.weight_pos]

/-- Two blocks pooled, at the mean of both. -/
theorem BlockOf.pool {previous current : PooledBlock} {older newer : Block Decimal}
    (hprevious : BlockOf previous older) (hcurrent : BlockOf current newer) (hle : newer.level ≤ older.level) :
    BlockOf ⟨previous.blockSum + current.blockSum, previous.blockWeight + current.blockWeight,
        previous.blockSpan + current.blockSpan⟩
      ⟨(previous.blockSum + current.blockSum) / (previous.blockWeight + current.blockWeight : ℤ),
        older.members ++ newer.members⟩ := by
  have hweight : ((previous.blockWeight + current.blockWeight : ℤ) : Decimal) =
      mass (older.members ++ newer.members) := by
    rw [mass_append, Int.cast_add, hprevious.weight, hcurrent.weight]
  have hpositive : ∀ o ∈ older.members ++ newer.members, 0 < o.weight := fun o ho =>
    (List.mem_append.mp ho).elim (hprevious.positive o) (hcurrent.positive o)
  have hnonempty : older.members ++ newer.members ≠ [] :=
    List.append_ne_nil_of_left_ne_nil hprevious.nonempty _
  refine ⟨?_, hweight, ?_, rfl, hnonempty, hpositive, ?_⟩
  · rw [weightedSum_append, hprevious.sum, hcurrent.sum]
  · rw [List.length_append, hprevious.span, hcurrent.span]
  · refine hprevious.heavy.append hcurrent.heavy hle hprevious.positive hcurrent.positive
      hprevious.nonempty hcurrent.nonempty ?_
    have hmass := mass_pos hpositive hnonempty
    rw [excess_eq, hweight, hprevious.sum, hcurrent.sum, ← weightedSum_append, mul_div_cancel₀ _ hmass.ne',
      sub_self]

/-- The inner loop pools the newest block as far back as it must. -/
theorem poolBack_pooled : ∀ {below : List PooledBlock} {older : List (Block Decimal)} {current : PooledBlock}
    {newest : Block Decimal}, Pooled below older → BlockOf current newest →
    ∃ pooled, Pooled (poolBack current below) pooled ∧
      sampleOf pooled.reverse = sampleOf older.reverse ++ newest.members
  | [], older, current, newest, hbelow, hcurrent => by
    cases hbelow.blocks
    exact ⟨[newest], ⟨.cons hcurrent .nil, List.pairwise_singleton _ _⟩, by simp [sampleOf]⟩
  | previous :: below, _, current, newest, hbelow, hcurrent => by
    obtain ⟨hblocks, hlevels⟩ := hbelow
    cases hblocks with
    | @cons _ before _ older hprevious hrest =>
      obtain ⟨hfirst, htail⟩ := List.pairwise_cons.mp hlevels
      rw [poolBack]
      split
      · next hle =>
        have hnewest := (hprevious.level_le_iff hcurrent).mp hle
        refine ⟨newest :: before :: older, ⟨.cons hcurrent (.cons hprevious hrest), ?_⟩, by simp [sampleOf]⟩
        refine List.pairwise_cons.mpr ⟨fun block hblock => ?_, hlevels⟩
        rcases List.mem_cons.mp hblock with rfl | hmem
        · exact hnewest
        · exact (hfirst block hmem).trans hnewest
      · next hlt =>
        have hle : newest.level ≤ before.level :=
          (not_le.mp fun h => hlt ((hprevious.level_le_iff hcurrent).mpr h)).le
        obtain ⟨pooled, hpooled, hsample⟩ := poolBack_pooled ⟨hrest, htail⟩ (hprevious.pool hcurrent hle)
        refine ⟨pooled, hpooled, hsample.trans ?_⟩
        simp [sampleOf]

theorem blockOf_single {observation : Decimal × ℤ} (hpos : 0 < observation.2) :
    BlockOf ⟨observation.1 * observation.2, observation.2, 1⟩
      ⟨observation.1, [⟨observation.1, observation.2⟩]⟩ := by
  have hweight : (0 : Decimal) < observation.2 := Int.cast_pos.mpr hpos
  refine ⟨by simp [weightedSum], by simp [mass], rfl, ?_, by simp, fun o ho => ?_,
    frontHeavy_single ⟨observation.1, (observation.2 : Decimal)⟩⟩
  · rw [mul_div_cancel_right₀ _ hweight.ne']
  · rw [List.mem_singleton.mp ho]
    exact hweight

/-- One observation after another, the stack covers all that was seen. -/
theorem foldl_poolBack_pooled : ∀ {observations : List (Decimal × ℤ)} {blocks : List PooledBlock}
    {older : List (Block Decimal)}, (∀ observation ∈ observations, 0 < observation.2) → Pooled blocks older →
    ∃ pooled, Pooled (observations.foldl (fun blocks observation =>
        poolBack ⟨observation.1 * observation.2, observation.2, 1⟩ blocks) blocks) pooled ∧
      sampleOf pooled.reverse = sampleOf older.reverse ++ weighted observations
  | [], _, older, _, hblocks => ⟨older, hblocks, by simp [weighted]⟩
  | observation :: observations, blocks, older, hpos, hblocks => by
    obtain ⟨next, hnext, hsample⟩ :=
      poolBack_pooled hblocks (blockOf_single (hpos observation List.mem_cons_self))
    obtain ⟨pooled, hpooled, hall⟩ := foldl_poolBack_pooled
      (fun other hother => hpos other (List.mem_cons_of_mem _ hother)) hnext
    refine ⟨pooled, hpooled, ?_⟩
    rw [hall, hsample]
    simp [weighted]

theorem zipStrict_map {α β γ : Type} (f : α → β) (g : α → γ) (l : List α) :
    zipStrict (l.map f) (l.map g) = .ok (l.map fun a => (f a, g a)) := by
  simp only [zipStrict, bind_eq_ok, raiseIf_eq_ok, pure_eq_ok, List.length_map, lt_irrefl, not_false_eq_true,
    true_and, exists_const]
  exact List.zip_map'

theorem decimalQuotient_of_pos {dividend divisor : Decimal} (h : 0 < divisor) :
    decimalQuotient dividend divisor = .ok (dividend / divisor) := by
  simp only [decimalQuotient, bind_eq_ok, raiseIf_eq_ok, pure_eq_ok, h.ne', false_and, not_false_eq_true,
    true_and, exists_const]

/-- Reading the blocks off yields the fit of what they cover. -/
theorem levels_of_blocks : ∀ {blocks : List PooledBlock} {pooled : List (Block Decimal)},
    List.Forall₂ BlockOf blocks pooled → ∃ levels, (blocks.mapM fun block => do
      let level ← decimalQuotient block.blockSum block.blockWeight
      return List.replicate block.blockSpan level) = .ok levels ∧ levels.flatten = fitOf pooled
  | [], _, .nil => ⟨[], rfl, rfl⟩
  | block :: blocks, _, .cons hblock hrest => by
    obtain ⟨levels, hlevels, hfit⟩ := levels_of_blocks hrest
    refine ⟨List.replicate block.blockSpan (block.blockSum / block.blockWeight) :: levels, ?_, ?_⟩
    · rw [List.mapM_cons, decimalQuotient_of_pos hblock.weight_pos, hlevels]
      rfl
    · rw [List.flatten_cons, hfit, hblock.span, ← hblock.level]
      rfl

/-- The fit of the bucket means: the isotonic one, level on blocks that keep their weighted mean, with the
    weighted sum of the whole. -/
structure PooledLevels (sample : List (Weighted Decimal)) (levels : List Decimal) : Prop where
  isotonic : IsotonicFit sample levels
  blocks : ∃ pooled : List (Block Decimal), sampleOf pooled = sample ∧ fitOf pooled = levels ∧
    ∀ block ∈ pooled, block.members ≠ [] ∧ block.level * mass block.members = weightedSum block.members
  total : (List.zipWith (fun o level => level * o.weight) sample levels).sum = weightedSum sample

/-- Blocks that keep their weighted mean keep the weighted sum. -/
theorem total_of_blocks : ∀ {pooled : List (Block Decimal)},
    (∀ block ∈ pooled, block.level * mass block.members = weightedSum block.members) →
    (List.zipWith (fun o level => level * o.weight) (sampleOf pooled) (fitOf pooled)).sum =
      weightedSum (sampleOf pooled)
  | [], _ => by simp [sampleOf, fitOf, weightedSum]
  | block :: pooled, h => by
    have hrest := total_of_blocks fun other hother => h other (List.mem_cons_of_mem _ hother)
    have hblock : ∀ members : List (Weighted Decimal), (List.zipWith (fun o level => level * o.weight) members
        (List.replicate members.length block.level)).sum = block.level * mass members := by
      intro members
      induction members with
      | nil => simp [mass]
      | cons o members ih =>
        rw [List.length_cons, List.replicate_succ, List.zipWith_cons_cons, List.sum_cons, ih, mass, mass,
          List.map_cons, List.sum_cons, mul_add]
    have hsample : sampleOf (block :: pooled) = block.members ++ sampleOf pooled := rfl
    have hfit : fitOf (block :: pooled) =
        List.replicate block.members.length block.level ++ fitOf pooled := rfl
    rw [hsample, hfit, List.zipWith_append (by rw [List.length_replicate]), List.sum_append, hrest, hblock,
      h block List.mem_cons_self, weightedSum_append]

/-- Over bucket means and their trade counts the pool divides by no zero, and before it is quantised it
    returns the monotone least-squares fit. -/
theorem pooled_levels_are_the_isotonic_fit (observations : List (Decimal × ℕ+)) :
    ∃ levels,
      pooledLevels (observations.map Prod.fst) (observations.map fun o => ((o.2 : ℕ) : ℤ)) = .ok levels ∧
      poolAdjacentViolators (observations.map Prod.fst) (observations.map fun o => ((o.2 : ℕ) : ℤ)) =
        .ok (levels.map quantized) ∧
      PooledLevels (observations.map fun o => ⟨o.1, ((o.2 : ℕ) : Decimal)⟩) levels := by
  let sample := observations.map fun o => (o.1, ((o.2 : ℕ) : ℤ))
  have hpos : ∀ observation ∈ sample, 0 < observation.2 := by
    intro observation hobservation
    obtain ⟨o, _, rfl⟩ := List.mem_map.mp hobservation
    exact Int.natCast_pos.mpr o.2.pos
  have hweighted : weighted sample = observations.map fun o => ⟨o.1, ((o.2 : ℕ) : Decimal)⟩ := by
    simp [sample, weighted, Function.comp_def]
  have hempty : Pooled [] [] := ⟨.nil, .nil⟩
  obtain ⟨pooled, hpooled, hsample⟩ := foldl_poolBack_pooled hpos hempty
  replace hsample : sampleOf pooled.reverse = weighted sample := hsample
  obtain ⟨levels, hlevels, hfit⟩ := levels_of_blocks (List.rel_reverse hpooled.blocks)
  have hread : pooledLevels (observations.map Prod.fst) (observations.map fun o => ((o.2 : ℕ) : ℤ)) =
      .ok (fitOf pooled.reverse) := by
    rw [pooledLevels, zipStrict_map, ← hfit]
    exact bind_eq_ok.mpr ⟨_, rfl, bind_eq_ok.mpr ⟨levels, hlevels, rfl⟩⟩
  have hblocks : ∀ block ∈ pooled.reverse, FrontHeavy block.level block.members ∧ block.members ≠ [] ∧
      block.level * mass block.members = weightedSum block.members := by
    intro block hblock
    obtain ⟨stacked, _, hof⟩ := exists_left_of_forall₂ hpooled.blocks (List.mem_reverse.mp hblock)
    refine ⟨hof.heavy, hof.nonempty, ?_⟩
    rw [hof.level, ← hof.weight, hof.sum, div_mul_cancel₀ _ hof.weight_pos.ne']
  refine ⟨fitOf pooled.reverse, hread, bind_eq_ok.mpr ⟨_, hread, rfl⟩, ?_⟩
  rw [← hweighted, ← hsample]
  have hpositive : ∀ o ∈ sampleOf pooled.reverse, 0 < o.weight := by
    rw [hsample]
    intro o ho
    obtain ⟨observation, hobservation, rfl⟩ := List.mem_map.mp ho
    exact Int.cast_pos.mpr (hpos observation hobservation)
  refine ⟨?_, ⟨pooled.reverse, rfl, rfl, fun block hblock => (hblocks block hblock).2⟩,
    total_of_blocks fun block hblock => (hblocks block hblock).2.2⟩
  exact isotonicFit_of_blocks (fun block hblock => (hblocks block hblock).1)
    (List.pairwise_reverse.mpr hpooled.levels) hpositive

end FinanceKing.Risk
