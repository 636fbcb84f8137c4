import FinanceKing.Domain.Results
import FinanceKing.Lib.AverageLinkage
import FinanceKing.Risk.Covariance

/-! Average-linkage clustering on the correlation distance, cut at a level. The loop keeps the clusters and a
    matrix of their distances side by side, folds one cluster into another in place and deletes its row and
    column. -/

namespace FinanceKing.Risk

open Lib

variable {K : Type} [Field K] [LinearOrder K] [Root K]

/-- `sqrt(0.5 * (1 - rho))`, the standard correlation metric. -/
def correlationDistance (correlation : K) : PyResult K := do
  raiseIf (1 < |correlation|) .domainError ["correlation is outside [-1, 1]"]
  return root (0.5 * (1 - correlation))

variable (K) in
omit [Field K] [LinearOrder K] [Root K] in
/-- The clusters so far, and how far apart they are. -/
structure Clustering where
  members : List (List String)
  distances : List (List K)
  deriving DecidableEq

omit [LinearOrder K] [Root K] in
def entryAt (distances : List (List K)) (row column : ℕ) : K := (distances.getD row []).getD column 0

/-- Every pair of a row and a later column, row by row. -/
def indexPairs (count : ℕ) : List (ℕ × ℕ) :=
  (List.range count).flatMap fun row =>
    (List.range' (row + 1) (count - (row + 1))).map fun column => (row, column)

/-- The closer of the pair found so far and the next; a tie keeps the first. -/
def closerPair (distances : List (List K)) (closest : (ℕ × ℕ) × K) (pair : ℕ × ℕ) : (ℕ × ℕ) × K :=
  if entryAt distances pair.1 pair.2 < closest.2 then (pair, entryAt distances pair.1 pair.2) else closest

/-- The row and column of the smallest distance between two clusters, lowest indices winning. -/
def closestPair (distances : List (List K)) : ℕ × ℕ :=
  ((indexPairs distances.length).foldl (closerPair distances) ((0, 1), entryAt distances 0 1)).1

omit [Field K] [LinearOrder K] [Root K] in
/-- `distances[row][column] = distance`. -/
def setEntry (distances : List (List K)) (row column : ℕ) (distance : K) : List (List K) :=
  distances.modify row fun entries => entries.set column distance

/-- Another cluster's distance to the joined one, on both sides of the diagonal. -/
def blendStep (firstWeight secondWeight : K) (first second : ℕ) (distances : List (List K)) (other : ℕ) :
    List (List K) :=
  if other = first ∨ other = second then distances
  else
    let blended := (firstWeight * entryAt distances first other + secondWeight * entryAt distances second other) /
      (firstWeight + secondWeight)
    setEntry (setEntry distances first other blended) other first blended

/-- Fold the second cluster of a pair into the first, averaging the distances. -/
def mergeClusters (state : Clustering K) (pair : ℕ × ℕ) : Clustering K :=
  let firstMembers := state.members.getD pair.1 []
  let secondMembers := state.members.getD pair.2 []
  let blended := (List.range state.members.length).foldl
    (blendStep (firstMembers.length : K) (secondMembers.length : K) pair.1 pair.2) state.distances
  { members := (state.members.set pair.1 (firstMembers ++ secondMembers)).eraseIdx pair.2
    distances := (blended.eraseIdx pair.2).map fun row => row.eraseIdx pair.2 }

/-- One pass of the loop; none where it ends. -/
def mergeStep (cutDistance : K) (state : Clustering K) : Option (Clustering K) :=
  if state.members.length ≤ 1 then none
  else if cutDistance <
      entryAt state.distances (closestPair state.distances).1 (closestPair state.distances).2 then none
  else some (mergeClusters state (closestPair state.distances))

/-- The loop, for a number of passes. Each one leaves a cluster less, so as many as there are clusters do. -/
def mergeWhile (cutDistance : K) : ℕ → Clustering K → Clustering K
  | 0, state => state
  | passes + 1, state =>
    match mergeStep cutDistance state with
    | none => state
    | some next => mergeWhile cutDistance passes next

/-- Every symbol its own cluster. -/
def startClustering (matrix : CorrelationMatrix K) : PyResult (Clustering K) := do
  let distances ← matrix.symbols.mapM fun symbolA => matrix.symbols.mapM fun symbolB => do
    let correlation ← matrix.between symbolA symbolB
    correlationDistance correlation
  return ⟨matrix.symbols.map fun symbol => [symbol], distances⟩

/-- A sorted group, named after its first member. -/
def clusterOfGroup (group : List String) : PyResult CorrelationCluster :=
  construct CorrelationClusterFields.postInit CorrelationCluster.mk ⟨group.headD "", group⟩

/-- Average-linkage clustering on the correlation distance, cut at a level. -/
def clusterByCorrelation (matrix : CorrelationMatrix K) (cutCorrelation : K) :
    PyResult (List CorrelationCluster) := do
  let cutDistance ← correlationDistance cutCorrelation
  let start ← startClustering matrix
  let members := (mergeWhile cutDistance start.members.length start).members
  (sortBy (fun group => group.headD "") (members.map (sortBy id))).mapM clusterOfGroup

/-! ### The closest pair -/

theorem mem_indexPairs {count : ℕ} {pair : ℕ × ℕ} : pair ∈ indexPairs count ↔ pair.1 < pair.2 ∧ pair.2 < count := by
  obtain ⟨row, column⟩ := pair
  simp only [indexPairs, List.mem_flatMap, List.mem_range, List.mem_map, List.mem_range'_1, Prod.mk.injEq]
  constructor
  · rintro ⟨_, hrow, _, hcolumn, rfl, rfl⟩
    omega
  · rintro ⟨hlt, hcount⟩
    exact ⟨row, by omega, column, by omega, rfl, rfl⟩

omit [Root K] in
/-- A scan keeps a pair it has seen, its distance beside it, and no seen pair is closer. -/
theorem foldl_closerPair (distances : List (List K)) (start : ℕ × ℕ) (pairs : List (ℕ × ℕ)) :
    ∃ best, pairs.foldl (closerPair distances) (start, entryAt distances start.1 start.2) =
        (best, entryAt distances best.1 best.2) ∧ best ∈ start :: pairs ∧
      ∀ pair ∈ start :: pairs, entryAt distances best.1 best.2 ≤ entryAt distances pair.1 pair.2 := by
  induction pairs using List.reverseRecOn with
  | nil =>
    refine ⟨start, rfl, List.mem_singleton_self _, fun pair hpair => ?_⟩
    rw [List.mem_singleton.mp hpair]
  | append_singleton pairs last ih =>
    obtain ⟨best, hfold, hmem, hleast⟩ := ih
    rw [List.foldl_append, hfold, List.foldl_cons, List.foldl_nil, closerPair]
    split
    · next hcloser =>
      refine ⟨last, rfl, by simp, fun pair hpair => ?_⟩
      rw [← List.cons_append, List.mem_append, List.mem_singleton] at hpair
      rcases hpair with hseen | rfl
      · exact hcloser.le.trans (hleast pair hseen)
      · exact le_rfl
    · next hfurther =>
      refine ⟨best, rfl, by rw [← List.cons_append]; exact List.mem_append_left _ hmem, fun pair hpair => ?_⟩
      rw [← List.cons_append, List.mem_append, List.mem_singleton] at hpair
      rcases hpair with hseen | rfl
      · exact hleast pair hseen
      · exact not_lt.mp hfurther

omit [Root K] in
/-- Of two or more clusters, the pair found is an earlier and a later one, and none is closer. -/
theorem closestPair_spec {distances : List (List K)} (h : 2 ≤ distances.length) :
    (closestPair distances).1 < (closestPair distances).2 ∧ (closestPair distances).2 < distances.length ∧
      ∀ row column, row < column → column < distances.length →
        entryAt distances (closestPair distances).1 (closestPair distances).2 ≤ entryAt distances row column := by
  obtain ⟨best, hfold, hmem, hleast⟩ := foldl_closerPair distances (0, 1) (indexPairs distances.length)
  have hbest : closestPair distances = best := congrArg Prod.fst hfold
  have hin : best ∈ indexPairs distances.length := by
    rcases List.mem_cons.mp hmem with rfl | hin
    · exact mem_indexPairs.mpr ⟨Nat.zero_lt_one, h⟩
    · exact hin
  obtain ⟨hlt, hcount⟩ := mem_indexPairs.mp hin
  rw [hbest]
  exact ⟨hlt, hcount, fun row column hrow hcolumn =>
    hleast (row, column) (List.mem_cons_of_mem _ (mem_indexPairs.mpr ⟨hrow, hcolumn⟩))⟩

end FinanceKing.Risk

/-! The clustering loop is average linkage. At every pass the matrix holds the mean distances between the
    members of the clusters, whatever was joined before; a pass joins two nearest clusters within the cut, and
    the loop ends with all of them further apart. -/

namespace FinanceKing.Risk

open Lib

variable {K : Type} [Field K]

/-! ### Cells of the matrix -/

def cell (distances : List (List K)) (row column : ℕ) : Option K :=
  distances[row]?.bind fun entries => entries[column]?

theorem entryAt_eq (distances : List (List K)) (row column : ℕ) :
    entryAt distances row column = (cell distances row column).getD 0 := by
  rw [entryAt, cell, List.getD_eq_getElem?_getD, List.getD_eq_getElem?_getD]
  cases distances[row]? <;> rfl

theorem entryAt_of_cell {distances : List (List K)} {row column : ℕ} {distance : K}
    (h : cell distances row column = some distance) : entryAt distances row column = distance := by
  rw [entryAt_eq, h, Option.getD_some]

omit [Field K] in
theorem cell_setEntry_self {distances : List (List K)} {row column : ℕ} {old : K}
    (h : cell distances row column = some old) (distance : K) :
    cell (setEntry distances row column distance) row column = some distance := by
  obtain ⟨entries, hrow, hcolumn⟩ := Option.bind_eq_some_iff.mp h
  rw [cell, setEntry, List.getElem?_modify_eq, hrow, Option.map_eq_map, Option.map_some,
    Option.bind_some, List.getElem?_set_self (List.getElem?_eq_some_iff.mp hcolumn).1]

omit [Field K] in
theorem cell_setEntry_of_ne {distances : List (List K)} {row column other otherColumn : ℕ} (distance : K)
    (h : ¬ (other = row ∧ otherColumn = column)) :
    cell (setEntry distances row column distance) other otherColumn = cell distances other otherColumn := by
  rw [cell, cell, setEntry]
  by_cases hrow : other = row
  · subst hrow
    have hcolumn : otherColumn ≠ column := fun hcolumn => h ⟨rfl, hcolumn⟩
    rw [List.getElem?_modify_eq]
    cases distances[other]? with
    | none => rfl
    | some entries =>
      rw [Option.map_eq_map, Option.map_some, Option.bind_some, Option.bind_some,
        List.getElem?_set_ne hcolumn.symm]
  · rw [List.getElem?_modify_ne _ _ (Ne.symm hrow)]

/-- The index a position had before one was deleted. -/
def skip (deleted position : ℕ) : ℕ := if position < deleted then position else position + 1

theorem skip_ne (deleted position : ℕ) : skip deleted position ≠ deleted := by
  rw [skip]
  split <;> omega

theorem skip_inj {deleted position other : ℕ} : skip deleted position = skip deleted other ↔ position = other := by
  rw [skip, skip]
  split <;> split <;> omega

/-- Every index but the deleted one is some position's. -/
theorem exists_skip {deleted index : ℕ} (h : index ≠ deleted) : ∃ position, skip deleted position = index := by
  rcases Nat.lt_or_gt_of_ne h with hbefore | hafter
  · exact ⟨index, if_pos hbefore⟩
  · refine ⟨index - 1, ?_⟩
    rw [skip, if_neg (by omega)]
    omega

theorem getElem?_eraseIdx_skip {α : Type} (l : List α) (deleted position : ℕ) :
    (l.eraseIdx deleted)[position]? = l[skip deleted position]? := by
  rw [List.getElem?_eraseIdx, skip]
  split <;> rfl

omit [Field K] in
theorem cell_delete (distances : List (List K)) (deleted row column : ℕ) :
    cell ((distances.eraseIdx deleted).map fun entries => entries.eraseIdx deleted) row column =
      cell distances (skip deleted row) (skip deleted column) := by
  rw [cell, cell, List.getElem?_map, getElem?_eraseIdx_skip]
  cases distances[skip deleted row]? with
  | none => rfl
  | some entries =>
    rw [Option.map_some, Option.bind_some, Option.bind_some, getElem?_eraseIdx_skip]

/-! ### The distances of a joined cluster -/

/-- A cluster's distance to the joined one. -/
def blendedDistance (firstWeight secondWeight : K) (first second : ℕ) (distances : List (List K)) (other : ℕ) : K :=
  (firstWeight * entryAt distances first other + secondWeight * entryAt distances second other) /
    (firstWeight + secondWeight)

/-- What the blending loop leaves: the joined cluster's distances in its row and its column, and every other
    cell as it was. -/
structure Blended (firstWeight secondWeight : K) (first second count : ℕ) (before after : List (List K)) : Prop where
  length_eq : after.length = before.length
  blended : ∀ other < count, other ≠ first → other ≠ second →
    cell after first other = some (blendedDistance firstWeight secondWeight first second before other) ∧
      cell after other first = some (blendedDistance firstWeight secondWeight first second before other)
  frame : ∀ row column, ¬ (row = first ∧ column < count ∧ column ≠ first ∧ column ≠ second) →
    ¬ (column = first ∧ row < count ∧ row ≠ first ∧ row ≠ second) → cell after row column = cell before row column

/-- One pass of the blending loop. -/
theorem blendStep_blended {firstWeight secondWeight : K} {first second count : ℕ} {before after : List (List K)}
    (hafter : Blended firstWeight secondWeight first second count before after)
    (hcells : count ≠ first → count ≠ second →
      (cell before first count).isSome ∧ (cell before count first).isSome) :
    Blended firstWeight secondWeight first second (count + 1) before
      (blendStep firstWeight secondWeight first second after count) := by
  obtain ⟨hlength, hblended, hframe⟩ := hafter
  rw [blendStep]
  split
  · next hpair =>
    refine ⟨hlength, fun other hother hfirst hsecond => hblended other (by omega) hfirst hsecond,
      fun row column hrow hcolumn => hframe row column ?_ ?_⟩
    · rintro ⟨hsame, hlt, hout⟩
      exact hrow ⟨hsame, by omega, hout⟩
    · rintro ⟨hsame, hlt, hout⟩
      exact hcolumn ⟨hsame, by omega, hout⟩
  · next hpair =>
    rw [not_or] at hpair
    obtain ⟨hfirst, hsecond⟩ := hpair
    obtain ⟨hright, hleft⟩ := hcells hfirst hsecond
    have hrow : cell after first count = cell before first count :=
      hframe first count (fun h => by omega) fun h => by omega
    have hcolumn : cell after count first = cell before count first :=
      hframe count first (fun h => by omega) fun h => by omega
    have hother : cell after second count = cell before second count :=
      hframe second count (fun h => by omega) fun h => by omega
    have hvalue : (firstWeight * entryAt after first count + secondWeight * entryAt after second count) /
        (firstWeight + secondWeight) = blendedDistance firstWeight secondWeight first second before count := by
      rw [blendedDistance, entryAt_eq, entryAt_eq, hrow, hother, ← entryAt_eq, ← entryAt_eq]
    obtain ⟨right, hright⟩ := Option.isSome_iff_exists.mp hright
    obtain ⟨left, hleft⟩ := Option.isSome_iff_exists.mp hleft
    simp only [hvalue]
    set distance := blendedDistance firstWeight secondWeight first second before count
    have hset := cell_setEntry_self (hrow.trans hright) distance
    have hmirror : cell (setEntry after first count distance) count first = some left := by
      rw [cell_setEntry_of_ne _ (fun h => hfirst h.1), hcolumn, hleft]
    refine ⟨by simp [setEntry, hlength], fun other hlt hnefirst hnesecond => ?_, fun row column hoff hoffmirror => ?_⟩
    · rcases Nat.lt_succ_iff_lt_or_eq.mp hlt with hbefore | rfl
      · obtain ⟨hat, hatmirror⟩ := hblended other hbefore hnefirst hnesecond
        rw [cell_setEntry_of_ne _ (fun h => hfirst h.1.symm), cell_setEntry_of_ne _ (fun h => by omega),
          cell_setEntry_of_ne _ (fun h => by omega), cell_setEntry_of_ne _ (fun h => hnefirst h.1)]
        exact ⟨hat, hatmirror⟩
      · rw [cell_setEntry_of_ne _ (fun h => hfirst h.1.symm)]
        exact ⟨hset, cell_setEntry_self hmirror distance⟩
    · rw [cell_setEntry_of_ne _ (fun h => hoffmirror (by omega)), cell_setEntry_of_ne _ (fun h => hoff (by omega))]
      refine hframe row column (fun h => hoff (by omega)) fun h => hoffmirror (by omega)

/-- The blending loop over every cluster. -/
theorem foldl_blendStep_blended {firstWeight secondWeight : K} {first second : ℕ} {distances : List (List K)} :
    ∀ count, (∀ other < count, other ≠ first → other ≠ second →
      (cell distances first other).isSome ∧ (cell distances other first).isSome) →
        Blended firstWeight secondWeight first second count distances
          ((List.range count).foldl (blendStep firstWeight secondWeight first second) distances)
  | 0, _ => ⟨rfl, fun other h => absurd h (Nat.not_lt_zero other), fun _ _ _ _ => rfl⟩
  | count + 1, hcells => by
    rw [List.range_succ, List.foldl_append]
    exact blendStep_blended
      (foldl_blendStep_blended count fun other hother => hcells other (Nat.lt_succ_of_lt hother))
      (hcells count (Nat.lt_succ_self count))

/-! ### The clusters after a pass -/

theorem perm_cons_eraseIdx {α : Type} {a : α} {l : List α} {i : ℕ} (h : l[i]? = some a) :
    l.Perm (a :: l.eraseIdx i) := by
  obtain ⟨hi, rfl⟩ := List.getElem?_eq_some_iff.mp h
  exact (List.getElem_cons_eraseIdx_perm hi).symm

section

variable {state : Clustering K} {first second : ℕ} {firstMembers secondMembers : List String}

/-- A pass takes two clusters out and puts their union in; the rest stay. -/
theorem mergeClusters_perm (hlt : first < second) (hfirst : state.members[first]? = some firstMembers)
    (hsecond : state.members[second]? = some secondMembers) :
    ∃ rest, state.members.Perm (firstMembers :: secondMembers :: rest) ∧
      (mergeClusters state (first, second)).members.Perm ((firstMembers ++ secondMembers) :: rest) := by
  have hkept : (state.members.eraseIdx second)[first]? = some firstMembers := by
    rw [List.getElem?_eraseIdx_of_lt hlt, hfirst]
  have hmembers : (mergeClusters state (first, second)).members =
      (state.members.set first (firstMembers ++ secondMembers)).eraseIdx second := by
    simp only [mergeClusters, List.getD_eq_getElem?_getD, hfirst, hsecond, Option.getD_some]
  refine ⟨(state.members.eraseIdx second).eraseIdx first, ?_, ?_⟩
  · exact (perm_cons_eraseIdx hsecond).trans
      (((perm_cons_eraseIdx hkept).cons secondMembers).trans (List.Perm.swap ..))
  · rw [hmembers, List.eraseIdx_set_gt hlt]
    exact List.set_perm_cons_eraseIdx (List.getElem?_eq_some_iff.mp hkept).1 _

theorem getElem?_mergeClusters (hfirst : state.members[first]? = some firstMembers)
    (hsecond : state.members[second]? = some secondMembers) (position : ℕ) :
    (mergeClusters state (first, second)).members[position]? =
      if skip second position = first then some (firstMembers ++ secondMembers)
      else state.members[skip second position]? := by
  have hbound := (List.getElem?_eq_some_iff.mp hfirst).1
  simp only [mergeClusters, List.getD_eq_getElem?_getD, hfirst, hsecond, Option.getD_some]
  rw [getElem?_eraseIdx_skip]
  split
  · next hskip => rw [hskip, List.getElem?_set_self hbound]
  · next hskip => rw [List.getElem?_set_ne (Ne.symm hskip)]

end

/-! ### The invariant -/

/-- What the loop keeps: the clusters are a partition of the symbols, none of them empty, and the matrix holds
    the mean distance of every two of them. -/
structure Linked (d : String → String → K) (symbols : List String) (state : Clustering K) : Prop where
  perm : state.members.flatten.Perm symbols
  ne_nil : ∀ group ∈ state.members, group ≠ []
  length_eq : state.distances.length = state.members.length
  mean : ∀ {i j : ℕ} {A B : List String}, state.members[i]? = some A → state.members[j]? = some B → i ≠ j →
    cell state.distances i j = some (meanDistance d A.toFinset B.toFinset)

/-- The clusters, as sets. -/
def partsOf (state : Clustering K) : Finset (Finset String) := (state.members.map List.toFinset).toFinset

section

variable {d : String → String → K} {symbols : List String} {state : Clustering K}

theorem Linked.nodup (h : Linked d symbols state) (hnodup : symbols.Nodup) :
    (∀ group ∈ state.members, group.Nodup) ∧ state.members.Pairwise List.Disjoint :=
  List.nodup_flatten.mp (h.perm.nodup_iff.mpr hnodup)

theorem Linked.mem_symbols (h : Linked d symbols state) {group : List String} (hgroup : group ∈ state.members)
    {symbol : String} (hsymbol : symbol ∈ group) : symbol ∈ symbols :=
  h.perm.subset (List.mem_flatten.mpr ⟨group, hgroup, hsymbol⟩)

/-- Clusters of disjoint non-empty groups are different sets. -/
theorem nodup_map_toFinset {groups : List (List String)} (hne : ∀ group ∈ groups, group ≠ [])
    (hdisjoint : groups.Pairwise List.Disjoint) : (groups.map List.toFinset).Nodup := by
  refine List.pairwise_map.mpr (hdisjoint.imp_of_mem fun {A B} hA _ hdisjoint hsame => ?_)
  obtain ⟨symbol, hsymbol⟩ := List.exists_mem_of_ne_nil A (hne A hA)
  exact hdisjoint hsymbol (List.mem_toFinset.mp (hsame ▸ List.mem_toFinset.mpr hsymbol))

/-- Two clusters at different places are different sets. -/
theorem Linked.ne_of_ne (h : Linked d symbols state) (hnodup : symbols.Nodup) {i j : ℕ} {A B : List String}
    (hA : state.members[i]? = some A) (hB : state.members[j]? = some B) (hne : i ≠ j) :
    A.toFinset ≠ B.toFinset := by
  have hsets := nodup_map_toFinset h.ne_nil (h.nodup hnodup).2
  intro hsame
  have hi : (state.members.map List.toFinset)[i]? = some A.toFinset := by rw [List.getElem?_map, hA, Option.map_some]
  have hj : (state.members.map List.toFinset)[j]? = some A.toFinset := by
    rw [List.getElem?_map, hB, Option.map_some, hsame]
  exact hne ((List.getElem?_inj (List.getElem?_eq_some_iff.mp hi).1 hsets).mp (hi.trans hj.symm))

omit [Field K] in
/-- Two different clusters stand at different places. -/
theorem exists_places {A B : Finset String} (hA : A ∈ partsOf state) (hB : B ∈ partsOf state) (hne : A ≠ B) :
    ∃ (i j : ℕ) (groupA groupB : List String), state.members[i]? = some groupA ∧ state.members[j]? = some groupB ∧ i ≠ j ∧
      groupA.toFinset = A ∧ groupB.toFinset = B := by
  obtain ⟨groupA, hgroupA, rfl⟩ := List.mem_map.mp (List.mem_toFinset.mp hA)
  obtain ⟨groupB, hgroupB, rfl⟩ := List.mem_map.mp (List.mem_toFinset.mp hB)
  obtain ⟨i, hi⟩ := List.mem_iff_getElem?.mp hgroupA
  obtain ⟨j, hj⟩ := List.mem_iff_getElem?.mp hgroupB
  refine ⟨i, j, groupA, groupB, hi, hj, ?_, rfl, rfl⟩
  rintro rfl
  rw [hi, Option.some.injEq] at hj
  exact hne (congrArg _ hj)

omit [Field K] in
theorem mem_partsOf {i : ℕ} {group : List String} (h : state.members[i]? = some group) :
    group.toFinset ∈ partsOf state :=
  List.mem_toFinset.mpr (List.mem_map_of_mem (List.mem_of_getElem? h))

/-- The clusters after a pass, as sets. -/
theorem partsOf_mergeClusters (h : Linked d symbols state) (hnodup : symbols.Nodup) {first second : ℕ}
    {firstMembers secondMembers : List String} (hlt : first < second)
    (hfirst : state.members[first]? = some firstMembers) (hsecond : state.members[second]? = some secondMembers) :
    partsOf (mergeClusters state (first, second)) =
      insert (firstMembers.toFinset ∪ secondMembers.toFinset)
        (((partsOf state).erase firstMembers.toFinset).erase secondMembers.toFinset) := by
  obtain ⟨rest, hbefore, hafter⟩ := mergeClusters_perm hlt hfirst hsecond
  have hsets := (hbefore.map List.toFinset).nodup_iff.mp (nodup_map_toFinset h.ne_nil (h.nodup hnodup).2)
  simp only [List.map_cons, List.nodup_cons, List.mem_cons, not_or] at hsets
  obtain ⟨⟨hne, hfirstout⟩, hsecondout, _⟩ := hsets
  have hparts : partsOf state = insert firstMembers.toFinset (insert secondMembers.toFinset
      (rest.map List.toFinset).toFinset) := by
    rw [partsOf, List.toFinset_eq_of_perm _ _ (hbefore.map List.toFinset)]
    simp only [List.map_cons, List.toFinset_cons]
  rw [hparts, Finset.erase_insert (by simp [hne, hfirstout]), Finset.erase_insert (by simpa using hsecondout),
    partsOf, List.toFinset_eq_of_perm _ _ (hafter.map List.toFinset), List.map_cons, List.toFinset_cons,
    List.toFinset_append]

theorem length_mergeClusters {first second : ℕ} (hsecond : second < state.members.length) :
    (mergeClusters state (first, second)).members.length + 1 = state.members.length := by
  simp only [mergeClusters]
  rw [List.length_eraseIdx_of_lt (by simpa using hsecond), List.length_set]
  omega

/-- The distance the matrix holds of a joined cluster is its mean distance. -/
theorem blendedDistance_eq [CharZero K] (h : Linked d symbols state) (hnodup : symbols.Nodup) {first second other : ℕ}
    {firstMembers secondMembers group : List String} (hne : first ≠ second)
    (hfirst : state.members[first]? = some firstMembers) (hsecond : state.members[second]? = some secondMembers)
    (hother : state.members[other]? = some group) (hnefirst : other ≠ first) (hnesecond : other ≠ second) :
    blendedDistance (firstMembers.length : K) (secondMembers.length : K) first second state.distances other =
      meanDistance d (firstMembers ++ secondMembers).toFinset group.toFinset := by
  obtain ⟨hgroups, hdisjoint⟩ := h.nodup hnodup
  have hmemfirst := List.mem_of_getElem? hfirst
  have hmemsecond := List.mem_of_getElem? hsecond
  have hapart : Disjoint firstMembers.toFinset secondMembers.toFinset := by
    rw [List.disjoint_toFinset_iff_disjoint]
    obtain ⟨hi, rfl⟩ := List.getElem?_eq_some_iff.mp hfirst
    obtain ⟨hj, rfl⟩ := List.getElem?_eq_some_iff.mp hsecond
    rcases Nat.lt_or_gt_of_ne hne with hlt | hlt
    · exact List.pairwise_iff_getElem.mp hdisjoint _ _ hi hj hlt
    · exact (List.pairwise_iff_getElem.mp hdisjoint _ _ hj hi hlt).symm
  rw [blendedDistance, entryAt_of_cell (h.mean hfirst hother hnefirst.symm),
    entryAt_of_cell (h.mean hsecond hother hnesecond.symm), List.toFinset_append,
    meanDistance_union d hapart (List.toFinset_nonempty_iff _ |>.mpr (h.ne_nil _ hmemfirst))
      (List.toFinset_nonempty_iff _ |>.mpr (h.ne_nil _ hmemsecond)),
    List.toFinset_card_of_nodup (hgroups _ hmemfirst), List.toFinset_card_of_nodup (hgroups _ hmemsecond)]

/-- A pass keeps the invariant. -/
theorem mergeClusters_linked [CharZero K] (hsymmetric : ∀ a ∈ symbols, ∀ b ∈ symbols, d a b = d b a)
    (h : Linked d symbols state) (hnodup : symbols.Nodup) {first second : ℕ}
    {firstMembers secondMembers : List String} (hlt : first < second)
    (hfirst : state.members[first]? = some firstMembers) (hsecond : state.members[second]? = some secondMembers) :
    Linked d symbols (mergeClusters state (first, second)) := by
  obtain ⟨rest, hbefore, hafter⟩ := mergeClusters_perm hlt hfirst hsecond
  have hbound := (List.getElem?_eq_some_iff.mp hsecond).1
  have hmemfirst := List.mem_of_getElem? hfirst
  have hmemsecond := List.mem_of_getElem? hsecond
  have hblended : Blended (firstMembers.length : K) (secondMembers.length : K) first second state.members.length
      state.distances _ := foldl_blendStep_blended state.members.length fun other hother hnefirst hnesecond => by
    have hgroup : state.members[other]? = some _ := List.getElem?_eq_getElem hother
    rw [h.mean hfirst hgroup hnefirst.symm, h.mean hgroup hfirst hnefirst]
    exact ⟨rfl, rfl⟩
  have hcell : ∀ row column, cell (mergeClusters state (first, second)).distances row column =
      cell ((List.range state.members.length).foldl (blendStep (firstMembers.length : K) (secondMembers.length : K)
        first second) state.distances) (skip second row) (skip second column) := by
    intro row column
    simp only [mergeClusters, List.getD_eq_getElem?_getD, hfirst, hsecond, Option.getD_some]
    exact cell_delete ..
  refine ⟨?_, fun group hgroup => ?_, ?_, fun {i j A B} hA hB hne => ?_⟩
  · have hflat := hbefore.flatten.symm.trans h.perm
    rw [List.flatten_cons, List.flatten_cons, ← List.append_assoc] at hflat
    exact hafter.flatten.trans hflat
  · rcases List.mem_cons.mp (hafter.subset hgroup) with rfl | hold
    · exact fun hnil => h.ne_nil _ hmemfirst (List.append_eq_nil_iff.mp hnil).1
    · exact h.ne_nil group (hbefore.symm.subset (List.mem_cons_of_mem _ (List.mem_cons_of_mem _ hold)))
  · have hcount : (mergeClusters state (first, second)).members.length + 1 = state.members.length :=
      length_mergeClusters hbound
    have hdistances : (mergeClusters state (first, second)).distances.length + 1 = state.distances.length := by
      simp only [mergeClusters, List.getD_eq_getElem?_getD, hfirst, hsecond, Option.getD_some, List.length_map]
      rw [List.length_eraseIdx_of_lt (by rw [hblended.length_eq, h.length_eq]; exact hbound), hblended.length_eq,
        h.length_eq]
      omega
    have hlength := h.length_eq
    omega
  · rw [getElem?_mergeClusters hfirst hsecond] at hA hB
    have hskip : skip second i ≠ skip second j := fun hsame => hne (skip_inj.mp hsame)
    have hi := skip_ne second i
    have hj := skip_ne second j
    rw [hcell]
    split at hA
    · next hjoined =>
      rw [hjoined] at hskip
      rw [if_neg hskip.symm] at hB
      rw [← Option.some.inj hA, hjoined, (hblended.blended _ (List.getElem?_eq_some_iff.mp hB).1 hskip.symm hj).1,
        blendedDistance_eq h hnodup hlt.ne hfirst hsecond hB hskip.symm hj]
    · next hapart =>
      split at hB
      · next hjoined =>
        rw [← Option.some.inj hB, hjoined, (hblended.blended _ (List.getElem?_eq_some_iff.mp hA).1 hapart hi).2,
          blendedDistance_eq h hnodup hlt.ne hfirst hsecond hA hapart hi]
        refine congrArg some (meanDistance_comm fun a ha b hb => hsymmetric a ?_ b ?_)
        · rw [List.toFinset_append, Finset.mem_union, List.mem_toFinset, List.mem_toFinset] at ha
          exact ha.elim (h.mem_symbols hmemfirst) (h.mem_symbols hmemsecond)
        · exact h.mem_symbols (List.mem_of_getElem? hA) (List.mem_toFinset.mp hb)
      · next hother =>
        rw [hblended.frame _ _ (fun hrow => hapart hrow.1) (fun hcolumn => hother hcolumn.1)]
        exact h.mean hA hB hskip

end

end FinanceKing.Risk
