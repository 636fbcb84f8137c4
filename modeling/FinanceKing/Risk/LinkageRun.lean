import FinanceKing.Risk.Linkage

/-! The whole clustering run: it ends after at most as many passes as there are symbols, on a partition of them
    that average linkage cannot join further, and renames with the symbols where no two mean distances met are
    equal. -/

namespace FinanceKing.Risk

open Lib

section

variable {K : Type} [Field K] [LinearOrder K] [IsStrictOrderedRing K]

/-! ### A pass -/

section

variable {d : String → String → K} {symbols : List String} {cutDistance : K} {state next : Clustering K}

omit [IsStrictOrderedRing K] in
/-- No two clusters are closer on average than the pair the matrix names. -/
theorem closestPair_le_meanDistance (hsymmetric : ∀ a ∈ symbols, ∀ b ∈ symbols, d a b = d b a)
    (hlinked : Linked d symbols state) {C D : Finset String} (hC : C ∈ partsOf state) (hD : D ∈ partsOf state)
    (hne : C ≠ D) : entryAt state.distances (closestPair state.distances).1 (closestPair state.distances).2 ≤
      meanDistance d C D := by
  obtain ⟨i, j, groupC, groupD, hi, hj, hplaces, rfl, rfl⟩ := exists_places hC hD hne
  have hboundi := (List.getElem?_eq_some_iff.mp hi).1
  have hboundj := (List.getElem?_eq_some_iff.mp hj).1
  have hcount : 2 ≤ state.distances.length := by
    rw [hlinked.length_eq]
    omega
  have hleast := (closestPair_spec hcount).2.2
  rw [hlinked.length_eq] at hleast
  rcases Nat.lt_or_gt_of_ne hplaces with hrow | hrow
  · rw [← entryAt_of_cell (hlinked.mean hi hj hplaces)]
    exact hleast i j hrow hboundj
  · rw [meanDistance_comm fun a ha b hb => hsymmetric a
        (hlinked.mem_symbols (List.mem_of_getElem? hi) (List.mem_toFinset.mp ha)) b
        (hlinked.mem_symbols (List.mem_of_getElem? hj) (List.mem_toFinset.mp hb)),
      ← entryAt_of_cell (hlinked.mean hj hi hplaces.symm)]
    exact hleast j i hrow hboundi

/-- A pass joins two nearest clusters within the cut, and keeps the invariant. -/
theorem mergeStep_joins (hsymmetric : ∀ a ∈ symbols, ∀ b ∈ symbols, d a b = d b a) (hnodup : symbols.Nodup)
    (hlinked : Linked d symbols state) (h : mergeStep cutDistance state = some next) :
    Linked d symbols next ∧ Joins d cutDistance (partsOf state) (partsOf next) ∧
      next.members.length + 1 = state.members.length := by
  have hclosest := fun C hC D hD hne => closestPair_le_meanDistance (C := C) (D := D) hsymmetric hlinked hC hD hne
  rw [mergeStep] at h
  split at h
  · cases h
  next hmany =>
  split at h
  · cases h
  next hnear =>
  obtain rfl := Option.some.inj h
  have hcount : 2 ≤ state.distances.length := by
    rw [hlinked.length_eq]
    omega
  obtain ⟨hlt, hbound, _⟩ := closestPair_spec hcount
  rw [hlinked.length_eq] at hbound
  have hfirst : state.members[(closestPair state.distances).1]? = some _ :=
    List.getElem?_eq_getElem (hlt.trans hbound)
  have hsecond : state.members[(closestPair state.distances).2]? = some _ := List.getElem?_eq_getElem hbound
  have hmean := entryAt_of_cell (hlinked.mean hfirst hsecond hlt.ne)
  rw [hmean] at hclosest hnear
  exact ⟨mergeClusters_linked hsymmetric hlinked hnodup hlt hfirst hsecond,
    ⟨_, mem_partsOf hfirst, _, mem_partsOf hsecond, hlinked.ne_of_ne hnodup hfirst hsecond hlt.ne, hclosest,
      not_lt.mp hnear, partsOf_mergeClusters hlinked hnodup hlt hfirst hsecond⟩, length_mergeClusters hbound⟩

omit [IsStrictOrderedRing K] in
/-- The loop ends where every two clusters are further apart than the cut. -/
theorem mergeStep_none_separated (hsymmetric : ∀ a ∈ symbols, ∀ b ∈ symbols, d a b = d b a)
    (hlinked : Linked d symbols state) (h : mergeStep cutDistance state = none) :
    Separated d cutDistance (partsOf state) := by
  intro C hC D hD hne
  have hclosest := closestPair_le_meanDistance hsymmetric hlinked hC hD hne
  rw [mergeStep] at h
  split at h
  · next hfew =>
    obtain ⟨i, j, _, _, hi, hj, hplaces, _⟩ := exists_places hC hD hne
    have hboundi := (List.getElem?_eq_some_iff.mp hi).1
    have hboundj := (List.getElem?_eq_some_iff.mp hj).1
    omega
  split at h
  · next hfar => exact hfar.trans_le hclosest
  · cases h

end

/-! ### The loop -/

/-- One pass of the loop leads from a state to the next. -/
def Passes (cutDistance : K) (state next : Clustering K) : Prop := mergeStep cutDistance state = some next

section

variable {d : String → String → K} {symbols : List String} {cutDistance : K} {start state : Clustering K}

/-- Every state of a run keeps the invariant, and its clusters are joins of the first ones. -/
theorem passes_linked (hsymmetric : ∀ a ∈ symbols, ∀ b ∈ symbols, d a b = d b a) (hnodup : symbols.Nodup)
    (hstart : Linked d symbols start) (h : Relation.ReflTransGen (Passes cutDistance) start state) :
    Linked d symbols state ∧ Relation.ReflTransGen (Joins d cutDistance) (partsOf start) (partsOf state) := by
  induction h with
  | refl => exact ⟨hstart, .refl⟩
  | tail _ hpass ih =>
    obtain ⟨hlinked, hjoins, _⟩ := mergeStep_joins hsymmetric hnodup ih.1 hpass
    exact ⟨hlinked, ih.2.tail hjoins⟩

/-- With a pass for every cluster the loop has ended. -/
theorem mergeWhile_spec (hsymmetric : ∀ a ∈ symbols, ∀ b ∈ symbols, d a b = d b a) (hnodup : symbols.Nodup) :
    ∀ {passes : ℕ} {start : Clustering K}, Linked d symbols start → start.members.length ≤ passes →
      Relation.ReflTransGen (Passes cutDistance) start (mergeWhile cutDistance passes start) ∧
        mergeStep cutDistance (mergeWhile cutDistance passes start) = none
  | 0, start, _, hpasses => by
    refine ⟨.refl, ?_⟩
    rw [mergeWhile, mergeStep, if_pos (by omega)]
  | passes + 1, start, hlinked, hpasses => by
    rw [mergeWhile]
    cases hstep : mergeStep cutDistance start with
    | none => exact ⟨.refl, hstep⟩
    | some next =>
      obtain ⟨hnext, _, hlength⟩ := mergeStep_joins hsymmetric hnodup hlinked hstep
      have hleft : next.members.length ≤ passes := by omega
      obtain ⟨hrun, hend⟩ := mergeWhile_spec hsymmetric hnodup hnext hleft
      exact ⟨.head hstep hrun, hend⟩

/-- Where the mean distances of every state of a run are distinct, every way of joining its first clusters
    meets only its states. -/
theorem passes_of_joins (hsymmetric : ∀ a ∈ symbols, ∀ b ∈ symbols, d a b = d b a) (hnodup : symbols.Nodup)
    (hstart : Linked d symbols start)
    (hdistinct : ∀ state, Relation.ReflTransGen (Passes cutDistance) start state → DistinctMeans d (partsOf state))
    {P : Finset (Finset String)} (h : Relation.ReflTransGen (Joins d cutDistance) (partsOf start) P) :
    ∃ state, Relation.ReflTransGen (Passes cutDistance) start state ∧ partsOf state = P := by
  induction h with
  | refl => exact ⟨start, .refl, rfl⟩
  | tail _ hjoins ih =>
    obtain ⟨state, hrun, rfl⟩ := ih
    obtain ⟨hlinked, _⟩ := passes_linked hsymmetric hnodup hstart hrun
    cases hstep : mergeStep cutDistance state with
    | none => exact absurd (mergeStep_none_separated hsymmetric hlinked hstep) hjoins.not_separated
    | some next =>
      exact ⟨next, hrun.tail hstep, (mergeStep_joins hsymmetric hnodup hlinked hstep).2.1.unique
        (hdistinct state hrun) hjoins⟩

end

/-! ### The first clusters -/

variable [Root K]

/-- The correlation distance between two symbols. -/
def symbolDistance (matrix : CorrelationMatrix K) (symbolA symbolB : String) : K :=
  root (0.5 * (1 - matrix.entry symbolA symbolB))

omit [IsStrictOrderedRing K] in
theorem symbolDistance_comm (matrix : CorrelationMatrix K) :
    ∀ a ∈ matrix.symbols, ∀ b ∈ matrix.symbols, symbolDistance matrix a b = symbolDistance matrix b a := by
  intro a ha b hb
  rw [symbolDistance, symbolDistance, (matrix.entry_facts ha hb).2.2.2]

omit [IsStrictOrderedRing K] in
theorem correlationDistance_eq_ok {correlation : K} (h : |correlation| ≤ 1) :
    correlationDistance correlation = .ok (root (0.5 * (1 - correlation))) := by
  rw [correlationDistance, raiseIf, if_neg (not_lt.mpr h)]
  rfl

omit [Root K] in
theorem half_eq : (0.5 : K) = 1 / 2 := by norm_num

omit [IsStrictOrderedRing K] in
/-- Every symbol by itself, at the distances of the matrix. -/
theorem startClustering_eq_ok (matrix : CorrelationMatrix K) : startClustering matrix = .ok
    ⟨matrix.symbols.map fun symbol => [symbol],
      matrix.symbols.map fun symbolA => matrix.symbols.map (symbolDistance matrix symbolA)⟩ := by
  have hentry : ∀ symbolA ∈ matrix.symbols, ∀ symbolB ∈ matrix.symbols,
      (do
        let correlation ← matrix.between symbolA symbolB
        correlationDistance correlation) = .ok (symbolDistance matrix symbolA symbolB) := by
    intro symbolA hA symbolB hB
    obtain ⟨hlookup, hbound, _⟩ := matrix.entry_facts hA hB
    rw [CorrelationMatrix.between, hlookup]
    exact correlationDistance_eq_ok hbound
  have hrow : ∀ symbolA ∈ matrix.symbols, (matrix.symbols.mapM fun symbolB => do
      let correlation ← matrix.between symbolA symbolB
      correlationDistance correlation) = .ok (matrix.symbols.map (symbolDistance matrix symbolA)) :=
    fun symbolA hA => mapM_eq_ok_iff.mpr
      (List.forall₂_map_right_iff.mpr (List.forall₂_same.mpr fun symbolB hB => hentry symbolA hA symbolB hB))
  simp only [startClustering, bind_eq_ok, pure_eq_ok]
  exact ⟨_, mapM_eq_ok_iff.mpr (List.forall₂_map_right_iff.mpr (List.forall₂_same.mpr hrow)), rfl⟩

omit [IsStrictOrderedRing K] in
theorem startClustering_linked {matrix : CorrelationMatrix K} {start : Clustering K}
    (h : startClustering matrix = .ok start) : Linked (symbolDistance matrix) matrix.symbols start := by
  rw [startClustering_eq_ok] at h
  obtain rfl := Except.ok.inj h
  refine ⟨?_, ?_, by simp, fun {i j A B} hA hB _ => ?_⟩
  · rw [← List.flatMap_def, List.flatMap_singleton']
  · intro group hgroup
    obtain ⟨symbol, _, rfl⟩ := List.mem_map.mp hgroup
    exact List.cons_ne_nil _ _
  · rw [List.getElem?_map] at hA hB
    obtain ⟨symbolA, hi, rfl⟩ := Option.map_eq_some_iff.mp hA
    obtain ⟨symbolB, hj, rfl⟩ := Option.map_eq_some_iff.mp hB
    rw [cell, List.getElem?_map, hi, Option.map_some, Option.bind_some, List.getElem?_map, hj, Option.map_some]
    exact congrArg some (meanDistance_singleton _ _ _).symm

/-! ### The clusters returned -/

/-- The clusters, as sets. -/
def clusterSets (clusters : List CorrelationCluster) : Finset (Finset String) :=
  (clusters.map fun cluster => cluster.symbols.toFinset).toFinset

/-- A sorted group with a member makes a cluster. -/
theorem clusterOfGroup_ok {group : List String} (hne : group ≠ []) (hsorted : sortBy id group = group) :
    ∃ cluster, clusterOfGroup group = .ok cluster ∧ cluster.symbols = group := by
  have hchecked : (⟨group.headD "", group⟩ : CorrelationClusterFields).postInit = .ok () := by
    obtain ⟨first, rest, rfl⟩ := List.exists_cons_of_ne_nil hne
    simp [CorrelationClusterFields.postInit, hsorted]
  exact ⟨⟨_, hchecked⟩, construct_ok hchecked, rfl⟩

omit [Field K] [LinearOrder K] [IsStrictOrderedRing K] [Root K] in
/-- The groups a loop ends on, sorted, are the clusters. -/
theorem mapM_clusterOfGroup {groups : List (List String)} (hne : ∀ group ∈ groups, group ≠ []) :
    ∃ clusters, (sortBy (fun group => group.headD "") (groups.map (sortBy id))).mapM clusterOfGroup = .ok clusters ∧
      (clusters.map fun cluster => cluster.symbols).Perm (groups.map (sortBy id)) := by
  obtain ⟨clusters, hclusters, hpairs⟩ := exists_mapM
    (fun (cluster : CorrelationCluster) (group : List String) => cluster.symbols = group)
    (f := clusterOfGroup) (l := sortBy (fun group => group.headD "") (groups.map (sortBy id)))
    fun group hgroup => by
      obtain ⟨raw, hraw, rfl⟩ := List.mem_map.mp ((mem_sortBy _).mp hgroup)
      refine clusterOfGroup_ok (fun hnil => hne raw hraw ?_) (sortBy_eq_self id (pairwise_sortBy id raw))
      exact List.length_eq_zero_iff.mp ((perm_sortBy id raw).length_eq ▸ congrArg List.length hnil)
  refine ⟨clusters, hclusters, ?_⟩
  have hsame : clusters.map (fun cluster => cluster.symbols) =
      sortBy (fun group => group.headD "") (groups.map (sortBy id)) := by
    rw [← List.forall₂_eq_eq_eq, List.forall₂_map_left_iff]
    exact hpairs
  rw [hsame]
  exact perm_sortBy _ _

/-! ### The run -/

/-- A run of the loop and the clusters it returned: the matrix held mean distances throughout, every pass joined
    two nearest clusters within the cut, and the clusters are a partition of the symbols whose mean distances
    are all above it. -/
structure AverageLinkageRun (matrix : CorrelationMatrix K) (cutDistance : K) (start : Clustering K)
    (clusters : List CorrelationCluster) : Prop where
  linked : ∀ state, Relation.ReflTransGen (Passes cutDistance) start state →
    Linked (symbolDistance matrix) matrix.symbols state
  joins : ∀ state next, Relation.ReflTransGen (Passes cutDistance) start state →
    mergeStep cutDistance state = some next →
      Joins (symbolDistance matrix) cutDistance (partsOf state) (partsOf next)
  ends : ∃ state, Relation.ReflTransGen (Passes cutDistance) start state ∧ mergeStep cutDistance state = none ∧
    clusterSets clusters = partsOf state
  partition : (clusters.flatMap fun cluster => cluster.symbols).Perm matrix.symbols
  separated : Separated (symbolDistance matrix) cutDistance (clusterSets clusters)

theorem clusterByCorrelation_eq_ok (matrix : CorrelationMatrix K) {cut : K} (hcut : |cut| ≤ 1) :
    ∃ start clusters, startClustering matrix = .ok start ∧ clusterByCorrelation matrix cut = .ok clusters ∧
      AverageLinkageRun matrix (root (1 / 2 * (1 - cut))) start clusters := by
  obtain ⟨start, hstart⟩ : ∃ start, startClustering matrix = .ok start := ⟨_, startClustering_eq_ok matrix⟩
  have hsymmetric := symbolDistance_comm matrix
  have hnodup := matrix.nodup_symbols
  have hfirst := startClustering_linked hstart
  set final := mergeWhile (root (1 / 2 * (1 - cut))) start.members.length start
  obtain ⟨hrun, hend⟩ : Relation.ReflTransGen (Passes (root (1 / 2 * (1 - cut)))) start final ∧
      mergeStep (root (1 / 2 * (1 - cut))) final = none :=
    mergeWhile_spec hsymmetric hnodup hfirst le_rfl
  obtain ⟨hlinked, _⟩ := passes_linked hsymmetric hnodup hfirst hrun
  obtain ⟨clusters, hclusters, hperm⟩ := mapM_clusterOfGroup hlinked.ne_nil
  have hsorted : (final.members.map (sortBy id)).flatten.Perm final.members.flatten := by
    rw [← List.flatMap_def]
    conv_rhs => rw [← List.map_id final.members, ← List.flatMap_def]
    exact List.Perm.flatMap_left _ fun group _ => perm_sortBy id group
  have hsets : clusterSets clusters = partsOf final := by
    have hsame : final.members.map (List.toFinset ∘ sortBy id) = final.members.map List.toFinset :=
      List.map_congr_left fun group _ => List.toFinset_eq_of_perm _ _ (perm_sortBy id group)
    have hsetperm := hperm.map List.toFinset
    rw [List.map_map, List.map_map, hsame] at hsetperm
    exact List.toFinset_eq_of_perm _ _ hsetperm
  refine ⟨start, clusters, hstart, ?_, fun state hstate => (passes_linked hsymmetric hnodup hfirst hstate).1,
    fun state next hstate hpass => ?_, ⟨final, hrun, hend, hsets⟩, ?_, ?_⟩
  · rw [clusterByCorrelation, correlationDistance_eq_ok hcut, half_eq, hstart]
    exact hclusters
  · exact (mergeStep_joins hsymmetric hnodup (passes_linked hsymmetric hnodup hfirst hstate).1 hpass).2.1
  · rw [List.flatMap_def]
    exact hperm.flatten.trans (hsorted.trans hlinked.perm)
  · rw [hsets]
    exact mergeStep_none_separated hsymmetric hlinked hend

/-! ### Renaming -/

/-- A matrix under other names: another order of the symbols, the same correlations. -/
structure IsRenaming (rename : String → String) (matrix renamed : CorrelationMatrix K) : Prop where
  injective : rename.Injective
  symbols : renamed.symbols.Perm (matrix.symbols.map rename)
  entry : ∀ a ∈ matrix.symbols, ∀ b ∈ matrix.symbols, renamed.entry (rename a) (rename b) = matrix.entry a b

omit [IsStrictOrderedRing K] in
/-- The first clusters are the symbols, one by one. -/
theorem partsOf_start {matrix : CorrelationMatrix K} {start : Clustering K}
    (h : startClustering matrix = .ok start) :
    partsOf start = (matrix.symbols.map fun symbol => ({symbol} : Finset String)).toFinset := by
  rw [startClustering_eq_ok] at h
  obtain rfl := Except.ok.inj h
  rw [partsOf, List.map_map]
  rfl

omit [IsStrictOrderedRing K] in
theorem partsOf_start_renamed {rename : String → String} {matrix renamed : CorrelationMatrix K}
    (hrename : IsRenaming rename matrix renamed) {start renamedStart : Clustering K}
    (h : startClustering matrix = .ok start) (h' : startClustering renamed = .ok renamedStart) :
    partsOf renamedStart = renameClusters rename (partsOf start) := by
  rw [partsOf_start h, partsOf_start h', List.toFinset_eq_of_perm _ _ (hrename.symbols.map _), List.map_map]
  ext cluster
  simp only [renameClusters, List.mem_toFinset, List.mem_map, Function.comp_apply, Finset.mem_image,
    exists_exists_and_eq_and, Finset.image_singleton]

/-- Where no two mean distances met are equal, the clusters rename with the symbols. -/
theorem clusterByCorrelation_rename {rename : String → String} {matrix renamed : CorrelationMatrix K}
    (hrename : IsRenaming rename matrix renamed) {cut : K} (hcut : |cut| ≤ 1) {start : Clustering K}
    {clusters : List CorrelationCluster} (hstart : startClustering matrix = .ok start)
    (hrun : AverageLinkageRun matrix (root (1 / 2 * (1 - cut))) start clusters)
    (hdistinct : ∀ state, Relation.ReflTransGen (Passes (root (1 / 2 * (1 - cut)))) start state →
      DistinctMeans (symbolDistance matrix) (partsOf state)) :
    ∃ others, clusterByCorrelation renamed cut = .ok others ∧
      clusterSets others = renameClusters rename (clusterSets clusters) := by
  obtain ⟨renamedStart, others, hrenamedStart, hothers, hrenamedRun⟩ := clusterByCorrelation_eq_ok renamed hcut
  obtain ⟨final, hfinal, _, hsets⟩ := hrun.ends
  obtain ⟨renamedFinal, hrenamedFinal, _, hrenamedSets⟩ := hrenamedRun.ends
  have hlinked := startClustering_linked hstart
  have hpassed := passes_linked (symbolDistance_comm matrix) matrix.nodup_symbols hlinked hfinal
  have hrenamedPassed := passes_linked (symbolDistance_comm renamed) renamed.nodup_symbols
    (startClustering_linked hrenamedStart) hrenamedFinal
  refine ⟨others, hothers, ?_⟩
  rw [hrenamedSets, hsets]
  have hdistance : ∀ a ∈ matrix.symbols.toFinset, ∀ b ∈ matrix.symbols.toFinset,
      symbolDistance renamed (rename a) (rename b) = symbolDistance matrix a b := by
    intro a ha b hb
    rw [symbolDistance, symbolDistance,
      hrename.entry a (List.mem_toFinset.mp ha) b (List.mem_toFinset.mp hb)]
  refine joined_rename hrename.injective hdistance hpassed.2 (fun A hA => ?_) (fun R hR => ?_)
    (hsets ▸ hrun.separated) ?_ (hrenamedSets ▸ hrenamedRun.separated)
  · obtain ⟨group, hgroup, rfl⟩ := List.mem_map.mp (List.mem_toFinset.mp hA)
    exact fun symbol hsymbol => List.mem_toFinset.mpr (hlinked.mem_symbols hgroup (List.mem_toFinset.mp hsymbol))
  · obtain ⟨state, hstate, rfl⟩ := passes_of_joins (symbolDistance_comm matrix) matrix.nodup_symbols hlinked
      hdistinct hR
    exact hdistinct state hstate
  · rw [← partsOf_start_renamed hrename hstart hrenamedStart]
    exact hrenamedPassed.2

end

/-! ### Over the reals -/

/-- Clustering in exact arithmetic is average linkage. It refuses a cut outside the unit interval; at any other
    it ends, after a run in which every stored distance was a mean distance and every pass joined two nearest
    clusters, on a partition it cannot join further, the same under any names where no two means met tie. -/
theorem clusterByCorrelation_averageLinkage (matrix : CorrelationMatrix ℝ) (cut : ℝ) :
    (1 < |cut| → clusterByCorrelation matrix cut = raise .domainError ["correlation is outside [-1, 1]"]) ∧
    (|cut| ≤ 1 → ∃ start clusters, startClustering matrix = .ok start ∧
      clusterByCorrelation matrix cut = .ok clusters ∧
      AverageLinkageRun matrix (root (1 / 2 * (1 - cut))) start clusters ∧
      ((∀ state, Relation.ReflTransGen (Passes (root (1 / 2 * (1 - cut)))) start state →
          DistinctMeans (symbolDistance matrix) (partsOf state)) →
        ∀ rename renamed, IsRenaming rename matrix renamed → ∃ others,
          clusterByCorrelation renamed cut = .ok others ∧
            clusterSets others = renameClusters rename (clusterSets clusters))) := by
  constructor
  · intro hcut
    rw [clusterByCorrelation, correlationDistance, raiseIf, if_pos hcut]
    rfl
  · intro hcut
    obtain ⟨start, clusters, hstart, hclusters, hrun⟩ := clusterByCorrelation_eq_ok matrix hcut
    exact ⟨start, clusters, hstart, hclusters, hrun, fun hdistinct rename renamed hrename =>
      clusterByCorrelation_rename hrename hcut hstart hrun hdistinct⟩

end FinanceKing.Risk
