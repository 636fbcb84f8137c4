import FinanceKing.Risk.Deciles
import FinanceKing.Risk.PooledFit

/-! A fit over one strategy's trades: it returns, every bucket is measured over the trades that a look-up of
    their conviction finds in it, only what had closed by the instant counts, and the map survives its row. -/

namespace FinanceKing.Risk

open Lib

/-! ### What the record can hold -/

/-- A return the persisted record holds as it is. -/
structure StorableReturn (candidate : Decimal) : Prop where
  ge : -1 ≤ candidate
  onLattice : candidate = quantized candidate

theorem requireStorableReturn_eq_ok {candidate : Decimal} {fieldName : String} {u : Unit} :
    requireStorableReturn candidate fieldName = .ok u ↔ StorableReturn candidate := by
  simp only [requireStorableReturn, bind_eq_ok, raiseIf_eq_ok, not_lt, not_not, exists_const]
  exact ⟨fun h => ⟨h.1, h.2⟩, fun h => ⟨h.ge, h.onLattice⟩⟩

theorem quantized_neg_one : quantized (-1) = -1 := by with_unfolding_all decide

theorem storableReturn_quantized {x : Decimal} (h : -1 ≤ x) : StorableReturn (quantized x) where
  ge := quantized_neg_one ▸ quantized_mono h
  onLattice := (quantized_idem x).symm

theorem ClosedTrade.facts (trade : ClosedTrade) : strip trade.strategyId ≠ [] ∧
    StorableFraction trade.reportedConviction ∧ StorableReturn trade.realisedReturnFraction := by
  have h := trade.checked
  simp only [ClosedTradeFields.postInit, bind_eq_ok, raiseIf_eq_ok, requireStorableFraction_eq_ok,
    requireStorableReturn_eq_ok, exists_const] at h
  exact h

/-! ### One bucket -/

/-- A bucket's measurement over its trades. -/
structure Measures (measured : MeasuredBucket) (group : Decimal × List ClosedTrade) : Prop where
  bound : measured.bound = group.1
  nonempty : group.2 ≠ []
  tradeCount : measured.tradeCount = group.2.length
  hitRate : Risk.hitRate group.2 = .ok measured.hitRateFraction
  meanReturn : Risk.meanReturn group.2 = .ok measured.meanReturnFraction
  storableRate : StorableFraction measured.hitRateFraction
  storableMean : StorableReturn measured.meanReturnFraction

theorem Measures.tradeCount_pos {measured : MeasuredBucket} {group : Decimal × List ClosedTrade}
    (h : Measures measured group) : 0 < measured.tradeCount := by
  rw [h.tradeCount]
  exact Int.natCast_pos.mpr (List.length_pos_iff.mpr h.nonempty)

/-- A bucket with a trade in it is measured without dividing by zero. -/
theorem measureBucket_ok {group : Decimal × List ClosedTrade} (hne : group.2 ≠ []) :
    ∃ measured, measureBucket group = .ok measured ∧ Measures measured group := by
  have hlength : (0 : Decimal) < (group.2.length : ℕ) := Nat.cast_pos.mpr (List.length_pos_iff.mpr hne)
  have hrate : hitRate group.2 =
      .ok (quantized ((group.2.countP ClosedTrade.isWin : ℕ) / (group.2.length : ℕ))) := by
    rw [hitRate, decimalQuotient_of_pos hlength]
    rfl
  have hmean : meanReturn group.2 =
      .ok (quantized ((group.2.map (·.realisedReturnFraction)).sum / (group.2.length : ℕ))) := by
    rw [meanReturn, decimalQuotient_of_pos hlength]
    rfl
  refine ⟨⟨group.1, group.2.length, _, _⟩, ?_, ⟨rfl, hne, rfl, hrate, hmean, ?_, ?_⟩⟩
  · rw [measureBucket, hrate, hmean]
    rfl
  · refine storable_quantized (div_nonneg (Nat.cast_nonneg _) hlength.le) ?_
    rw [div_le_one hlength]
    exact Nat.cast_le.mpr List.countP_le_length
  · refine storableReturn_quantized ?_
    rw [le_div_iff₀ hlength, neg_mul, one_mul]
    have hsum := List.card_nsmul_le_sum (group.2.map (·.realisedReturnFraction)) (-1 : Decimal)
      fun r hr => by
        obtain ⟨trade, _, rfl⟩ := List.mem_map.mp hr
        exact trade.facts.2.2.ge
    rw [List.length_map, nsmul_eq_mul, mul_neg, mul_one] at hsum
    exact hsum

/-! ### The curve -/

/-- Positive integers are the trade counts of some sample. -/
theorem exists_observations : ∀ {means : List Decimal} {weights : List ℤ}, means.length = weights.length →
    (∀ weight ∈ weights, 0 < weight) → ∃ observations : List (Decimal × ℕ+),
      observations.map Prod.fst = means ∧ (observations.map fun o => ((o.2 : ℕ) : ℤ)) = weights
  | [], [], _, _ => ⟨[], rfl, rfl⟩
  | [], _ :: _, hlength, _ => by simp at hlength
  | _ :: _, [], hlength, _ => by simp at hlength
  | mean :: means, weight :: weights, hlength, hpos => by
    obtain ⟨observations, hmeans, hweights⟩ := exists_observations (Nat.succ.inj hlength)
      fun other hother => hpos other (List.mem_cons_of_mem _ hother)
    have hweight := hpos weight List.mem_cons_self
    refine ⟨(mean, ⟨weight.toNat, by omega⟩) :: observations, by rw [List.map_cons, hmeans], ?_⟩
    rw [List.map_cons, hweights, PNat.mk_coe, Int.toNat_of_nonneg hweight.le]

/-- A fit lies no lower than everything it is fitted to. -/
theorem PooledLevels.ge {sample : List (Weighted Decimal)} {levels : List Decimal}
    (h : PooledLevels sample levels) (hpos : ∀ o ∈ sample, 0 < o.weight) {floor : Decimal}
    (hfloor : ∀ o ∈ sample, floor ≤ o.value) : ∀ level ∈ levels, floor ≤ level := by
  obtain ⟨pooled, rfl, rfl, hblocks⟩ := h.blocks
  intro level hlevel
  obtain ⟨block, hblock, hmem⟩ := List.mem_flatMap.mp hlevel
  rw [List.eq_of_mem_replicate hmem]
  obtain ⟨hne, hmean⟩ := hblocks block hblock
  have hin : ∀ o ∈ block.members, o ∈ sampleOf pooled := fun o ho =>
    List.mem_flatMap.mpr ⟨block, hblock, ho⟩
  have hmass := mass_pos (fun o ho => hpos o (hin o ho)) hne
  have hsum : floor * mass block.members ≤ weightedSum block.members := by
    rw [mass, weightedSum, ← List.sum_map_mul_left]
    refine List.sum_le_sum fun o ho => ?_
    exact mul_le_mul_of_nonneg_right (hfloor o (hin o ho)) (hpos o (hin o ho)).le
  rw [← hmean] at hsum
  exact le_of_mul_le_mul_right hsum hmass

/-- Over positive counts and storable means, the curve is one level a bucket, never falls, and is storable. -/
theorem poolAdjacentViolators_ok {means : List Decimal} {weights : List ℤ}
    (hlength : means.length = weights.length) (hpos : ∀ weight ∈ weights, 0 < weight)
    (hmeans : ∀ mean ∈ means, StorableReturn mean) :
    ∃ fitted, poolAdjacentViolators means weights = .ok fitted ∧ fitted.length = means.length ∧
      fitted.Pairwise (· ≤ ·) ∧ ∀ level ∈ fitted, StorableReturn level := by
  obtain ⟨observations, rfl, rfl⟩ := exists_observations hlength hpos
  obtain ⟨levels, _, hfitted, hlevels⟩ := pooled_levels_are_the_isotonic_fit observations
  refine ⟨_, hfitted, ?_, ?_, fun level hlevel => ?_⟩
  · rw [List.length_map, hlevels.isotonic.length, List.length_map, List.length_map]
  · exact List.pairwise_map.mpr (hlevels.isotonic.monotone.imp quantized_mono)
  · obtain ⟨raw, hraw, rfl⟩ := List.mem_map.mp hlevel
    refine storableReturn_quantized (hlevels.ge (fun o ho => ?_) (fun o ho => ?_) raw hraw)
    · obtain ⟨observation, _, rfl⟩ := List.mem_map.mp ho
      exact Nat.cast_pos.mpr observation.2.pos
    · obtain ⟨observation, hobservation, rfl⟩ := List.mem_map.mp ho
      exact (hmeans _ (List.mem_map_of_mem hobservation)).ge

theorem mapM_map_ok {α β : Type} {f : α → PyResult β} {g : α → β} {l : List α}
    (h : ∀ a ∈ l, f a = .ok (g a)) : l.mapM f = .ok (l.map g) := by
  rw [mapM_eq_ok_iff, List.forall₂_map_right_iff]
  exact List.forall₂_same.mpr h

/-- A curve that never falls is normalised onto fractions that never fall. -/
theorem normalised_ok {fitted : List Decimal} (hne : fitted ≠ []) (hmono : fitted.Pairwise (· ≤ ·)) :
    ∃ calibrated, normalised fitted = .ok calibrated ∧ calibrated.length = fitted.length ∧
      calibrated.Pairwise (· ≤ ·) ∧ ∀ fraction ∈ calibrated, StorableFraction fraction := by
  obtain ⟨lowest, rest, rfl⟩ := List.exists_cons_of_ne_nil hne
  have hlow : pyIndex "tuple" (lowest :: rest) 0 = .ok lowest := pyIndex_natCast (n := 0) rfl "tuple"
  obtain ⟨highest, hlast⟩ : ∃ highest, (lowest :: rest).getLast? = some highest :=
    Option.isSome_iff_exists.mp (by simp)
  have habove : ∀ level ∈ lowest :: rest, lowest ≤ level := fun level hlevel =>
    (List.mem_cons.mp hlevel).elim (fun h => h.ge) ((List.pairwise_cons.mp hmono).1 level)
  have hbelow : ∀ level ∈ lowest :: rest, level ≤ highest := by
    obtain ⟨front, hfront⟩ := List.getLast?_eq_some_iff.mp hlast
    rw [hfront] at hmono ⊢
    intro level hlevel
    rcases List.mem_append.mp hlevel with hold | hend
    · exact (List.pairwise_append.mp hmono).2.2 level hold highest (List.mem_singleton_self _)
    · exact (List.mem_singleton.mp hend).le
  by_cases hspan : highest - lowest ≤ 0
  · refine ⟨(lowest :: rest).map fun _ => uncalibratedFraction, ?_, List.length_map _, ?_, ?_⟩
    · simp only [normalised, hlow, pyIndex_last hlast, bind_eq_ok]
      exact ⟨_, rfl, _, rfl, if_pos hspan⟩
    · exact List.pairwise_map.mpr (hmono.imp fun _ => le_rfl)
    · intro fraction hfraction
      obtain ⟨_, _, rfl⟩ := List.mem_map.mp hfraction
      exact storable_quantized (by norm_num) (by norm_num)
  · have hpositive : 0 < highest - lowest := not_le.mp hspan
    have hlevel : ∀ level ∈ lowest :: rest, (do
        let position ← decimalQuotient (level - lowest) (highest - lowest)
        return quantized position) = (.ok (quantized ((level - lowest) / (highest - lowest))) :
          PyResult Decimal) := by
      intro level _
      rw [decimalQuotient_of_pos hpositive]
      rfl
    refine ⟨(lowest :: rest).map fun level => quantized ((level - lowest) / (highest - lowest)), ?_,
      List.length_map _, ?_, ?_⟩
    · simp only [normalised, hlow, pyIndex_last hlast, bind_eq_ok]
      exact ⟨_, rfl, _, rfl, (if_neg hspan).trans (mapM_map_ok hlevel)⟩
    · refine List.pairwise_map.mpr (hmono.imp fun hle => quantized_mono ?_)
      exact div_le_div_of_nonneg_right (sub_le_sub_right hle lowest) hpositive.le
    · intro fraction hfraction
      obtain ⟨level, hmem, rfl⟩ := List.mem_map.mp hfraction
      refine storable_quantized (div_nonneg (sub_nonneg.mpr (habove level hmem)) hpositive.le) ?_
      rw [div_le_one hpositive]
      exact sub_le_sub_right (hbelow level hmem) lowest

/-! ### The buckets -/

/-- A bucket that carries its measurement over a group. -/
structure BucketOf (bucket : CalibrationBucket) (group : Decimal × List ClosedTrade) : Prop where
  bound : bucket.convictionUpperBound = group.1
  nonempty : group.2 ≠ []
  tradeCount : bucket.tradeCount = group.2.length
  hitRate : Risk.hitRate group.2 = .ok bucket.hitRateFraction
  meanReturn : Risk.meanReturn group.2 = .ok bucket.meanReturnFraction

theorem forall₂_zip_left {α β γ : Type} {R : α → β → Prop} {l : List α} {m : List β} {other : List γ}
    (h : List.Forall₂ R l m) (hlength : other.length = l.length) :
    List.Forall₂ (fun row b => R row.1 b ∧ row.2 ∈ other) (l.zip other) m := by
  rw [List.forall₂_iff_get] at h ⊢
  refine ⟨by simp [hlength, h.1], fun i hi hi' => ?_⟩
  simp only [List.get_eq_getElem, List.getElem_zip]
  have hother : i < other.length := by
    rw [List.length_zip] at hi
    exact lt_of_lt_of_le hi (min_le_right _ _)
  exact ⟨h.2 i (hlength ▸ hother) hi', List.getElem_mem hother⟩

theorem forall₂_comp {α β γ : Type} {P : α → β → Prop} {R : β → γ → Prop} {S : α → γ → Prop}
    (hS : ∀ a b c, P a b → R b c → S a c) : ∀ {l : List α} {m : List β} {n : List γ},
    List.Forall₂ P l m → List.Forall₂ R m n → List.Forall₂ S l n
  | _, _, _, .nil, .nil => .nil
  | _, _, _, .cons hP hPs, .cons hR hRs => .cons (hS _ _ _ hP hR) (forall₂_comp hS hPs hRs)

/-- The fields of the bucket a row is made into. -/
def rowFields (row : MeasuredBucket × Decimal × Decimal) : CalibrationBucketFields where
  convictionUpperBound := row.1.bound
  tradeCount := row.1.tradeCount
  hitRateFraction := row.1.hitRateFraction
  meanReturnFraction := row.1.meanReturnFraction
  fittedReturnFraction := row.2.1
  calibratedFraction := row.2.2

theorem calibrationBucket_ok {row : MeasuredBucket × Decimal × Decimal} {group : Decimal × List ClosedTrade}
    (hmeasures : Measures row.1 group) (hbound : StorableFraction group.1) (hfitted : StorableReturn row.2.1)
    (hcalibrated : StorableFraction row.2.2) :
    ∃ bucket, calibrationBucket row = .ok bucket ∧ bucket.toCalibrationBucketFields = rowFields row := by
  have hchecked : (rowFields row).postInit = .ok () := by
    simp only [CalibrationBucketFields.postInit, bind_eq_ok, requireStorableFraction_eq_ok,
      requireStorableReturn_eq_ok, exists_const]
    have hrow : StorableFraction row.1.bound := by
      rw [hmeasures.bound]
      exact hbound
    exact ⟨hrow, hmeasures.storableRate, hcalibrated, hmeasures.storableMean, hfitted,
      raiseIf_eq_ok.mpr (not_le.mpr hmeasures.tradeCount_pos)⟩
  exact ⟨⟨rowFields row, hchecked⟩, construct_ok hchecked, rfl⟩

/-- Every group of a sample of ten or more is measured. -/
theorem measureGroups_ok {bounds : List Decimal} {eligible : List ClosedTrade}
    (hbounds : Bounds (eligible.map (·.reportedConviction)) bounds) :
    ∃ measured, (bounds.zip (groupTrades bounds eligible)).mapM measureBucket = .ok measured ∧
      List.Forall₂ Measures measured (bounds.zip (groupTrades bounds eligible)) := by
  refine exists_mapM Measures fun group hgroup => measureBucket_ok ?_
  rw [zip_groupTrades] at hgroup
  obtain ⟨⟨bound, index⟩, hentry, rfl⟩ := List.mem_map.mp hgroup
  exact exists_grouped hbounds (List.mem_zipIdx_iff_getElem?.mp hentry)

theorem length_zip_groupTrades (bounds : List Decimal) (eligible : List ClosedTrade) :
    (bounds.zip (groupTrades bounds eligible)).length = bounds.length := by
  simp [groupTrades_eq]

/-- The curve over measured groups, and what it calibrates to. -/
theorem curve_ok {measured : List MeasuredBucket} {groups : List (Decimal × List ClosedTrade)}
    (hmeasures : List.Forall₂ Measures measured groups) (hne : measured ≠ []) : ∃ fitted calibrated,
    poolAdjacentViolators (measured.map (·.meanReturnFraction)) (measured.map (·.tradeCount)) = .ok fitted ∧
      normalised fitted = .ok calibrated ∧ fitted.length = measured.length ∧
      calibrated.length = measured.length ∧ calibrated.Pairwise (· ≤ ·) ∧
      (∀ level ∈ fitted, StorableReturn level) ∧ ∀ fraction ∈ calibrated, StorableFraction fraction := by
  have hcounts : ∀ weight ∈ measured.map (·.tradeCount), 0 < weight := by
    intro weight hweight
    obtain ⟨m, hm, rfl⟩ := List.mem_map.mp hweight
    obtain ⟨group, _, hof⟩ := exists_right_of_forall₂ hmeasures hm
    exact hof.tradeCount_pos
  have hmeans : ∀ mean ∈ measured.map (·.meanReturnFraction), StorableReturn mean := by
    intro mean hmean
    obtain ⟨m, hm, rfl⟩ := List.mem_map.mp hmean
    obtain ⟨group, _, hof⟩ := exists_right_of_forall₂ hmeasures hm
    exact hof.storableMean
  obtain ⟨fitted, hfitted, hlength, hmono, hstorable⟩ := poolAdjacentViolators_ok (by simp) hcounts hmeans
  rw [List.length_map] at hlength
  have hfittedNe : fitted ≠ [] := List.ne_nil_of_length_pos (hlength ▸ List.length_pos_iff.mpr hne)
  obtain ⟨calibrated, hcalibrated, hsame, hcalibratedMono, hfractions⟩ := normalised_ok hfittedNe hmono
  exact ⟨fitted, calibrated, hfitted, hcalibrated, hlength, hsame.trans hlength, hcalibratedMono, hstorable,
    hfractions⟩

/-- The buckets of a sample of ten or more: one for each bound, over the trades in it. -/
theorem fitBuckets_ok {eligible : List ClosedTrade} (henough : decileCount ≤ eligible.length) :
    ∃ bounds buckets, Bounds (eligible.map (·.reportedConviction)) bounds ∧
      fitBuckets eligible = .ok buckets ∧
      List.Forall₂ BucketOf buckets (bounds.zip (groupTrades bounds eligible)) ∧
      (buckets.map fun bucket => bucket.calibratedFraction).Pairwise (· ≤ ·) := by
  have hconvictions : decileCount ≤ (eligible.map (·.reportedConviction)).length := by
    rwa [List.length_map]
  obtain ⟨bounds, hdecided, hbounds⟩ := decileUpperBounds_ok hconvictions
  obtain ⟨measured, hmeasured, hmeasures⟩ := measureGroups_ok hbounds
  have hne : measured ≠ [] := by
    obtain ⟨trade, htrade⟩ := List.exists_mem_of_length_pos ((by decide : 0 < decileCount).trans_le henough)
    obtain ⟨bound, hmem, _⟩ := hbounds.covers _ (List.mem_map_of_mem htrade)
    refine List.ne_nil_of_length_pos ?_
    rw [hmeasures.length_eq, length_zip_groupTrades]
    exact List.length_pos_of_mem hmem
  obtain ⟨fitted, calibrated, hfitted, hcalibrated, hfittedLength, hlength, hmono, hstorable, hfractions⟩ :=
    curve_ok hmeasures hne
  have hcurve : (fitted.zip calibrated).length = measured.length := by
    rw [List.length_zip, hfittedLength, hlength, min_self]
  have hrows := forall₂_zip_left hmeasures hcurve
  have hbucket : ∀ row ∈ measured.zip (fitted.zip calibrated), ∃ bucket, calibrationBucket row = .ok bucket ∧
      bucket.toCalibrationBucketFields = rowFields row := by
    intro row hrow
    obtain ⟨group, hgroup, hof, hpair⟩ := exists_right_of_forall₂ hrows hrow
    have hconviction : StorableFraction group.1 := by
      obtain ⟨trade, _, htrade⟩ := List.mem_map.mp (hbounds.drawn _ (List.of_mem_zip hgroup).1)
      exact htrade ▸ trade.facts.2.1
    obtain ⟨hlevel, hfraction⟩ := List.of_mem_zip hpair
    exact calibrationBucket_ok hof hconviction (hstorable _ hlevel) (hfractions _ hfraction)
  obtain ⟨buckets, hbuckets, hfields⟩ := exists_mapM _ hbucket
  refine ⟨bounds, buckets, hbounds, ?_, forall₂_comp (fun bucket row group hrow hgroup => ?_) hfields hrows, ?_⟩
  · simp only [fitBuckets, bind_eq_ok]
    exact ⟨bounds, hdecided, measured, hmeasured, fitted, hfitted, calibrated, hcalibrated, hbuckets⟩
  · exact ⟨(congrArg _ hrow).trans hgroup.1.bound, hgroup.1.nonempty,
      (congrArg _ hrow).trans hgroup.1.tradeCount,
      hgroup.1.hitRate.trans (congrArg Except.ok (congrArg CalibrationBucketFields.hitRateFraction hrow).symm),
      hgroup.1.meanReturn.trans
        (congrArg Except.ok (congrArg CalibrationBucketFields.meanReturnFraction hrow).symm)⟩
  · have hsame : (buckets.map fun bucket => bucket.calibratedFraction) =
        (measured.zip (fitted.zip calibrated)).map fun row => row.2.2 := by
      rw [← List.forall₂_eq_eq_eq, List.forall₂_map_left_iff, List.forall₂_map_right_iff]
      exact hfields.imp fun bucket row hrow => congrArg CalibrationBucketFields.calibratedFraction hrow
    have hread : (measured.zip (fitted.zip calibrated)).map (fun row => row.2.2) = calibrated := by
      have hsecond := @List.map_snd_zip _ _ measured (fitted.zip calibrated) hcurve.le
      have hthird := @List.map_snd_zip _ _ fitted calibrated (by omega)
      calc
        (measured.zip (fitted.zip calibrated)).map (fun row => row.2.2) =
            ((measured.zip (fitted.zip calibrated)).map Prod.snd).map Prod.snd := by rw [List.map_map]; rfl
        _ = (fitted.zip calibrated).map Prod.snd := by rw [hsecond]
        _ = calibrated := hthird
    rw [hsame, hread]
    exact hmono

/-! ### The look-up -/

/-- The first bucket whose bound is at or above a conviction. -/
def CalibrationMap.lookup (self : CalibrationMap) (conviction : Decimal) : Option CalibrationBucket :=
  self.buckets.find? fun bucket => conviction ≤ bucket.convictionUpperBound

/-- The buckets partition the trades: a look-up of each trade's conviction finds a bucket, and each bucket is
    measured over exactly the trades that it is found by. -/
structure FittedFrom (calibration : CalibrationMap) (eligible : List ClosedTrade) : Prop where
  found : ∀ trade ∈ eligible, ∃ bucket, calibration.lookup trade.reportedConviction = some bucket ∧
    calibration.calibrated trade.reportedConviction = .ok bucket.calibratedFraction
  measured : ∀ bucket ∈ calibration.buckets, BucketOf bucket (bucket.convictionUpperBound,
    eligible.filter fun trade => calibration.lookup trade.reportedConviction = some bucket)
  counted : (calibration.buckets.map (·.tradeCount)).sum = eligible.length
  observed : calibration.observationCount = eligible.length

theorem map_bound_eq {bounds : List Decimal} {eligible : List ClosedTrade} {buckets : List CalibrationBucket}
    (h : List.Forall₂ BucketOf buckets (bounds.zip (groupTrades bounds eligible))) :
    (buckets.map fun bucket => bucket.convictionUpperBound) = bounds := by
  have hfirst : (bounds.zip (groupTrades bounds eligible)).map Prod.fst = bounds :=
    List.map_fst_zip (by simp [groupTrades_eq])
  rw [← hfirst, ← List.forall₂_eq_eq_eq, List.forall₂_map_left_iff, List.forall₂_map_right_iff]
  exact h.imp fun _ _ hof => hof.bound

/-- The bucket at a place is measured over the trades that fall in that place. -/
theorem bucketOf_place {bounds : List Decimal} {eligible : List ClosedTrade}
    {buckets : List CalibrationBucket}
    (h : List.Forall₂ BucketOf buckets (bounds.zip (groupTrades bounds eligible))) {index : ℕ}
    {bucket : CalibrationBucket} (hbucket : buckets[index]? = some bucket) :
    BucketOf bucket (bucket.convictionUpperBound,
      eligible.filter fun trade => bucketIndexFor trade.reportedConviction bounds = index) := by
  rw [zip_groupTrades, List.forall₂_map_right_iff] at h
  obtain ⟨hindex, rfl⟩ := List.getElem?_eq_some_iff.mp hbucket
  have hof := h.get hindex (h.length_eq ▸ hindex)
  simp only [List.get_eq_getElem, List.getElem_zipIdx, zero_add] at hof
  rw [hof.bound]
  exact hof

theorem counted_of_groups {bounds : List Decimal} {eligible : List ClosedTrade}
    {buckets : List CalibrationBucket}
    (hbounds : Bounds (eligible.map (·.reportedConviction)) bounds)
    (h : List.Forall₂ BucketOf buckets (bounds.zip (groupTrades bounds eligible))) :
    (buckets.map (·.tradeCount)).sum = eligible.length := by
  have hcounts : buckets.map (·.tradeCount) = (List.range bounds.length).map fun i =>
      ((eligible.filter fun trade => bucketIndexFor trade.reportedConviction bounds = i).map
        fun _ => (1 : ℤ)).sum := by
    rw [← List.forall₂_eq_eq_eq, List.forall₂_map_left_iff, List.forall₂_map_right_iff]
    refine List.forall₂_iff_get.mpr ⟨?_, fun i hi hi' => ?_⟩
    · rw [h.length_eq, length_zip_groupTrades, List.length_range]
    · have hof := bucketOf_place h (List.getElem?_eq_getElem hi)
      simpa using hof.tradeCount
  have hplaces : ∀ trade ∈ eligible,
      bucketIndexFor trade.reportedConviction bounds ∈ List.range bounds.length := by
    intro trade htrade
    have hcovered := hbounds.covers _ (List.mem_map_of_mem htrade)
    rw [bucketIndexFor_eq hcovered]
    exact List.mem_range.mpr (bisectLeft_lt hcovered)
  rw [hcounts, ← sum_by_key _ (fun _ => (1 : ℤ)) List.nodup_range eligible hplaces]
  simp

/-- A map over the buckets of a sample is fitted from it. -/
theorem fittedFrom_of_buckets {bounds : List Decimal} {eligible : List ClosedTrade}
    {calibration : CalibrationMap} (hbounds : Bounds (eligible.map (·.reportedConviction)) bounds)
    (h : List.Forall₂ BucketOf calibration.buckets (bounds.zip (groupTrades bounds eligible)))
    (hobserved : calibration.observationCount = eligible.length) : FittedFrom calibration eligible := by
  have hbound := map_bound_eq h
  have hlookup : ∀ conviction, calibration.lookup conviction =
      calibration.buckets[bisectLeft bounds conviction]? := by
    intro conviction
    rw [← hbound]
    exact (getElem?_bisectLeft _ _ _).symm
  have hplace : ∀ trade ∈ eligible, bucketIndexFor trade.reportedConviction bounds =
      bisectLeft bounds trade.reportedConviction ∧
      bisectLeft bounds trade.reportedConviction < calibration.buckets.length := by
    intro trade htrade
    have hcovered := hbounds.covers _ (List.mem_map_of_mem htrade)
    refine ⟨bucketIndexFor_eq hcovered, ?_⟩
    rw [h.length_eq, length_zip_groupTrades]
    exact bisectLeft_lt hcovered
  have hnodup : calibration.buckets.Nodup := by
    refine List.Nodup.of_map (fun bucket => bucket.convictionUpperBound) ?_
    rw [hbound]
    exact hbounds.ascending.imp fun hlt => hlt.ne
  refine ⟨fun trade htrade => ?_, fun bucket hbucket => ?_, counted_of_groups hbounds h, hobserved⟩
  · have hfound := (hlookup trade.reportedConviction).trans (List.getElem?_eq_getElem (hplace trade htrade).2)
    refine ⟨_, hfound, ?_⟩
    have hconviction := trade.facts.2.1
    rw [CalibrationMap.lookup] at hfound
    simp only [CalibrationMap.calibrated, hfound, bind_eq_ok, requireStorableFraction_eq_ok]
    exact ⟨(), hconviction.onLattice ▸ hconviction, rfl⟩
  · obtain ⟨index, hindex, rfl⟩ := List.mem_iff_getElem.mp hbucket
    have hof := bucketOf_place h (List.getElem?_eq_getElem hindex)
    have hsame : (eligible.filter fun trade => calibration.lookup trade.reportedConviction =
        some calibration.buckets[index]) =
        eligible.filter fun trade => bucketIndexFor trade.reportedConviction bounds = index := by
      refine List.filter_congr fun trade htrade => ?_
      obtain ⟨hindexed, hinside⟩ := hplace trade htrade
      rw [decide_eq_decide, hlookup, hindexed, List.getElem?_eq_getElem hinside, Option.some.injEq,
        hnodup.getElem_inj_iff]
    rw [hsame]
    exact hof

/-! ### Only what had closed, in any order -/

theorem eligibleTrades_own {strategyId : String} (asOfUtc : DateTime) : ∀ {trades : List ClosedTrade},
    (∀ trade ∈ trades, trade.strategyId = strategyId) →
    eligibleTrades strategyId asOfUtc trades = .ok (trades.filter fun trade => trade.closedAtUtc ≤ asOfUtc)
  | [], _ => rfl
  | trade :: trades, h => by
    have hrest := eligibleTrades_own asOfUtc fun other hother => h other (List.mem_cons_of_mem _ hother)
    simp only [eligibleTrades, bind_eq_ok, raiseIf_eq_ok, hrest]
    refine ⟨(), not_not.mpr (h trade List.mem_cons_self), _, rfl, ?_⟩
    by_cases hclosed : trade.closedAtUtc ≤ asOfUtc
    · rw [if_pos hclosed, List.filter_cons_of_pos (by simpa using hclosed)]
      rfl
    · rw [if_neg hclosed, List.filter_cons_of_neg (by simpa using hclosed)]
      rfl

/-- A measurement does not see the order of its trades. -/
theorem measureBucket_perm {bound : Decimal} {members other : List ClosedTrade} (h : members.Perm other) :
    measureBucket (bound, members) = measureBucket (bound, other) := by
  have hrate : hitRate members = hitRate other := by
    rw [hitRate, hitRate, h.countP_eq, h.length_eq]
  have hmean : meanReturn members = meanReturn other := by
    rw [meanReturn, meanReturn, (h.map _).sum_eq, h.length_eq]
  simp only [measureBucket, hrate, hmean, h.length_eq]

theorem fitBuckets_perm {eligible other : List ClosedTrade} (h : eligible.Perm other) :
    fitBuckets eligible = fitBuckets other := by
  have hsorted : sortBy id (eligible.map (·.reportedConviction)) =
      sortBy id (other.map (·.reportedConviction)) :=
    sortBy_eq_of_perm id (h.map _) fun _ _ _ _ hsame => hsame
  have hmeasured : ∀ bounds : List Decimal, (bounds.zip (groupTrades bounds eligible)).mapM measureBucket =
      (bounds.zip (groupTrades bounds other)).mapM measureBucket := by
    intro bounds
    rw [zip_groupTrades, zip_groupTrades, List.mapM_map, List.mapM_map]
    congr 1
    funext entry
    exact measureBucket_perm (h.filter _)
  simp only [fitBuckets, hsorted, hmeasured]

/-- A fit is decided by the trades that had closed, in any order. -/
theorem fitCalibration_congr {trades other : List ClosedTrade} {strategyId : String} {asOfUtc : DateTime}
    (parameters : ConvictionParameters) (htrades : ∀ trade ∈ trades, trade.strategyId = strategyId)
    (hother : ∀ trade ∈ other, trade.strategyId = strategyId)
    (h : (trades.filter fun trade => trade.closedAtUtc ≤ asOfUtc).Perm
      (other.filter fun trade => trade.closedAtUtc ≤ asOfUtc)) :
    fitCalibration trades strategyId asOfUtc parameters =
      fitCalibration other strategyId asOfUtc parameters := by
  simp only [fitCalibration, eligibleTrades_own asOfUtc htrades, eligibleTrades_own asOfUtc hother, bind,
    Except.bind, h.length_eq, fitBuckets_perm h]

/-! ### The row -/

theorem decodeBucket_bucketRow (bucket : CalibrationBucket) : decodeBucket (bucketRow bucket) = .ok bucket := by
  have hbuilt : construct CalibrationBucketFields.postInit CalibrationBucket.mk
      bucket.toCalibrationBucketFields = .ok bucket := construct_ok bucket.checked
  simpa [decodeBucket, bucketRow, decodeCalibrationDecimal, decodeTradeCount, CalibrationRow.get, parseDecimal,
    List.lookup, bind, Except.bind] using hbuilt

/-- Decoding the row of a map gives the map back. -/
theorem fromCalibrationRow_toCalibrationRow (calibration : CalibrationMap) :
    fromCalibrationRow (toCalibrationRow calibration) = .ok calibration := by
  have hbuilt : calibrationMap calibration.toCalibrationMapFields = .ok calibration :=
    construct_ok calibration.checked
  have hbuckets : (calibration.buckets.map bucketRow).mapM decodeBucket = .ok calibration.buckets := by
    rw [List.mapM_map]
    exact (mapM_map_ok (f := decodeBucket ∘ bucketRow) (g := id) fun bucket _ =>
      decodeBucket_bucketRow bucket).trans (congrArg Except.ok (List.map_id _))
  simpa [fromCalibrationRow, toCalibrationRow, CalibrationRow.get, decodeTradeCount, parseInstant, List.lookup,
    bind, Except.bind, hbuckets] using hbuilt

/-! ### The map -/

/-- The bucket a conviction is read from: the first that covers it, or the last of them. -/
def readBucket (buckets : List CalibrationBucket) (conviction : Decimal) : Option CalibrationBucket :=
  (buckets.find? fun bucket => conviction ≤ bucket.convictionUpperBound).or buckets.getLast?

theorem mem_of_readBucket {buckets : List CalibrationBucket} {conviction : Decimal} {bucket : CalibrationBucket}
    (h : readBucket buckets conviction = some bucket) : bucket ∈ buckets := by
  rcases Option.or_eq_some_iff.mp h with hfound | ⟨_, hlast⟩
  · exact List.mem_of_find?_eq_some hfound
  · exact List.mem_of_getLast? hlast

theorem readBucket_of_above {first : CalibrationBucket} {rest : List CalibrationBucket} {conviction : Decimal}
    (h : first.convictionUpperBound < conviction) :
    readBucket (first :: rest) conviction = if rest = [] then some first else readBucket rest conviction := by
  rw [readBucket, List.find?_cons_of_neg (by simpa using h)]
  cases rest with
  | nil => rfl
  | cons next rest => rw [if_neg (List.cons_ne_nil _ _), readBucket, List.getLast?_cons_cons]

theorem readBucket_mono {low high : Decimal} (hle : low ≤ high) : ∀ {buckets : List CalibrationBucket}
    {lower upper : CalibrationBucket},
    (buckets.map fun bucket => bucket.calibratedFraction).Pairwise (· ≤ ·) →
    readBucket buckets low = some lower → readBucket buckets high = some upper →
    lower.calibratedFraction ≤ upper.calibratedFraction
  | [], _, _, _, hlower, _ => by cases hlower
  | first :: rest, lower, upper, hmono, hlower, hupper => by
    obtain ⟨hfirst, hrest⟩ := List.pairwise_cons.mp hmono
    by_cases hcovers : low ≤ first.convictionUpperBound
    · rw [readBucket, List.find?_cons_of_pos (by simpa using hcovers), Option.some_or] at hlower
      obtain rfl := Option.some.inj hlower
      rcases List.mem_cons.mp (mem_of_readBucket hupper) with rfl | hlater
      · exact le_rfl
      · exact hfirst _ (List.mem_map_of_mem hlater)
    · have habove := not_le.mp hcovers
      rw [readBucket_of_above habove] at hlower
      rw [readBucket_of_above (habove.trans_le hle)] at hupper
      split at hlower
      · next hempty =>
        rw [if_pos hempty] at hupper
        rw [← Option.some.inj hlower, ← Option.some.inj hupper]
      · next hne =>
        rw [if_neg hne] at hupper
        exact readBucket_mono hle hrest hlower hupper

theorem calibrated_eq (calibration : CalibrationMap) {conviction : Decimal} (hnonneg : 0 ≤ conviction)
    (hle : conviction ≤ 1) : calibration.calibrated conviction =
      .ok (((readBucket calibration.buckets conviction).map fun bucket => bucket.calibratedFraction).getD
        uncalibratedFraction) := by
  simp only [CalibrationMap.calibrated, bind_eq_ok, requireStorableFraction_eq_ok]
  refine ⟨(), storable_quantized hnonneg hle, ?_⟩
  rw [readBucket]
  cases hfound : calibration.buckets.find? fun bucket => conviction ≤ bucket.convictionUpperBound with
  | some bucket => rfl
  | none =>
    cases hlast : calibration.buckets.getLast? with
    | some bucket => rfl
    | none => rfl

/-- A map reads a higher conviction no lower. -/
def CalibrationMap.Monotone (self : CalibrationMap) : Prop :=
  ∀ low high : Decimal, 0 ≤ low → low ≤ high → high ≤ 1 → ∃ lower upper, self.calibrated low = .ok lower ∧
    self.calibrated high = .ok upper ∧ lower ≤ upper

theorem CalibrationMap.monotone (self : CalibrationMap) : self.Monotone := by
  intro low high hnonneg hle hone
  refine ⟨_, _, calibrated_eq self hnonneg (hle.trans hone), calibrated_eq self (hnonneg.trans hle) hone, ?_⟩
  have hmono : (self.buckets.map fun bucket => bucket.calibratedFraction).Pairwise (· ≤ ·) := by
    have h := self.checked
    simp only [CalibrationMapFields.postInit, bind_eq_ok, raiseIf_eq_ok, not_not, exists_const] at h
    exact h.2.2.2
  cases hlower : readBucket self.buckets low with
  | some lower =>
    cases hupper : readBucket self.buckets high with
    | some upper => exact readBucket_mono hle hmono hlower hupper
    | none =>
      have hmem := mem_of_readBucket hlower
      rw [readBucket, Option.or_eq_none_iff, List.getLast?_eq_none_iff] at hupper
      rw [hupper.2] at hmem
      cases hmem
  | none =>
    rw [readBucket, Option.or_eq_none_iff, List.getLast?_eq_none_iff] at hlower
    rw [hlower.2]
    exact le_rfl

/-! ### The contract -/

/-- What a fit over one strategy's trades is worth. -/
structure CalibrationContract (trades : List ClosedTrade) (strategyId : String) (asOfUtc : DateTime)
    (parameters : ConvictionParameters) (calibration : CalibrationMap) : Prop where
  returned : fitCalibration trades strategyId asOfUtc parameters = .ok calibration
  fitted : FittedFrom calibration (trades.filter fun trade => trade.closedAtUtc ≤ asOfUtc)
  monotone : calibration.Monotone
  decided : ∀ other : List ClosedTrade, (∀ trade ∈ other, trade.strategyId = strategyId) →
    (other.filter fun trade => trade.closedAtUtc ≤ asOfUtc).Perm
      (trades.filter fun trade => trade.closedAtUtc ≤ asOfUtc) →
    fitCalibration other strategyId asOfUtc parameters = .ok calibration
  persisted : fromCalibrationRow (toCalibrationRow calibration) = .ok calibration

/-- Parameters ask for a hundred trades at least, by the compiled-in floor. -/
theorem minTrades_ge (parameters : ConvictionParameters) : 100 ≤ parameters.minTradesForCalibration := by
  have h := parameters.checked
  simp only [ConvictionParametersFields.postInit, bind_eq_ok] at h
  obtain ⟨_, _, _, hfloors, _⟩ := h
  have hfloor : ("min_trades_for_calibration", (⟨100⟩ : Floor)) ∈ calibrationHardFloors :=
    List.mem_append_right _ (List.mem_singleton_self _)
  have hreported : parameters.boundedValues.get? "min_trades_for_calibration" =
      some (parameters.minTradesForCalibration : Decimal) := by
    simp [ConvictionParametersFields.boundedValues, submittedLimits]
  have hle : (100 : Decimal) ≤ (parameters.minTradesForCalibration : Decimal) :=
    assertAboveFloors_le hfloors hfloor hreported
  exact_mod_cast hle

/-- Over a history of one strategy with the trades it needs, the fit meets its contract. -/
theorem fit_meets_its_contract {trades : List ClosedTrade} {strategyId : String} {asOfUtc : DateTime}
    {parameters : ConvictionParameters} (hown : ∀ trade ∈ trades, trade.strategyId = strategyId)
    (henough : parameters.minTradesForCalibration ≤
      (trades.filter fun trade => trade.closedAtUtc ≤ asOfUtc).length) :
    ∃ calibration, CalibrationContract trades strategyId asOfUtc parameters calibration := by
  have hmany : (100 : ℤ) ≤ (trades.filter fun trade => trade.closedAtUtc ≤ asOfUtc).length :=
    (minTrades_ge parameters).trans henough
  have hten : decileCount ≤ (trades.filter fun trade => trade.closedAtUtc ≤ asOfUtc).length := by
    rw [decileCount]
    omega
  obtain ⟨bounds, buckets, hbounds, hbuckets, hof, hmono⟩ := fitBuckets_ok hten
  obtain ⟨trade, htrade⟩ := List.exists_mem_of_length_pos ((by decide : 0 < decileCount).trans_le hten)
  have htext : strip strategyId ≠ [] := by
    rw [← hown trade (List.mem_of_mem_filter htrade)]
    exact trade.facts.1
  have hchecked : (CalibrationMapFields.mk strategyId asOfUtc
      (trades.filter fun trade => trade.closedAtUtc ≤ asOfUtc).length buckets).postInit = .ok () := by
    simp only [CalibrationMapFields.postInit, bind_eq_ok, raiseIf_eq_ok, not_not, exists_const]
    refine ⟨htext, not_lt.mpr (Int.natCast_nonneg _), ?_, hmono⟩
    rw [map_bound_eq hof]
    exact hbounds.ascending
  have hreturned : fitCalibration trades strategyId asOfUtc parameters =
      .ok ⟨⟨strategyId, asOfUtc, (trades.filter fun trade => trade.closedAtUtc ≤ asOfUtc).length, buckets⟩,
        hchecked⟩ := by
    simp only [fitCalibration, bind_eq_ok, raiseIf_eq_ok]
    refine ⟨(), htext, _, eligibleTrades_own asOfUtc hown, ?_⟩
    rw [if_neg (not_lt.mpr henough), bind_eq_ok]
    exact ⟨buckets, hbuckets, construct_ok hchecked⟩
  refine ⟨_, hreturned, fittedFrom_of_buckets hbounds hof rfl, CalibrationMap.monotone _, ?_,
    fromCalibrationRow_toCalibrationRow _⟩
  intro other hother hsame
  rw [fitCalibration_congr parameters hother hown hsame]
  exact hreturned

/-- A break-even trade of a strategy, closed at the epoch. -/
def evenTradeFields (strategyId : String) : ClosedTradeFields where
  strategyId := strategyId
  reportedConviction := 1 / 2
  realisedReturnFraction := 0
  closedAtUtc := 0

theorem evenTradeFields_checked : (evenTradeFields "breakout").postInit = .ok () := by with_unfolding_all decide

theorem foreignTradeFields_checked : (evenTradeFields "reversal").postInit = .ok () := by with_unfolding_all decide

def evenTrade : ClosedTrade := ⟨evenTradeFields "breakout", evenTradeFields_checked⟩

def foreignTrade : ClosedTrade := ⟨evenTradeFields "reversal", foreignTradeFields_checked⟩

theorem fit_meets_its_contract_hundred : ∃ calibration,
    CalibrationContract (List.replicate 100 evenTrade) "breakout" 0 defaultConvictionParameters calibration :=
  fit_meets_its_contract (fun _ htrade => (List.eq_of_mem_replicate htrade) ▸ rfl) (by decide +kernel)

/-- One trade of another strategy refuses the fit, whatever the hundred of its own that follow it. -/
theorem fit_refuses_a_foreign_trade : ¬ ∀ (trades : List ClosedTrade) (strategyId : String)
    (asOfUtc : DateTime) (parameters : ConvictionParameters),
    parameters.minTradesForCalibration ≤ (trades.filter fun trade =>
      trade.strategyId = strategyId ∧ trade.closedAtUtc ≤ asOfUtc).length →
    ∃ calibration, fitCalibration trades strategyId asOfUtc parameters = .ok calibration := by
  intro h
  obtain ⟨calibration, hreturned⟩ := h (foreignTrade :: List.replicate 100 evenTrade) "breakout" 0
    defaultConvictionParameters (by decide +kernel)
  simp only [fitCalibration, bind_eq_ok, eligibleTrades, raiseIf_eq_ok] at hreturned
  obtain ⟨_, _, _, ⟨_, hforeign, _⟩, _⟩ := hreturned
  exact hforeign (by decide)

end FinanceKing.Risk
