import FinanceKing.Backtest.Cpcv.Partition
import FinanceKing.Lib.Fold
import FinanceKing.Lib.Spans

/-! What the constructors of a partition build. Every interval the builders construct is non-empty, so
    none of their checks can refuse; a split fails only when nothing is left to train on. -/

namespace FinanceKing.Backtest

open Lib

namespace TimeInterval

/-- An interval as its two ends. -/
def pair (self : TimeInterval) : DateTime × DateTime := (self.startUtc, self.endUtc)

theorem start_lt_end (self : TimeInterval) : self.startUtc < self.endUtc := by
  have h := self.checked
  rw [TimeIntervalFields.postInit, raiseIf_eq_ok, not_le] at h
  exact h

end TimeInterval

open TimeInterval

theorem timeInterval_ok {startUtc endUtc : DateTime} (h : startUtc < endUtc) :
    ∃ interval, timeInterval startUtc endUtc = .ok interval ∧ interval.pair = (startUtc, endUtc) := by
  have hchecked : (TimeIntervalFields.mk startUtc endUtc).postInit = .ok () := by
    rw [TimeIntervalFields.postInit, raiseIf_eq_ok, not_le]
    exact h
  exact ⟨_, construct_ok hchecked, rfl⟩

theorem mem_points_pair {l : List TimeInterval} {t : DateTime} :
    t ∈ points (l.map pair) ↔ ∃ interval ∈ l, interval.contains t := by
  simp [mem_points, pair, contains]

theorem nonempty_of_mem_pair {l : List TimeInterval} : ∀ s ∈ l.map pair, s.1 < s.2 := by
  intro s hs
  obtain ⟨interval, _, rfl⟩ := List.mem_map.mp hs
  exact interval.start_lt_end

/-! ### Merging -/

theorem mergeInto_ok : ∀ (l : List TimeInterval) (last : TimeInterval),
    ∃ merged, mergeInto last l = .ok merged ∧ merged.map pair = fuseInto last.pair (l.map pair)
  | [], last => ⟨[last], rfl, rfl⟩
  | interval :: rest, last => by
    rw [mergeInto, List.map_cons, fuseInto]
    by_cases htouch : interval.startUtc ≤ last.endUtc
    · rw [if_pos htouch, if_pos (show interval.pair.1 ≤ last.pair.2 from htouch)]
      obtain ⟨fused, hfused, hpair⟩ :=
        timeInterval_ok (lt_max_of_lt_left last.start_lt_end : last.startUtc < max _ interval.endUtc)
      obtain ⟨merged, hmerged, hmap⟩ := mergeInto_ok rest fused
      exact ⟨merged, bind_eq_ok.mpr ⟨fused, hfused, hmerged⟩, by rw [hmap, hpair]; rfl⟩
    · rw [if_neg htouch, if_neg (show ¬interval.pair.1 ≤ last.pair.2 from htouch)]
      obtain ⟨merged, hmerged, hmap⟩ := mergeInto_ok rest interval
      exact ⟨last :: merged, bind_eq_ok.mpr ⟨merged, hmerged, rfl⟩, by rw [List.map_cons, hmap]⟩

theorem starts_of_sorted {l : List TimeInterval}
    (h : l.Pairwise (fun a b => toLex (a.startUtc, a.endUtc) ≤ toLex (b.startUtc, b.endUtc))) :
    (l.map pair).Pairwise (fun a b => a.1 ≤ b.1) := by
  rw [List.pairwise_map]
  refine h.imp fun hab => ?_
  rcases Prod.Lex.le_iff.mp hab with hlt | ⟨heq, _⟩
  · exact hlt.le
  · exact heq.le

/-- Merging never refuses; what it gives ascends and keeps the instants, also once each interval is
    widened on either side. -/
theorem mergeAdjacent_ok (l : List TimeInterval) :
    ∃ merged, mergeAdjacent l = .ok merged ∧ Ascending (merged.map pair) ∧
      (merged = [] ↔ l = []) ∧
      ∀ f g : DateTime → DateTime, Monotone f → Monotone g → (∀ x, f x ≤ g x) →
        points ((merged.map pair).map (Prod.map f g)) =
          points ((l.map pair).map (Prod.map f g)) := by
  have hperm := perm_sortBy (fun interval : TimeInterval =>
    toLex (interval.startUtc, interval.endUtc)) l
  have hsorted := pairwise_sortBy (fun interval : TimeInterval =>
    toLex (interval.startUtc, interval.endUtc)) l
  rw [mergeAdjacent]
  generalize sortBy (fun interval : TimeInterval =>
    toLex (interval.startUtc, interval.endUtc)) l = ordered at hperm hsorted
  cases ordered with
  | nil =>
    have hl : l = [] := hperm.nil_eq.symm
    subst hl
    exact ⟨[], rfl, ⟨by simp, List.Pairwise.nil⟩, Iff.rfl, fun _ _ _ _ _ => rfl⟩
  | cons first rest =>
    obtain ⟨merged, hmerged, hmap⟩ := mergeInto_ok rest first
    have hstarts := starts_of_sorted hsorted
    rw [List.map_cons] at hstarts
    have hascending : Ascending (merged.map pair) := by
      rw [hmap]
      exact ascending_fuseInto hstarts (nonempty_of_mem_pair (l := first :: rest))
    refine ⟨merged, hmerged, hascending, ?_, ?_⟩
    · have hmerged_ne : merged ≠ [] := by
        rintro rfl
        exact fuseInto_ne_nil _ _ hmap.symm
      have hl_ne : l ≠ [] := by
        rintro rfl
        cases hperm.eq_nil
      exact iff_of_false hmerged_ne hl_ne
    · intro f g hf hg hfg
      rw [hmap, points_map_fuseInto hf hg hfg hstarts]
      ext t
      simp only [mem_points, List.mem_map, ← List.map_cons, hperm.mem_iff]

/-! ### Purging -/

theorem trainBefore_ok {window : TimeInterval} {cursor : DateTime} (block : TimeInterval)
    (h : cursor < window.endUtc) : ∃ gap, trainBefore window cursor block = .ok gap ∧
      gap.map pair =
        if cursor < block.startUtc then [(cursor, min block.startUtc window.endUtc)] else [] := by
  rw [trainBefore]
  by_cases hgap : cursor < block.startUtc
  · obtain ⟨interval, hinterval, hpair⟩ := timeInterval_ok (lt_min hgap h)
    rw [if_pos hgap, if_pos hgap]
    exact ⟨[interval], bind_eq_ok.mpr ⟨interval, hinterval, rfl⟩, by simp [hpair]⟩
  · rw [if_neg hgap, if_neg hgap]
    exact ⟨[], rfl, rfl⟩

/-- The loop carves the blocks out of the window, but for what it leaves after the last of them. -/
theorem trainAround_ok (window : TimeInterval) : ∀ (l : List TimeInterval) (cursor : DateTime),
    cursor < window.endUtc → ∃ remaining last, trainAround window cursor l = .ok (remaining, last) ∧
      remaining.map pair ++ (if last < window.endUtc then [(last, window.endUtc)] else []) =
        carve window.endUtc cursor (l.map pair)
  | [], cursor, _ => ⟨[], cursor, rfl, rfl⟩
  | block :: rest, cursor, hlt => by
    obtain ⟨gap, hgap, hmap⟩ := trainBefore_ok block hlt
    have hcarve : carve window.endUtc cursor ((block :: rest).map pair) = gap.map pair ++
        if max cursor block.endUtc < window.endUtc then
          carve window.endUtc (max cursor block.endUtc) (rest.map pair)
        else [] := by
      rw [hmap]
      rfl
    rw [hcarve]
    simp only [trainAround, bind_eq_ok, hgap, Except.ok.injEq]
    by_cases hcut : window.endUtc ≤ max cursor block.endUtc
    · rw [if_neg (not_lt.mpr hcut)]
      exact ⟨gap, _, ⟨gap, rfl, by rw [if_pos hcut]; rfl⟩, by rw [if_neg (not_lt.mpr hcut)]⟩
    · obtain ⟨remaining, last, hrest, hleft⟩ := trainAround_ok window rest _ (not_le.mp hcut)
      refine ⟨gap ++ remaining, last, ⟨gap, rfl, ?_⟩, ?_⟩
      · rw [if_neg hcut]
        exact bind_eq_ok.mpr ⟨(remaining, last), hrest, rfl⟩
      · rw [if_pos (not_le.mp hcut), List.map_append, List.append_assoc, hleft]

/-- Whether the instant lies in the test interval widened by the two gaps. -/
def TimeInterval.guards (self : TimeInterval) (purge embargo : TimeDelta) (moment : DateTime) : Prop :=
  self.startUtc - purge ≤ moment ∧ moment < self.endUtc + embargo

/-- Training intervals that hold exactly the instants of the window no widened test interval holds. -/
structure PurgeExact (window : TimeInterval) (testIntervals : List TimeInterval)
    (purge embargo : TimeDelta) (train : List TimeInterval) : Prop where
  ascending : Ascending (train.map pair)
  exact : ∀ t, (∃ interval ∈ train, interval.contains t) ↔
    window.contains t ∧ ∀ interval ∈ testIntervals, ¬interval.guards purge embargo t

theorem mem_points_of_forall₂ {purge embargo : TimeDelta} {t : DateTime} :
    ∀ {widened l : List TimeInterval}, List.Forall₂ (fun b a : TimeInterval =>
      b.pair = (a.startUtc - purge, a.endUtc + embargo)) widened l →
    (t ∈ points (widened.map pair) ↔ ∃ interval ∈ l, interval.guards purge embargo t)
  | [], [], .nil => by simp
  | b :: widened, a :: l, .cons hb h => by
    rw [List.map_cons, mem_points_cons, mem_points_of_forall₂ h, hb]
    simp [TimeInterval.guards]

theorem purgedTrainIntervals_ok (window : TimeInterval) (testIntervals : List TimeInterval)
    {purge embargo : TimeDelta} (hpurge : 0 ≤ purge) (hembargo : 0 ≤ embargo) :
    ∃ train, purgedTrainIntervals window testIntervals purge embargo = .ok train ∧
      PurgeExact window testIntervals purge embargo train := by
  obtain ⟨widened, hwidened, hpairs⟩ := exists_mapM
    (f := fun interval : TimeInterval =>
      timeInterval (interval.startUtc - purge) (interval.endUtc + embargo))
    (fun b a => b.pair = (a.startUtc - purge, a.endUtc + embargo)) (l := testIntervals)
    (fun a _ => timeInterval_ok (by linarith [a.start_lt_end]))
  obtain ⟨forbidden, hforbidden, hascending, _, hpoints⟩ := mergeAdjacent_ok widened
  obtain ⟨remaining, cursor, hloop, hcarve⟩ :=
    trainAround_ok window forbidden window.startUtc window.start_lt_end
  have hmem : ∀ t, t ∈ points (forbidden.map pair) ↔
      ∃ interval ∈ testIntervals, interval.guards purge embargo t := by
    intro t
    have hsame := hpoints id id monotone_id monotone_id fun _ => le_rfl
    rw [Prod.map_id, List.map_id, List.map_id] at hsame
    rw [hsame]
    exact mem_points_of_forall₂ hpairs
  have hspec : ∀ train : List TimeInterval,
      train.map pair = carve window.endUtc window.startUtc (forbidden.map pair) →
      PurgeExact window testIntervals purge embargo train := by
    intro train htrain
    refine ⟨htrain ▸ ascending_carve window.start_lt_end nonempty_of_mem_pair, fun t => ?_⟩
    rw [← mem_points_pair, htrain, mem_points_carve window.start_lt_end hascending.starts, hmem]
    simp [TimeInterval.contains]
  simp only [purgedTrainIntervals, bind_eq_ok, requireNonNegativeSpan_eq_ok]
  by_cases hlast : cursor < window.endUtc
  · obtain ⟨last, hok, hpair⟩ := timeInterval_ok hlast
    rw [if_pos hlast] at hcarve
    refine ⟨remaining ++ [last], ⟨(), hpurge, (), hembargo, widened, hwidened, forbidden,
      hforbidden, _, hloop, ?_⟩,
      hspec _ ?_⟩
    · rw [if_pos hlast]
      exact bind_eq_ok.mpr ⟨last, hok, rfl⟩
    · rw [List.map_append, ← hcarve, List.map_cons, List.map_nil, hpair]
  · rw [if_neg hlast, List.append_nil] at hcarve
    exact ⟨remaining, ⟨(), hpurge, (), hembargo, widened, hwidened, forbidden, hforbidden,
      _, hloop, by rw [if_neg hlast]; rfl⟩, hspec _ hcarve⟩

/-! ### Groups -/

namespace CpcvPlan

variable (plan : CpcvPlan)

theorem postInit_facts :
    plan.startUtc < plan.endUtc ∧ 3 ≤ plan.groupTotal ∧ 1 ≤ plan.testGroupSize ∧
      plan.testGroupSize < plan.groupTotal ∧ 0 ≤ plan.embargo ∧
      plan.groupTotal ≤ plan.endUtc - plan.startUtc := by
  have h := plan.checked
  simp only [CpcvPlanFields.postInit, bind_eq_ok, requireIndex_eq_ok, requireNonNegativeSpan_eq_ok,
    raiseIf_eq_ok, not_le, not_or, not_lt] at h
  obtain ⟨_, hwindow, _, _, _, _, _, htotal, _, ⟨hsize, hbelow⟩, _, hembargo, _, _, hlong⟩ := h
  exact ⟨hwindow, htotal, hsize, hbelow, hembargo, hlong⟩

theorem purge_nonneg : 0 ≤ plan.purge := plan.declaration.purge_pos.le

theorem boundary_strictMono : StrictMono plan.boundary := by
  obtain ⟨_, htotal, _, _, _, hlong⟩ := plan.postInit_facts
  refine strictMono_nat_of_lt_succ fun i => ?_
  have hpos : 0 < plan.groupTotal := by omega
  have hstep : (plan.endUtc - plan.startUtc) * i / plan.groupTotal + 1 ≤
      (plan.endUtc - plan.startUtc) * ↑(i + 1) / plan.groupTotal := by
    rw [← Int.add_mul_ediv_right _ 1 hpos.ne']
    refine Int.ediv_le_ediv hpos ?_
    push_cast
    linarith
  exact Int.add_lt_add_left (Int.lt_of_add_one_le hstep) _

theorem boundary_zero : plan.boundary 0 = plan.startUtc := by
  simp [boundary]

theorem boundary_last : plan.boundary plan.groupTotal.toNat = plan.endUtc := by
  obtain ⟨_, htotal, _⟩ := plan.postInit_facts
  have hcast : ((plan.groupTotal.toNat : ℕ) : ℤ) = plan.groupTotal := by omega
  rw [boundary, hcast, Int.mul_ediv_cancel _ (by omega), add_sub_cancel]

end CpcvPlan

/-- The groups are numbered in order, follow each other without overlap and cover the window. -/
structure Partitions (plan : CpcvPlan) (groups : List Group) : Prop where
  numbered : groups.map (fun g => g.groupIndex) =
    (List.range plan.groupTotal.toNat).map (fun index : ℕ => (index : ℤ))
  ascending : Ascending (groups.map fun g => g.interval.pair)
  covers : ∀ t, (∃ g ∈ groups, g.interval.contains t) ↔ plan.startUtc ≤ t ∧ t < plan.endUtc

/-- The groups as cut: group `index` runs from its boundary to the next. -/
def CutAt (plan : CpcvPlan) (groups : List Group) : Prop :=
  List.Forall₂ (fun (g : Group) (index : ℕ) => g.groupIndex = index ∧
    g.interval.pair = (plan.boundary index, plan.boundary (index + 1))) groups
    (List.range plan.groupTotal.toNat)

theorem buildGroups_ok (plan : CpcvPlan) :
    ∃ groups, buildGroups plan = .ok groups ∧ CutAt plan groups := by
  rw [buildGroups]
  refine exists_mapM _ ?_
  intro index hindex
  have hlt : index < plan.groupTotal.toNat := List.mem_range.mp hindex
  obtain ⟨interval, hinterval, hpair⟩ := timeInterval_ok (plan.boundary_strictMono index.lt_succ_self)
  have hgroup : (GroupFields.mk index interval).postInit = .ok () :=
    requireIndex_eq_ok.mpr (Int.natCast_nonneg index)
  refine ⟨⟨_, hgroup⟩, ?_, rfl, hpair⟩
  simp only [bind_eq_ok]
  exact ⟨_, item_ok (by rw [List.getElem?_map, List.getElem?_range (by omega)]; rfl), _,
    item_ok (by rw [List.getElem?_map, List.getElem?_range (by omega)]; rfl), interval, hinterval,
    construct_ok hgroup⟩

theorem partitions_of_cut {plan : CpcvPlan} {groups : List Group} (h : CutAt plan groups) :
    Partitions plan groups := by
  have hnumbers : groups.map (fun g => g.groupIndex) =
      (List.range plan.groupTotal.toNat).map (fun index : ℕ => (index : ℤ)) := by
    rw [← List.forall₂_eq_eq_eq, List.forall₂_map_left_iff, List.forall₂_map_right_iff]
    exact h.imp fun _ _ hg => hg.1
  have hpairs : groups.map (fun g => g.interval.pair) = (List.range plan.groupTotal.toNat).map
      fun index => (plan.boundary index, plan.boundary (index + 1)) := by
    rw [← List.forall₂_eq_eq_eq, List.forall₂_map_left_iff, List.forall₂_map_right_iff]
    exact h.imp fun _ _ hg => hg.2
  refine ⟨hnumbers, ?_, fun t => ?_⟩
  · rw [hpairs]
    exact ascending_consecutive plan.boundary_strictMono _
  · have hpoints := mem_points_consecutive plan.boundary_strictMono.monotone (t := t)
      plan.groupTotal.toNat
    rw [← hpairs, plan.boundary_zero, plan.boundary_last] at hpoints
    rw [← hpoints]
    simp [mem_points, pair, contains]

/-- The chosen intervals exist, and reading a property off them is reading it off the chosen groups. -/
theorem chosenIntervals_ok {plan : CpcvPlan} {groups : List Group} (h : CutAt plan groups)
    {chosen : List ℕ} (hchosen : ∀ index ∈ chosen, index < plan.groupTotal.toNat) :
    ∃ intervals, chosenIntervals groups chosen = .ok intervals ∧ (intervals = [] ↔ chosen = []) ∧
      ∀ P : DateTime × DateTime → Prop, (∃ interval ∈ intervals, P interval.pair) ↔
        ∃ g ∈ groups, g.groupIndex.toNat ∈ chosen ∧ P g.interval.pair := by
  obtain ⟨intervals, hintervals, hpairs⟩ := exists_mapM
    (f := fun index => do
      let group ← item "tuple" groups index
      return group.interval)
    (fun (b : TimeInterval) index => b.pair = (plan.boundary index, plan.boundary (index + 1)))
    (l := chosen) (fun index hindex => by
      obtain ⟨g, hg, _, hpair⟩ := getElem?_of_forall₂ h (List.getElem?_range (hchosen index hindex))
      exact ⟨g.interval, bind_eq_ok.mpr ⟨g, item_ok hg, rfl⟩, hpair⟩)
  refine ⟨intervals, hintervals, ?_, fun P => ?_⟩
  · rw [← List.length_eq_zero_iff, hpairs.length_eq, List.length_eq_zero_iff]
  · have hread : (∃ interval ∈ intervals, P interval.pair) ↔
        ∃ index ∈ chosen, P (plan.boundary index, plan.boundary (index + 1)) :=
      exists_mem_congr_of_forall₂ hpairs fun b index hb => by rw [hb]
    have hgroups : (∃ g ∈ groups, g.groupIndex.toNat ∈ chosen ∧ P g.interval.pair) ↔
        ∃ index ∈ List.range plan.groupTotal.toNat,
          index ∈ chosen ∧ P (plan.boundary index, plan.boundary (index + 1)) :=
      exists_mem_congr_of_forall₂ h fun g index hg => by rw [hg.1, hg.2, Int.toNat_natCast]
    rw [hread, hgroups]
    constructor
    · rintro ⟨index, hin, hP⟩
      exact ⟨index, List.mem_range.mpr (hchosen index hin), hin, hP⟩
    · rintro ⟨index, _, hin, hP⟩
      exact ⟨index, hin, hP⟩

/-! ### Splits -/

theorem mem_points_guards {purge embargo : TimeDelta} {l : List TimeInterval} {t : DateTime} :
    t ∈ points ((l.map pair).map (Prod.map (· - purge) (· + embargo))) ↔
      ∃ interval ∈ l, interval.guards purge embargo t := by
  simp [mem_points, pair, guards]

/-- Training intervals outside every widened test interval overlap none of them. -/
theorem refuseOverlap_ok {self : CpcvSplitFields} (hpurge : 0 ≤ self.purge)
    (hembargo : 0 ≤ self.embargo) {testInterval : TimeInterval}
    (h : ∀ t, (∃ interval ∈ self.trainIntervals, interval.contains t) →
      ¬testInterval.guards self.purge self.embargo t) : self.refuseOverlap testInterval = .ok () := by
  obtain ⟨forbidden, hforbidden, hpair⟩ := timeInterval_ok
    (by linarith [testInterval.start_lt_end] :
      testInterval.startUtc - self.purge < testInterval.endUtc + self.embargo)
  have hguards : ∀ t, forbidden.contains t → testInterval.guards self.purge self.embargo t := by
    intro t ht
    have hends := Prod.mk.inj hpair
    exact ⟨hends.1 ▸ ht.1, hends.2 ▸ ht.2⟩
  refine bind_eq_ok.mpr ⟨forbidden, hforbidden, forM_eq_ok.mpr fun train htrain => ?_⟩
  rw [raiseIf_eq_ok]
  rintro ⟨hbefore, hafter⟩
  -- two spans that overlap share the later of their starts
  have hshared : train.contains (max train.startUtc forbidden.startUtc) ∧
      forbidden.contains (max train.startUtc forbidden.startUtc) :=
    ⟨⟨le_max_left _ _, max_lt train.start_lt_end hafter⟩,
      ⟨le_max_right _ _, max_lt hbefore forbidden.start_lt_end⟩⟩
  exact h _ ⟨train, htrain, hshared.1⟩ (hguards _ hshared.2)

/-- A split tests the chosen groups and trains on exactly what their gaps leave of the window. -/
structure SplitExact (plan : CpcvPlan) (groups : List Group) (split : CpcvSplit) : Prop where
  tests : ∀ t, (∃ interval ∈ split.testIntervals, interval.contains t) ↔
    ∃ g ∈ groups, g.groupIndex.toNat ∈ split.testGroupIndices ∧ g.interval.contains t
  ascending : Ascending (split.trainIntervals.map pair)
  trains : ∀ t, (∃ interval ∈ split.trainIntervals, interval.contains t) ↔
    (plan.startUtc ≤ t ∧ t < plan.endUtc) ∧ ¬∃ g ∈ groups,
      g.groupIndex.toNat ∈ split.testGroupIndices ∧ g.interval.guards plan.purge plan.embargo t
  apart : ∀ t, (∃ interval ∈ split.trainIntervals, interval.contains t) →
    ∀ interval ∈ split.testIntervals, ¬interval.guards plan.purge plan.embargo t

/-- Nothing of the window is left to train on once the chosen groups and their gaps are out. -/
def Consumed (plan : CpcvPlan) (groups : List Group) (chosen : List ℕ) : Prop :=
  ∀ t, plan.startUtc ≤ t → t < plan.endUtc → ∃ g ∈ groups,
    g.groupIndex.toNat ∈ chosen ∧ g.interval.guards plan.purge plan.embargo t

/-- With tests to widen, only an empty training set or an overlap is refused. -/
theorem postInit_eq (self : CpcvSplitFields) (hindex : 0 ≤ self.pathIndex) (hpurge : 0 ≤ self.purge)
    (hembargo : 0 ≤ self.embargo) (hgroups : self.testGroupIndices ≠ [])
    (htests : self.testIntervals ≠ []) :
    self.postInit = if self.trainIntervals = [] then
        .error ⟨.cpcvPartition, noTrainingMessage self.pathIndex self.purge self.embargo⟩
      else self.testIntervals.forM self.refuseOverlap := by
  unfold CpcvSplitFields.postInit requireIndex requireNonNegativeSpan
  rw [raiseIf, if_neg (not_lt.mpr hindex), raiseIf, if_neg (not_lt.mpr hpurge), raiseIf,
    if_neg (not_lt.mpr hembargo), raiseIf, if_neg hgroups, raiseIf, if_neg htests, raiseIf]
  split <;> rfl

theorem buildSplit_cases {plan : CpcvPlan} {groups : List Group} {window : TimeInterval}
    (hgroups : CutAt plan groups) (hwindow : window.pair = (plan.startUtc, plan.endUtc))
    (pathIndex : ℕ) {chosen : List ℕ} (hchosen : ∀ index ∈ chosen, index < plan.groupTotal.toNat)
    (hne : chosen ≠ []) :
    (∃ split, buildSplit plan groups window pathIndex chosen = .ok split ∧
        split.testGroupIndices = chosen ∧ SplitExact plan groups split) ∨
      ∃ refusal, buildSplit plan groups window pathIndex chosen = .error refusal ∧
        refusal = ⟨.cpcvPartition, noTrainingMessage pathIndex plan.purge plan.embargo⟩ ∧
        Consumed plan groups chosen := by
  obtain ⟨_, _, _, _, hembargo, _⟩ := plan.postInit_facts
  have hpurge := plan.purge_nonneg
  obtain ⟨intervals, hintervals, hnil, hread⟩ := chosenIntervals_ok hgroups hchosen
  obtain ⟨tests, htests, _, hempty, hpoints⟩ := mergeAdjacent_ok intervals
  obtain ⟨train, htrain, hexact⟩ := purgedTrainIntervals_ok window tests hpurge hembargo
  -- the merged test intervals guard what the chosen groups guard
  have hguards : ∀ t, (∃ interval ∈ tests, interval.guards plan.purge plan.embargo t) ↔
      ∃ g ∈ groups, g.groupIndex.toNat ∈ chosen ∧ g.interval.guards plan.purge plan.embargo t := by
    intro t
    rw [← mem_points_guards, hpoints _ _ (fun _ _ h => sub_le_sub_right h _)
      (fun _ _ h => add_le_add_left h _) (fun x => by linarith), mem_points_guards]
    exact hread fun p => p.1 - plan.purge ≤ t ∧ t < p.2 + plan.embargo
  have htested : ∀ t, (∃ interval ∈ tests, interval.contains t) ↔
      ∃ g ∈ groups, g.groupIndex.toNat ∈ chosen ∧ g.interval.contains t := by
    intro t
    have hsame := hpoints id id monotone_id monotone_id fun _ => le_rfl
    rw [Prod.map_id, List.map_id, List.map_id] at hsame
    rw [← mem_points_pair, hsame, mem_points_pair]
    exact hread fun p => p.1 ≤ t ∧ t < p.2
  have htrains : ∀ t, (∃ interval ∈ train, interval.contains t) ↔
      (plan.startUtc ≤ t ∧ t < plan.endUtc) ∧ ¬∃ g ∈ groups,
        g.groupIndex.toNat ∈ chosen ∧ g.interval.guards plan.purge plan.embargo t := by
    intro t
    have hends := Prod.mk.inj hwindow
    rw [hexact.exact, ← hguards, TimeInterval.contains, ← hends.1, ← hends.2]
    simp
  have hrun : buildSplit plan groups window pathIndex chosen =
      construct CpcvSplitFields.postInit CpcvSplit.mk
        ⟨pathIndex, chosen, tests, train, plan.purge, plan.embargo⟩ := by
    simp only [buildSplit, hintervals, htests, htrain, bind, Except.bind]
  have hpost := postInit_eq ⟨pathIndex, chosen, tests, train, plan.purge, plan.embargo⟩
    (Int.natCast_nonneg pathIndex) hpurge hembargo hne (by rwa [Ne, hempty, hnil])
  rw [hrun]
  by_cases hleft : train = []
  · subst hleft
    rw [if_pos rfl] at hpost
    refine .inr ⟨_, construct_error hpost, rfl, fun t hlo hhi => ?_⟩
    by_contra hout
    simpa using (htrains t).mpr ⟨⟨hlo, hhi⟩, hout⟩
  · have hapart : ∀ t, (∃ interval ∈ train, interval.contains t) → ∀ interval ∈ tests,
        ¬interval.guards plan.purge plan.embargo t := fun t ht => ((hexact.exact t).mp ht).2
    rw [if_neg hleft, forM_eq_ok.mpr fun test htest =>
      refuseOverlap_ok hpurge hembargo fun t ht => hapart t ht test htest] at hpost
    exact .inl ⟨_, construct_ok hpost, rfl, htested, hexact.ascending, htrains, hapart⟩

/-! ### The partition -/

/-- The splits of a partition: one for each choice, each exact, every group tested equally often. -/
structure PartitionExact (plan : CpcvPlan) (groups : List Group) (partition : CpcvPartition) :
    Prop where
  groups_eq : partition.groups = groups
  choices : partition.splits.map (fun split => split.testGroupIndices) = plan.choices
  count : partition.splits.length = plan.groupTotal.toNat.choose plan.testGroupSize.toNat
  distinct : (partition.splits.map fun split => split.testGroupIndices).Nodup
  tested : ∀ g ∈ groups, partition.splits.countP (fun split =>
      g.groupIndex.toNat ∈ split.testGroupIndices) =
    (plan.groupTotal.toNat - 1).choose (plan.testGroupSize.toNat - 1)
  splits : ∀ split ∈ partition.splits, SplitExact plan groups split

theorem choices_mem {plan : CpcvPlan} {chosen : List ℕ} (h : chosen ∈ plan.choices) :
    (∀ index ∈ chosen, index < plan.groupTotal.toNat) ∧ chosen ≠ [] := by
  obtain ⟨hsub, hlength⟩ := mem_combinations.mp h
  obtain ⟨_, _, hsize, _⟩ := plan.postInit_facts
  refine ⟨fun index hindex => List.mem_range.mp (hsub.subset hindex), ?_⟩
  rintro rfl
  rw [List.length_nil] at hlength
  omega

/-- Splits that are exact for the choices in turn make an exact partition. -/
theorem partitionExact_of_splits {plan : CpcvPlan} {groups : List Group} (hcut : CutAt plan groups)
    {partition : CpcvPartition} (hgroups : partition.groups = groups)
    (hchoices : partition.splits.map (fun split => split.testGroupIndices) = plan.choices)
    (hsplits : ∀ split ∈ partition.splits, SplitExact plan groups split) :
    PartitionExact plan groups partition := by
  have hnodup : plan.choices.Nodup := nodup_combinations List.nodup_range
  obtain ⟨_, _, hsize, _⟩ := plan.postInit_facts
  refine ⟨hgroups, hchoices, ?_, hchoices ▸ hnodup, fun g hg => ?_, hsplits⟩
  · have hlength := congrArg List.length hchoices
    rw [List.length_map, CpcvPlan.choices, length_combinations, List.length_range] at hlength
    exact hlength
  · have hnumber : g.groupIndex ∈ groups.map fun g => g.groupIndex := List.mem_map_of_mem hg
    rw [(partitions_of_cut hcut).numbered, List.mem_map] at hnumber
    obtain ⟨index, hindex, hcast⟩ := hnumber
    have hk : plan.testGroupSize.toNat = plan.testGroupSize.toNat - 1 + 1 := by omega
    have hcount := countP_mem_combinations (plan.testGroupSize.toNat - 1)
      (List.nodup_range (n := plan.groupTotal.toNat)) hindex
    rw [← hk, List.length_range] at hcount
    rw [← hcount, ← hcast, Int.toNat_natCast]
    change _ = plan.choices.countP _
    rw [← hchoices, List.countP_map]
    rfl

/-- The cut covers the window, purging is exact for any tests and gaps, and building the splits gives
    an exact partition or refuses the first path that has nothing left to train on. -/
theorem cpcv_exact (plan : CpcvPlan) :
    (∀ window testIntervals purge embargo, 0 ≤ purge → 0 ≤ embargo →
      ∃ train, purgedTrainIntervals window testIntervals purge embargo = .ok train ∧
        PurgeExact window testIntervals purge embargo train) ∧
    ∃ groups, buildGroups plan = .ok groups ∧ Partitions plan groups ∧
      match buildSplits plan with
      | .ok partition => PartitionExact plan groups partition
      | .error refusal => ∃ (pathIndex : ℕ) (chosen : List ℕ),
          plan.choices[pathIndex]? = some chosen ∧
          refusal = ⟨.cpcvPartition, noTrainingMessage pathIndex plan.purge plan.embargo⟩ ∧
          Consumed plan groups chosen := by
  refine ⟨fun window testIntervals purge embargo => purgedTrainIntervals_ok window testIntervals, ?_⟩
  obtain ⟨groups, hgroups, hcut⟩ := buildGroups_ok plan
  refine ⟨groups, hgroups, partitions_of_cut hcut, ?_⟩
  obtain ⟨window, hwindow, hpair⟩ := timeInterval_ok plan.postInit_facts.1
  have hrun : buildSplits plan = (plan.choices.zipIdx.mapM fun p =>
      buildSplit plan groups window p.2 p.1) >>= fun splits =>
        construct CpcvPartitionFields.postInit CpcvPartition.mk
          ⟨plan, groups, splits, plan.purge, plan.embargo⟩ := by
    simp only [buildSplits, CpcvPlan.window, hgroups, hwindow, bind, Except.bind]
  rw [hrun]
  rcases mapM_cases
      (fun (split : CpcvSplit) (p : List ℕ × ℕ) => split.testGroupIndices = p.1 ∧
        SplitExact plan groups split)
      (fun p refusal =>
        refusal = ⟨.cpcvPartition, noTrainingMessage p.2 plan.purge plan.embargo⟩ ∧
          Consumed plan groups p.1)
      (fun p hp =>
        have hchosen := choices_mem (List.fst_mem_of_mem_zipIdx hp)
        buildSplit_cases hcut hpair p.2 hchosen.1 hchosen.2) with
    ⟨splits, hok, hall⟩ | ⟨p, hp, refusal, hrefused, heq, hconsumed⟩
  · have hchoices : splits.map (fun split => split.testGroupIndices) = plan.choices := by
      rw [← List.zipIdx_map_fst 0 plan.choices, ← List.forall₂_eq_eq_eq,
        List.forall₂_map_left_iff, List.forall₂_map_right_iff]
      exact hall.imp fun _ _ h => h.1
    have hsplits : ∀ split ∈ splits, SplitExact plan groups split := by
      have hleft := hall.imp fun _ _ h => And.intro h.2 trivial
      exact ((List.forall₂_and_left _ _).mp hleft).1
    have hchecked : CpcvPartitionFields.postInit
        ⟨plan, groups, splits, plan.purge, plan.embargo⟩ = .ok () := by
      have hlength := congrArg List.length hchoices
      rw [List.length_map, CpcvPlan.choices, length_combinations, List.length_range] at hlength
      rw [CpcvPartitionFields.postInit, raiseIf_eq_ok, not_not]
      exact hlength
    rw [bind_eq_ok.mpr ⟨splits, hok, construct_ok hchecked⟩]
    exact partitionExact_of_splits hcut rfl hchoices hsplits
  · rw [hrefused]
    exact ⟨p.2, p.1, List.mem_zipIdx_iff_getElem?.mp hp, heq, hconsumed⟩

/-- Four groups of a hundred microseconds, one tested at a time, with gaps of ten and twenty. -/
def quarteredPlan : PyResult CpcvPlan :=
  construct CpcvPlanFields.postInit CpcvPlan.mk
    ⟨0, 400, 4, 1, ⟨⟨10, 0, 10, 10⟩, by decide⟩, 20⟩

example : (do
    let plan ← quarteredPlan
    let partition ← buildSplits plan
    return partition.splits.map fun (split : CpcvSplit) => split.trainIntervals.map pair) =
    .ok [[(120, 400)], [(0, 90), (220, 400)], [(0, 190), (320, 400)], [(0, 290)]] := by
  decide +kernel

end FinanceKing.Backtest
