import FinanceKing.Risk.ProspectiveBook

/-! From the admissions to the orders: every admission is in the one group of its instrument, each group's plan
    holds a slice for each of its signals, and an order is the venue portion of its plan. -/

namespace FinanceKing.Risk

open Lib Strategies

/-! ### Groups and matched lists -/

theorem map_eq_ok {α β : Type} {f : α → β} {x : PyResult α} {b : β} :
    f <$> x = .ok b ↔ ∃ a, x = .ok a ∧ f a = b := by
  cases x with
  | error e => simp [Functor.map, Except.map]
  | ok a => simp [Functor.map, Except.map]

section

variable {ε ι δ : Type} [DecidableEq ι]

/-- Of elements grouped by key, those of one key are its group. -/
theorem filter_flatMap_of_mem (key : ε → ι) {entry : ι × List ε} : ∀ {entries : List (ι × List ε)},
    (entries.map Prod.fst).Nodup → (∀ e ∈ entries, ∀ x ∈ e.2, key x = e.1) → entry ∈ entries →
    (entries.flatMap Prod.snd).filter (fun x => key x = entry.1) = entry.2
  | first :: rest, hnodup, hkeyed, hmem => by
    obtain ⟨hnotin, hrest⟩ := List.nodup_cons.mp hnodup
    obtain ⟨hfirst, hothers⟩ := List.forall_mem_cons.mp hkeyed
    rw [List.flatMap_cons, List.filter_append]
    rcases List.mem_cons.mp hmem with rfl | htail
    · have hnone : (rest.flatMap Prod.snd).filter (fun x => key x = entry.1) = [] := by
        refine List.filter_eq_nil_iff.mpr fun x hx => ?_
        obtain ⟨e, he, hxe⟩ := List.mem_flatMap.mp hx
        intro hsame
        exact hnotin (List.mem_map.mpr ⟨e, he, (hothers e he x hxe).symm.trans (of_decide_eq_true hsame)⟩)
      rw [hnone, List.append_nil]
      exact List.filter_eq_self.mpr fun x hx => decide_eq_true (hfirst x hx)
    · have hne : first.1 ≠ entry.1 := fun hsame => hnotin (hsame ▸ List.mem_map_of_mem htail)
      have hnone : first.2.filter (fun x => key x = entry.1) = [] :=
        List.filter_eq_nil_iff.mpr fun x hx hsame =>
          hne ((hfirst x hx).symm.trans (of_decide_eq_true hsame))
      rw [hnone, List.nil_append]
      exact filter_flatMap_of_mem key hrest hothers htail

/-- Of two matched lists with distinct keys, a search by key finds the match. -/
theorem find?_of_matched (key : ε → ι) (keyOf : δ → ι) {xs : List ε} {ys : List δ}
    (h : List.Forall₂ (fun x y => keyOf y = key x) xs ys) (hnodup : (xs.map key).Nodup) :
    List.Forall₂ (fun x y => ys.find? (fun y' => keyOf y' = key x) = some y) xs ys := by
  induction h with
  | nil => exact .nil
  | @cons x y xs ys hxy hrest ih =>
    obtain ⟨hnotin, hothers⟩ := List.nodup_cons.mp hnodup
    refine .cons (List.find?_cons_of_pos (decide_eq_true hxy)) ?_
    have hfound := ih hothers
    rw [List.forall₂_iff_get] at hfound ⊢
    refine ⟨hfound.1, fun i hi hj => ?_⟩
    rw [List.find?_cons_of_neg, hfound.2 i hi hj]
    intro hsame
    exact hnotin (List.mem_map.mpr ⟨xs.get ⟨i, hi⟩, List.get_mem xs _, hxy ▸ (of_decide_eq_true hsame).symm⟩)

/-- Matched lists that agree under two readings are the same list read so. -/
theorem map_eq_map_of_forall₂ {β : Type} {f : ε → β} {g : δ → β} {xs : List ε} {ys : List δ}
    (h : List.Forall₂ (fun x y => f x = g y) xs ys) : xs.map f = ys.map g := by
  induction h with
  | nil => rfl
  | cons hxy _ ih => rw [List.map_cons, List.map_cons, hxy, ih]

end

namespace RiskEngine

/-! ### Plans and slices -/

/-- Netting keeps every admission: behind a plan, or refused. -/
theorem netting_perm {admitted : List Admitted} {marketState : MarketState} {netting : Netting}
    (h : NetsGroups marketState (grouped admitted).entries netting) :
    (netting.netted ++ netting.rejected.map Prod.fst).Perm admitted := by
  rw [h.netted, h.rejected, ← List.flatMap_append]
  refine List.Perm.trans ?_
    (Dict.perm_groupBy (fun admission : Admitted => admission.signal.instrument) admitted)
  have hsplit := List.filter_append_perm (fun entry : Instrument × List Admitted =>
    Decidable.decide (entry.1 ∈ netting.planned)) (grouped admitted).entries
  simp only [← decide_not] at hsplit
  exact hsplit.flatMap_right _

/-- Everyone in a group trades its instrument. -/
theorem grouped_instrument {admitted : List Admitted} {entry : Instrument × List Admitted}
    (hentry : entry ∈ (grouped admitted).entries) {admission : Admitted} (h : admission ∈ entry.2) :
    admission.signal.instrument = entry.1 := by
  rw [(mem_grouped.mp hentry).1] at h
  exact (mem_groupOf.mp h).2

/-- A plan's admissions: those on its instrument. -/
theorem netted_filter {admitted : List Admitted} {marketState : MarketState} {netting : Netting}
    (h : NetsGroups marketState (grouped admitted).entries netting) {entry : Instrument × List Admitted}
    (hentry : entry ∈ (grouped admitted).entries) (hplanned : entry.1 ∈ netting.planned) :
    netting.netted.filter (fun admission => admission.signal.instrument = entry.1) = entry.2 := by
  rw [h.netted]
  refine filter_flatMap_of_mem (fun admission : Admitted => admission.signal.instrument)
    ((List.filter_sublist.map _).nodup (grouped admitted).nodupKeys)
    (fun e he admission hadmission => grouped_instrument (List.mem_of_mem_filter he) hadmission) ?_
  exact List.mem_filter.mpr ⟨hentry, decide_eq_true hplanned⟩

/-- No admission behind a plan is on an instrument without one. -/
theorem planned_of_netted {admitted : List Admitted} {marketState : MarketState} {netting : Netting}
    (h : NetsGroups marketState (grouped admitted).entries netting) {admission : Admitted}
    (hadmission : admission ∈ netting.netted) : admission.signal.instrument ∈ netting.planned := by
  rw [h.netted] at hadmission
  obtain ⟨entry, hentry, hmem⟩ := List.mem_flatMap.mp hadmission
  obtain ⟨hgroup, hplanned⟩ := List.mem_filter.mp hentry
  rw [grouped_instrument hgroup hmem]
  exact of_decide_eq_true hplanned

/-- One strategy, one admission on an instrument, owned by its request. -/
structure OneEach (admitted : List Admitted) : Prop where
  distinct : (admitted.map fun admission =>
    (admission.signal.strategyId, admission.signal.instrument)).Nodup
  owned : ∀ admission ∈ admitted, admission.request.strategyId = admission.signal.strategyId

/-- The strategies of one group are distinct. -/
theorem OneEach.nodup_group {admitted : List Admitted} (h : OneEach admitted) (instrument : Instrument) :
    ((groupOf admitted instrument).map fun admission => admission.signal.strategyId).Nodup := by
  have hpairs := (List.filter_sublist (p := fun admission : Admitted =>
    Decidable.decide (admission.signal.instrument = instrument)).map fun admission : Admitted =>
      (admission.signal.strategyId, admission.signal.instrument)).nodup h.distinct
  refine List.Nodup.of_map (fun strategyId => (strategyId, instrument)) ?_
  rw [List.map_map]
  have hsame : (groupOf admitted instrument).map
      ((fun strategyId => (strategyId, instrument)) ∘ fun admission => admission.signal.strategyId) =
      (groupOf admitted instrument).map fun admission : Admitted =>
        (admission.signal.strategyId, admission.signal.instrument) :=
    List.map_congr_left fun admission hadmission =>
      Prod.ext rfl (mem_groupOf.mp hadmission).2.symm
  rw [hsame]
  exact hpairs

theorem OneEach.distinctStrategies {admitted : List Admitted} (h : OneEach admitted)
    (instrument : Instrument) :
    DistinctStrategies ((groupOf admitted instrument).map fun admission => admission.request) := by
  rw [DistinctStrategies, List.map_map]
  have hsame : (groupOf admitted instrument).map
      ((fun request : StrategyRequest => request.strategyId) ∘ fun admission => admission.request) =
      (groupOf admitted instrument).map fun admission => admission.signal.strategyId :=
    List.map_congr_left fun admission hadmission => h.owned admission (mem_groupOf.mp hadmission).1
  rw [hsame]
  exact h.nodup_group instrument

/-- The slice a plan holds for an admission. -/
def sliceIn (plan : NetOrderPlan) (admission : Admitted) : Option Attribution :=
  plan.attributions.find? fun candidate => candidate.strategyId = admission.signal.strategyId

/-- A group's plan holds a slice for every admission of the group, and they sum to its net. -/
theorem slices_of_group {admitted : List Admitted} (honce : OneEach admitted) {marketState : MarketState}
    {entry : Instrument × List Admitted} (hentry : entry ∈ (grouped admitted).entries)
    {plan : NetOrderPlan} {market : InstrumentMarketState} (h : PlansGroup marketState entry plan market) :
    List.Forall₂ (fun admission attribution => sliceIn plan admission = some attribution) entry.2
      plan.attributions ∧
    plan.attributedSignedBaseQuantity = plan.netSignedBaseQuantity := by
  obtain ⟨hgroup, hsome⟩ := mem_grouped.mp hentry
  have hplanned := h.planned
  rw [hgroup] at hplanned
  have hrequests : (groupOf admitted entry.1).map (fun admission => admission.request) ≠ [] := by
    simpa using hsome
  obtain ⟨plan', hplan', hbooked⟩ := netRequests_returns hrequests (honce.distinctStrategies entry.1)
    market.markUsd_pos market.midQuotePrice_pos
  obtain rfl := Except.ok.inj (hplanned.symm.trans hplan')
  refine ⟨?_, (netted_of_planned (honce.distinctStrategies entry.1) hbooked).conserved⟩
  have hslices := booked_slices hbooked
  rw [List.forall₂_map_left_iff] at hslices
  rw [hgroup]
  refine find?_of_matched (fun admission : Admitted => admission.signal.strategyId) (fun attribution : Attribution => attribution.strategyId) ?_
    (honce.nodup_group entry.1)
  rw [List.forall₂_iff_zip] at hslices ⊢
  refine ⟨hslices.1, fun {admission attribution} hpair => ?_⟩
  rw [(hslices.2 hpair).1]
  exact honce.owned admission (mem_groupOf.mp (List.of_mem_zip hpair).1).1

/-! ### Orders -/

variable {engine : RiskEngine}

/-- An order is the venue portion of its plan. -/
structure OrderOf (plan : NetOrderPlan) (order : Order) : Prop where
  instrument : order.instrument = plan.instrument
  venue : plan.netSignedBaseQuantity ≠ 0
  quantity : order.signedBaseQuantity = plan.netSignedBaseQuantity

theorem constructOrder_spec {plan : NetOrderPlan} {decidedAtUtc : DateTime} {correlationId : Uuid} {seed : ℤ}
    {order : Order} (hvenue : plan.hasVenuePortion = true)
    (h : engine.constructOrder plan decidedAtUtc correlationId seed = .ok order) : OrderOf plan order := by
  obtain ⟨_, rfl⟩ := construct_eq_ok h
  have hne : plan.netSignedBaseQuantity ≠ 0 := of_decide_eq_true hvenue
  refine ⟨rfl, hne, ?_⟩
  simp only [Order.signedBaseQuantity]
  by_cases hlong : 0 < plan.netSignedBaseQuantity
  · rw [if_pos hlong, abs_of_pos hlong]
    exact mul_one _
  · rw [if_neg hlong, abs_of_nonpos (not_lt.mp hlong)]
    exact (mul_neg_one _).trans (neg_neg _)

/-- The orders constructed for some plans: under each instrument its plan's, and one for every venue portion. -/
structure OrdersFor (plans : List NetOrderPlan) (orders : Dict Instrument Order) : Prop where
  planned : ∀ instrument order, orders.get? instrument = some order →
    ∃ plan ∈ plans, plan.instrument = instrument ∧ OrderOf plan order
  complete : ∀ plan ∈ plans, plan.netSignedBaseQuantity ≠ 0 → (orders.get? plan.instrument).isSome

theorem constructOrders_ordersFor {decidedAtUtc : DateTime} {correlationId : Uuid} {seed : ℤ} :
    ∀ {plans : List NetOrderPlan} {orders : Dict Instrument Order},
    engine.constructOrders plans decidedAtUtc correlationId seed = .ok orders → OrdersFor plans orders := by
  intro plans
  induction plans using List.reverseRecOn with
  | nil =>
    intro orders h
    obtain rfl := pure_eq_ok.mp h
    exact ⟨fun instrument order horder => (by cases horder), fun plan hplan => (by cases hplan)⟩
  | append_singleton plans plan ih =>
    intro orders h
    simp only [constructOrders, List.foldlM_append, bind_eq_ok, List.foldlM_cons, List.foldlM_nil,
      pure_eq_ok] at h
    obtain ⟨before, hbefore, _, hlast, rfl⟩ := h
    have hrun := ih hbefore
    split at hlast
    · next hnone =>
      obtain rfl := Except.ok.inj hlast
      refine ⟨fun instrument order horder => ?_, fun other hother hvenue => ?_⟩
      · obtain ⟨plan', hplan', hof⟩ := hrun.planned instrument order horder
        exact ⟨plan', List.mem_append_left _ hplan', hof⟩
      · rcases List.mem_append.mp hother with hold | hnew
        · exact hrun.complete other hold hvenue
        · rw [List.mem_singleton.mp hnew] at hvenue
          exact absurd (decide_eq_true hvenue) hnone
    · next hvenue =>
      rw [not_not] at hvenue
      rw [map_eq_ok] at hlast
      obtain ⟨last, hlast, rfl⟩ := hlast
      have hspec := constructOrder_spec hvenue hlast
      refine ⟨fun instrument order horder => ?_, fun other hother hportion => ?_⟩
      · rw [Dict.get?_set] at horder
        split at horder
        · next hsame =>
          obtain rfl := Option.some.inj horder
          exact ⟨plan, by simp, hsame.symm, hspec⟩
        · obtain ⟨plan', hplan', hof⟩ := hrun.planned instrument order horder
          exact ⟨plan', List.mem_append_left _ hplan', hof⟩
      · rw [Dict.get?_set]
        split
        · rfl
        · next hother' =>
          rcases List.mem_append.mp hother with hold | hnew
          · exact hrun.complete other hold hportion
          · exact absurd (congrArg NetOrderPlan.instrument (List.mem_singleton.mp hnew)) hother'

end RiskEngine

end FinanceKing.Risk
