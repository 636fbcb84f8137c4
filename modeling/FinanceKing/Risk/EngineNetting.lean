import FinanceKing.Lib.Merge
import FinanceKing.Risk.EngineSizing
import FinanceKing.Risk.NettingContract

/-! The netting of a decision: the admissions of each instrument become one plan, or are refused together,
    and every admission is in exactly one group. -/

namespace FinanceKing.Risk

open Lib Strategies

/-- A plan is on the instrument it was netted for, and is priced at the mark where it reaches the venue. -/
theorem netRequests_plan {instrument : Instrument} {requests : List StrategyRequest}
    {referenceQuotePrice decisionMidQuotePrice : Decimal} {plan : NetOrderPlan}
    (h : netRequests instrument requests referenceQuotePrice decisionMidQuotePrice = .ok plan) :
    plan.instrument = instrument ∧
      plan.netSignedBaseQuantity = instrument.quantizeBaseQuantity (rawNet requests) ∧
      plan.referenceQuotePrice =
        if plan.netSignedBaseQuantity ≠ 0 then referenceQuotePrice else decisionMidQuotePrice := by
  simp only [netRequests, bind_eq_ok] at h
  obtain ⟨_, _, _, _, _, _, _, _, _, _, h⟩ := h
  simp only [attributePlan, bind_eq_ok, pure_eq_ok] at h
  obtain ⟨_, _, _, _, rfl⟩ := h
  exact ⟨rfl, rfl, rfl⟩

namespace RiskEngine

/-- The admissions on one instrument. -/
def groupOf (admitted : List Admitted) (instrument : Instrument) : List Admitted :=
  admitted.filter fun admission => admission.signal.instrument = instrument

theorem mem_groupOf {admitted : List Admitted} {instrument : Instrument} {admission : Admitted} :
    admission ∈ groupOf admitted instrument ↔
      admission ∈ admitted ∧ admission.signal.instrument = instrument := by
  simp [groupOf]

/-- The groups are the admissions of each instrument that has one. -/
theorem mem_grouped {admitted : List Admitted} {entry : Instrument × List Admitted} :
    entry ∈ (grouped admitted).entries ↔
      entry.2 = groupOf admitted entry.1 ∧ groupOf admitted entry.1 ≠ [] := by
  obtain ⟨instrument, group⟩ := entry
  rw [← Dict.get?_eq_some_iff]
  have hgroup : (grouped admitted).get? instrument = if groupOf admitted instrument = [] then none
      else some (groupOf admitted instrument) :=
    Dict.get?_groupBy (fun admission : Admitted => admission.signal.instrument) instrument admitted
  rw [hgroup]
  split
  · next hnil => simp [hnil]
  · next hsome => simp [hsome, eq_comm]

/-- What a group's plan must be for the group to go on: nothing for the venue, or at least its floor. -/
def MeetsFloor (market : InstrumentMarketState) (plan : NetOrderPlan) : Prop :=
  plan.hasVenuePortion → plan.instrument.meetsMinNotional |plan.netSignedBaseQuantity| market.markUsd

/-- A group's plan, from the market its instrument trades on. -/
structure PlansGroup (marketState : MarketState) (entry : Instrument × List Admitted) (plan : NetOrderPlan)
    (market : InstrumentMarketState) : Prop where
  priced : marketState.instruments.get? entry.1 = some market
  planned : netRequests entry.1 (entry.2.map fun admission => admission.request) market.markUsd
    market.midQuotePrice = .ok plan

theorem PlansGroup.instrument_eq {marketState : MarketState} {entry : Instrument × List Admitted}
    {plan : NetOrderPlan} {market : InstrumentMarketState} (h : PlansGroup marketState entry plan market) :
    plan.instrument = entry.1 := (netRequests_plan h.planned).1

/-- A group goes on whole, behind its plan, or is refused whole. -/
theorem netGroup_cases {marketState : MarketState} {decidedAtUtc : DateTime} {netting next : Netting}
    {entry : Instrument × List Admitted} (h : netGroup marketState decidedAtUtc netting entry = .ok next) :
    ∃ plan market, PlansGroup marketState entry plan market ∧
      ((MeetsFloor market plan ∧
        next = { netting with plans := netting.plans ++ [plan], netted := netting.netted ++ entry.2 }) ∨
      (¬MeetsFloor market plan ∧ ∃ rejection,
        next = { netting with rejected := netting.rejected ++ entry.2.map fun admission =>
          (admission, rejection) })) := by
  obtain ⟨instrument, group⟩ := entry
  simp only [netGroup] at h
  split at h
  · exact absurd h raise_ne_ok
  · next market hmarket =>
    rw [bind_eq_ok] at h
    obtain ⟨plan, hplan, h⟩ := h
    have hplans : PlansGroup marketState (instrument, group) plan market := ⟨hmarket, hplan⟩
    have hinstrument : plan.instrument = instrument := hplans.instrument_eq
    refine ⟨plan, market, hplans, ?_⟩
    simp only [MeetsFloor, hinstrument]
    split at h
    · next hbelow =>
      obtain rfl := pure_eq_ok.mp h
      exact .inr ⟨fun hmeets => hbelow.2 (hmeets hbelow.1), _, rfl⟩
    · next hfloor =>
      obtain rfl := pure_eq_ok.mp h
      exact .inl ⟨fun hvenue => by_contra fun hbelow => hfloor ⟨hvenue, hbelow⟩, rfl⟩

/-! ### A whole netting -/

/-- The instruments a netting has planned for. -/
def Netting.planned (netting : Netting) : List Instrument := netting.plans.map fun plan => plan.instrument

/-- What netting some groups leaves: a plan for each group that goes on, with its admissions, and the
    admissions of the others refused. -/
structure NetsGroups (marketState : MarketState) (entries : List (Instrument × List Admitted))
    (netting : Netting) : Prop where
  plans : ∀ plan ∈ netting.plans, ∃ entry ∈ entries, ∃ market,
    PlansGroup marketState entry plan market ∧ MeetsFloor market plan
  inOrder : netting.planned.Sublist (entries.map Prod.fst)
  netted : netting.netted = (entries.filter fun entry => entry.1 ∈ netting.planned).flatMap Prod.snd
  rejected : netting.rejected.map Prod.fst =
    (entries.filter fun entry => entry.1 ∉ netting.planned).flatMap Prod.snd
  refused : ∀ entry ∈ entries, entry.1 ∉ netting.planned → ∃ plan market,
    PlansGroup marketState entry plan market ∧ ¬MeetsFloor market plan

/-- One more group. -/
theorem NetsGroups.step {marketState : MarketState} {decidedAtUtc : DateTime}
    {entries : List (Instrument × List Admitted)} {entry : Instrument × List Admitted}
    {netting next : Netting} (hnets : NetsGroups marketState entries netting)
    (hnew : entry.1 ∉ entries.map Prod.fst)
    (h : netGroup marketState decidedAtUtc netting entry = .ok next) :
    NetsGroups marketState (entries ++ [entry]) next := by
  have hold : entry.1 ∉ netting.planned := fun hmem => hnew (hnets.inOrder.subset hmem)
  obtain ⟨plan, market, hplan, ⟨hfloor, rfl⟩ | ⟨hfloor, rejection, rfl⟩⟩ := netGroup_cases h
  · have hplanned : Netting.planned { netting with
        plans := netting.plans ++ [plan], netted := netting.netted ++ entry.2 } =
        netting.planned ++ [entry.1] := by
      rw [Netting.planned, List.map_append, List.map_singleton, hplan.instrument_eq]
      rfl
    have hsame : ∀ earlier ∈ entries, (earlier.1 ∈ netting.planned ++ [entry.1] ↔
        earlier.1 ∈ netting.planned) := by
      intro earlier hearlier
      have hne : earlier.1 ≠ entry.1 := fun heq => hnew (heq ▸ List.mem_map_of_mem hearlier)
      simp [hne]
    have hnetted : entries.filter (fun earlier => earlier.1 ∈ netting.planned ++ [entry.1]) =
        entries.filter fun earlier => earlier.1 ∈ netting.planned :=
      List.filter_congr fun earlier hearlier => decide_eq_decide.mpr (hsame earlier hearlier)
    have hrejected : entries.filter (fun earlier => earlier.1 ∉ netting.planned ++ [entry.1]) =
        entries.filter fun earlier => earlier.1 ∉ netting.planned :=
      List.filter_congr fun earlier hearlier =>
        decide_eq_decide.mpr (not_congr (hsame earlier hearlier))
    refine ⟨fun plan' hplan' => ?_, ?_, ?_, ?_, fun entry' hentry' hout => ?_⟩
    · rcases List.mem_append.mp hplan' with hearlier | hlast
      · obtain ⟨entry', hentry', hrest⟩ := hnets.plans plan' hearlier
        exact ⟨entry', List.mem_append_left _ hentry', hrest⟩
      · obtain rfl := List.mem_singleton.mp hlast
        exact ⟨entry, by simp, market, hplan, hfloor⟩
    · rw [hplanned, List.map_append]
      exact hnets.inOrder.append (List.Sublist.refl _)
    · rw [hplanned, List.filter_append, List.flatMap_append, hnetted, ← hnets.netted]
      simp
    · rw [hplanned, List.filter_append, List.flatMap_append, hrejected, ← hnets.rejected]
      simp
    · rw [hplanned] at hout
      rcases List.mem_append.mp hentry' with hearlier | hlast
      · exact hnets.refused entry' hearlier fun hmem => hout (List.mem_append_left _ hmem)
      · obtain rfl := List.mem_singleton.mp hlast
        exact absurd (by simp) hout
  · refine ⟨fun plan' hplan' => ?_, ?_, ?_, ?_, fun entry' hentry' hout => ?_⟩
    · obtain ⟨entry', hentry', hrest⟩ := hnets.plans plan' hplan'
      exact ⟨entry', List.mem_append_left _ hentry', hrest⟩
    · rw [List.map_append]
      exact hnets.inOrder.trans (List.sublist_append_left _ _)
    · have hnone : [entry].filter (fun entry' => entry'.1 ∈ netting.planned) = [] := by simp [hold]
      rw [List.filter_append]
      change netting.netted = (_ ++ [entry].filter fun entry' => entry'.1 ∈ netting.planned).flatMap _
      rw [hnone, List.append_nil]
      exact hnets.netted
    · have hone : [entry].filter (fun entry' => entry'.1 ∉ netting.planned) = [entry] := by simp [hold]
      rw [List.filter_append, List.flatMap_append, List.map_append]
      change netting.rejected.map Prod.fst ++ _ = _ ++
        ([entry].filter fun entry' => entry'.1 ∉ netting.planned).flatMap _
      rw [hone, hnets.rejected]
      simp [Function.comp_def, Netting.planned]
    · rcases List.mem_append.mp hentry' with hearlier | hlast
      · exact hnets.refused entry' hearlier hout
      · obtain rfl := List.mem_singleton.mp hlast
        exact ⟨plan, market, hplan, hfloor⟩

theorem netsGroups_run {marketState : MarketState} {decidedAtUtc : DateTime} :
    ∀ {entries : List (Instrument × List Admitted)} {netting : Netting},
    (entries.map Prod.fst).Nodup →
    entries.foldlM (netGroup marketState decidedAtUtc) ⟨[], [], []⟩ = .ok netting →
    NetsGroups marketState entries netting := by
  intro entries
  induction entries using List.reverseRecOn with
  | nil =>
    intro netting _ h
    obtain rfl : (⟨[], [], []⟩ : Netting) = netting := by simpa [List.foldlM_nil] using h
    exact ⟨by simp, List.Sublist.slnil, rfl, rfl, by simp⟩
  | append_singleton entries entry ih =>
    intro netting hnodup h
    rw [List.map_append, List.nodup_append] at hnodup
    simp only [List.foldlM_append, bind_eq_ok, List.foldlM_cons, List.foldlM_nil, pure_eq_ok] at h
    obtain ⟨before, hbefore, _, hstep, rfl⟩ := h
    refine (ih hnodup.1 hbefore).step (fun hmem => ?_) hstep
    exact hnodup.2.2 entry.1 hmem entry.1 (by simp) rfl

/-- Netting is what netting its groups leaves. -/
theorem net_netsGroups {admitted : List Admitted} {marketState : MarketState} {decidedAtUtc : DateTime}
    {netting : Netting} (h : net admitted marketState decidedAtUtc = .ok netting) :
    NetsGroups marketState (grouped admitted).entries netting :=
  netsGroups_run (grouped admitted).nodupKeys h

end RiskEngine

end FinanceKing.Risk
