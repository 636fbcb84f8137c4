import FinanceKing.Domain.Results
import FinanceKing.Lib.Sums
import FinanceKing.Risk.Netting

/-! What the truncation takes from each request. The loop over the surplus side comes to a closed form: a
    request gives up what is still wanted once every larger holding has given all it has, which mentions the
    batch only through a sum and so does not depend on its order. -/

namespace FinanceKing.Risk

open Lib

/-- A quantity after something was taken from its magnitude on the surplus side. -/
def drawn (surplusIsLong : Bool) (quantity taken : Decimal) : Decimal :=
  quantity + if surplusIsLong then -taken else taken

@[simp] theorem drawn_zero (surplusIsLong : Bool) (quantity : Decimal) :
    drawn surplusIsLong quantity 0 = quantity := by
  rw [drawn, neg_zero, ite_self, add_zero]

/-! ### The loop -/

theorem set_getD_self (quantities : List Decimal) (index : ℕ) :
    quantities.set index (quantities.getD index 0) = quantities := by
  rcases lt_or_ge index quantities.length with h | h
  · rw [List.getD_eq_getElem _ _ h, List.set_getElem_self]
  · exact List.set_eq_of_length_le h

/-- One step draws the holding's share of what is wanted. -/
theorem absorbStep_eq (surplusIsLong : Bool) (quantities : List Decimal) (wanted : Decimal) (index : ℕ) :
    absorbStep surplusIsLong (quantities, max 0 wanted) index =
      (quantities.set index
          (drawn surplusIsLong (quantities.getD index 0) (share |quantities.getD index 0| wanted)),
        max 0 (wanted - |quantities.getD index 0|)) := by
  rw [absorbStep]
  split
  · rename_i h
    have hw : wanted ≤ 0 := (le_max_right _ _).trans h
    have hshare : share |quantities.getD index 0| wanted = 0 := by
      rw [share, max_eq_left hw, min_eq_right (abs_nonneg _)]
    rw [hshare, drawn_zero, set_getD_self, max_eq_left hw,
      max_eq_left ((sub_le_self _ (abs_nonneg _)).trans hw)]
  · rw [← wanted_sub_share (abs_nonneg _)]
    rfl

/-- The positions of an order, and what their holdings come to. -/
def capacities (quantities : List Decimal) (order : List ℕ) : Decimal :=
  (order.map fun index => |quantities.getD index 0|).sum

theorem getD_set_of_ne {quantities : List Decimal} {index other : ℕ} (h : other ≠ index) (v : Decimal) :
    (quantities.set index v).getD other 0 = quantities.getD other 0 := by
  rw [List.getD_eq_getElem?_getD, List.getD_eq_getElem?_getD, List.getElem?_set_ne h.symm]

theorem capacities_set {quantities : List Decimal} {index : ℕ} {order : List ℕ} (h : index ∉ order)
    (v : Decimal) : capacities (quantities.set index v) order = capacities quantities order := by
  rw [capacities, capacities]
  refine congrArg List.sum (List.map_congr_left fun other hother => ?_)
  have hne : other ≠ index := fun heq => h (heq ▸ hother)
  rw [getD_set_of_ne hne]

/-- What the loop still wants is what the holdings did not cover. -/
theorem absorbed_remaining (surplusIsLong : Bool) {order : List ℕ} (h : order.Nodup)
    (quantities : List Decimal) (wanted : Decimal) :
    (order.foldl (absorbStep surplusIsLong) (quantities, max 0 wanted)).2 =
      max 0 (wanted - capacities quantities order) := by
  induction order generalizing quantities wanted with
  | nil => rw [List.foldl_nil, capacities, List.map_nil, List.sum_nil, sub_zero]
  | cons index order ih =>
    obtain ⟨hnotin, hrest⟩ := List.nodup_cons.mp h
    rw [List.foldl_cons, absorbStep_eq, ih hrest, capacities_set hnotin, capacities, capacities, List.map_cons,
      List.sum_cons, sub_sub]

/-- The loop leaves a position outside its order alone. -/
theorem absorbed_of_not_mem (surplusIsLong : Bool) {order : List ℕ} {index : ℕ} (h : index ∉ order)
    (quantities : List Decimal) (wanted : Decimal) :
    (order.foldl (absorbStep surplusIsLong) (quantities, max 0 wanted)).1[index]? = quantities[index]? := by
  induction order generalizing quantities wanted with
  | nil => rfl
  | cons other order ih =>
    rw [List.mem_cons, not_or] at h
    obtain ⟨hne, hrest⟩ := h
    rw [List.foldl_cons, absorbStep_eq, ih hrest, List.getElem?_set_ne (Ne.symm hne)]

/-- A position's holding is drawn on once those before it have given all they have. -/
theorem absorbed_of_mem (surplusIsLong : Bool) {pre post : List ℕ} {index : ℕ}
    (h : (pre ++ index :: post).Nodup) {quantities : List Decimal} (hindex : index < quantities.length)
    (wanted : Decimal) :
    ((pre ++ index :: post).foldl (absorbStep surplusIsLong) (quantities, max 0 wanted)).1[index]? =
      some (drawn surplusIsLong (quantities.getD index 0)
        (share |quantities.getD index 0| (wanted - capacities quantities pre))) := by
  induction pre generalizing quantities wanted with
  | nil =>
    have hnotin : index ∉ post := (List.nodup_cons.mp h).1
    rw [List.nil_append, List.foldl_cons, absorbStep_eq, absorbed_of_not_mem surplusIsLong hnotin,
      List.getElem?_set_self hindex, capacities, List.map_nil, List.sum_nil, sub_zero]
  | cons other pre ih =>
    rw [List.cons_append] at h ⊢
    obtain ⟨hnotin, hrest⟩ := List.nodup_cons.mp h
    have hother : index ≠ other := fun heq => hnotin (heq ▸ List.mem_append_right _ List.mem_cons_self)
    have hpre : other ∉ pre := fun hmem => hnotin (List.mem_append_left _ hmem)
    rw [List.foldl_cons, absorbStep_eq, ih hrest (by rwa [List.length_set]), getD_set_of_ne hother,
      capacities_set hpre, capacities, capacities, List.map_cons, List.sum_cons, sub_sub]

theorem drawn_drawn (surplusIsLong : Bool) (quantity taken more : Decimal) :
    drawn surplusIsLong (drawn surplusIsLong quantity taken) more =
      drawn surplusIsLong quantity (taken + more) := by
  cases surplusIsLong <;> simp only [drawn] <;> simp <;> ring

/-- One step moves the sum by what it takes. -/
theorem sum_set_drawn (surplusIsLong : Bool) (quantities : List Decimal) (index : ℕ) (wanted : Decimal) :
    (quantities.set index
        (drawn surplusIsLong (quantities.getD index 0) (share |quantities.getD index 0| wanted))).sum =
      drawn surplusIsLong quantities.sum (share |quantities.getD index 0| wanted) := by
  rw [List.sum_set']
  split
  · rename_i h
    rw [List.getD_eq_getElem _ _ h, drawn, drawn]
    ring
  · rename_i h
    have hnothing : share |quantities.getD index 0| wanted = 0 := by
      rw [List.getD_eq_default _ _ (not_lt.mp h), abs_zero, share, min_eq_left (le_max_left _ _)]
    rw [hnothing, drawn_zero, add_zero]

/-- The loop moves the sum by what it no longer wants. -/
theorem absorbed_sum (surplusIsLong : Bool) {order : List ℕ} (h : order.Nodup) (quantities : List Decimal)
    (wanted : Decimal) :
    (order.foldl (absorbStep surplusIsLong) (quantities, max 0 wanted)).1.sum =
      drawn surplusIsLong quantities.sum
        (max 0 wanted - max 0 (wanted - capacities quantities order)) := by
  induction order generalizing quantities wanted with
  | nil => rw [List.foldl_nil, capacities, List.map_nil, List.sum_nil, sub_zero, sub_self, drawn_zero]
  | cons index order ih =>
    obtain ⟨hnotin, hrest⟩ := List.nodup_cons.mp h
    have hcapacities : capacities quantities (index :: order) =
        |quantities.getD index 0| + capacities quantities order := by
      rw [capacities, List.map_cons, List.sum_cons, capacities]
    rw [List.foldl_cons, absorbStep_eq, ih hrest, sum_set_drawn, drawn_drawn, capacities_set hnotin,
      hcapacities, ← sub_sub, ← wanted_sub_share (abs_nonneg _)]
    congr 1
    ring

/-! ### The closed form -/

/-- The side of the batch the net points at. -/
def OnSurplusSide (surplusIsLong : Bool) (request : StrategyRequest) : Prop :=
  if surplusIsLong then 0 < request.signedBaseQuantity else request.signedBaseQuantity < 0

instance (surplusIsLong : Bool) (request : StrategyRequest) :
    Decidable (OnSurplusSide surplusIsLong request) :=
  inferInstanceAs (Decidable (if surplusIsLong then _ else _))

/-- Largest holding first, then by strategy. -/
def drawKey (request : StrategyRequest) : Decimal ×ₗ String :=
  toLex (-|request.signedBaseQuantity|, request.strategyId)

/-- What the holdings drawn on before this one come to. -/
def drawnBefore (requests : List StrategyRequest) (surplusIsLong : Bool) (request : StrategyRequest) : Decimal :=
  (requests.map fun other =>
    if OnSurplusSide surplusIsLong other ∧ drawKey other < drawKey request
    then |other.signedBaseQuantity| else 0).sum

/-- What a request gives up of the wanted amount. -/
def givenUp (requests : List StrategyRequest) (surplusIsLong : Bool) (wanted : Decimal)
    (request : StrategyRequest) : Decimal :=
  if OnSurplusSide surplusIsLong request
  then share |request.signedBaseQuantity| (wanted - drawnBefore requests surplusIsLong request) else 0

/-- The batch's strategies, each once. -/
def DistinctStrategies (requests : List StrategyRequest) : Prop :=
  (requests.map fun request => request.strategyId).Nodup

section Order

variable {requests : List StrategyRequest} {surplusIsLong : Bool}

/-- The sort key of a position. -/
def positionKey (requests : List StrategyRequest) (index : ℕ) : Decimal ×ₗ String :=
  toLex (-|(requests[index]?.elim 0 fun request => request.signedBaseQuantity)|,
    requests[index]?.elim "" fun request => request.strategyId)

theorem positionKey_eq {index : ℕ} {request : StrategyRequest} (h : requests[index]? = some request) :
    positionKey requests index = drawKey request := by
  rw [positionKey, h]
  rfl

/-- Whether a position is on the surplus side. -/
def positionOnSide (requests : List StrategyRequest) (surplusIsLong : Bool) (index : ℕ) : Bool :=
  requests[index]?.elim false fun request => OnSurplusSide surplusIsLong request

theorem surplusOrder_eq (requests : List StrategyRequest) (surplusIsLong : Bool) :
    surplusOrder requests surplusIsLong = sortBy (positionKey requests)
      ((List.range requests.length).filter (positionOnSide requests surplusIsLong)) := by
  rw [surplusOrder]
  refine congrArg (sortBy (positionKey requests)) (List.filter_congr fun index _ => ?_)
  rw [positionOnSide]
  cases requests[index]? with
  | none => rfl
  | some request => cases surplusIsLong <;> rfl

theorem mem_surplusOrder {index : ℕ} {request : StrategyRequest} (h : requests[index]? = some request) :
    index ∈ surplusOrder requests surplusIsLong ↔ OnSurplusSide surplusIsLong request := by
  obtain ⟨hlt, _⟩ := List.getElem?_eq_some_iff.mp h
  rw [surplusOrder_eq, mem_sortBy, List.mem_filter, List.mem_range, positionOnSide, h, Option.elim_some,
    decide_eq_true_iff]
  exact and_iff_right hlt

theorem lt_of_mem_surplusOrder {index : ℕ} (h : index ∈ surplusOrder requests surplusIsLong) :
    index < requests.length := by
  rw [surplusOrder_eq, mem_sortBy, List.mem_filter, List.mem_range] at h
  exact h.1

theorem nodup_surplusOrder : (surplusOrder requests surplusIsLong).Nodup := by
  rw [surplusOrder_eq, (perm_sortBy _ _).nodup_iff]
  exact List.nodup_range.filter _

/-- Distinct strategies make the order strict. -/
theorem ascending_surplusOrder (hdistinct : DistinctStrategies requests) :
    (surplusOrder requests surplusIsLong).Pairwise
      fun i j => positionKey requests i < positionKey requests j := by
  have hsorted : (surplusOrder requests surplusIsLong).Pairwise
      fun i j => positionKey requests i ≤ positionKey requests j := by
    rw [surplusOrder_eq]
    exact pairwise_sortBy _ _
  refine (hsorted.and nodup_surplusOrder).imp_of_mem fun {i j} hi hj h => lt_of_le_of_ne h.1 fun heq => h.2 ?_
  have hi' := lt_of_mem_surplusOrder hi
  have hj' := lt_of_mem_surplusOrder hj
  rw [positionKey_eq (List.getElem?_eq_getElem hi'), positionKey_eq (List.getElem?_eq_getElem hj')] at heq
  have hname : requests[i].strategyId = requests[j].strategyId := congrArg (fun k => (ofLex k).2) heq
  refine (List.getElem?_inj (by rwa [List.length_map]) hdistinct).mp ?_
  rw [List.getElem?_map, List.getElem?_map, List.getElem?_eq_getElem hi', List.getElem?_eq_getElem hj',
    Option.map_some, Option.map_some, hname]

/-- The positions drawn on before one hold what its key says. -/
theorem capacities_before (hdistinct : DistinctStrategies requests) {pre post : List ℕ} {index : ℕ}
    {request : StrategyRequest} (hrequest : requests[index]? = some request)
    (h : surplusOrder requests surplusIsLong = pre ++ index :: post) :
    capacities (requests.map fun request => request.signedBaseQuantity) pre =
      drawnBefore requests surplusIsLong request := by
  have hpre := filter_lt_of_ascending (positionKey requests) (h ▸ ascending_surplusOrder hdistinct)
  have hperm := (perm_sortBy (positionKey requests)
    ((List.range requests.length).filter (positionOnSide requests surplusIsLong))).filter
      fun i => decide (positionKey requests i < positionKey requests index)
  rw [← surplusOrder_eq, h, hpre] at hperm
  rw [capacities, (hperm.map _).sum_eq, sum_filter_eq_ite, sum_filter_eq_ite, drawnBefore,
    ← sum_range_getElem? _ requests]
  refine congrArg List.sum (List.map_congr_left fun i hi => ?_)
  obtain ⟨other, hother⟩ : ∃ other, requests[i]? = some other :=
    ⟨_, List.getElem?_eq_getElem (List.mem_range.mp hi)⟩
  rw [positionKey_eq hother, positionKey_eq hrequest, List.getD_eq_getElem?_getD, List.getElem?_map,
    positionOnSide, hother, Option.elim_some, Option.elim_some, Option.map_some, Option.getD_some]
  by_cases hside : OnSurplusSide surplusIsLong other
  · simp [hside]
  · simp [hside]

/-- The whole surplus side holds the magnitudes on it. -/
theorem capacities_surplusOrder :
    capacities (requests.map fun request => request.signedBaseQuantity) (surplusOrder requests surplusIsLong) =
      (requests.map fun other =>
        if OnSurplusSide surplusIsLong other then |other.signedBaseQuantity| else 0).sum := by
  have hperm := perm_sortBy (positionKey requests)
    ((List.range requests.length).filter (positionOnSide requests surplusIsLong))
  rw [← surplusOrder_eq] at hperm
  rw [capacities, (hperm.map _).sum_eq, sum_filter_eq_ite, ← sum_range_getElem? _ requests]
  refine congrArg List.sum (List.map_congr_left fun i hi => ?_)
  obtain ⟨other, hother⟩ : ∃ other, requests[i]? = some other :=
    ⟨_, List.getElem?_eq_getElem (List.mem_range.mp hi)⟩
  rw [List.getD_eq_getElem?_getD, List.getElem?_map, positionOnSide, hother, Option.elim_some,
    Option.elim_some, Option.map_some, Option.getD_some]
  exact if_congr decide_eq_true_iff rfl rfl

end Order

/-- The loop over the surplus side takes from every request what the closed form says. -/
theorem absorbed_eq {requests : List StrategyRequest} (hdistinct : DistinctStrategies requests)
    (surplusIsLong : Bool) (wanted : Decimal) :
    ((surplusOrder requests surplusIsLong).foldl (absorbStep surplusIsLong)
      (requests.map fun request => request.signedBaseQuantity, max 0 wanted)).1 =
    requests.map fun request =>
      drawn surplusIsLong request.signedBaseQuantity (givenUp requests surplusIsLong wanted request) := by
  refine List.ext_getElem? fun index => ?_
  cases hrequest : requests[index]? with
  | none =>
    have hnotin : index ∉ surplusOrder requests surplusIsLong := fun hmem =>
      absurd (lt_of_mem_surplusOrder hmem) (not_lt.mpr (List.getElem?_eq_none_iff.mp hrequest))
    rw [absorbed_of_not_mem surplusIsLong hnotin, List.getElem?_map, List.getElem?_map, hrequest]
    rfl
  | some request =>
    rw [List.getElem?_map, hrequest, Option.map_some, givenUp]
    by_cases hside : OnSurplusSide surplusIsLong request
    · obtain ⟨pre, post, horder⟩ := List.append_of_mem ((mem_surplusOrder hrequest).mpr hside)
      have hlt : index < (requests.map fun request => request.signedBaseQuantity).length := by
        rw [List.length_map]
        exact (List.getElem?_eq_some_iff.mp hrequest).1
      have hquantity : (requests.map fun request => request.signedBaseQuantity).getD index 0 =
          request.signedBaseQuantity := by
        rw [List.getD_eq_getElem?_getD, List.getElem?_map, hrequest, Option.map_some, Option.getD_some]
      rw [if_pos hside, ← capacities_before hdistinct hrequest horder, horder,
        absorbed_of_mem surplusIsLong (horder ▸ nodup_surplusOrder) hlt, hquantity]
    · rw [if_neg hside, drawn_zero, absorbed_of_not_mem surplusIsLong ((mem_surplusOrder hrequest).not.mpr hside),
        List.getElem?_map, hrequest, Option.map_some]

end FinanceKing.Risk
