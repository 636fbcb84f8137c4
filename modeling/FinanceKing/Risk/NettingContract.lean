import FinanceKing.Risk.NettingShares

/-! The netting contract. The truncation moves the raw net toward zero, so the side it points at always holds
    more than is taken; every slice stays between zero and its request, the other side is left alone, and the
    slices sum to the net. -/

namespace FinanceKing.Risk

open Lib

/-! ### The slices -/

/-- What a request keeps once the adjustment has been taken. -/
def slice (requests : List StrategyRequest) (adjustment : Decimal) (request : StrategyRequest) : Decimal :=
  drawn (adjustment < 0) request.signedBaseQuantity
    (givenUp requests (adjustment < 0) |adjustment| request)

/-- The signed sum of a batch. -/
def rawNet (requests : List StrategyRequest) : Decimal :=
  (requests.map fun request => request.signedBaseQuantity).sum

/-- The magnitude on the surplus side. -/
def surplus (requests : List StrategyRequest) (surplusIsLong : Bool) : Decimal :=
  (requests.map fun request =>
    if OnSurplusSide surplusIsLong request then |request.signedBaseQuantity| else 0).sum

section Slices

variable (requests : List StrategyRequest) (adjustment : Decimal) (request : StrategyRequest)

theorem drawnBefore_nonneg (surplusIsLong : Bool) : 0 ≤ drawnBefore requests surplusIsLong request := by
  refine List.sum_nonneg fun x hx => ?_
  obtain ⟨other, _, rfl⟩ := List.mem_map.mp hx
  split
  · exact abs_nonneg _
  · exact le_rfl

theorem slice_zero : slice requests 0 request = request.signedBaseQuantity := by
  have hnothing : givenUp requests (decide ((0 : Decimal) < 0)) |0| request = 0 := by
    have hbefore := drawnBefore_nonneg requests request (decide ((0 : Decimal) < 0))
    rw [givenUp, share, abs_zero, max_eq_left (by linarith), min_eq_right (abs_nonneg _), ite_self]
  rw [slice, hnothing, drawn_zero]

/-- A slice other than its request was taken from the surplus side. -/
theorem onSurplusSide_of_slice_ne {requests : List StrategyRequest} {adjustment : Decimal}
    {request : StrategyRequest} (h : slice requests adjustment request ≠ request.signedBaseQuantity) :
    OnSurplusSide (adjustment < 0) request := by
  by_contra hside
  rw [slice, givenUp, if_neg hside, drawn_zero] at h
  exact h rfl

/-- A slice lies between zero and its request. -/
theorem slice_between : (0 ≤ slice requests adjustment request ∧
    slice requests adjustment request ≤ request.signedBaseQuantity) ∨
      (request.signedBaseQuantity ≤ slice requests adjustment request ∧
        slice requests adjustment request ≤ 0) := by
  by_cases hside : OnSurplusSide (adjustment < 0) request
  · have hle := share_le |request.signedBaseQuantity|
      (|adjustment| - drawnBefore requests (adjustment < 0) request)
    have hnonneg := share_nonneg (abs_nonneg request.signedBaseQuantity)
      (|adjustment| - drawnBefore requests (adjustment < 0) request)
    rw [slice, givenUp, if_pos hside, drawn]
    by_cases hlong : adjustment < 0
    · rw [OnSurplusSide, decide_eq_true hlong, if_pos rfl] at hside
      rw [decide_eq_true hlong, if_pos rfl]
      rw [decide_eq_true hlong, abs_of_pos hside] at hle hnonneg
      left
      rw [abs_of_pos hside]
      constructor <;> linarith
    · rw [OnSurplusSide, decide_eq_false hlong, if_neg Bool.false_ne_true] at hside
      rw [decide_eq_false hlong, if_neg Bool.false_ne_true]
      rw [decide_eq_false hlong, abs_of_neg hside] at hle hnonneg
      right
      rw [abs_of_neg hside]
      constructor <;> linarith
  · rw [slice, givenUp, if_neg hside, drawn_zero]
    exact (le_total 0 request.signedBaseQuantity).imp (fun h => ⟨h, le_rfl⟩) fun h => ⟨le_rfl, h⟩

theorem abs_slice_le : |slice requests adjustment request| ≤ |request.signedBaseQuantity| := by
  rcases slice_between requests adjustment request with ⟨h₀, h₁⟩ | ⟨h₀, h₁⟩
  · exact abs_le_abs h₁ (by linarith)
  · rw [abs_of_nonpos h₁, abs_of_nonpos (h₀.trans h₁)]
    linarith

theorem slice_mul_nonneg : 0 ≤ slice requests adjustment request * request.signedBaseQuantity := by
  rcases slice_between requests adjustment request with ⟨h₀, h₁⟩ | ⟨h₀, h₁⟩
  · exact mul_nonneg h₀ (h₀.trans h₁)
  · exact mul_nonneg_of_nonpos_of_nonpos h₁ (h₀.trans h₁)

end Slices

/-! ### The loop covers the adjustment -/

/-- The net's side holds at least the net. -/
theorem rawNet_le_surplus (requests : List StrategyRequest) : rawNet requests ≤ surplus requests true := by
  refine List.sum_le_sum fun request _ => ?_
  by_cases h : 0 < request.signedBaseQuantity
  · exact (le_abs_self _).trans (if_pos h).ge
  · exact (not_lt.mp h).trans (if_neg h).ge

theorem neg_rawNet_le_surplus (requests : List StrategyRequest) :
    -rawNet requests ≤ surplus requests false := by
  rw [rawNet, List.sum_neg, List.map_map]
  refine List.sum_le_sum fun request _ => ?_
  by_cases h : request.signedBaseQuantity < 0
  · exact (neg_le_abs _).trans (if_pos h).ge
  · exact (neg_nonpos.mpr (not_lt.mp h)).trans (if_neg h).ge

/-- An adjustment that moves the net toward zero, and not past it. -/
def TowardZero (raw adjustment : Decimal) : Prop :=
  (0 ≤ raw + adjustment ∧ adjustment ≤ 0) ∨ (raw + adjustment ≤ 0 ∧ 0 ≤ adjustment)

/-- Truncation is such an adjustment. -/
theorem quantize_towardZero (instrument : Instrument) (raw : Decimal) :
    TowardZero raw (instrument.quantizeBaseQuantity raw - raw) := by
  have hbetween := snapTowardZero_between instrument.lotStep_pos raw
  rw [snapTowardZero, ← Instrument.quantizeBaseQuantity] at hbetween
  rw [TowardZero, add_sub_cancel]
  exact hbetween.imp (fun h => ⟨h.1, sub_nonpos.mpr h.2⟩) fun h => ⟨h.2, sub_nonneg.mpr h.1⟩

/-- What is taken is never more than the side holds. -/
theorem abs_le_surplus {requests : List StrategyRequest} {adjustment : Decimal}
    (h : TowardZero (rawNet requests) adjustment) : |adjustment| ≤ surplus requests (adjustment < 0) := by
  have hlong := rawNet_le_surplus requests
  have hshort := neg_rawNet_le_surplus requests
  by_cases hneg : adjustment < 0
  · rw [decide_eq_true hneg, abs_of_neg hneg]
    rcases h with ⟨h₀, _⟩ | ⟨_, h₁⟩ <;> linarith
  · rw [decide_eq_false hneg, abs_of_nonneg (not_lt.mp hneg)]
    rcases h with ⟨h₀, h₁⟩ | ⟨h₀, h₁⟩
    · have hzero : adjustment = 0 := le_antisymm h₁ (not_lt.mp hneg)
      have hcount : 0 ≤ surplus requests false := by
        refine List.sum_nonneg fun x hx => ?_
        obtain ⟨other, _, rfl⟩ := List.mem_map.mp hx
        split
        · exact abs_nonneg _
        · exact le_rfl
      rwa [hzero]
    · linarith

section Absorb

variable {requests : List StrategyRequest} {adjustment : Decimal}

/-- Nothing is left to attribute, whoever the strategies are. -/
theorem absorbQuantization_returns (h : TowardZero (rawNet requests) adjustment) :
    ∃ adjusted, absorbQuantization requests adjustment = .ok adjusted ∧
      adjusted.sum = rawNet requests + adjustment := by
  by_cases hzero : adjustment = 0
  · rw [absorbQuantization, if_pos hzero, hzero, add_zero]
    exact ⟨_, rfl, rfl⟩
  · have hnodup : (surplusOrder requests (adjustment < 0)).Nodup := nodup_surplusOrder
    have hcovered := abs_le_surplus h
    have hremaining := absorbed_remaining (adjustment < 0) hnodup
      (requests.map fun request => request.signedBaseQuantity) |adjustment|
    have hsum := absorbed_sum (adjustment < 0) hnodup
      (requests.map fun request => request.signedBaseQuantity) |adjustment|
    rw [capacities_surplusOrder, ← surplus, max_eq_left (sub_nonpos.mpr hcovered),
      max_eq_right (abs_nonneg adjustment)] at hremaining hsum
    refine ⟨((surplusOrder requests (adjustment < 0)).foldl (absorbStep (adjustment < 0))
      (requests.map fun request => request.signedBaseQuantity, |adjustment|)).1, ?_, hsum.trans ?_⟩
    · simp only [absorbQuantization, if_neg hzero, bind_eq_ok, raiseIf_eq_ok, pure_eq_ok]
      exact ⟨(), hremaining.not_gt, trivial⟩
    · rw [drawn, sub_zero, ← rawNet]
      by_cases hneg : adjustment < 0
      · rw [decide_eq_true hneg, if_pos rfl, abs_of_neg hneg, neg_neg]
      · rw [decide_eq_false hneg, if_neg Bool.false_ne_true, abs_of_nonneg (not_lt.mp hneg)]

/-- What distinct strategies are left with is their slices. -/
theorem absorbQuantization_eq (hdistinct : DistinctStrategies requests)
    (h : TowardZero (rawNet requests) adjustment) :
    absorbQuantization requests adjustment = .ok (requests.map (slice requests adjustment)) := by
  obtain ⟨adjusted, hadjusted, _⟩ := absorbQuantization_returns h
  rw [hadjusted]
  by_cases hzero : adjustment = 0
  · subst hzero
    rw [absorbQuantization, if_pos rfl] at hadjusted
    cases hadjusted
    exact congrArg Except.ok (List.map_congr_left fun request _ => (slice_zero requests request).symm)
  · simp only [absorbQuantization, if_neg hzero, bind_eq_ok, raiseIf_eq_ok, pure_eq_ok] at hadjusted
    obtain ⟨_, _, rfl⟩ := hadjusted
    have hclosed := absorbed_eq hdistinct (adjustment < 0) |adjustment|
    rw [max_eq_right (abs_nonneg adjustment)] at hclosed
    exact congrArg Except.ok hclosed

theorem sum_slices (hdistinct : DistinctStrategies requests)
    (h : TowardZero (rawNet requests) adjustment) :
    (requests.map (slice requests adjustment)).sum = rawNet requests + adjustment := by
  obtain ⟨adjusted, hadjusted, hsum⟩ := absorbQuantization_returns h
  rw [absorbQuantization_eq hdistinct h] at hadjusted
  cases hadjusted
  exact hsum

end Absorb

/-- An altered request stands on the side the net points at. -/
theorem onSurplusSide_mul_pos {requests : List StrategyRequest} {adjustment : Decimal}
    {request : StrategyRequest} (h : TowardZero (rawNet requests) adjustment)
    (hne : slice requests adjustment request ≠ request.signedBaseQuantity) :
    0 < request.signedBaseQuantity * rawNet requests := by
  have hside := onSurplusSide_of_slice_ne hne
  have hnonzero : adjustment ≠ 0 := fun hzero => hne (hzero ▸ slice_zero requests request)
  rcases hnonzero.lt_or_gt with hneg | hpos
  · rw [OnSurplusSide, decide_eq_true hneg, if_pos rfl] at hside
    refine mul_pos hside ?_
    rcases h with ⟨h₀, _⟩ | ⟨_, h₁⟩ <;> linarith
  · rw [OnSurplusSide, decide_eq_false hpos.not_gt, if_neg Bool.false_ne_true] at hside
    refine mul_pos_of_neg_of_neg hside ?_
    rcases h with ⟨_, h₁⟩ | ⟨h₀, _⟩ <;> linarith

/-! ### What crosses -/

theorem grossLong_sub_grossShort (quantities : List Decimal) :
    grossLong quantities - grossShort quantities = quantities.sum := by
  induction quantities with
  | nil => simp [grossLong, grossShort]
  | cons quantity quantities ih =>
    rw [grossLong, grossShort] at ih ⊢
    rw [List.sum_cons, ← ih, List.filter_cons, List.filter_cons]
    rcases lt_trichotomy quantity 0 with h | rfl | h
    · rw [if_neg (by simpa using h.le), if_pos (by simpa using h), List.sum_cons]
      ring
    · rw [if_neg (by simp), if_neg (by simp)]
      ring
    · rw [if_pos (by simpa using h), if_neg (by simpa using h.le), List.sum_cons]
      ring

/-- A side whose every quantity is kept, or was on the other side and stays off this one, is unchanged. -/
theorem sum_filter_congr (p : Decimal → Bool) {f g : StrategyRequest → Decimal} {requests : List StrategyRequest}
    (h : ∀ request ∈ requests, f request = g request ∨ (p (f request) = false ∧ p (g request) = false)) :
    ((requests.map f).filter p).sum = ((requests.map g).filter p).sum := by
  induction requests with
  | nil => rfl
  | cons request requests ih =>
    obtain ⟨hhead, htail⟩ := List.forall_mem_cons.mp h
    rw [List.map_cons, List.map_cons, List.filter_cons, List.filter_cons]
    rcases hhead with heq | ⟨hf, hg⟩
    · rw [heq]
      split
      · rw [List.sum_cons, List.sum_cons, ih htail]
      · exact ih htail
    · rw [hf, hg, if_neg Bool.false_ne_true, if_neg Bool.false_ne_true, ih htail]

/-- What crosses is the smaller side of the batch, before and after the truncation. -/
theorem crossed_eq {requests : List StrategyRequest} {adjustment : Decimal}
    (hdistinct : DistinctStrategies requests) (h : TowardZero (rawNet requests) adjustment) :
    min (grossLong (requests.map (slice requests adjustment)))
        (grossShort (requests.map (slice requests adjustment))) =
      min (grossLong (requests.map fun request => request.signedBaseQuantity))
        (grossShort (requests.map fun request => request.signedBaseQuantity)) := by
  have hraw := grossLong_sub_grossShort (requests.map fun request => request.signedBaseQuantity)
  have hnet := grossLong_sub_grossShort (requests.map (slice requests adjustment))
  rw [sum_slices hdistinct h] at hnet
  rw [← rawNet] at hraw
  rcases h with ⟨hpos, hneg⟩ | ⟨hneg, hpos⟩
  · -- the net points long: the short side is whole, and it is the smaller one
    have hshort : grossShort (requests.map (slice requests adjustment)) =
        grossShort (requests.map fun request => request.signedBaseQuantity) := by
      refine congrArg Neg.neg (sum_filter_congr _ fun request _ => ?_)
      by_cases heq : slice requests adjustment request = request.signedBaseQuantity
      · exact Or.inl heq
      · have hside := onSurplusSide_of_slice_ne heq
        have hlt : adjustment < 0 := lt_of_le_of_ne hneg fun hzero => heq (hzero ▸ slice_zero requests request)
        rw [OnSurplusSide, decide_eq_true hlt, if_pos rfl] at hside
        have hnonneg := nonneg_of_mul_nonneg_left (slice_mul_nonneg requests adjustment request) hside
        exact Or.inr ⟨decide_eq_false hnonneg.not_gt, decide_eq_false hside.le.not_gt⟩
    rw [min_eq_right (by linarith), min_eq_right (by linarith), hshort]
  · have hlong : grossLong (requests.map (slice requests adjustment)) =
        grossLong (requests.map fun request => request.signedBaseQuantity) := by
      refine sum_filter_congr _ fun request _ => ?_
      by_cases heq : slice requests adjustment request = request.signedBaseQuantity
      · exact Or.inl heq
      · have hside := onSurplusSide_of_slice_ne heq
        rw [OnSurplusSide, decide_eq_false hpos.not_gt, if_neg Bool.false_ne_true] at hside
        have hnonpos : slice requests adjustment request ≤ 0 := by
          by_contra hlt
          exact (mul_neg_of_pos_of_neg (not_le.mp hlt) hside).not_ge
            (slice_mul_nonneg requests adjustment request)
        exact Or.inr ⟨decide_eq_false hnonpos.not_gt, decide_eq_false hside.le.not_gt⟩
    rw [min_eq_left (by linarith), min_eq_left (by linarith), hlong]

/-! ### The plan -/

theorem requireDistinctStrategies_ok (instrument : Instrument) {seen : List String}
    {requests : List StrategyRequest} (hdistinct : DistinctStrategies requests)
    (hseen : ∀ request ∈ requests, request.strategyId ∉ seen) :
    requireDistinctStrategies instrument seen requests = .ok () := by
  induction requests generalizing seen with
  | nil => rfl
  | cons request requests ih =>
    obtain ⟨hnotin, hrest⟩ := List.nodup_cons.mp hdistinct
    rw [requireDistinctStrategies, raiseIf, if_neg (hseen request List.mem_cons_self)]
    refine ih hrest fun other hother hmem => ?_
    rcases List.mem_cons.mp hmem with heq | hold
    · exact hnotin (List.mem_map.mpr ⟨other, hother, heq⟩)
    · exact hseen other (List.mem_cons_of_mem _ hother) hold

/-- One request's slice of the plan. -/
structure SliceOf (requests : List StrategyRequest) (request : StrategyRequest) (attribution : Attribution) :
    Prop where
  owner : attribution.strategyId = request.strategyId
  keepsSign : 0 ≤ attribution.signedBaseQuantity * request.signedBaseQuantity
  noLarger : |attribution.signedBaseQuantity| ≤ |request.signedBaseQuantity|
  /-- Only a request on the side the net points at is altered. -/
  surplusOnly : attribution.signedBaseQuantity ≠ request.signedBaseQuantity →
    0 < request.signedBaseQuantity * rawNet requests

/-- What a plan owes the batch it nets. -/
structure Netted (instrument : Instrument) (requests : List StrategyRequest) (plan : NetOrderPlan) : Prop where
  truncated : plan.netSignedBaseQuantity = snapTowardZero instrument.lotStep (rawNet requests)
  conserved : plan.attributedSignedBaseQuantity = plan.netSignedBaseQuantity
  slices : List.Forall₂ (SliceOf requests) requests plan.attributions
  /-- The smaller side, whether of what was asked for or of what was attributed. -/
  crossed : plan.crossedBaseQuantity = min
      (grossLong (requests.map fun request => request.signedBaseQuantity))
      (grossShort (requests.map fun request => request.signedBaseQuantity)) ∧
    plan.crossedBaseQuantity = min
      (grossLong (plan.attributions.map fun attribution => attribution.signedBaseQuantity))
      (grossShort (plan.attributions.map fun attribution => attribution.signedBaseQuantity))
  residualRow : plan.residual.isSome ↔ 0 < plan.crossedBaseQuantity
  residualQuantity : ∀ residual, plan.residual = some residual →
    residual.crossedBaseQuantity = plan.crossedBaseQuantity

/-- A residual row stands exactly where something crossed. -/
theorem crossingResidual_spec (instrument : Instrument) {bookedQuotePrice : Decimal}
    (hbooked : 0 < bookedQuotePrice) (crossed : Decimal) (basis : BookingBasis) :
    ∃ residual, crossingResidual instrument crossed bookedQuotePrice basis = .ok residual ∧
      (residual.isSome ↔ 0 < crossed) ∧ ∀ row, residual = some row → row.crossedBaseQuantity = crossed := by
  rw [crossingResidual]
  split
  · rename_i hcrossed
    have hchecked : CrossingResidualFields.postInit
        { symbol := instrument.symbol
          crossedBaseQuantity := crossed
          bookedQuotePrice := bookedQuotePrice
          bookingBasis := basis } = .ok () := by
      simp only [CrossingResidualFields.postInit, bind_eq_ok, raiseIf_eq_ok, requirePositivePrice_eq_ok]
      exact ⟨(), not_le.mpr hcrossed, (), hbooked, not_not.mpr rfl⟩
    rw [construct_ok hchecked]
    refine ⟨_, rfl, iff_of_true rfl hcrossed, fun row hrow => ?_⟩
    cases hrow
    rfl
  · rename_i hnone
    exact ⟨none, rfl, iff_of_false Bool.false_ne_true hnone, fun row hrow => by cases hrow⟩

section Plan

variable (instrument : Instrument) (requests : List StrategyRequest)
  (referenceQuotePrice decisionMidQuotePrice : Decimal)

/-- What truncation adds to the raw net. -/
def adjustmentOf : Decimal := instrument.quantizeBaseQuantity (rawNet requests) - rawNet requests

/-- The price a plan books at. -/
def bookedPrice : Decimal :=
  if instrument.quantizeBaseQuantity (rawNet requests) ≠ 0 then referenceQuotePrice else decisionMidQuotePrice

/-- The basis a plan books on. -/
def bookedBasis : BookingBasis :=
  if instrument.quantizeBaseQuantity (rawNet requests) ≠ 0 then .venueVwap else .decisionMid

/-- Book one slice. -/
def bookSlice (bookedQuotePrice : Decimal) (basis : BookingBasis) :
    StrategyRequest × Decimal → PyResult Attribution := fun (request, quantity) =>
  construct AttributionFields.postInit Attribution.mk ⟨request.strategyId, quantity, bookedQuotePrice, basis⟩

theorem adjustmentOf_towardZero : TowardZero (rawNet requests) (adjustmentOf instrument requests) :=
  quantize_towardZero instrument (rawNet requests)

theorem bookSlice_ok {bookedQuotePrice : Decimal} (hbooked : 0 < bookedQuotePrice) (basis : BookingBasis)
    (request : StrategyRequest) (quantity : Decimal) :
    ∃ attribution, bookSlice bookedQuotePrice basis (request, quantity) = .ok attribution ∧
      attribution.strategyId = request.strategyId ∧ attribution.signedBaseQuantity = quantity := by
  have hchecked : AttributionFields.postInit
      ⟨request.strategyId, quantity, bookedQuotePrice, basis⟩ = .ok () :=
    requirePositivePrice_eq_ok.mpr hbooked
  exact ⟨_, construct_ok hchecked, rfl, rfl⟩

/-- Everything netting computes. -/
structure Planned (plan : NetOrderPlan) : Prop where
  net : plan.netSignedBaseQuantity = instrument.quantizeBaseQuantity (rawNet requests)
  booked : (requests.map fun request =>
      (request, slice requests (adjustmentOf instrument requests) request)).mapM
    (bookSlice (bookedPrice instrument requests referenceQuotePrice decisionMidQuotePrice)
      (bookedBasis instrument requests)) = .ok plan.attributions
  crossed : plan.crossedBaseQuantity = min
    (grossLong (requests.map (slice requests (adjustmentOf instrument requests))))
    (grossShort (requests.map (slice requests (adjustmentOf instrument requests))))
  residualRow : plan.residual.isSome ↔ 0 < plan.crossedBaseQuantity
  residualQuantity : ∀ residual, plan.residual = some residual →
    residual.crossedBaseQuantity = plan.crossedBaseQuantity

variable {instrument requests referenceQuotePrice decisionMidQuotePrice}

/-- Netting distinct strategies at positive prices returns a plan. -/
theorem netRequests_returns (hsome : requests ≠ []) (hdistinct : DistinctStrategies requests)
    (hreference : 0 < referenceQuotePrice) (hmid : 0 < decisionMidQuotePrice) :
    ∃ plan, netRequests instrument requests referenceQuotePrice decisionMidQuotePrice = .ok plan ∧
      Planned instrument requests referenceQuotePrice decisionMidQuotePrice plan := by
  have hadjusted := absorbQuantization_eq hdistinct (adjustmentOf_towardZero instrument requests)
  have hbooked : 0 < bookedPrice instrument requests referenceQuotePrice decisionMidQuotePrice := by
    rw [bookedPrice]
    split
    · exact hreference
    · exact hmid
  obtain ⟨attributions, hattributions, _⟩ := exists_mapM (fun _ _ => True)
    (f := bookSlice (bookedPrice instrument requests referenceQuotePrice decisionMidQuotePrice)
      (bookedBasis instrument requests))
    (l := requests.map fun request => (request, slice requests (adjustmentOf instrument requests) request))
    fun pair _ => (bookSlice_ok hbooked (bookedBasis instrument requests) pair.1 pair.2).imp
      fun attribution h => ⟨h.1, trivial⟩
  obtain ⟨residual, hresidual, hrow, hquantity⟩ := crossingResidual_spec instrument hbooked
    (min (grossLong (requests.map (slice requests (adjustmentOf instrument requests))))
      (grossShort (requests.map (slice requests (adjustmentOf instrument requests)))))
    (bookedBasis instrument requests)
  refine ⟨{
    instrument := instrument
    netSignedBaseQuantity := instrument.quantizeBaseQuantity (rawNet requests)
    referenceQuotePrice := bookedPrice instrument requests referenceQuotePrice decisionMidQuotePrice
    attributions := attributions
    crossedBaseQuantity := min
      (grossLong (requests.map (slice requests (adjustmentOf instrument requests))))
      (grossShort (requests.map (slice requests (adjustmentOf instrument requests))))
    residual := residual }, ?_, ⟨rfl, hattributions, rfl, hrow, hquantity⟩⟩
  simp only [netRequests, bind_eq_ok, raiseIf_eq_ok, requirePositivePrice_eq_ok]
  refine ⟨(), hsome, (), requireDistinctStrategies_ok instrument hdistinct fun _ _ => List.not_mem_nil, (),
    hreference, (), hmid, _, hadjusted, ?_⟩
  simp only [attributePlan, bind_eq_ok, pure_eq_ok]
  refine ⟨attributions, ?_, residual, hresidual, rfl⟩
  rw [← List.map_prod_left_eq_zip]
  exact hattributions

/-- The slices of a plan, request by request. -/
theorem booked_slices {plan : NetOrderPlan}
    (h : Planned instrument requests referenceQuotePrice decisionMidQuotePrice plan) :
    List.Forall₂ (fun request attribution => attribution.strategyId = request.strategyId ∧
      attribution.signedBaseQuantity = slice requests (adjustmentOf instrument requests) request)
      requests plan.attributions := by
  have hbooked := mapM_eq_ok_iff.mp h.booked
  rw [List.forall₂_map_left_iff] at hbooked
  refine hbooked.imp fun request attribution hslice => ?_
  obtain ⟨_, rfl⟩ := construct_eq_ok hslice
  exact ⟨rfl, rfl⟩

theorem attributed_quantities {plan : NetOrderPlan}
    (h : Planned instrument requests referenceQuotePrice decisionMidQuotePrice plan) :
    plan.attributions.map (fun attribution => attribution.signedBaseQuantity) =
      requests.map (slice requests (adjustmentOf instrument requests)) := by
  have hsame : List.Forall₂ (fun x y => x = y) (requests.map (slice requests (adjustmentOf instrument requests)))
      (plan.attributions.map fun attribution => attribution.signedBaseQuantity) := by
    rw [List.forall₂_map_left_iff, List.forall₂_map_right_iff]
    exact (booked_slices h).imp fun _ _ hslice => hslice.2.symm
  rw [List.forall₂_eq_eq_eq] at hsame
  exact hsame.symm

/-- A computed plan nets its batch. -/
theorem netted_of_planned (hdistinct : DistinctStrategies requests) {plan : NetOrderPlan}
    (h : Planned instrument requests referenceQuotePrice decisionMidQuotePrice plan) :
    Netted instrument requests plan := by
  have htoward := adjustmentOf_towardZero instrument requests
  refine ⟨h.net, ?_, (booked_slices h).imp fun request attribution hslice => ?_, ⟨?_, ?_⟩, h.residualRow,
    h.residualQuantity⟩
  · rw [NetOrderPlan.attributedSignedBaseQuantity, attributed_quantities h, sum_slices hdistinct htoward, h.net,
      adjustmentOf, add_sub_cancel]
  · obtain ⟨howner, hquantity⟩ := hslice
    refine ⟨howner, ?_, ?_, fun hne => ?_⟩
    · rw [hquantity]
      exact slice_mul_nonneg requests _ request
    · rw [hquantity]
      exact abs_slice_le requests _ request
    · rw [hquantity] at hne
      exact onSurplusSide_mul_pos htoward hne
  · rw [h.crossed, crossed_eq hdistinct htoward]
  · rw [h.crossed, attributed_quantities h]

/-- The slice of a request does not read the order of the batch. -/
theorem slice_perm {shuffled : List StrategyRequest} (h : requests.Perm shuffled) (adjustment : Decimal) :
    slice requests adjustment = slice shuffled adjustment := by
  funext request
  rw [slice, slice, givenUp, givenUp, drawnBefore, drawnBefore, (h.map _).sum_eq]

/-- Shuffling the batch shuffles the attributions. -/
theorem attributions_perm {shuffled : List StrategyRequest} (h : requests.Perm shuffled)
    {plan plan' : NetOrderPlan}
    (hplan : Planned instrument requests referenceQuotePrice decisionMidQuotePrice plan)
    (hplan' : Planned instrument shuffled referenceQuotePrice decisionMidQuotePrice plan') :
    plan.attributions.Perm plan'.attributions := by
  have hraw : rawNet requests = rawNet shuffled := (h.map _).sum_eq
  have hbooked := hplan'.booked
  rw [adjustmentOf, bookedPrice, bookedBasis, ← hraw, ← adjustmentOf, ← bookedPrice, ← bookedBasis,
    ← slice_perm h] at hbooked
  obtain ⟨attributions, hattributions, hperm⟩ := mapM_perm (h.map _) hplan.booked
  rw [hbooked] at hattributions
  cases hattributions
  exact hperm

end Plan

/-- Netting's contract: a batch of distinct strategies is attributed without remainder, whatever its order. -/
theorem netting_contract (instrument : Instrument) (requests : List StrategyRequest) (hsome : requests ≠ [])
    (hdistinct : (requests.map fun request => request.strategyId).Nodup) :
    (∃ adjusted, absorbQuantization requests
      (instrument.quantizeBaseQuantity (rawNet requests) - rawNet requests) = .ok adjusted) ∧
    ∀ referenceQuotePrice decisionMidQuotePrice, 0 < referenceQuotePrice → 0 < decisionMidQuotePrice →
      ∃ plan, netRequests instrument requests referenceQuotePrice decisionMidQuotePrice = .ok plan ∧
        Netted instrument requests plan ∧
        ∀ shuffled, requests.Perm shuffled → ∃ plan',
          netRequests instrument shuffled referenceQuotePrice decisionMidQuotePrice = .ok plan' ∧
            plan.attributions.Perm plan'.attributions := by
  refine ⟨⟨_, absorbQuantization_eq hdistinct (adjustmentOf_towardZero instrument requests)⟩, ?_⟩
  intro referenceQuotePrice decisionMidQuotePrice hreference hmid
  obtain ⟨plan, hplan, hplanned⟩ := netRequests_returns hsome hdistinct hreference hmid
  refine ⟨plan, hplan, netted_of_planned hdistinct hplanned, fun shuffled hperm => ?_⟩
  have hsome' : shuffled ≠ [] := fun hnil => hsome (hnil ▸ hperm).eq_nil
  obtain ⟨plan', hplan', hplanned'⟩ := netRequests_returns hsome' ((hperm.map _).nodup_iff.mp hdistinct)
    hreference hmid
  exact ⟨plan', hplan', attributions_perm hperm hplanned hplanned'⟩

/-- Two longs and a short whose sum is off the lattice. -/
def partialCross : List StrategyRequest :=
  [⟨⟨"breakout", 15 / 10000⟩, by decide⟩, ⟨⟨"carry", 10 / 10000⟩, by decide⟩,
    ⟨⟨"fade", -3 / 10000⟩, by decide⟩]

theorem netting_contract_partial_cross :
    ∃ plan, netRequests Instrument.sample partialCross 100 99 = .ok plan ∧
      Netted Instrument.sample partialCross plan := by
  obtain ⟨plan, hplan, hnetted, _⟩ :=
    (netting_contract Instrument.sample partialCross (by decide) (by decide)).2 100 99 (by norm_num) (by norm_num)
  exact ⟨plan, hplan, hnetted⟩

end FinanceKing.Risk
