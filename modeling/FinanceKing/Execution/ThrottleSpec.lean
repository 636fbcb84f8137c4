import FinanceKing.Execution.Throttle
import FinanceKing.Lib.Window

/-! What one call can do to the governor: the inversion of an admission, and what a reading, a charge
    and an observation each leave alone. -/

namespace FinanceKing.Execution

open Lib

namespace Governor

variable (self : Governor) (clocks : Clocks)

/-- The governor once the cool-down check has passed. -/
def entered : Governor := { self.refresh clocks with refuseUntilSeconds := none }

/-- The governor once the weight check has read the clock, where there is a budget to check. -/
def checkedState : Governor :=
  match self.profile.requestWeightPerMinute with
  | none => self.entered clocks
  | some _ => (self.entered clocks).refresh clocks

/-- No cool-down is pending at the reading an admission begins with. -/
def Elapsed : Prop :=
  ∀ refuseUntil, self.refuseUntilSeconds = some refuseUntil →
    refuseUntil ≤ clocks.monotonicSeconds self.readings

/-- A refused admission leaves one of these states. -/
def Refused (next : Governor) : Prop :=
  next = self ∨ next = self.refresh clocks ∨
    (self.Elapsed clocks ∧ (next = self.entered clocks ∨ next = self.checkedState clocks))

/-- What an admission needs, and the state it leaves. -/
structure Admitted (requestClass : RequestClass) (cost : EndpointCost) (governor next : Governor) :
    Prop where
  unbanned : governor.banned = false
  elapsed : governor.Elapsed clocks
  slots : cost.consumesOrderSlot = true →
    (governor.refresh clocks).orderSlotsUsedAt.length < governor.profile.orderRatePer10s
  weight : ∀ ceiling, governor.profile.requestWeightPerMinute = some ceiling →
    (governor.checkedState clocks).estimate + cost.requestWeight ≤
      ceiling * weightCeilingPercent requestClass / 100
  next_eq : next = ((governor.checkedState clocks).charge cost
    (clocks.monotonicSeconds governor.readings)).publishWeightUtilisation clocks

@[simp] theorem refresh_profile : (self.refresh clocks).profile = self.profile := rfl

@[simp] theorem refresh_banned : (self.refresh clocks).banned = self.banned := rfl

@[simp] theorem refresh_readings : (self.refresh clocks).readings = self.readings + 1 := rfl

@[simp] theorem refresh_refuseUntil :
    (self.refresh clocks).refuseUntilSeconds = self.refuseUntilSeconds := rfl

theorem coolingDown_cases (clocks : Clocks) :
    (∃ refusal, (self.refresh clocks).refuseIfCoolingDown (clocks.monotonicSeconds self.readings) =
        (.error refusal, self.refresh clocks)) ∨
      (self.Elapsed clocks ∧
        (self.refresh clocks).refuseIfCoolingDown (clocks.monotonicSeconds self.readings) =
          (.ok (), self.entered clocks)) := by
  unfold refuseIfCoolingDown
  rw [refresh_refuseUntil]
  cases hpending : self.refuseUntilSeconds with
  | none =>
    have hsame : self.refresh clocks = self.entered clocks := by
      rw [entered, ← hpending]
      rfl
    exact .inr ⟨fun u hu => absurd (hpending.symm.trans hu) (by simp), by rw [← hsame]⟩
  | some refuseUntil =>
    dsimp only
    by_cases hle : refuseUntil ≤ clocks.monotonicSeconds self.readings
    · rw [if_pos hle]
      refine .inr ⟨fun u hu => ?_, rfl⟩
      obtain rfl := Option.some.inj (hpending.symm.trans hu)
      exact hle
    · rw [if_neg hle]
      exact .inl ⟨_, rfl⟩

theorem weightExhausted_cases (clocks : Clocks) (requestClass : RequestClass) (endpoint : String)
    (cost : EndpointCost) :
    (∃ refusal, (self.entered clocks).refuseIfWeightExhausted clocks requestClass endpoint cost =
        (.error refusal, self.checkedState clocks)) ∨
      ((self.entered clocks).refuseIfWeightExhausted clocks requestClass endpoint cost =
          (.ok (), self.checkedState clocks) ∧
        ∀ ceiling, self.profile.requestWeightPerMinute = some ceiling →
          (self.checkedState clocks).estimate + cost.requestWeight ≤
            ceiling * weightCeilingPercent requestClass / 100) := by
  have hprofile : (self.entered clocks).profile = self.profile := rfl
  unfold refuseIfWeightExhausted checkedState
  rw [hprofile]
  cases hceiling : self.profile.requestWeightPerMinute with
  | none => exact .inr ⟨rfl, fun ceiling h => by cases h⟩
  | some ceiling =>
    dsimp only [usedRequestWeight]
    by_cases hshed : ceiling * weightCeilingPercent requestClass / 100 <
        ((self.entered clocks).refresh clocks).estimate + cost.requestWeight
    · rw [raiseIf, if_pos hshed]
      exact .inl ⟨_, rfl⟩
    · rw [raiseIf, if_neg hshed]
      refine .inr ⟨rfl, fun other hother => ?_⟩
      obtain rfl := Option.some.inj hother
      exact not_lt.mp hshed

/-- An admission is refused or granted, and says everything it did to the governor. -/
theorem admitRequest_cases (requestClass : RequestClass) (endpoint : String) (cost : EndpointCost) :
    (∃ refusal next, self.admitRequest clocks requestClass endpoint cost = (.error refusal, next) ∧
        self.Refused clocks next) ∨
      ∃ next, self.admitRequest clocks requestClass endpoint cost = (.ok (), next) ∧
        Admitted clocks requestClass cost self next := by
  unfold admitRequest
  by_cases hbanned : self.banned = true
  · rw [refuseIfBanned, raiseIf, if_pos hbanned]
    exact .inl ⟨_, self, rfl, .inl rfl⟩
  rw [refuseIfBanned, raiseIf, if_neg hbanned]
  dsimp only
  rcases self.coolingDown_cases clocks with ⟨refusal, hcooling⟩ | ⟨helapsed, hentered⟩
  · rw [hcooling]
    exact .inl ⟨refusal, _, rfl, .inr (.inl rfl)⟩
  rw [hentered]
  dsimp only
  -- the order-rate check leaves the state alone
  have hslots : (∃ refusal, (if cost.consumesOrderSlot then
        (self.entered clocks).refuseIfOrderRateExhausted endpoint else .ok ()) = .error refusal) ∨
      ((if cost.consumesOrderSlot then
        (self.entered clocks).refuseIfOrderRateExhausted endpoint else .ok ()) = .ok () ∧
        (cost.consumesOrderSlot = true →
          (self.refresh clocks).orderSlotsUsedAt.length < self.profile.orderRatePer10s)) := by
    by_cases hslot : cost.consumesOrderSlot = true
    · rw [if_pos hslot, refuseIfOrderRateExhausted, raiseIf]
      by_cases hfull : (self.entered clocks).profile.orderRatePer10s ≤
          (self.entered clocks).orderSlotsUsedAt.length
      · rw [if_pos hfull]
        exact .inl ⟨_, rfl⟩
      · rw [if_neg hfull]
        exact .inr ⟨rfl, fun _ => not_le.mp hfull⟩
    · rw [if_neg hslot]
      exact .inr ⟨rfl, fun h => absurd h hslot⟩
  rcases hslots with ⟨refusal, hfull⟩ | ⟨hfree, hslots⟩
  · rw [hfull]
    exact .inl ⟨refusal, _, rfl, .inr (.inr ⟨helapsed, .inl rfl⟩)⟩
  rw [hfree]
  dsimp only
  rcases self.weightExhausted_cases clocks requestClass endpoint cost with
    ⟨refusal, hshed⟩ | ⟨hfits, hweight⟩
  · rw [hshed]
    exact .inl ⟨refusal, _, rfl, .inr (.inr ⟨helapsed, .inr rfl⟩)⟩
  · rw [hfits]
    exact .inr ⟨_, rfl, by simpa using hbanned, helapsed, hslots, hweight, rfl⟩

/-! ### Observations -/

/-- The governor once it has read the clock and taken what the response said of the weight. -/
def reconciled (self : Governor) (clocks : Clocks) (observation : RateLimitObservation) : Governor :=
  let nowSeconds := clocks.monotonicSeconds self.readings
  let self := { self with readings := self.readings + 1 }
  if usedWeightHeader ∈ observation.malformedHeaders then self.assumeBudgetSpent nowSeconds
  else
    match observation.usedRequestWeight1m with
    | some used =>
      { self with
        observedUsedWeight := some used
        observedAtSeconds := some nowSeconds }.publishWeightUtilisation clocks
    | none => self

theorem observe_eq (metadata : VenueResponseMetadata) :
    self.observe clocks metadata =
      if (parseRateLimitHeaders metadata).httpStatus = ipBannedStatus then
        (self.reconciled clocks (parseRateLimitHeaders metadata)).recordBan clocks
          (parseRateLimitHeaders metadata)
      else if (parseRateLimitHeaders metadata).httpStatus = tooManyRequestsStatus then
        (self.reconciled clocks (parseRateLimitHeaders metadata)).recordThrottleBreach clocks
          (parseRateLimitHeaders metadata) (clocks.monotonicSeconds self.readings)
      else self.reconciled clocks (parseRateLimitHeaders metadata) := rfl

/-! ### Time passing -/

/-- The records after some readings of the clock: what has left its window is dropped from them. -/
structure RecordsAged (governor next : Governor) : Prop where
  profile : next.profile = governor.profile
  readings : governor.readings ≤ next.readings
  charges : ∀ {log floor}, KeptLog Prod.fst floor log governor.weightCharged →
    floor ≤ clocks.monotonicSeconds governor.readings - weightWindowSeconds →
    KeptLog Prod.fst (clocks.monotonicSeconds next.readings - weightWindowSeconds) log
      next.weightCharged
  slots : ∀ {log floor}, KeptLog id floor log governor.orderSlotsUsedAt →
    floor ≤ clocks.monotonicSeconds governor.readings - orderWindowSeconds →
    KeptLog id (clocks.monotonicSeconds next.readings - orderWindowSeconds) log next.orderSlotsUsedAt

/-- What reading the clock can do to a governor. -/
structure Aged (governor next : Governor) : Prop extends RecordsAged clocks governor next where
  banned : next.banned = governor.banned
  refuseUntil : next.refuseUntilSeconds = governor.refuseUntilSeconds

section Aged

variable {governor next : Governor} {clocks : Clocks}

theorem Aged.trans {last : Governor} (h : Aged clocks governor next) (h' : Aged clocks next last) :
    Aged clocks governor last where
  profile := h'.profile.trans h.profile
  readings := h.readings.trans h'.readings
  banned := h'.banned.trans h.banned
  refuseUntil := h'.refuseUntil.trans h.refuseUntil
  charges := fun hkept hfloor => h'.charges (h.charges hkept hfloor) le_rfl
  slots := fun hkept hfloor => h'.slots (h.slots hkept hfloor) le_rfl

/-- Whatever happens to the other fields, what is recorded only ages. -/
theorem aged_of_eq (hmono : Monotone clocks.monotonicSeconds) (hprofile : next.profile = governor.profile)
    (hreadings : governor.readings ≤ next.readings) (hbanned : next.banned = governor.banned)
    (hrefuse : next.refuseUntilSeconds = governor.refuseUntilSeconds)
    (hcharges : next.weightCharged = governor.weightCharged)
    (hslots : next.orderSlotsUsedAt = governor.orderSlotsUsedAt) : Aged clocks governor next where
  profile := hprofile
  readings := hreadings
  banned := hbanned
  refuseUntil := hrefuse
  charges := fun hkept hfloor => by
    rw [hcharges]
    exact hkept.mono (hfloor.trans (sub_le_sub_right (hmono hreadings) _))
  slots := fun hkept hfloor => by
    rw [hslots]
    exact hkept.mono (hfloor.trans (sub_le_sub_right (hmono hreadings) _))

theorem aged_refl (hmono : Monotone clocks.monotonicSeconds) (governor : Governor) :
    Aged clocks governor governor :=
  aged_of_eq hmono rfl le_rfl rfl rfl rfl rfl

theorem aged_refresh (hmono : Monotone clocks.monotonicSeconds) (governor : Governor) :
    Aged clocks governor (governor.refresh clocks) where
  profile := rfl
  readings := Nat.le_succ _
  banned := rfl
  refuseUntil := rfl
  charges := fun hkept hfloor =>
    (hkept.expire hfloor).mono (sub_le_sub_right (hmono (Nat.le_succ _)) _)
  slots := fun hkept hfloor =>
    (hkept.expire hfloor).mono (sub_le_sub_right (hmono (Nat.le_succ _)) _)

theorem aged_publish (hmono : Monotone clocks.monotonicSeconds) (governor : Governor) :
    Aged clocks governor (governor.publishWeightUtilisation clocks) := by
  unfold publishWeightUtilisation
  split
  · exact aged_refl hmono governor
  · exact aged_refresh hmono governor

theorem aged_reconciled (hmono : Monotone clocks.monotonicSeconds) (governor : Governor)
    (observation : RateLimitObservation) : Aged clocks governor (governor.reconciled clocks observation) := by
  have hread : Aged clocks governor { governor with readings := governor.readings + 1 } :=
    aged_of_eq hmono rfl (Nat.le_succ _) rfl rfl rfl rfl
  unfold reconciled
  dsimp only
  split
  · refine hread.trans ?_
    unfold assumeBudgetSpent
    split
    · exact aged_refl hmono _
    · exact aged_of_eq hmono rfl le_rfl rfl rfl rfl rfl
  · split
    · next used _ =>
      have hset : Aged clocks governor
          { governor with
            readings := governor.readings + 1
            observedUsedWeight := some used
            observedAtSeconds := some (clocks.monotonicSeconds governor.readings) } :=
        aged_of_eq hmono rfl (Nat.le_succ _) rfl rfl rfl rfl
      exact hset.trans (aged_publish hmono _)
    · exact hread

theorem recordsAged_entered (hmono : Monotone clocks.monotonicSeconds) (governor : Governor) :
    RecordsAged clocks governor (governor.entered clocks) :=
  have haged := aged_refresh hmono governor
  ⟨haged.profile, haged.readings, haged.charges, haged.slots⟩

/-- The checks of an admission only age the records, once its cool-down is forgotten. -/
theorem aged_checkedState (hmono : Monotone clocks.monotonicSeconds) (governor : Governor) :
    Aged clocks { governor with refuseUntilSeconds := none } (governor.checkedState clocks) := by
  have hentered : Aged clocks { governor with refuseUntilSeconds := none } (governor.entered clocks) :=
    aged_refresh hmono { governor with refuseUntilSeconds := none }
  unfold checkedState
  split
  · exact hentered
  · exact hentered.trans (aged_refresh hmono _)

/-- What is still charged when the weight check reads the clock is what its window holds. -/
theorem checkedState_charges (hmono : Monotone clocks.monotonicSeconds)
    {log : List (Seconds × ℕ)} {floor : Seconds} {ceiling : ℕ}
    (hceiling : governor.profile.requestWeightPerMinute = some ceiling)
    (h : KeptLog Prod.fst floor log governor.weightCharged)
    (hfloor : floor ≤ clocks.monotonicSeconds governor.readings - weightWindowSeconds) :
    KeptLog Prod.fst (clocks.monotonicSeconds (governor.readings + 1) - weightWindowSeconds) log
      (governor.checkedState clocks).weightCharged := by
  have hentered : KeptLog Prod.fst
      (clocks.monotonicSeconds (governor.readings + 1) - weightWindowSeconds) log
      (governor.entered clocks).weightCharged := (aged_refresh hmono governor).charges h hfloor
  have hchecked : governor.checkedState clocks = (governor.entered clocks).refresh clocks := by
    rw [checkedState, hceiling]
  rw [hchecked]
  exact hentered.expire le_rfl

theorem localTotal_le_estimate (governor : Governor) :
    (governor.weightCharged.map Prod.snd).sum ≤ governor.estimate := by
  unfold estimate
  dsimp only
  split
  · exact le_max_left _ _
  · exact le_rfl

theorem report_le_estimate {used : ℕ} {observedAt : Seconds}
    (hused : governor.observedUsedWeight = some used)
    (hat : governor.observedAtSeconds = some observedAt) :
    used + weightOf Prod.snd (fun charge => observedAt ≤ charge.1) governor.weightCharged ≤
      governor.estimate := by
  unfold estimate
  dsimp only
  rw [hused, hat]
  exact le_max_right _ _

end Aged

end Governor

end FinanceKing.Execution
