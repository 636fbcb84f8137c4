import FinanceKing.Backtest.Venue.OrderView

/-! What volume pays a resting order. A bar is delivered at its close and credits its whole volume to
    every order resting then, whenever in the bar the order came to rest. -/

namespace FinanceKing.Backtest

open Lib

/-- A bar whose credited volume moves nothing of a resting order: none of it, or less than a lot with
    no queue left ahead. -/
def MovesNothing (bar : Bar) (resting : RestingOrder) : Prop :=
  let available := volumeAtOrBeyond bar resting.order.side resting.limitQuotePrice
  available ≤ 0 ∨ resting.queueAheadBase = 0 ∧
    min available resting.remainingBase < resting.order.instrument.lotStep

theorem snapTowardZero_nonpos_iff {step x : Decimal} (hs : 0 < step) :
    snapTowardZero step x ≤ 0 ↔ x < step := by
  constructor
  · intro h
    by_contra hle
    have hlot : ((1 : ℕ) : Decimal) * step ≤ x := by simpa using not_lt.mp hle
    have hone := lots_le_snapTowardZero hs hlot
    norm_num at hone
    linarith
  · intro h
    rcases le_total x 0 with hneg | hpos
    · rcases snapTowardZero_between hs x with ⟨_, hle⟩ | ⟨_, hle⟩
      · exact hle.trans hneg
      · exact hle
    · obtain ⟨lots, hlots⟩ := snapTowardZero_eq_lots hs hpos
      have hbelow : (lots : Decimal) * step < 1 * step := by
        rw [← hlots, one_mul]
        exact (snapTowardZero_le hs hpos).trans_lt h
      have hzero : lots < 1 := by exact_mod_cast lt_of_mul_lt_mul_right hbelow hs.le
      rw [hlots, Nat.lt_one_iff.mp hzero, Nat.cast_zero, zero_mul]

theorem consume_of_movesNothing {bar : Bar} {resting : RestingOrder} (h : MovesNothing bar resting) :
    consume resting bar = ⟨resting, 0, none⟩ := by
  simp only [consume]
  split
  · rfl
  next havailable =>
  obtain hnone | ⟨hqueue, hlot⟩ := h
  · exact absurd hnone havailable
  rw [not_le] at havailable
  have hwithin : ¬volumeAtOrBeyond bar resting.order.side resting.limitQuotePrice ≤
      resting.queueAheadBase := by
    rw [hqueue]
    exact not_le.mpr havailable
  have hquantized : resting.order.instrument.quantizeBaseQuantity
      (min (volumeAtOrBeyond bar resting.order.side resting.limitQuotePrice -
        resting.queueAheadBase) resting.remainingBase) ≤ 0 := by
    rw [hqueue, sub_zero]
    exact (snapTowardZero_nonpos_iff resting.order.instrument.lotStep_pos).mpr hlot
  rw [if_neg hwithin, if_pos hquantized, ← hqueue]

theorem moved_by_consume {bar : Bar} {resting : RestingOrder} (h : ¬MovesNothing bar resting) :
    (consume resting bar).resting ≠ resting := by
  obtain ⟨havailable, hlot⟩ := not_or.mp h
  simp only [consume]
  rw [if_neg havailable]
  split
  · intro hsame
    have hqueue := congrArg RestingOrder.queueAheadBase hsame
    dsimp only at hqueue
    linarith
  split
  · next hquantized =>
    intro hsame
    have hqueue : 0 = resting.queueAheadBase := congrArg RestingOrder.queueAheadBase hsame
    rw [← hqueue, sub_zero] at hquantized
    exact hlot ⟨hqueue.symm,
      (snapTowardZero_nonpos_iff resting.order.instrument.lotStep_pos).mp hquantized⟩
  · intro hsame
    have hcount := congrArg RestingOrder.fillCount hsame
    dsimp only at hcount
    omega

namespace FillSimulation

variable {self : FillSimulation} {state : SimulationState}

/-! ### When an order came to rest -/

/-- The instant a call puts the order of an id to rest at, when it does. -/
def comesToRest (self : FillSimulation) (id : Uuid) (state : SimulationState) (c : VenueCall) :
    Option DateTime :=
  match c with
  | .resolveAck ack =>
    if ack.order.orderId = id then
      (state.pending.get? id).bind fun order =>
        (state.quotes.get? order.instrument.symbol).bind fun quote =>
          match self.resolution order quote (ack.occursAtUtc + self.costModel.latency.ackToFill) with
          | .rests _ => some ack.occursAtUtc
          | _ => none
    else none
  | _ => none

/-- The instant of the ack that last put the order of an id to rest, in a session from a state. -/
def restedFrom (self : FillSimulation) (id : Uuid) : SimulationState → List VenueCall → Option DateTime
  | _, [] => none
  | state, c :: rest =>
    (restedFrom self id (self.call c state).2 rest).or (self.comesToRest id state c)

def restedAt (self : FillSimulation) (id : Uuid) (calls : List VenueCall) : Option DateTime :=
  self.restedFrom id SimulationState.initial calls

theorem restedAt_concat (self : FillSimulation) (id : Uuid) (calls : List VenueCall) (c : VenueCall) :
    self.restedAt id (calls ++ [c]) =
      (self.comesToRest id (self.stateAfter calls) c).or (self.restedAt id calls) := by
  have hfrom : ∀ (calls : List VenueCall) (state : SimulationState),
      self.restedFrom id state (calls ++ [c]) =
        (self.comesToRest id (calls.foldl (fun state c => (self.call c state).2) state) c).or
          (self.restedFrom id state calls) := by
    intro calls
    induction calls with
    | nil => intro state; simp [restedFrom]
    | cons d calls ih => intro state; rw [List.cons_append, restedFrom, ih, restedFrom, Option.or_assoc]; rfl
  exact hfrom calls SimulationState.initial

/-- What holds of every resting order: something of it is left, and an ack put it to rest. -/
theorem resting_facts (self : FillSimulation) (calls : List VenueCall) {id : Uuid}
    {resting : RestingOrder} (h : (self.stateAfter calls).resting.get? id = some resting) :
    0 < resting.remainingBase ∧ (self.restedAt id calls).isSome := by
  induction calls using List.reverseRecOn generalizing resting with
  | nil => cases h
  | append_singleton calls c ih =>
    have hconsistent := consistent_stateAfter self calls
    have hspec := self.call_spec hconsistent c
    have hearlier : (self.restedAt id calls).isSome → (self.restedAt id (calls ++ [c])).isSome := by
      intro hsome
      rw [restedAt_concat, Option.isSome_or, hsome, Bool.or_true]
    rw [stateAfter_concat] at h
    generalize hrun : self.call c (self.stateAfter calls) = run at hspec h
    cases hspec with
    | raised c error recent => exact ⟨(ih h).1, hearlier (ih h).2⟩
    | refused order decidedAtUtc rejection refusal recent hrefusal =>
      exact ⟨(ih h).1, hearlier (ih h).2⟩
    | acknowledged order decidedAtUtc quote recent hquote => exact ⟨(ih h).1, hearlier (ih h).2⟩
    | observed bar quote dict hquote hresting =>
      rw [hresting, Option.bind_eq_some_iff] at h
      obtain ⟨before, hbefore, hafter⟩ := h
      refine ⟨?_, hearlier (ih hbefore).2⟩
      rw [afterBar] at hafter
      split_ifs at hafter with hsymbol hcomplete
      · rw [← Option.some.inj hafter]
        exact (ih hbefore).1
      · rw [← Option.some.inj hafter]
        simpa [RestingOrder.isComplete] using hcomplete
    | resolved ack order quote outcome outcomes after hpending hquote hrange houtcome hresolved =>
      cases hresolved with
      | crossed records hcrossed => exact ⟨(ih h).1, hearlier (ih h).2⟩
      | refused rejection refusal hrefusal => exact ⟨(ih h).1, hearlier (ih h).2⟩
      | rests limit hunmarketable =>
        rw [Dict.get?_set] at h
        split at h
        · next hid =>
          rw [← Option.some.inj h]
          have hkey : ack.order.orderId = id :=
            (hconsistent.pendingKey _ _ hpending).symm.trans hid.symm
          refine ⟨order.baseQuantity_pos, ?_⟩
          rw [restedAt_concat, comesToRest, if_pos hkey, ← hkey, hpending, Option.bind_some, hquote,
            Option.bind_some, ← houtcome]
          rfl
        · exact ⟨(ih h).1, hearlier (ih h).2⟩

/-! ### Sessions -/

/-- A bar that opened before an order came to rest leaves its entry, and what it has printed, as they
    were. -/
def PaidAfterRest (self : FillSimulation) (calls : List VenueCall) : Prop :=
  ∀ before bar rest id resting restedAtUtc, calls = before ++ .observe bar :: rest →
    (self.stateAfter before).resting.get? id = some resting →
    self.restedAt id before = some restedAtUtc → bar.openTimeUtc < restedAtUtc →
    (self.stateAfter (before ++ [.observe bar])).resting.get? id = some resting ∧
      (viewOf (self.stateAfter (before ++ [.observe bar])) id).records =
        (viewOf (self.stateAfter before) id).records

/-- What a quotable bar makes of a resting order's entry and of its prints. -/
theorem observe_entry {before : List VenueCall} {bar : Bar} {quote : TouchQuote} {id : Uuid}
    {resting : RestingOrder} (hquote : self.quoteOf bar = .ok quote)
    (hresting : (self.stateAfter before).resting.get? id = some resting) :
    (self.stateAfter (before ++ [.observe bar])).resting.get? id = afterBar bar resting ∧
      (viewOf (self.stateAfter (before ++ [.observe bar])) id).records =
        (viewOf (self.stateAfter before) id).records ++ (self.paid bar resting).toList := by
  rcases self.observe_eq bar (self.stateAfter before) with ⟨e, herror, _⟩ | ⟨_, _, _, hrun, hget⟩
  · rw [hquote] at herror
    cases herror
  rw [stateAfter_concat, call, Ran.map_snd, hrun]
  constructor
  · dsimp only
    rw [hget, hresting, Option.bind_some]
  · simp only [viewOf, List.filter_append]
    rw [filter_paidBy (consistent_stateAfter self before), paidAt, hresting, Option.bind_some]

/-- A quotable bar leaves a resting order of its symbol alone exactly where it moves nothing of it. -/
theorem observe_unmoved_iff {before : List VenueCall} {bar : Bar} {quote : TouchQuote} {id : Uuid}
    {resting : RestingOrder} (hquote : self.quoteOf bar = .ok quote)
    (hresting : (self.stateAfter before).resting.get? id = some resting)
    (hsymbol : resting.order.instrument.symbol = bar.instrument.symbol) :
    ((self.stateAfter (before ++ [.observe bar])).resting.get? id = some resting ∧
      (viewOf (self.stateAfter (before ++ [.observe bar])) id).records =
        (viewOf (self.stateAfter before) id).records) ↔ MovesNothing bar resting := by
  obtain ⟨hentry, hrecords⟩ := observe_entry hquote hresting
  have hincomplete : resting.isComplete = false := by
    simpa [RestingOrder.isComplete] using (resting_facts self before hresting).1
  rw [hentry, hrecords]
  constructor
  · rintro ⟨hsame, _⟩
    by_contra hmoves
    refine moved_by_consume hmoves ?_
    rw [afterBar, if_neg (not_not.mpr hsymbol)] at hsame
    split at hsame
    · cases hsame
    · exact Option.some.inj hsame
  · intro hnothing
    rw [afterBar, paid, if_neg (not_not.mpr hsymbol), if_neg (not_not.mpr hsymbol),
      consume_of_movesNothing hnothing]
    simp [hincomplete]

/-- A session pays resting orders only with later volume exactly when every quotable bar of the symbol
    that opened before an order came to rest moves nothing of it. -/
theorem paid_after_rest_iff (self : FillSimulation) (calls : List VenueCall) :
    self.PaidAfterRest calls ↔
      ∀ before bar rest id resting restedAtUtc quote, calls = before ++ .observe bar :: rest →
        (self.stateAfter before).resting.get? id = some resting →
        self.restedAt id before = some restedAtUtc → bar.openTimeUtc < restedAtUtc →
        self.quoteOf bar = .ok quote → resting.order.instrument.symbol = bar.instrument.symbol →
        MovesNothing bar resting := by
  constructor
  · intro hpaid before bar rest id resting restedAtUtc quote hcalls hresting hrested hopen hquote hsymbol
    exact (observe_unmoved_iff hquote hresting hsymbol).mp
      (hpaid before bar rest id resting restedAtUtc hcalls hresting hrested hopen)
  · intro hnothing before bar rest id resting restedAtUtc hcalls hresting hrested hopen
    rcases hcase : self.quoteOf bar with e | quote
    · rcases self.observe_eq bar (self.stateAfter before) with ⟨_, _, hrun⟩ | ⟨_, _, hquote, _⟩
      · have hstate : self.stateAfter (before ++ [.observe bar]) = self.stateAfter before := by
          rw [stateAfter_concat, call, Ran.map_snd, hrun]
        rw [hstate]
        exact ⟨hresting, rfl⟩
      · rw [hcase] at hquote
        cases hquote
    · by_cases hsymbol : resting.order.instrument.symbol = bar.instrument.symbol
      · exact (observe_unmoved_iff hcase hresting hsymbol).mpr
          (hnothing before bar rest id resting restedAtUtc quote hcalls hresting hrested hopen hcase
            hsymbol)
      · obtain ⟨hentry, hrecords⟩ := observe_entry hcase hresting
        rw [hentry, hrecords, afterBar, paid, if_pos hsymbol, if_pos hsymbol]
        exact ⟨rfl, List.append_nil _⟩

/-- A bar open from 10 to 30, and a buy that comes to rest at 20. -/
def openBar : Bar := ⟨{ sampleBar 30 40 with openTimeUtc := 10 }, by decide +kernel⟩

def restingBuy : Order := ⟨sampleOrderFields 1 "resting" 1 (some 104), by decide +kernel⟩

def midBarSession : List VenueCall :=
  [.observe (sampleBar 10 20), .submit restingBuy 20, .resolveAck ⟨restingBuy, 20⟩, .observe openBar]

/-- The buy is filled by the whole bar, the half of it before the buy came to rest included. -/
theorem a_bar_already_open_fills_a_resting_buy :
    ((sample.stateAfter midBarSession).fills.map fun record => record.fill.baseQuantity) = [1] ∧
      ¬sample.PaidAfterRest midBarSession := by
  refine ⟨by decide +kernel, fun hpaid => ?_⟩
  obtain ⟨resting, hresting⟩ : ∃ resting, (sample.stateAfter
      [.observe (sampleBar 10 20), .submit restingBuy 20, .resolveAck ⟨restingBuy, 20⟩]).resting.get? 1 =
        some resting := Option.isSome_iff_exists.mp (by decide +kernel)
  have hgone : (sample.stateAfter midBarSession).resting.get? 1 = none := by decide +kernel
  have hsame := (hpaid [.observe (sampleBar 10 20), .submit restingBuy 20,
    .resolveAck ⟨restingBuy, 20⟩] openBar [] 1 resting 20 rfl hresting (by decide +kernel)
    (by decide)).1
  exact Option.some_ne_none resting (hsame.symm.trans hgone)

end FillSimulation

end FinanceKing.Backtest
