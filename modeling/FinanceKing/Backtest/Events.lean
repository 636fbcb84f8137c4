import FinanceKing.Domain.Market
import FinanceKing.Domain.Order
import FinanceKing.Lib.SortBy

/-! The closed set of events the engine dispatches. Each knows its own instant and its priority band;
    lower bands are dispatched first when two events share an instant. -/

namespace FinanceKing.Backtest

inductive EventPriority where
  | marketData
  | funding
  | venue
  | timer
  | reconciliation
  deriving DecidableEq

/-- The integer a priority compares by. -/
def EventPriority.rank : EventPriority → ℕ
  | .marketData => 0
  | .funding => 1
  | .venue => 2
  | .timer => 3
  | .reconciliation => 4

/-- The backtest package's own text guard; the domain's under another error class. -/
def requireText (candidate : String) (fieldName : String) : PyResult Unit :=
  raiseIf (strip candidate = []) .runConfig [fieldName, " must not be blank"]

/-- The venue acknowledging an order it has accepted but not yet filled. -/
structure OrderAckEvent where
  order : Order
  occursAtUtc : DateTime
  deriving DecidableEq

/-- The same guard on a text put together from pieces. -/
def requireMessage (candidate : Message) (fieldName : String) : PyResult Unit :=
  raiseIf candidate.isBlank .runConfig [fieldName, " must not be blank"]

structure RejectEventFields where
  order : Order
  occursAtUtc : DateTime
  reason : Message
  deriving DecidableEq

def RejectEventFields.postInit (self : RejectEventFields) : PyResult Unit :=
  requireMessage self.reason "reason"

/-- The venue refusing an order, at the instant it would have acknowledged one. -/
structure RejectEvent extends RejectEventFields where
  checked : toRejectEventFields.postInit = .ok ()
  deriving DecidableEq

structure TimerEventFields where
  strategyId : String
  occursAtUtc : DateTime
  label : String
  deriving DecidableEq

def TimerEventFields.postInit (self : TimerEventFields) : PyResult Unit := do
  requireText self.strategyId "strategy_id"
  requireText self.label "label"

/-- A wake-up a strategy asked for. -/
structure TimerEvent extends TimerEventFields where
  checked : toTimerEventFields.postInit = .ok ()
  deriving DecidableEq

inductive Event where
  | marketBar (bar : Bar)
  | marketTick (tick : Tick)
  | funding (instrument : Instrument) (occursAtUtc : DateTime) (fundingRate : Decimal)
  | orderAck (ack : OrderAckEvent)
  | fill (execution : Fill)
  | reject (refusal : RejectEvent)
  | timer (wakeUp : TimerEvent)
  | reconciliation (venue : Venue) (occursAtUtc : DateTime)
  deriving DecidableEq

namespace Event

/-- The instant an event is dispatched at; a bar's is its close, a fill's its own. -/
def occursAtUtc : Event → DateTime
  | .marketBar bar => bar.closeTimeUtc
  | .marketTick tick => tick.eventTimeUtc
  | .funding _ occursAtUtc _ => occursAtUtc
  | .orderAck ack => ack.occursAtUtc
  | .fill execution => execution.eventTimeUtc
  | .reject refusal => refusal.occursAtUtc
  | .timer wakeUp => wakeUp.occursAtUtc
  | .reconciliation _ occursAtUtc => occursAtUtc

def priority : Event → EventPriority
  | .marketBar _ => .marketData
  | .marketTick _ => .marketData
  | .funding _ _ _ => .funding
  | .orderAck _ => .venue
  | .fill _ => .venue
  | .reject _ => .venue
  | .timer _ => .timer
  | .reconciliation _ _ => .reconciliation

/-- The class name, as a trace and a message spell it. -/
def typeName : Event → String
  | .marketBar _ => "MarketDataEvent"
  | .marketTick _ => "MarketDataEvent"
  | .funding _ _ _ => "FundingEvent"
  | .orderAck _ => "OrderAckEvent"
  | .fill _ => "FillEvent"
  | .reject _ => "RejectEvent"
  | .timer _ => "TimerEvent"
  | .reconciliation _ _ => "ReconciliationEvent"

end Event

end FinanceKing.Backtest

/-! The heap the engine runs on and the three-part key that totally orders it. The heap is the bag of
    pending events; popping takes the least under the key, which the insertion counter makes
    injective. -/

namespace FinanceKing.Backtest

open Lib

/-- An event with the position the queue gave it. -/
structure QueuedEvent where
  occursAtUtc : DateTime
  priority : EventPriority
  sequence : ℕ
  event : Event
  deriving DecidableEq

/-- The total order: instant, priority band, insertion sequence. -/
def QueuedEvent.orderingKey (self : QueuedEvent) : DateTime ×ₗ ℕ ×ₗ ℕ :=
  toLex (self.occursAtUtc, toLex (self.priority.rank, self.sequence))

/-- A single-consumer priority queue over simulated time. -/
structure EventQueue where
  heap : List QueuedEvent
  nextSequence : ℕ
  deriving DecidableEq

namespace EventQueue

def empty : EventQueue := ⟨[], 0⟩

variable (self : EventQueue)

/-- The position the next event scheduled is given. -/
def position (event : Event) : QueuedEvent :=
  ⟨event.occursAtUtc, event.priority, self.nextSequence, event⟩

/-- Insert an event under the next sequence number. -/
def schedule (event : Event) : EventQueue :=
  ⟨self.heap ++ [self.position event], self.nextSequence + 1⟩

/-- Remove the next event, if there is one. -/
def pop : Option (QueuedEvent × EventQueue) :=
  (minBy QueuedEvent.orderingKey self.heap).map fun queued =>
    (queued, ⟨self.heap.erase queued, self.nextSequence⟩)

/-- What a pop gives: a pending event, least under the key, removed from the bag. -/
theorem pop_spec {queued : QueuedEvent} {rest : EventQueue} (h : self.pop = some (queued, rest)) :
    queued ∈ self.heap ∧ (∀ other ∈ self.heap, queued.orderingKey ≤ other.orderingKey) ∧
      rest = ⟨self.heap.erase queued, self.nextSequence⟩ := by
  rw [pop, Option.map_eq_some_iff] at h
  obtain ⟨least, hleast, hpair⟩ := h
  obtain ⟨rfl, rfl⟩ := Prod.mk.inj hpair
  exact ⟨mem_of_minBy _ hleast, fun other hother => le_of_minBy _ hleast hother, rfl⟩

theorem pop_eq_none_iff : self.pop = none ↔ self.heap = [] := by
  rw [pop, Option.map_eq_none_iff, minBy_eq_none_iff]

end EventQueue

end FinanceKing.Backtest
