import FinanceKing.Domain.Position
import FinanceKing.Lib.Dict

/-! Every position and cash balance, at one instant. Positions are a sequence keyed by the whole
    instrument, because one symbol can exist on two venues with different filters. -/

namespace FinanceKing

open Lib

/-- A mapping whose key disagrees with the asset its value names is refused. -/
def frozenBalances (balances : Dict String Balance) (fieldName : String) : PyResult Unit :=
  balances.entries.forM (fun entry =>
    raiseIf (entry.2.asset ≠ entry.1) .domainError
      [fieldName, " is keyed ", entry.1, " but holds a ", entry.2.asset, " balance"])

structure PortfolioFields where
  asOfUtc : DateTime
  positions : List Position
  cashBalances : Dict String Balance
  deriving DecidableEq

/-- The first instrument held twice, scanning with what was seen so far. -/
def requireDistinctInstruments : List Instrument → List Position → PyResult Unit
  | _, [] => .ok ()
  | seen, position :: rest => do
    raiseIf (position.instrument ∈ seen) .domainError
      ["portfolio holds two positions in ", position.instrument.venue.value, ":",
        position.instrument.symbol, "; net them before constructing it"]
    requireDistinctInstruments (position.instrument :: seen) rest

def PortfolioFields.postInit (self : PortfolioFields) : PyResult Unit := do
  frozenBalances self.cashBalances "cash_balances"
  requireDistinctInstruments [] self.positions

theorem requireDistinctInstruments_eq_ok : ∀ (seen : List Instrument) (positions : List Position),
    requireDistinctInstruments seen positions = .ok () ↔
      (∀ position ∈ positions, position.instrument ∉ seen) ∧
        (positions.map (·.instrument)).Nodup
  | _, [] => by simp [requireDistinctInstruments]
  | seen, position :: rest => by
    simp only [requireDistinctInstruments, bind_eq_ok, raiseIf_eq_ok,
      requireDistinctInstruments_eq_ok (position.instrument :: seen) rest, List.mem_cons,
      List.map_cons, List.nodup_cons, List.mem_map]
    constructor
    · rintro ⟨_, hhead, hrest, hnodup⟩
      refine ⟨?_, ?_, hnodup⟩
      · rintro p (rfl | hp)
        · exact hhead
        · exact fun hseen => hrest p hp (Or.inr hseen)
      · rintro ⟨p, hp, hsame⟩
        exact hrest p hp (Or.inl hsame)
    · rintro ⟨hseen, hhead, hnodup⟩
      refine ⟨(), hseen position (Or.inl rfl), ?_, hnodup⟩
      rintro p hp (hsame | hmem)
      · exact hhead ⟨p, hp, hsame⟩
      · exact hseen p (Or.inr hp) hmem

/-- Every position and cash balance, at one instant. -/
structure Portfolio extends PortfolioFields where
  checked : toPortfolioFields.postInit = .ok ()
  deriving DecidableEq

namespace Portfolio

def make (fields : PortfolioFields) : PyResult Portfolio :=
  construct PortfolioFields.postInit Portfolio.mk fields

variable (self : Portfolio)

/-- No instrument is held twice. -/
theorem nodup_instruments : (self.positions.map (·.instrument)).Nodup := by
  have h := self.checked
  simp only [PortfolioFields.postInit, bind_eq_ok, requireDistinctInstruments_eq_ok] at h
  obtain ⟨_, _, _, hnodup⟩ := h
  exact hnodup

/-- The position in `instrument`, or `none` when there is none held. -/
def positionFor (instrument : Instrument) : Option Position :=
  self.positions.find? (fun position => position.instrument = instrument)

/-- Replace or add one position, leaving the rest untouched. -/
def withPosition (position : Position) : PyResult Portfolio :=
  make { self.toPortfolioFields with
    positions :=
      self.positions.filter (fun held => held.instrument ≠ position.instrument) ++ [position] }

/-- Only the positions carrying exposure right now. -/
def openPositions : List Position :=
  self.positions.filter (fun position => position.signedBaseQuantity ≠ 0)

/-- Replacing one position never raises. -/
theorem withPosition_ok (position : Position) :
    ∃ portfolio, self.withPosition position = .ok portfolio ∧
      portfolio.asOfUtc = self.asOfUtc ∧ portfolio.cashBalances = self.cashBalances ∧
      portfolio.positions =
        self.positions.filter (fun held => held.instrument ≠ position.instrument) ++ [position] := by
  refine ⟨_, construct_ok ?_, rfl, rfl, rfl⟩
  have h := self.checked
  simp only [PortfolioFields.postInit, bind_eq_ok, requireDistinctInstruments_eq_ok] at h ⊢
  obtain ⟨u, hcash, _, hnodup⟩ := h
  refine ⟨u, hcash, fun _ _ => List.not_mem_nil, ?_⟩
  rw [List.map_append]
  refine List.Nodup.append (hnodup.sublist (List.filter_sublist.map _)) (List.nodup_singleton _) ?_
  intro instrument hheld hnew
  rw [List.map_singleton, List.mem_singleton] at hnew
  obtain ⟨held, hmem, hsame⟩ := List.mem_map.mp hheld
  have hne := (List.mem_filter.mp hmem).2
  simp only [decide_eq_true_eq] at hne
  exact hne (hsame.trans hnew)

end Portfolio

end FinanceKing
