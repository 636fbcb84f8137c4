import FinanceKing.Evolution.Trials
import FinanceKing.Lib.Sums

/-! What the trial ledger charges over any interleaving of registrations and executions: `max(declared,
    executed)` for each specification, and totals that are the sums of those charges. -/

namespace FinanceKing.Evolution

open Lib LockedTable Backtest

/-! ### Readings of the two tables -/

def registrations (ledger : List LedgerRow) : List LedgerRow :=
  ledger.filter fun r => r.entryKind = .registration

/-- The trials charged to a specification, its overflow rows included. -/
def chargedTo (ledger : List LedgerRow) (specHash : String) : ℤ :=
  ((ledger.filter fun r => r.specHash = specHash).map LedgerRow.trialsCharged).sum

def executionsFor (executions : List ExecutionRow) (specHash : String) : List ExecutionRow :=
  executions.filter fun e => e.specHash = specHash

theorem chargedTo_append (ledger more : List LedgerRow) (specHash : String) :
    chargedTo (ledger ++ more) specHash = chargedTo ledger specHash + chargedTo more specHash := by
  rw [chargedTo, List.filter_append, List.map_append, List.sum_append]
  rfl

theorem registrations_append (ledger more : List LedgerRow) :
    registrations (ledger ++ more) = registrations ledger ++ registrations more := List.filter_append ..

theorem executionsFor_append (executions more : List ExecutionRow) (specHash : String) :
    executionsFor (executions ++ more) specHash =
      executionsFor executions specHash ++ executionsFor more specHash := List.filter_append ..

theorem mem_registrations {ledger : List LedgerRow} {r : LedgerRow} :
    r ∈ registrations ledger ↔ r ∈ ledger ∧ r.entryKind = .registration := by
  simp [registrations]

theorem ledgerOf_append (writes : List TrialWrite) (w : TrialWrite) :
    ledgerOf (writes ++ [w]) = ledgerOf writes ++ w.ledgerRows := by
  simp [ledgerOf]

theorem executionsOf_append (writes : List TrialWrite) (w : TrialWrite) :
    executionsOf (writes ++ [w]) = executionsOf writes ++ w.executionRows := by
  simp [executionsOf]

/-! ### The running total -/

/-- Every charge is positive, the totals climb, and the last one is the sum of the charges. -/
structure RunningTotal (ledger : List LedgerRow) : Prop where
  positive : ∀ r ∈ ledger, 1 ≤ r.trialsCharged
  ascending : ledger.Pairwise (fun a b => a.cumulativeTrials < b.cumulativeTrials)
  total : (ledger.getLast?.map LedgerRow.cumulativeTrials).getD 0 =
    (ledger.map LedgerRow.trialsCharged).sum

namespace RunningTotal

variable {ledger : List LedgerRow} (h : RunningTotal ledger)

include h

theorem sum_nonneg : 0 ≤ (ledger.map LedgerRow.trialsCharged).sum := by
  refine List.sum_nonneg fun x hx => ?_
  obtain ⟨r, hr, rfl⟩ := List.mem_map.mp hx
  have := h.positive r hr
  omega

theorem le_total {r : LedgerRow} (hr : r ∈ ledger) :
    r.cumulativeTrials ≤ (ledger.map LedgerRow.trialsCharged).sum := by
  rw [← h.total]
  rcases List.eq_nil_or_concat ledger with rfl | ⟨before, last, rfl⟩
  · cases hr
  · rw [List.concat_eq_append] at hr h ⊢
    have hlast : ((before ++ [last]).getLast?.map LedgerRow.cumulativeTrials).getD 0 =
        last.cumulativeTrials := by simp
    rw [hlast]
    rcases List.mem_append.mp hr with hbefore | hnew
    · exact ((List.pairwise_append.mp h.ascending).2.2 r hbefore last (List.mem_singleton_self last)).le
    · rw [List.mem_singleton.mp hnew]

/-- Under climbing totals the trigger's predecessor is the row written last. -/
theorem accumulate_eq (row : LedgerRow) :
    accumulate ledger row =
      { row with
        cumulativeTrials := (ledger.map LedgerRow.trialsCharged).sum + row.trialsCharged } := by
  have hsorted : sortBy (fun r : LedgerRow => toLex (r.cumulativeTrials, r.seq)) ledger = ledger :=
    sortBy_eq_self _ (h.ascending.imp fun {a b} hlt => (Prod.Lex.toLex_lt_toLex.mpr (.inl hlt)).le)
  rw [accumulate, hsorted, ← h.total]

/-- The largest total is the sum of the charges. -/
theorem globalTrialCount_eq : globalTrialCount ledger = (ledger.map LedgerRow.trialsCharged).sum := by
  refine foldl_max_eq ?_ h.sum_nonneg fun c hc => ?_
  · rw [← h.total]
    cases hlast : ledger.getLast? with
    | none => exact .inl rfl
    | some last => exact .inr (List.mem_map_of_mem (List.mem_of_getLast? hlast))
  · obtain ⟨r, hr, rfl⟩ := List.mem_map.mp hc
    exact h.le_total hr

/-- A row the ledger accepts is the row offered with the total carried on. -/
theorem insertLedger_eq {row r : LedgerRow} (hinsert : insertLedger ledger row = some r) :
    r = { row with
      cumulativeTrials := (ledger.map LedgerRow.trialsCharged).sum + row.trialsCharged } ∧
      ledgerAccepts ledger r := by
  rw [insertLedger, h.accumulate_eq] at hinsert
  split at hinsert
  · next haccepts =>
    obtain rfl := Option.some.inj hinsert
    exact ⟨rfl, haccepts⟩
  · cases hinsert

theorem append {row r : LedgerRow} (hinsert : insertLedger ledger row = some r) :
    RunningTotal (ledger ++ [r]) := by
  obtain ⟨rfl, haccepts⟩ := h.insertLedger_eq hinsert
  have hpositive : 1 ≤ row.trialsCharged := haccepts.2.2.2.2.2.2.1
  refine ⟨fun b hb => ?_, pairwise_concat h.ascending fun b hb => ?_, by simp⟩
  · rcases List.mem_append.mp hb with hold | hnew
    · exact h.positive b hold
    · rw [List.mem_singleton.mp hnew]
      exact hpositive
  · have hle := h.le_total hb
    change b.cumulativeTrials < _ + row.trialsCharged
    omega

end RunningTotal

/-! ### The accounts -/

/-- The registration of a specification, as its row records it. -/
structure Registers (digests : TrialDigests) (specification : TrialSpecification) (row : LedgerRow) :
    Prop where
  specHash : row.specHash = digests.specHash specification
  declared : row.trialsCharged = specification.declaredGridPointCount
  context : row.searchContextHash = digests.contextHash specification.searchContext
  lineage : row.lineageId = specification.lineageId

/-- The row is charged to a registration of the same specification, context and lineage. -/
def AttributedTo (row registration : LedgerRow) : Prop :=
  registration.specHash = row.specHash ∧ registration.searchContextHash = row.searchContextHash ∧
    registration.lineageId = row.lineageId

/-- What the ledger and the executions say together. -/
structure Accounts (digests : TrialDigests) (ledger : List LedgerRow) (executions : List ExecutionRow) :
    Prop where
  running : RunningTotal ledger
  unique : ((registrations ledger).map LedgerRow.specHash).Nodup
  declared : ∀ registration ∈ registrations ledger,
    ∃ specification, Registers digests specification registration
  attributed : ∀ row ∈ ledger, ∃ registration ∈ registrations ledger, AttributedTo row registration
  executed : ∀ e ∈ executions, ∃ registration ∈ registrations ledger, registration.specHash = e.specHash
  charged : ∀ registration ∈ registrations ledger, chargedTo ledger registration.specHash =
    max registration.trialsCharged (executionsFor executions registration.specHash).length
  numbered : ∀ specHash, (executionsFor executions specHash).map ExecutionRow.executionIndex =
    (List.range (executionsFor executions specHash).length).map fun i => (i : ℤ) + 1

theorem kind_ne_overflow {kind : EntryKind} : kind ≠ .executionOverflow ↔ kind = .registration := by
  cases kind <;> simp

theorem registrationOf_eq_some {ledger : List LedgerRow} {specHash : String} {registration : LedgerRow}
    (h : registrationOf ledger specHash = some registration) :
    registration ∈ registrations ledger ∧ registration.specHash = specHash := by
  have hmem := List.mem_of_find?_eq_some h
  have hp := List.find?_some h
  simp only [decide_eq_true_eq, kind_ne_overflow] at hp
  exact ⟨mem_registrations.mpr ⟨hmem, hp.2⟩, hp.1⟩

/-- What the reconcile trigger writes: the numbered execution, with a charge exactly past the grid. -/
theorem reconcile_cases {ledger : List LedgerRow} {executions : List ExecutionRow} {row : ExecutionRow}
    {w : TrialWrite} (h : reconcile ledger executions row = some w) :
    ∃ registration numbered, registrationOf ledger row.specHash = some registration ∧
      numbered.specHash = row.specHash ∧
      numbered.executionIndex = ((executionsFor executions row.specHash).length : ℤ) + 1 ∧
      (registration.trialsCharged ≤ (executionsFor executions row.specHash).length ∧
          (∃ overflow, insertLedger ledger (overflowRow registration numbered) = some overflow ∧
            w = .executed numbered (some overflow)) ∨
        (executionsFor executions row.specHash).length < registration.trialsCharged ∧
          w = .executed numbered none) := by
  rw [reconcile] at h
  split at h
  · cases h
  · next registration hregistration =>
    refine ⟨registration,
      { row with
        executionIndex := ((executionsFor executions row.specHash).length : ℤ) + 1
        charged := decide
          (registration.trialsCharged < ((executionsFor executions row.specHash).length : ℤ) + 1) },
      hregistration, rfl, rfl, ?_⟩
    simp only [decide_eq_true_eq] at h
    split at h
    · cases h
    · split at h
      · next hcharged =>
        obtain ⟨overflow, hoverflow, rfl⟩ := Option.map_eq_some_iff.mp h
        exact .inl ⟨Int.lt_add_one_iff.mp hcharged, overflow, hoverflow, rfl⟩
      · next hcharged =>
        refine .inr ⟨?_, (Option.some.inj h).symm⟩
        rw [executionsFor]
        omega

namespace Accounts

variable {digests : TrialDigests} {ledger : List LedgerRow} {executions : List ExecutionRow}

theorem nil : Accounts digests [] [] where
  running := ⟨fun _ h => absurd h List.not_mem_nil, List.Pairwise.nil, rfl⟩
  unique := List.nodup_nil
  declared _ h := absurd h List.not_mem_nil
  attributed _ h := absurd h List.not_mem_nil
  executed _ h := absurd h List.not_mem_nil
  charged _ h := absurd h List.not_mem_nil
  numbered _ := rfl

variable (h : Accounts digests ledger executions)

include h

/-- One specification has one registration. -/
theorem registration_unique {a b : LedgerRow} (ha : a ∈ registrations ledger)
    (hb : b ∈ registrations ledger) (heq : a.specHash = b.specHash) : a = b :=
  List.inj_on_of_nodup_map h.unique ha hb heq

/-- Nothing is charged to, and nothing ran under, a specification no registration names. -/
theorem unregistered {specHash : String}
    (hnew : ∀ registration ∈ registrations ledger, registration.specHash ≠ specHash) :
    chargedTo ledger specHash = 0 ∧ executionsFor executions specHash = [] := by
  constructor
  · have hnone : ledger.filter (fun r => r.specHash = specHash) = [] := by
      refine List.filter_eq_nil_iff.mpr fun r hr heq => ?_
      obtain ⟨registration, hmem, hspec, -⟩ := h.attributed r hr
      exact hnew registration hmem (hspec.trans (of_decide_eq_true heq))
    rw [chargedTo, hnone]
    rfl
  · refine List.filter_eq_nil_iff.mpr fun e he heq => ?_
    obtain ⟨registration, hmem, hspec⟩ := h.executed e he
    exact hnew registration hmem (hspec.trans (of_decide_eq_true heq))

/-- A registration the ledger accepts is charged its declared grid. -/
theorem register {specification : TrialSpecification} {seq : ℤ} {chargedAtUtc : DateTime} {r : LedgerRow}
    (hinsert : insertLedger ledger (registrationRow digests seq specification chargedAtUtc) = some r) :
    Accounts digests (ledger ++ [r]) executions := by
  obtain ⟨hr, haccepts⟩ := h.running.insertLedger_eq hinsert
  have hkind : r.entryKind = .registration := by rw [hr]; rfl
  have hpositive : 1 ≤ r.trialsCharged := haccepts.2.2.2.2.2.2.1
  have hfresh : ∀ registration ∈ registrations ledger, registration.specHash ≠ r.specHash := by
    intro registration hmem
    obtain ⟨hledger, hregistration⟩ := mem_registrations.mp hmem
    exact haccepts.2.2.2.2.2.2.2.2.2.2 (kind_ne_overflow.mpr hkind) registration hledger
      (kind_ne_overflow.mpr hregistration)
  have hregistrations : registrations (ledger ++ [r]) = registrations ledger ++ [r] := by
    rw [registrations_append]
    simp [registrations, hkind]
  obtain ⟨hcharged, hexecutions⟩ := h.unregistered hfresh
  refine ⟨h.running.append hinsert, ?_, ?_, ?_, ?_, ?_, h.numbered⟩ <;> rw [hregistrations]
  · rw [List.map_append, List.map_singleton, List.nodup_append]
    refine ⟨h.unique, List.nodup_singleton _, fun specHash hmem other hother => ?_⟩
    obtain ⟨registration, hregistration, rfl⟩ := List.mem_map.mp hmem
    rw [List.mem_singleton.mp hother]
    exact hfresh registration hregistration
  · intro registration hmem
    rcases List.mem_append.mp hmem with hold | hnew
    · exact h.declared registration hold
    · rw [List.mem_singleton.mp hnew, hr]
      exact ⟨specification, rfl, rfl, rfl, rfl⟩
  · intro row hmem
    rcases List.mem_append.mp hmem with hold | hnew
    · obtain ⟨registration, hregistration, hattributed⟩ := h.attributed row hold
      exact ⟨registration, List.mem_append_left _ hregistration, hattributed⟩
    · rw [List.mem_singleton.mp hnew]
      exact ⟨r, List.mem_append_right _ (List.mem_singleton_self r), rfl, rfl, rfl⟩
  · intro e he
    obtain ⟨registration, hregistration, hspec⟩ := h.executed e he
    exact ⟨registration, List.mem_append_left _ hregistration, hspec⟩
  · intro registration hmem
    rw [chargedTo_append]
    rcases List.mem_append.mp hmem with hold | hnew
    · have hother : chargedTo [r] registration.specHash = 0 := by
        simp [chargedTo, Ne.symm (hfresh registration hold)]
      rw [hother, add_zero, h.charged registration hold]
    · rw [List.mem_singleton.mp hnew, hcharged, hexecutions]
      simp only [chargedTo, decide_true, List.filter_cons_of_pos, List.filter_nil, List.map_cons,
        List.map_nil, List.sum_singleton, List.length_nil, Nat.cast_zero]
      omega

/-- An execution of a registered specification, with the overflow row the trigger writes past the grid,
    takes the next number. -/
theorem execute {numbered : ExecutionRow} {overflow : List LedgerRow} {registration : LedgerRow}
    (hregistration : registration ∈ registrations ledger)
    (hspec : registration.specHash = numbered.specHash)
    (hindex : numbered.executionIndex = ((executionsFor executions numbered.specHash).length : ℤ) + 1)
    (hrunning : RunningTotal (ledger ++ overflow))
    (hoverflow : ∀ r ∈ overflow, r.entryKind = .executionOverflow ∧ AttributedTo r registration)
    (hcharge : chargedTo overflow numbered.specHash =
      if registration.trialsCharged ≤ (executionsFor executions numbered.specHash).length then 1 else 0) :
    Accounts digests (ledger ++ overflow) (executions ++ [numbered]) := by
  have hnone : registrations overflow = [] := by
    refine List.filter_eq_nil_iff.mpr fun r hr heq => ?_
    rw [(hoverflow r hr).1] at heq
    exact absurd (of_decide_eq_true heq) EntryKind.noConfusion
  have hregistrations : registrations (ledger ++ overflow) = registrations ledger := by
    rw [registrations_append, hnone, List.append_nil]
  refine ⟨hrunning, ?_, ?_, ?_, ?_, ?_, fun specHash => ?_⟩
  · rw [hregistrations]
    exact h.unique
  · rw [hregistrations]
    exact h.declared
  · rw [hregistrations]
    intro row hmem
    rcases List.mem_append.mp hmem with hold | hnew
    · exact h.attributed row hold
    · exact ⟨registration, hregistration, (hoverflow row hnew).2⟩
  · rw [hregistrations]
    intro e he
    rcases List.mem_append.mp he with hold | hnew
    · exact h.executed e hold
    · rw [List.mem_singleton.mp hnew]
      exact ⟨registration, hregistration, hspec⟩
  · rw [hregistrations]
    intro other hother
    rw [chargedTo_append, executionsFor_append, h.charged other hother]
    by_cases heq : other.specHash = numbered.specHash
    · obtain rfl := h.registration_unique hother hregistration (heq.trans hspec.symm)
      have hlength : (executionsFor [numbered] other.specHash).length = 1 := by
        simp [executionsFor, heq]
      rw [heq] at hlength ⊢
      rw [hcharge, List.length_append, hlength]
      split <;> omega
    · have hzero : chargedTo overflow other.specHash = 0 := by
        have hnone : overflow.filter (fun r => r.specHash = other.specHash) = [] := by
          refine List.filter_eq_nil_iff.mpr fun r hr hr' => heq ?_
          exact (of_decide_eq_true hr').symm.trans ((hoverflow r hr).2.1.symm.trans hspec)
        rw [chargedTo, hnone]
        rfl
      have hempty : executionsFor [numbered] other.specHash = [] := by
        simp [executionsFor, Ne.symm heq]
      rw [hzero, hempty, List.append_nil, add_zero]
  · rw [executionsFor_append, List.map_append, List.length_append, h.numbered]
    by_cases heq : numbered.specHash = specHash
    · have hone : executionsFor [numbered] specHash = [numbered] := by simp [executionsFor, heq]
      rw [heq] at hindex
      simp [hone, hindex, List.range_succ]
    · have hempty : executionsFor [numbered] specHash = [] := by simp [executionsFor, heq]
      simp [hempty]

end Accounts

/-- The accounts of what a sequence of calls wrote. -/
def WritesAccount (digests : TrialDigests) (writes : List TrialWrite) : Prop :=
  Accounts digests (ledgerOf writes) (executionsOf writes)

/-- One call keeps the accounts. -/
theorem WritesAccount.append {digests : TrialDigests} {writes : List TrialWrite} {seq : ℤ}
    {call : TrialCall} {w : TrialWrite} (h : WritesAccount digests writes)
    (hinsert : insertCall digests writes seq call = some w) : WritesAccount digests (writes ++ [w]) := by
  rw [WritesAccount] at h ⊢
  rw [ledgerOf_append, executionsOf_append]
  cases call with
  | register specification chargedAtUtc =>
    rw [insertCall] at hinsert
    obtain ⟨r, hr, rfl⟩ := Option.map_eq_some_iff.mp hinsert
    rw [TrialWrite.executionRows, List.append_nil]
    exact h.register hr
  | reportExecution execution correlationId executedAtUtc =>
    obtain ⟨registration, numbered, hregistration, hspec, hindex, hcharged⟩ := reconcile_cases hinsert
    obtain ⟨hmem, heq⟩ := registrationOf_eq_some hregistration
    rw [← hspec] at hindex hcharged heq
    rcases hcharged with ⟨hpast, overflow, hoverflow, rfl⟩ | ⟨hwithin, rfl⟩
    · obtain ⟨hrow, -⟩ := h.running.insertLedger_eq hoverflow
      refine h.execute hmem heq hindex (h.running.append hoverflow) (fun r hr => ?_) ?_
      · rw [List.mem_singleton.mp hr, hrow]
        exact ⟨rfl, heq, rfl, rfl⟩
      · rw [if_pos hpast, hrow]
        simp [chargedTo, TrialWrite.ledgerRows, overflowRow]
    · rw [TrialWrite.ledgerRows, Option.toList_none]
      refine h.execute hmem heq hindex ?_ (fun r hr => absurd hr List.not_mem_nil) ?_
      · rw [List.append_nil]
        exact h.running
      · rw [if_neg (by omega)]
        rfl

/-! ### The totals -/

namespace Accounts

variable {digests : TrialDigests} {ledger : List LedgerRow} {executions : List ExecutionRow}

/-- A total over the rows that share something a specification's rows share is the sum of what its
    registrations were charged. -/
theorem total_eq (h : Accounts digests ledger executions) (p : LedgerRow → Bool)
    (hp : ∀ row registration, AttributedTo row registration → p row = p registration) :
    ((ledger.filter p).map LedgerRow.trialsCharged).sum =
      (((registrations ledger).filter p).map fun registration =>
        chargedTo ledger registration.specHash).sum := by
  have hnodup : (((registrations ledger).filter p).map LedgerRow.specHash).Nodup :=
    h.unique.sublist (List.filter_sublist.map _)
  have hkeys : ∀ row ∈ ledger.filter p,
      row.specHash ∈ ((registrations ledger).filter p).map LedgerRow.specHash := by
    intro row hrow
    obtain ⟨hmem, hprow⟩ := List.mem_filter.mp hrow
    obtain ⟨registration, hregistration, hattributed⟩ := h.attributed row hmem
    rw [hp row registration hattributed] at hprow
    exact List.mem_map.mpr
      ⟨registration, List.mem_filter.mpr ⟨hregistration, hprow⟩, hattributed.1⟩
  rw [sum_by_key LedgerRow.specHash LedgerRow.trialsCharged hnodup _ hkeys, List.map_map]
  refine congrArg List.sum (List.map_congr_left fun registration hmem => ?_)
  obtain ⟨hregistration, hpregistration⟩ := List.mem_filter.mp hmem
  rw [Function.comp_apply, chargedTo, List.filter_filter]
  refine congrArg (fun rows => (rows.map LedgerRow.trialsCharged).sum) (List.filter_congr fun row hrow => ?_)
  by_cases hspec : row.specHash = registration.specHash
  · obtain ⟨owner, howner, hattributed⟩ := h.attributed row hrow
    obtain rfl := h.registration_unique howner hregistration (hattributed.1.trans hspec)
    simp [hp row owner hattributed, hpregistration]
  · simp [hspec]

end Accounts

/-! ### Every run -/

/-- `trial_ledger` once the transactions have taken these steps. -/
def committedLedger (digests : TrialDigests) (actions : List (TableAction TrialCall)) : List LedgerRow :=
  ledgerOf (run (trialRules digests) actions).committed

/-- `trial_execution` once the transactions have taken these steps. -/
def committedExecutions (digests : TrialDigests) (actions : List (TableAction TrialCall)) :
    List ExecutionRow :=
  executionsOf (run (trialRules digests) actions).committed

theorem accounts_run (digests : TrialDigests) (actions : List (TableAction TrialCall)) :
    Accounts digests (committedLedger digests actions) (committedExecutions digests actions) := by
  have hnil : WritesAccount digests [] := Accounts.nil
  exact committed_run_of_forall hnil (fun _ _ _ _ h hinsert => h.append hinsert) actions

/-- However the calls interleave, the ledger charges each specification the larger of its declared grid
    and its executions, numbers them from 1, and totals exactly what it charged. -/
theorem ledger_charges_max (digests : TrialDigests) (actions : List (TableAction TrialCall)) :
    (∀ registration ∈ registrations (committedLedger digests actions),
      (∃ specification, Registers digests specification registration) ∧
      chargedTo (committedLedger digests actions) registration.specHash =
        max registration.trialsCharged
          (executionsFor (committedExecutions digests actions) registration.specHash).length) ∧
      (∀ specHash,
        (executionsFor (committedExecutions digests actions) specHash).map ExecutionRow.executionIndex =
          (List.range (executionsFor (committedExecutions digests actions) specHash).length).map
            fun i => (i : ℤ) + 1) ∧
      (committedLedger digests actions).Pairwise (fun a b => a.cumulativeTrials < b.cumulativeTrials) ∧
      globalTrialCount (committedLedger digests actions) =
        ((committedLedger digests actions).map LedgerRow.trialsCharged).sum ∧
      (∀ searchContextHash, contextTrials (committedLedger digests actions) searchContextHash =
        (((registrations (committedLedger digests actions)).filter fun registration =>
          registration.searchContextHash = searchContextHash).map fun registration =>
            chargedTo (committedLedger digests actions) registration.specHash).sum) ∧
      ∀ searchContextHash lineageId,
        lineageTrials (committedLedger digests actions) searchContextHash lineageId =
          (((registrations (committedLedger digests actions)).filter fun registration =>
            registration.searchContextHash = searchContextHash ∧ registration.lineageId = lineageId).map
              fun registration => chargedTo (committedLedger digests actions) registration.specHash).sum := by
  have h := accounts_run digests actions
  refine ⟨fun registration hmem => ⟨h.declared registration hmem, h.charged registration hmem⟩,
    h.numbered, h.running.ascending, h.running.globalTrialCount_eq, fun searchContextHash => ?_,
    fun searchContextHash lineageId => ?_⟩
  · refine h.total_eq _ fun row registration hattributed => ?_
    rw [hattributed.2.1]
  · refine h.total_eq _ fun row registration hattributed => ?_
    rw [hattributed.2.1, hattributed.2.2]

end FinanceKing.Evolution
