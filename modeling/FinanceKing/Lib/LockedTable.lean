import FinanceKing.Lib.Fold

/-! A table that concurrent transactions insert into under one exclusive lock, held from an insert to the
    end of its transaction. Numbers are drawn from a sequence before the lock is asked for, each
    statement sees what is committed and what its own transaction wrote, and a blocked step waits. -/

namespace Lib

/-- An open transaction: the entry its check let through, the number drawn for it, the rows written. -/
structure Transaction (E R : Type) where
  request : Option E
  drawn : Option (ℤ × E)
  pending : List R

def Transaction.idle {E R : Type} : Transaction E R := ⟨none, none, []⟩

structure LockedTable (E R : Type) where
  nextSeq : ℤ
  committed : List R
  holder : Option ℕ
  transactions : ℕ → Transaction E R

inductive TableAction (E : Type) where
  | lock (tx : ℕ)
  | check (tx : ℕ) (entry : E)
  | draw (tx : ℕ)
  | insert (tx : ℕ)
  | commit (tx : ℕ)
  | rollback (tx : ℕ)

/-- What a caller checks on the rows it reads, and the row an insert writes over the rows it sees, unless
    a constraint refuses it. -/
structure TableRules (E R : Type) where
  admits : List R → E → Bool
  insert : List R → ℤ → E → Option R

namespace LockedTable

variable {E R : Type}

def init : LockedTable E R := ⟨1, [], none, fun _ => .idle⟩

variable (s : LockedTable E R) (tx : ℕ)

/-- The rows a statement of the transaction sees. -/
def visible : List R := s.committed ++ (s.transactions tx).pending

def free : Bool := s.holder = none ∨ s.holder = some tx

def setTransaction (t : Transaction E R) : LockedTable E R :=
  { s with transactions := Function.update s.transactions tx t }

/-- The transaction ends, leaving these rows: the lock goes with it. -/
def close (rows : List R) : LockedTable E R :=
  { nextSeq := s.nextSeq
    committed := s.committed ++ rows
    holder := if s.holder = some tx then none else s.holder
    transactions := Function.update s.transactions tx .idle }

variable (rules : TableRules E R)

def checked (entry : E) : LockedTable E R :=
  let t := s.transactions tx
  if t.request.isSome ∨ t.drawn.isSome then s
  else if rules.admits (s.visible tx) entry then
    s.setTransaction tx { t with request := some entry }
  else s.close tx []

def drew : LockedTable E R :=
  let t := s.transactions tx
  match t.request with
  | none => s
  | some entry =>
    { s with nextSeq := s.nextSeq + 1 }.setTransaction tx
      { t with request := none, drawn := some (s.nextSeq, entry) }

def inserted : LockedTable E R :=
  let t := s.transactions tx
  match t.drawn with
  | none => s
  | some (seq, entry) =>
    if s.free tx then
      match rules.insert (s.visible tx) seq entry with
      | none => s.close tx []
      | some row =>
        { s with holder := some tx }.setTransaction tx
          { t with drawn := none, pending := t.pending ++ [row] }
    else s

/-- One step of the system. -/
def step : TableAction E → LockedTable E R
  | .lock tx => if s.free tx then { s with holder := some tx } else s
  | .check tx entry => s.checked tx rules entry
  | .draw tx => s.drew tx
  | .insert tx => s.inserted tx rules
  | .commit tx =>
    if (s.transactions tx).drawn.isSome then s
    else s.close tx (s.transactions tx).pending
  | .rollback tx => s.close tx []

/-- The table an interleaving of the transactions' steps reaches. -/
def run (actions : List (TableAction E)) : LockedTable E R :=
  actions.foldl (fun s a => s.step rules a) init

/-- The condition holds wherever the action inserts a row. -/
def InsertsMeet (condition : List R → ℤ → E → Prop) (action : TableAction E) : Prop :=
  ∀ tx seq entry row, action = .insert tx → s.free tx →
    (s.transactions tx).drawn = some (seq, entry) →
    rules.insert (s.visible tx) seq entry = some row → condition (s.visible tx) seq entry

/-! ### What the lock serialises -/

/-- Every transaction sees rows that hold, only the holder has written any, and drawn numbers are
    positive. -/
structure Serial (Inv : List R → Prop) : Prop where
  committed : Inv s.committed
  visible : ∀ tx, Inv (s.visible tx)
  held : ∀ tx, (s.transactions tx).pending ≠ [] → s.holder = some tx
  positive : 0 < s.nextSeq
  drawn : ∀ tx seq entry, (s.transactions tx).drawn = some (seq, entry) → 0 < seq

variable {s tx rules} {Inv : List R → Prop}

/-- A step that inserts nothing meets every condition. -/
theorem insertsMeet_of_ne {condition : List R → ℤ → E → Prop} {action : TableAction E}
    (h : ∀ tx, action ≠ .insert tx) : s.InsertsMeet rules condition action :=
  fun tx _ _ _ heq => absurd heq (h tx)

theorem insertsMeet_insert {condition : List R → ℤ → E → Prop}
    (h : ∀ drawn ∈ (s.transactions tx).drawn, condition (s.visible tx) drawn.1 drawn.2) :
    s.InsertsMeet rules condition (.insert tx) := by
  rintro tx' seq entry _ heq _ hdrawn _
  obtain rfl := TableAction.insert.inj heq
  exact h (seq, entry) hdrawn

theorem serial_init (h : Inv []) : (init : LockedTable E R).Serial Inv where
  committed := h
  visible _ := h
  held _ hne := absurd rfl hne
  positive := one_pos
  drawn _ _ _ hdrawn := by cases hdrawn

/-- A step that only changes what one transaction asks for keeps the rows. -/
theorem Serial.setRequest (h : s.Serial Inv) {t : Transaction E R}
    (hpending : t.pending = (s.transactions tx).pending)
    (hdrawn : ∀ seq entry, t.drawn = some (seq, entry) → 0 < seq) {n : ℤ} (hn : 0 < n) :
    ({ s with nextSeq := n }.setTransaction tx t).Serial Inv where
  committed := h.committed
  visible other := by
    by_cases hother : other = tx
    · subst hother
      simpa [LockedTable.visible, setTransaction, hpending] using h.visible other
    · simpa [LockedTable.visible, setTransaction, hother] using h.visible other
  held other hne := by
    by_cases hother : other = tx
    · subst hother
      exact h.held other (by simpa [setTransaction, hpending] using hne)
    · exact h.held other (by simpa [setTransaction, hother] using hne)
  positive := hn
  drawn other seq entry heq := by
    by_cases hother : other = tx
    · subst hother
      exact hdrawn seq entry (by simpa [setTransaction] using heq)
    · exact h.drawn other seq entry (by simpa [setTransaction, hother] using heq)

/-- A transaction that ends with rows everyone may see leaves them to everyone. -/
theorem Serial.close (h : s.Serial Inv) {rows : List R} (hrows : Inv (s.committed ++ rows))
    (hheld : rows ≠ [] → s.holder = some tx) : (s.close tx rows).Serial Inv := by
  have hpending : ∀ other, other ≠ tx → rows ≠ [] → (s.transactions other).pending = [] := by
    intro other hother hne
    by_contra hpending
    exact hother (Option.some.inj ((h.held other hpending).symm.trans (hheld hne)))
  refine ⟨hrows, fun other => ?_, fun other hne => ?_, h.positive, fun other seq entry heq => ?_⟩
  · by_cases hother : other = tx
    · subst hother
      simpa [LockedTable.visible, LockedTable.close, Transaction.idle] using hrows
    · by_cases hne : rows = []
      · subst hne
        simpa [LockedTable.visible, LockedTable.close, hother] using h.visible other
      · simpa [LockedTable.visible, LockedTable.close, hother, hpending other hother hne] using hrows
  · by_cases hother : other = tx
    · subst hother
      exact absurd (by simp [LockedTable.close, Transaction.idle]) hne
    · have hother' := h.held other (by simpa [LockedTable.close, hother] using hne)
      simp [LockedTable.close, hother', hother]
  · by_cases hother : other = tx
    · subst hother
      simp [LockedTable.close, Transaction.idle] at heq
    · exact h.drawn other seq entry (by simpa [LockedTable.close, hother] using heq)

/-- Under the lock, an insert that keeps the rows it sees keeps them for its transaction. -/
theorem Serial.insert (h : s.Serial Inv) (hfree : s.free tx) {row : R} {t : Transaction E R}
    (hrows : Inv (s.visible tx ++ [row])) (ht : t.pending = (s.transactions tx).pending ++ [row])
    (hdrawn : t.drawn = none) :
    ({ s with holder := some tx }.setTransaction tx t).Serial Inv := by
  have hothers : ∀ other, other ≠ tx → (s.transactions other).pending = [] := by
    intro other hother
    by_contra hne
    have hholder := h.held other hne
    simp [free, hholder] at hfree
    exact hother hfree
  refine ⟨h.committed, fun other => ?_, fun other hne => ?_, h.positive, fun other seq entry heq => ?_⟩
  · by_cases hother : other = tx
    · subst hother
      simpa [LockedTable.visible, setTransaction, ht] using hrows
    · simpa [LockedTable.visible, setTransaction, hother] using h.visible other
  · by_cases hother : other = tx
    · rw [hother]
      rfl
    · exact absurd (hothers other hother) (by simpa [setTransaction, hother] using hne)
  · by_cases hother : other = tx
    · subst hother
      simp [setTransaction, hdrawn] at heq
    · exact h.drawn other seq entry (by simpa [setTransaction, hother] using heq)

/-- One step keeps the rows serial when an insert that meets the condition does. -/
theorem Serial.step {condition : List R → ℤ → E → Prop}
    (hinsert : ∀ rows seq entry row, Inv rows → 0 < seq → condition rows seq entry →
      rules.insert rows seq entry = some row → Inv (rows ++ [row]))
    (s : LockedTable E R) (action : TableAction E) (h : s.Serial Inv)
    (hmeet : s.InsertsMeet rules condition action) : (s.step rules action).Serial Inv := by
  have hend : ∀ tx, (s.close tx []).Serial Inv := fun tx =>
    h.close (by simpa using h.committed) (absurd rfl)
  cases action with
  | lock tx =>
    rw [LockedTable.step]
    split
    · next hfree =>
      refine ⟨h.committed, h.visible, fun other hne => ?_, h.positive, h.drawn⟩
      have hother := h.held other hne
      simp only [free, hother, reduceCtorEq, Option.some.injEq, false_or, decide_eq_true_eq] at hfree
      rw [hfree]
    · exact h
  | check tx entry =>
    rw [LockedTable.step, checked]
    split
    · exact h
    · next hidle =>
      split
      · refine h.setRequest (t := { s.transactions tx with request := some entry }) rfl ?_ h.positive
        exact fun seq entry heq => h.drawn tx seq entry heq
      · exact hend tx
  | draw tx =>
    rw [LockedTable.step, drew]
    split
    · exact h
    · next entry _ =>
      have hpositive := h.positive
      refine h.setRequest (n := s.nextSeq + 1) (t := ⟨none, some (s.nextSeq, entry), _⟩) rfl
        (fun seq other heq => ?_) (by omega)
      have hseq : s.nextSeq = seq := (Prod.mk.inj (Option.some.inj heq)).1
      exact hseq ▸ hpositive
  | insert tx =>
    rw [LockedTable.step, inserted]
    split
    · exact h
    · next seq entry hdrawn =>
      split
      · next hfree =>
        split
        · exact hend tx
        · next row hrow =>
          refine h.insert hfree ?_ rfl rfl
          exact hinsert _ seq entry row (h.visible tx) (h.drawn tx seq entry hdrawn)
            (hmeet tx seq entry row rfl hfree hdrawn hrow) hrow
      · exact h
  | commit tx =>
    rw [LockedTable.step]
    split
    · exact h
    · exact h.close (h.visible tx) (h.held tx)
  | rollback tx => exact hend tx

/-- What every insert that meets the condition keeps holds of the committed rows of every run. -/
theorem committed_run {condition : List R → ℤ → E → Prop} (hnil : Inv [])
    (hinsert : ∀ rows seq entry row, Inv rows → 0 < seq → condition rows seq entry →
      rules.insert rows seq entry = some row → Inv (rows ++ [row]))
    {actions : List (TableAction E)}
    (hmeet : StepsMeet (fun s a => s.step rules a) (fun s a => s.InsertsMeet rules condition a) init
      actions) : Inv (run rules actions).committed :=
  (foldl_invariant (Serial.step hinsert) hmeet (serial_init hnil)).committed

/-- What every insert keeps holds of the committed rows of every run. -/
theorem committed_run_of_forall (hnil : Inv [])
    (hinsert : ∀ rows seq entry row, Inv rows → rules.insert rows seq entry = some row →
      Inv (rows ++ [row])) (actions : List (TableAction E)) : Inv (run rules actions).committed := by
  have hstep : ∀ (s : LockedTable E R) action, s.Serial Inv → (s.step rules action).Serial Inv :=
    fun s action h =>
      Serial.step (fun rows seq entry row hrows _ (_ : True) => hinsert rows seq entry row hrows)
        s action h fun _ _ _ _ _ _ _ _ => trivial
  exact (foldl_invariant_of_forall hstep (serial_init hnil) : (run rules actions).Serial Inv).committed

end LockedTable

end Lib
