import Mathlib

/-! Items that hold from the instant they are recorded until the next one replaces them. A window that
    opens at an instant sees the items after it and the last one that is not; what it does not see can
    be forgotten early, since no window that opens later sees it either. -/

namespace Lib

variable {α β : Type} [LinearOrder β] {time : α → β}

/-- What a window opening at `start` sees of a history: an item gives way to a later one that is not
    after `start` either. -/
def inForceFrom (time : α → β) (start : β) : List α → List α
  | [] => []
  | item :: rest =>
    if time item ≤ start ∧ ∃ later ∈ rest, time later ≤ start then inForceFrom time start rest
    else item :: inForceFrom time start rest

theorem inForceFrom_cons_of_superseded {start : β} {item : α} {rest : List α}
    (hitem : time item ≤ start) (hlater : ∃ later ∈ rest, time later ≤ start) :
    inForceFrom time start (item :: rest) = inForceFrom time start rest := if_pos ⟨hitem, hlater⟩

theorem inForceFrom_cons_of_after {start : β} {item : α} {rest : List α} (hitem : start < time item) :
    inForceFrom time start (item :: rest) = item :: inForceFrom time start rest :=
  if_neg fun h => absurd h.1 (not_le.mpr hitem)

theorem inForceFrom_cons_of_last {start : β} {item : α} {rest : List α}
    (hrest : ∀ later ∈ rest, start < time later) :
    inForceFrom time start (item :: rest) = item :: inForceFrom time start rest :=
  if_neg fun ⟨_, later, hlater, hle⟩ => absurd hle (not_le.mpr (hrest later hlater))

/-- Nothing is forgotten of a history that lies after the start. -/
theorem inForceFrom_eq_self {start : β} : ∀ {items : List α}, (∀ item ∈ items, start < time item) →
    inForceFrom time start items = items
  | [], _ => rfl
  | item :: rest, h => by
    obtain ⟨hitem, hrest⟩ := List.forall_mem_cons.mp h
    rw [inForceFrom_cons_of_after hitem, inForceFrom_eq_self hrest]

/-- Forgetting leaves an item at or before any later start whenever there was one. -/
theorem exists_le_inForceFrom {start start' : β} (hstart : start ≤ start') (later : List α) :
    ∀ items : List α, (∃ item ∈ inForceFrom time start items ++ later, time item ≤ start') ↔
      ∃ item ∈ items ++ later, time item ≤ start'
  | [] => Iff.rfl
  | item :: rest => by
    have hrest := exists_le_inForceFrom hstart later rest
    by_cases hgone : time item ≤ start ∧ ∃ other ∈ rest, time other ≤ start
    · rw [inForceFrom_cons_of_superseded hgone.1 hgone.2, hrest]
      obtain ⟨_, other, hother, hle⟩ := hgone
      constructor
      · rintro ⟨seen, hseen, hle⟩
        exact ⟨seen, List.mem_cons_of_mem _ hseen, hle⟩
      · intro _
        exact ⟨other, List.mem_append_left _ hother, hle.trans hstart⟩
    · rw [inForceFrom, if_neg hgone]
      simp only [List.cons_append, List.exists_mem_cons_iff, hrest]

/-- Forgetting early changes nothing: a window that opens no earlier sees, of what was kept and what
    came after it, what it would have seen of the whole history. -/
theorem inForceFrom_append {start start' : β} (hstart : start ≤ start') (later : List α) :
    ∀ items : List α, inForceFrom time start' (inForceFrom time start items ++ later) =
      inForceFrom time start' (items ++ later)
  | [] => rfl
  | item :: rest => by
    have hrest := inForceFrom_append hstart later rest
    by_cases hgone : time item ≤ start ∧ ∃ other ∈ rest, time other ≤ start
    · obtain ⟨hitem, other, hother, hle⟩ := hgone
      rw [inForceFrom_cons_of_superseded hitem ⟨other, hother, hle⟩, hrest, List.cons_append,
        inForceFrom_cons_of_superseded (hitem.trans hstart)
          ⟨other, List.mem_append_left _ hother, hle.trans hstart⟩]
    · rw [inForceFrom, if_neg hgone, List.cons_append, List.cons_append, inForceFrom, inForceFrom,
        hrest]
      simp only [exists_le_inForceFrom hstart]

/-- Forgetting leaves untouched what lies strictly after the start. -/
theorem filter_inForceFrom {start horizon : β} (hstart : start < horizon) : ∀ items : List α,
    (inForceFrom time start items).filter (fun item => horizon ≤ time item) =
      items.filter fun item => horizon ≤ time item
  | [] => rfl
  | item :: rest => by
    have hrest := filter_inForceFrom hstart rest
    by_cases hgone : time item ≤ start ∧ ∃ other ∈ rest, time other ≤ start
    · have hout : ¬horizon ≤ time item := not_le.mpr (hgone.1.trans_lt hstart)
      rw [inForceFrom_cons_of_superseded hgone.1 hgone.2, hrest, List.filter_cons_of_neg]
      simpa using hout
    · rw [inForceFrom, if_neg hgone, List.filter_cons, List.filter_cons, hrest]

/-- In order of time, the window sees the last item that is not after its start, and those that are. -/
theorem inForceFrom_of_sorted (start : β) : ∀ {items : List α},
    (items.Pairwise fun a b => time a ≤ time b) → inForceFrom time start items =
      ((items.filter fun item => time item ≤ start).getLast?).toList ++
        items.filter fun item => start < time item
  | [], _ => rfl
  | item :: rest, hsorted => by
    obtain ⟨hhead, htail⟩ := List.pairwise_cons.mp hsorted
    have hrest := inForceFrom_of_sorted start htail
    rcases lt_or_ge start (time item) with hafter | hbefore
    · have hall : ∀ later ∈ item :: rest, start < time later :=
        List.forall_mem_cons.mpr ⟨hafter, fun later hlater => hafter.trans_le (hhead later hlater)⟩
      have hnone : (item :: rest).filter (fun item => time item ≤ start) = [] :=
        List.filter_eq_nil_iff.mpr fun later hlater => by simpa using hall later hlater
      have hself : (item :: rest).filter (fun item => start < time item) = item :: rest :=
        List.filter_eq_self.mpr fun later hlater => decide_eq_true (hall later hlater)
      rw [inForceFrom_eq_self hall, hnone, hself]
      rfl
    · have hkept : (item :: rest).filter (fun item => time item ≤ start) =
          item :: rest.filter fun item => time item ≤ start :=
        List.filter_cons_of_pos (decide_eq_true hbefore)
      have hskipped : (item :: rest).filter (fun item => start < time item) =
          rest.filter fun item => start < time item :=
        List.filter_cons_of_neg (by simpa using hbefore)
      rw [hkept, hskipped]
      by_cases hlater : ∃ later ∈ rest, time later ≤ start
      · obtain ⟨later, hmem, hle⟩ := hlater
        have hne : rest.filter (fun item => time item ≤ start) ≠ [] :=
          List.ne_nil_of_mem (List.mem_filter.mpr ⟨hmem, decide_eq_true hle⟩)
        rw [inForceFrom_cons_of_superseded hbefore ⟨later, hmem, hle⟩, hrest]
        obtain ⟨first, others, hfilter⟩ := List.exists_cons_of_ne_nil hne
        rw [hfilter, List.getLast?_cons_cons]
      · push Not at hlater
        have hnone : rest.filter (fun item => time item ≤ start) = [] :=
          List.filter_eq_nil_iff.mpr fun later hmem => by simpa using hlater later hmem
        rw [inForceFrom_cons_of_last hlater, hrest, hnone]
        rfl

end Lib
