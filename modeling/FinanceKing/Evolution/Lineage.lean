import FinanceKing.Domain.Guards
import FinanceKing.Lib.Digraph
import FinanceKing.Lib.Fold
import FinanceKing.Lib.SortBy
import FinanceKing.Lib.Sums

/-! The genealogy graph: the depth-first search that refuses a cycle when it is built, and the breadth-first
    ancestor walk that is asked before an edge is stored. -/

namespace FinanceKing.Evolution

open Lib Relation

structure LineageGraphFields where
  parentsOf : Dict String (List String)

namespace LineageGraphFields

variable (self : LineageGraphFields)

/-- `self.parents_of.get(node, ())`. -/
def parents (node : String) : List String := (self.parentsOf.get? node).getD []

/-! ### The cycle check -/

/-- What the search holds between two iterations; the top of the `pending` stack comes first. -/
structure Search where
  settled : Finset String
  onPath : List String
  inPath : Finset String
  pending : List (String × Bool)

/-- One iteration of the search: pop an entry, settle it if it was expanded, else expand it. -/
def visit (s : Search) : PyResult Search :=
  match s.pending with
  | [] => pure s
  | (node, true) :: rest =>
    pure ⟨insert node s.settled, s.onPath.dropLast, s.inPath.erase node, rest⟩
  | (node, false) :: rest =>
    if node ∈ s.settled then pure { s with pending := rest }
    else if node ∈ s.inPath then
      raise .lineageCycle
        ["the lineage graph holds a cycle: ", .texts (s.onPath.drop (s.onPath.idxOf node) ++ [node])]
    else pure
      { settled := s.settled
        onPath := s.onPath ++ [node]
        inPath := insert node s.inPath
        pending := (self.parents node).reverse.map (·, false) ++ (node, true) :: rest }

/-- The iterations the search may still need: one for each marker, two for each entry not expanded. -/
def work (s : Search) : ℕ :=
  (s.pending.map fun entry => if entry.2 then 1 else 2).sum +
    ((self.parentsOf.entries.filter fun entry => entry.1 ∉ s.settled ∧ entry.1 ∉ s.inPath).map
      fun entry => 2 * entry.2.length).sum

/-- `while pending`, for so many iterations; with nothing pending an iteration does nothing. -/
def search : ℕ → Search → PyResult Search
  | 0, s => pure s
  | iterations + 1, s => do
    let next ← self.visit s
    search iterations next

def Search.start (settled : Finset String) (node : String) : Search := ⟨settled, [], ∅, [(node, false)]⟩

/-- The search from one start, unless it is settled. -/
def settle (settled : Finset String) (start : String) : PyResult (Finset String) :=
  if start ∈ settled then pure settled
  else do
    let s ← self.search (self.work (.start settled start)) (.start settled start)
    pure s.settled

/-- `_require_acyclic`. -/
def requireAcyclic : PyResult Unit := do
  let _ ← (sortBy id self.parentsOf.keys).foldlM self.settle ∅
  pure ()

/-! ### The ancestor walk -/

/-- A parent met at this distance, unless it was reached before. -/
def reach (distance : ℤ) (walked : Dict String ℤ × List String) (parent : String) :
    Dict String ℤ × List String :=
  if (walked.1.get? parent).isSome then walked
  else (walked.1.set parent distance, walked.2 ++ [parent])

/-- The generations left to walk, from a frontier at the distance before this one. -/
def walkGenerations : ℕ → ℤ → Dict String ℤ → List String → Dict String ℤ
  | 0, _, reached, _ => reached
  | generations + 1, distance, reached, frontier =>
    let (reached, nextFrontier) := (frontier.flatMap self.parents).foldl (reach distance) (reached, [])
    if nextFrontier = [] then reached
    else walkGenerations generations (distance + 1) reached nextFrontier

/-- `ancestors_within`: every ancestor in at most so many steps, with its distance. -/
def ancestorsWithin (genomeHash : String) (maxGenerations : ℤ) : PyResult (Dict String ℤ) := do
  raiseIf (maxGenerations < 0) .lineage
    ["max_generations cannot be negative, got ", .count maxGenerations]
  pure (self.walkGenerations maxGenerations.toNat 1 (Dict.empty.set genomeHash 0) [genomeHash])

/-- `would_create_cycle`: whether declaring the parent would close a loop. -/
def wouldCreateCycle (childGenomeHash parentGenomeHash : String) : PyResult Bool :=
  if childGenomeHash = parentGenomeHash then pure true
  else do
    let ancestors ← self.ancestorsWithin parentGenomeHash (self.parentsOf.keys.length + 1)
    pure (ancestors.get? childGenomeHash).isSome

end LineageGraphFields

/-- Child genome hash to its parents, in declaration order, checked once for a cycle. -/
structure LineageGraph extends LineageGraphFields where
  checked : toLineageGraphFields.requireAcyclic = .ok ()

/-! ### The search decides -/

namespace LineageGraphFields

variable {self : LineageGraphFields}

/-- Child to parent. -/
def HasParent (self : LineageGraphFields) (child parent : String) : Prop := parent ∈ self.parents child

theorem mem_keys_of_hasParent {child parent : String} (h : self.HasParent child parent) :
    child ∈ self.parentsOf.keys := by
  rw [Dict.mem_keys_iff, Option.isSome_iff_ne_none]
  intro hnone
  rw [HasParent, parents, hnone] at h
  cases h

theorem visit_entry (settled inPath : Finset String) (onPath : List String) (node : String)
    (rest : List (String × Bool)) :
    self.visit ⟨settled, onPath, inPath, (node, false) :: rest⟩ =
      if node ∈ settled then pure ⟨settled, onPath, inPath, rest⟩
      else if node ∈ inPath then
        raise .lineageCycle
          ["the lineage graph holds a cycle: ", .texts (onPath.drop (onPath.idxOf node) ++ [node])]
      else pure ⟨settled, onPath ++ [node], insert node inPath,
        (self.parents node).reverse.map (·, false) ++ (node, true) :: rest⟩ := rfl

/-- Below the top of the path, each node is a parent of the one under it; entries that are not expanded
    are parents of the node on top of the path when they were pushed. -/
def Framed (self : LineageGraphFields) : List (String × Bool) → List String → Prop
  | [], path => path = []
  | (node, false) :: rest, path =>
    (∀ top ∈ path.head?, self.HasParent top node) ∧ Framed self rest path
  | (node, true) :: rest, path => ∃ below, path = node :: below ∧
      (∀ top ∈ below.head?, self.HasParent top node) ∧ Framed self rest below

/-- The stack and the path fit together, and every node in the path's set is on the path. -/
structure WellFramed (graph : LineageGraphFields) (s : Search) : Prop where
  framed : Framed graph s.pending s.onPath.reverse
  onPath : ∀ node ∈ s.inPath, node ∈ s.onPath

theorem Framed.isChain : ∀ {pending : List (String × Bool)} {path : List String},
    Framed self pending path → path.IsChain fun child below => self.HasParent below child
  | [], _, h => by
    rw [Framed] at h
    subst h
    exact .nil
  | (_, false) :: _, _, h => Framed.isChain h.2
  | (_, true) :: _, _, ⟨below, heq, hedge, hrest⟩ => by
    subst heq
    cases below with
    | nil => exact .singleton _
    | cons next below => exact List.isChain_cons_cons.mpr ⟨hedge next rfl, Framed.isChain hrest⟩

/-- A parent of the path's end that is on the path closes a cycle, from where it stands on the path. -/
theorem isCycle_backEdge {onPath : List String} {node : String}
    (hchain : onPath.reverse.IsChain fun child below => self.HasParent below child) (hmem : node ∈ onPath)
    (hedge : ∀ top ∈ onPath.reverse.head?, self.HasParent top node) :
    IsCycle self.HasParent (onPath.drop (onPath.idxOf node) ++ [node]) := by
  rw [List.isChain_reverse] at hchain
  rw [List.head?_reverse] at hedge
  have hfrom : onPath.drop (onPath.idxOf node) =
      node :: onPath.drop (onPath.idxOf node + 1) := by
    rw [List.drop_eq_getElem_cons (List.idxOf_lt_length_of_mem hmem), List.getElem_idxOf]
  refine ⟨List.isChain_append.mpr ⟨hchain.drop _, .singleton _, ?_⟩, node, onPath.drop (onPath.idxOf node + 1), ?_⟩
  · intro top htop next hnext
    obtain rfl : node = next := by simpa using hnext
    rw [List.getLast?_drop, if_neg (not_le.mpr (List.idxOf_lt_length_of_mem hmem))] at htop
    exact hedge top htop
  · rw [hfrom]
    rfl

theorem Framed.push {pending : List (String × Bool)} {node : String} {below : List String}
    (h : Framed self pending (node :: below)) : ∀ {parents : List String},
    (∀ parent ∈ parents, self.HasParent node parent) →
    Framed self (parents.map (·, false) ++ pending) (node :: below)
  | [], _ => h
  | parent :: parents, hparents => by
    obtain ⟨hparent, hrest⟩ := List.forall_mem_cons.mp hparents
    refine ⟨?_, Framed.push h hrest⟩
    rintro top htop
    obtain rfl : node = top := by simpa using htop
    exact hparent

/-- What was raised names a cycle of the graph. -/
def Refuses {α : Type} (self : LineageGraphFields) (result : PyResult α) : Prop :=
  ∃ cycle, IsCycle self.HasParent cycle ∧
    result = raise .lineageCycle ["the lineage graph holds a cycle: ", .texts cycle]

theorem Refuses.bind {α β : Type} {result : PyResult α} (h : Refuses self result) (f : α → PyResult β) :
    Refuses self (result >>= f) := by
  obtain ⟨cycle, hcycle, rfl⟩ := h
  exact ⟨cycle, hcycle, rfl⟩

/-- An iteration keeps the frame, or it raises and the path it names is a cycle. -/
theorem WellFramed.visit {s : Search} (h : WellFramed self s) :
    (∃ next, self.visit s = .ok next ∧ WellFramed self next) ∨ Refuses self (self.visit s) := by
  obtain ⟨settled, onPath, inPath, pending⟩ := s
  obtain ⟨hframed, honPath⟩ := h
  match pending with
  | [] => exact .inl ⟨_, rfl, hframed, honPath⟩
  | (node, true) :: rest =>
    obtain ⟨below, hpath, -, hrest⟩ := hframed
    obtain rfl : onPath = below.reverse ++ [node] := by
      rw [← List.reverse_cons]
      exact (List.reverse_eq_iff.mp hpath)
    refine .inl ⟨_, rfl, ?_, fun other hother => ?_⟩
    · simpa using hrest
    · obtain ⟨hne, hmem⟩ := Finset.mem_erase.mp hother
      simpa [hne] using honPath other hmem
  | (node, false) :: rest =>
    rw [visit_entry]
    by_cases hsettled : node ∈ settled
    · exact .inl ⟨_, if_pos hsettled, hframed.2, honPath⟩
    · by_cases hin : node ∈ inPath
      · exact .inr ⟨_, isCycle_backEdge (Framed.isChain hframed.2) (honPath node hin) hframed.1,
          (if_neg hsettled).trans (if_pos hin)⟩
      · refine .inl ⟨_, (if_neg hsettled).trans (if_neg hin), ?_, fun other hother => ?_⟩
        · have hmarked : Framed self ((node, true) :: rest) (node :: onPath.reverse) :=
            ⟨_, rfl, hframed.1, hframed.2⟩
          simpa using hmarked.push fun parent hparent => List.mem_reverse.mp hparent
        · rcases Finset.mem_insert.mp hother with rfl | hmem
          · exact List.mem_append_right _ (List.mem_singleton_self _)
          · exact List.mem_append_left _ (honPath other hmem)

/-- An iteration leaves less to do. -/
theorem work_visit {s next : Search} (h : self.visit s = .ok next) (hpending : s.pending ≠ []) :
    self.work next < self.work s := by
  obtain ⟨settled, onPath, inPath, pending⟩ := s
  match pending with
  | [] => exact absurd rfl hpending
  | (node, true) :: rest =>
    obtain rfl := Except.ok.inj h
    have hle := sum_filter_le (f := fun entry : String × List String => 2 * entry.2.length)
      (p := fun entry => entry.1 ∉ insert node settled ∧ entry.1 ∉ inPath.erase node)
      (q := fun entry => entry.1 ∉ settled ∧ entry.1 ∉ inPath)
      (fun entry hentry => by
        obtain ⟨hsettled, hpath⟩ := hentry
        rw [Finset.mem_insert, not_or] at hsettled
        exact ⟨hsettled.2, fun hin => hpath (Finset.mem_erase.mpr ⟨hsettled.1, hin⟩)⟩)
      self.parentsOf.entries
    have hhead : (((node, true) :: rest).map fun entry => if entry.2 then 1 else 2).sum =
        1 + (rest.map fun entry => if entry.2 then 1 else 2).sum := by simp
    simp only [work, hhead]
    omega
  | (node, false) :: rest =>
    rw [visit_entry] at h
    split at h
    · obtain rfl := Except.ok.inj h
      simp only [work, List.map_cons, List.sum_cons, Bool.false_eq_true, if_false]
      omega
    · next hsettled =>
      split at h
      · cases h
      · next hpath =>
        obtain rfl := Except.ok.inj h
        have hsub : ∀ entry : String × List String, (entry.1 ∉ settled ∧ entry.1 ∉ insert node inPath) →
            entry.1 ∉ settled ∧ entry.1 ∉ inPath := fun entry hentry =>
          ⟨hentry.1, fun hin => hentry.2 (Finset.mem_insert_of_mem hin)⟩
        have hparents : ((self.parentsOf.entries.filter fun entry =>
              entry.1 ∉ settled ∧ entry.1 ∉ insert node inPath).map
                fun entry => 2 * entry.2.length).sum + 2 * (self.parents node).length ≤
            ((self.parentsOf.entries.filter fun entry => entry.1 ∉ settled ∧ entry.1 ∉ inPath).map
              fun entry => 2 * entry.2.length).sum := by
          rw [parents]
          cases hget : self.parentsOf.get? node with
          | none => exact sum_filter_le hsub self.parentsOf.entries
          | some declared =>
            exact sum_filter_add_le (f := fun entry : String × List String => 2 * entry.2.length) hsub
              ((Dict.get?_eq_some_iff _ _ _).mp hget) (by simp) ⟨hsettled, hpath⟩
        have hpushed : (((self.parents node).reverse.map (·, false) ++ (node, true) :: rest).map
            fun entry : String × Bool => if entry.2 then 1 else 2).sum =
            2 * (self.parents node).length + 1 +
              (rest.map fun entry : String × Bool => if entry.2 then 1 else 2).sum := by
          simp [Function.comp_def]
          omega
        simp only [work, hpushed, List.map_cons, List.sum_cons, Bool.false_eq_true, if_false]
        omega

theorem search_of_done : ∀ (iterations : ℕ) {s : Search}, s.pending = [] →
    self.search iterations s = .ok s
  | 0, _, _ => rfl
  | iterations + 1, s, h => by
    have hvisit : self.visit s = .ok s := by
      rw [LineageGraphFields.visit, h]
      rfl
    rw [search, hvisit]
    exact search_of_done iterations h

/-- A search that does not raise ends with nothing pending. -/
theorem pending_search : ∀ {iterations : ℕ} {s final : Search}, self.work s ≤ iterations →
    self.search iterations s = .ok final → final.pending = []
  | 0, s, final, hwork, h => by
    obtain rfl := Except.ok.inj h
    by_contra hpending
    obtain ⟨entry, rest, hentry⟩ := List.exists_cons_of_ne_nil hpending
    have hpositive : 0 < if entry.2 then 1 else 2 := by split <;> omega
    rw [work, hentry, List.map_cons, List.sum_cons] at hwork
    omega
  | iterations + 1, s, final, hwork, h => by
    by_cases hpending : s.pending = []
    · rw [search_of_done _ hpending] at h
      rwa [← Except.ok.inj h]
    · rw [search, bind_eq_ok] at h
      obtain ⟨next, hnext, hrest⟩ := h
      have hless := work_visit hnext hpending
      exact pending_search (by omega) hrest

theorem WellFramed.search : ∀ (iterations : ℕ) {s : Search}, WellFramed self s →
    (∃ final, self.search iterations s = .ok final) ∨ Refuses self (self.search iterations s)
  | 0, s, _ => .inl ⟨s, rfl⟩
  | iterations + 1, _, h => by
    rw [LineageGraphFields.search]
    rcases h.visit with ⟨next, hnext, hframed⟩ | hrefused
    · rw [hnext]
      exact hframed.search iterations
    · exact .inr (hrefused.bind _)

theorem settle_cases (settled : Finset String) (start : String) :
    (∃ next, self.settle settled start = .ok next) ∨ Refuses self (self.settle settled start) := by
  rw [settle]
  split
  · exact .inl ⟨settled, rfl⟩
  · have hframed : WellFramed self (.start settled start) :=
      ⟨⟨fun _ htop => absurd htop (by simp [Search.start]), rfl⟩, fun _ hmem =>
        absurd hmem (Finset.notMem_empty _)⟩
    rcases hframed.search (self.work (.start settled start)) with ⟨final, hfinal⟩ | hrefused
    · exact .inl ⟨final.settled, bind_eq_ok.mpr ⟨final, hfinal, rfl⟩⟩
    · exact .inr (hrefused.bind _)

theorem foldlM_settle_cases : ∀ (starts : List String) (settled : Finset String),
    (∃ final, starts.foldlM self.settle settled = .ok final) ∨
      Refuses self (starts.foldlM self.settle settled)
  | [], settled => .inl ⟨settled, rfl⟩
  | start :: starts, settled => by
    rw [List.foldlM_cons]
    rcases settle_cases settled start with ⟨next, hnext⟩ | hrefused
    · rw [hnext]
      exact foldlM_settle_cases starts next
    · exact .inr (hrefused.bind _)

/-- The check passes, or it names a cycle of the graph. -/
theorem requireAcyclic_cases (self : LineageGraphFields) :
    self.requireAcyclic = .ok () ∨ Refuses self self.requireAcyclic := by
  rcases foldlM_settle_cases (sortBy id self.parentsOf.keys) ∅ with ⟨final, hfinal⟩ | hrefused
  · exact .inl (bind_eq_ok.mpr ⟨final, hfinal, rfl⟩)
  · exact .inr (hrefused.bind _)

/-- A graph without a cycle passes its check. -/
theorem requireAcyclic_of_acyclic (hacyclic : Acyclic self.HasParent) : self.requireAcyclic = .ok () := by
  rcases self.requireAcyclic_cases with hpassed | ⟨cycle, hcycle, _⟩
  · exact hpassed
  · exact absurd hacyclic hcycle.not_acyclic

/-! ### The walk finds every ancestor -/

theorem reach_foldl (distance : ℤ) : ∀ (parents : List String) (walked : Dict String ℤ × List String),
    (∀ node, node ∈ (parents.foldl (reach distance) walked).1.keys ↔ node ∈ walked.1.keys ∨ node ∈ parents) ∧
      ∀ node, node ∈ (parents.foldl (reach distance) walked).2 ↔
        node ∈ walked.2 ∨ (node ∈ parents ∧ node ∉ walked.1.keys)
  | [], walked => by simp
  | parent :: parents, walked => by
    obtain ⟨hreached, hfrontier⟩ := reach_foldl distance parents (reach distance walked parent)
    rw [List.foldl_cons]
    by_cases hold : parent ∈ walked.1.keys
    · have hsame : reach distance walked parent = walked :=
        if_pos ((Dict.mem_keys_iff _ _).mp hold)
      rw [hsame] at hreached hfrontier ⊢
      refine ⟨fun node => ?_, fun node => ?_⟩
      · rw [hreached, List.mem_cons]
        by_cases hnode : node = parent
        · simp [hnode, hold]
        · simp [hnode]
      · rw [hfrontier, List.mem_cons]
        by_cases hnode : node = parent
        · simp [hnode, hold]
        · simp [hnode]
    · have hnew : reach distance walked parent =
          (walked.1.set parent distance, walked.2 ++ [parent]) :=
        if_neg fun h => hold ((Dict.mem_keys_iff _ _).mpr h)
      have hkeys : ∀ node, node ∈ (walked.1.set parent distance).keys ↔
          node ∈ walked.1.keys ∨ node = parent := by
        intro node
        rw [Dict.mem_keys_iff, Dict.mem_keys_iff, Dict.get?_set]
        by_cases hnode : node = parent <;> simp [hnode]
      rw [hnew] at hreached hfrontier ⊢
      refine ⟨fun node => ?_, fun node => ?_⟩
      · rw [hreached, hkeys, List.mem_cons, or_assoc]
      · rw [hfrontier, hkeys, List.mem_append, List.mem_singleton, List.mem_cons]
        by_cases hnode : node = parent
        · simp [hnode, hold]
        · simp [hnode]

/-- Between two generations: only the frontier's parents may be missing, and every generation so far has
    left a node with declared parents behind the frontier. -/
structure Walked (graph : LineageGraphFields) (generations : ℕ) (reached : Dict String ℤ)
    (frontier : List String) : Prop where
  entered : ∀ node ∈ frontier, node ∈ reached.keys
  closed : ∀ node ∈ reached.keys, node ∉ frontier → ∀ parent, graph.HasParent node parent →
    parent ∈ reached.keys
  behind : graph.parentsOf.keys.length < generations +
    (graph.parentsOf.keys.filter fun node => node ∈ reached.keys ∧ node ∉ frontier).length

theorem walkGenerations_closed : ∀ (generations : ℕ) (distance : ℤ) {reached : Dict String ℤ}
    {frontier : List String}, Walked self generations reached frontier →
    (∀ node ∈ reached.keys, node ∈ (self.walkGenerations generations distance reached frontier).keys) ∧
      ∀ node ∈ (self.walkGenerations generations distance reached frontier).keys, ∀ parent,
        self.HasParent node parent →
        parent ∈ (self.walkGenerations generations distance reached frontier).keys
  | 0, _, reached, frontier, h => by
    have hle := List.length_filter_le (fun node => decide (node ∈ reached.keys ∧ node ∉ frontier))
      self.parentsOf.keys
    have hlt := h.behind
    omega
  | generations + 1, distance, reached, frontier, h => by
    obtain ⟨hreached, hfrontier⟩ := reach_foldl distance (frontier.flatMap self.parents) (reached, [])
    rw [walkGenerations]
    generalize (frontier.flatMap self.parents).foldl (reach distance) (reached, []) = walked at *
    obtain ⟨next, nextFrontier⟩ := walked
    simp only [List.not_mem_nil, false_or, List.mem_flatMap] at hreached hfrontier
    have hclosed : ∀ node ∈ reached.keys, ∀ parent, self.HasParent node parent → parent ∈ next.keys := by
      intro node hnode parent hparent
      rw [hreached]
      by_cases hmem : node ∈ frontier
      · exact .inr ⟨node, hmem, hparent⟩
      · exact .inl (h.closed node hnode hmem parent hparent)
    have hnext : ∀ node ∈ next.keys, node ∉ nextFrontier → node ∈ reached.keys := by
      intro node hnode hnot
      by_contra hold
      exact hnot ((hfrontier node).mpr ⟨((hreached node).mp hnode).resolve_left hold, hold⟩)
    dsimp only
    split
    · next hempty =>
      rw [hempty] at hnext
      exact ⟨fun node hnode => (hreached node).mpr (.inl hnode), fun node hnode =>
        hclosed node (hnext node hnode List.not_mem_nil)⟩
    · next hne =>
      have hwalked : Walked self generations next nextFrontier := by
        refine ⟨fun node hnode => (hreached node).mpr (.inr ((hfrontier node).mp hnode).1),
          fun node hnode hnot => hclosed node (hnext node hnode hnot), ?_⟩
        obtain ⟨parent, hparent⟩ := List.exists_mem_of_ne_nil _ hne
        obtain ⟨⟨node, hnode, hdeclared⟩, -⟩ := (hfrontier parent).mp hparent
        have hkey : node ∈ self.parentsOf.keys := mem_keys_of_hasParent hdeclared
        have hbehind : ∀ other, other ∈ reached.keys ∧ other ∉ frontier →
            other ∈ next.keys ∧ other ∉ nextFrontier := fun other hother =>
          ⟨(hreached other).mpr (.inl hother.1), fun hin => ((hfrontier other).mp hin).2 hother.1⟩
        have hentered := h.entered node hnode
        have hmore := sum_filter_add_le (f := fun _ => 1) hbehind hkey (fun hold => hold.2 hnode)
          ⟨(hreached node).mpr (.inl hentered), fun hin => ((hfrontier node).mp hin).2 hentered⟩
        have hlt := h.behind
        simp only [List.map_const', List.sum_replicate, smul_eq_mul, mul_one] at hmore
        omega
      obtain ⟨hkeep, hdone⟩ := walkGenerations_closed generations (distance + 1) hwalked
      exact ⟨fun node hnode => hkeep node ((hreached node).mpr (.inl hnode)), hdone⟩

/-- What the check asked before an edge is stored finds out. -/
theorem not_reaches_of_wouldCreateCycle {child parent : String}
    (h : self.wouldCreateCycle child parent = .ok false) :
    ¬ReflTransGen self.HasParent parent child := by
  rw [wouldCreateCycle] at h
  split at h
  · cases h
  · rw [bind_eq_ok] at h
    obtain ⟨ancestors, hancestors, hnone⟩ := h
    rw [ancestorsWithin, bind_eq_ok] at hancestors
    obtain ⟨_, -, hwalk⟩ := hancestors
    obtain rfl := Except.ok.inj hwalk
    have hstart : ∀ node, node ∈ (Dict.empty.set parent (0 : ℤ)).keys ↔ node = parent := by
      intro node
      rw [Dict.mem_keys_iff, Dict.get?_set]
      by_cases hnode : node = parent <;> simp [hnode]
    have hwalked : Walked self ((self.parentsOf.keys.length : ℤ) + 1).toNat (Dict.empty.set parent 0)
        [parent] := by
      refine ⟨fun node hnode => (hstart node).mpr (List.mem_singleton.mp hnode), fun node hnode hnot =>
        absurd (List.mem_singleton.mpr ((hstart node).mp hnode)) hnot, by omega⟩
    obtain ⟨hkeep, hclosed⟩ := walkGenerations_closed _ 1 hwalked
    have hall : ∀ node, ReflTransGen self.HasParent parent node →
        node ∈ (self.walkGenerations ((self.parentsOf.keys.length : ℤ) + 1).toNat 1
          (Dict.empty.set parent 0) [parent]).keys := by
      intro node hreaches
      induction hreaches with
      | refl => exact hkeep parent ((hstart parent).mpr rfl)
      | tail _ hstep ih => exact hclosed _ ih _ hstep
    intro hreaches
    have hmem := hall child hreaches
    rw [Dict.mem_keys_iff] at hmem
    exact absurd (Except.ok.inj hnone) (by rw [hmem]; decide)

end LineageGraphFields

end FinanceKing.Evolution
