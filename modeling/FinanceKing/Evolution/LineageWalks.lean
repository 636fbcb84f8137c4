import FinanceKing.Evolution.Lineage
import FinanceKing.Lib.Digraph

/-! The cycle check is exact: a search that comes through has settled every genome with a declared parent, in an
    order in which no genome is its own ancestor. -/

namespace FinanceKing.Evolution

open Lib Relation

namespace LineageGraphFields

variable {self : LineageGraphFields}

/-- Down the stack, the parents of each node under expansion are ready when its marker is popped: settled, or
    pending above it. -/
def Tracked (self : LineageGraphFields) : Set String → List (String × Bool) → Prop
  | _, [] => True
  | ready, (node, expanded) :: rest =>
    (expanded = true → ∀ parent, self.HasParent node parent → parent ∈ ready) ∧
      Tracked self (insert node ready) rest

theorem Tracked.mono : ∀ {pending : List (String × Bool)} {ready ready' : Set String}, ready ⊆ ready' →
    Tracked self ready pending → Tracked self ready' pending
  | [], _, _, _, _ => trivial
  | (_, _) :: _, _, _, hsub, ⟨hmarked, hrest⟩ =>
    ⟨fun hexpanded parent hparent => hsub (hmarked hexpanded parent hparent),
      Tracked.mono (Set.insert_subset_insert hsub) hrest⟩

theorem Tracked.push {pending : List (String × Bool)} : ∀ {parents : List String} {ready : Set String},
    Tracked self (ready ∪ {node | node ∈ parents}) pending →
    Tracked self ready (parents.map (·, false) ++ pending)
  | [], _, h => by simpa using h
  | parent :: parents, ready, h => by
    refine ⟨fun hexpanded => absurd hexpanded Bool.false_ne_true, Tracked.push (h.mono fun node hnode => ?_)⟩
    rcases hnode with hready | hmem
    · exact .inl (Set.mem_insert_of_mem _ hready)
    · rcases List.mem_cons.mp hmem with rfl | hlater
      · exact .inl (Set.mem_insert _ _)
      · exact .inr hlater

/-- Between two iterations: what is settled leads only to what is settled, the stack is tracked, and the start
    is settled or still pending. -/
structure Tracks (graph : LineageGraphFields) (start : String) (s : Search) : Prop where
  settled : Settled graph.HasParent (s.settled : Set String)
  tracked : Tracked graph s.settled s.pending
  started : start ∈ s.settled ∨ start ∈ s.pending.map Prod.fst

/-- An entry is popped once its node is settled. -/
theorem Tracks.pop {start node : String} {expanded : Bool} {rest : List (String × Bool)} {s next : Search}
    (h : Tracks self start s) (hpending : s.pending = (node, expanded) :: rest)
    (hsettled : Settled self.HasParent (next.settled : Set String)) (hnode : node ∈ next.settled)
    (hkept : s.settled ⊆ next.settled) (hrest : next.pending = rest) : Tracks self start next := by
  obtain ⟨_, htracked, hstarted⟩ := h
  rw [hpending] at htracked hstarted
  refine ⟨hsettled, ?_, ?_⟩
  · rw [hrest]
    refine htracked.2.mono fun other hother => ?_
    rcases Set.mem_insert_iff.mp hother with rfl | hold
    · exact hnode
    · exact hkept hold
  · rcases hstarted with hold | hmem
    · exact .inl (hkept hold)
    · rcases List.mem_cons.mp hmem with rfl | hlater
      · exact .inl hnode
      · exact .inr (hrest ▸ hlater)

/-- An iteration keeps the stack tracked and what is settled settled. -/
theorem Tracks.visit {start : String} {s next : Search} (h : Tracks self start s)
    (hvisit : self.visit s = .ok next) : Tracks self start next ∧ s.settled ⊆ next.settled := by
  obtain ⟨settled, onPath, inPath, pending⟩ := s
  match pending with
  | [] =>
    obtain rfl := Except.ok.inj hvisit
    exact ⟨h, subset_rfl⟩
  | (node, true) :: rest =>
    obtain rfl := Except.ok.inj hvisit
    have hinsert : Settled self.HasParent ((insert node settled : Finset String) : Set String) := by
      rw [Finset.coe_insert]
      exact h.settled.insert (h.tracked.1 rfl)
    exact ⟨h.pop rfl hinsert (Finset.mem_insert_self _ _) (Finset.subset_insert _ _) rfl,
      Finset.subset_insert _ _⟩
  | (node, false) :: rest =>
    rw [visit_entry] at hvisit
    split at hvisit
    · next hsettled =>
      obtain rfl := Except.ok.inj hvisit
      exact ⟨h.pop rfl h.settled hsettled subset_rfl rfl, subset_rfl⟩
    · split at hvisit
      · cases hvisit
      · obtain rfl := Except.ok.inj hvisit
        refine ⟨⟨h.settled, Tracked.push ⟨fun _ parent hparent => ?_, ?_⟩, ?_⟩, subset_rfl⟩
        · exact .inr (List.mem_reverse.mpr hparent)
        · exact h.tracked.2.mono (Set.insert_subset_insert fun other hother => .inl hother)
        · rcases h.started with hold | hmem
          · exact .inl hold
          · rw [List.map_append]
            exact .inr (List.mem_append_right _ hmem)

theorem Tracks.search {start : String} : ∀ (iterations : ℕ) {s final : Search}, Tracks self start s →
    self.search iterations s = .ok final → Tracks self start final ∧ s.settled ⊆ final.settled
  | 0, _, _, h, hfinal => by
    obtain rfl := Except.ok.inj hfinal
    exact ⟨h, subset_rfl⟩
  | iterations + 1, _, _, h, hfinal => by
    rw [LineageGraphFields.search, bind_eq_ok] at hfinal
    obtain ⟨next, hnext, hrest⟩ := hfinal
    obtain ⟨hnextTracks, hkept⟩ := h.visit hnext
    obtain ⟨hfinalTracks, hmore⟩ := hnextTracks.search iterations hrest
    exact ⟨hfinalTracks, hkept.trans hmore⟩

/-- A start is settled, with what was settled before. -/
theorem settled_settle {settled next : Finset String} {start : String}
    (h : Settled self.HasParent (settled : Set String)) (hnext : self.settle settled start = .ok next) :
    Settled self.HasParent (next : Set String) ∧ insert start settled ⊆ next := by
  rw [settle] at hnext
  split at hnext
  · next hmem =>
    obtain rfl := Except.ok.inj hnext
    exact ⟨h, Finset.insert_subset hmem subset_rfl⟩
  · rw [bind_eq_ok] at hnext
    obtain ⟨final, hfinal, hsettled⟩ := hnext
    obtain rfl := Except.ok.inj hsettled
    have hstart : Tracks self start (.start settled start) :=
      ⟨h, ⟨fun hexpanded => absurd hexpanded Bool.false_ne_true, trivial⟩, .inr (List.mem_singleton_self _)⟩
    obtain ⟨htracks, hkept⟩ := hstart.search _ hfinal
    refine ⟨htracks.settled, Finset.insert_subset (htracks.started.resolve_right ?_) hkept⟩
    rw [pending_search le_rfl hfinal]
    exact List.not_mem_nil

theorem settled_foldlM : ∀ {starts : List String} {settled final : Finset String},
    Settled self.HasParent (settled : Set String) → starts.foldlM self.settle settled = .ok final →
    Settled self.HasParent (final : Set String) ∧ settled ⊆ final ∧ ∀ start ∈ starts, start ∈ final
  | [], _, _, h, hfinal => by
    obtain rfl := Except.ok.inj hfinal
    exact ⟨h, subset_rfl, by simp⟩
  | start :: starts, _, _, h, hfinal => by
    rw [List.foldlM_cons, bind_eq_ok] at hfinal
    obtain ⟨next, hnext, hrest⟩ := hfinal
    obtain ⟨hsettled, hstart⟩ := settled_settle h hnext
    obtain ⟨hdone, hkept, hall⟩ := settled_foldlM hsettled hrest
    refine ⟨hdone, (Finset.subset_insert _ _).trans (hstart.trans hkept), ?_⟩
    exact List.forall_mem_cons.mpr ⟨hkept (hstart (Finset.mem_insert_self _ _)), hall⟩

/-- A graph that passes its check has no cycle. -/
theorem acyclic_of_requireAcyclic (h : self.requireAcyclic = .ok ()) : Acyclic self.HasParent := by
  rw [requireAcyclic, bind_eq_ok] at h
  obtain ⟨final, hfinal, -⟩ := h
  have hempty : Settled self.HasParent ((∅ : Finset String) : Set String) := by
    rw [Finset.coe_empty]
    exact .empty
  obtain ⟨hsettled, -, hall⟩ := settled_foldlM hempty hfinal
  intro node hcycle
  obtain ⟨parent, hparent, -⟩ := TransGen.head'_iff.mp hcycle
  exact hsettled.acyclic node (hall node ((mem_sortBy id).mpr (mem_keys_of_hasParent hparent))) hcycle

theorem requireAcyclic_iff : self.requireAcyclic = .ok () ↔ Acyclic self.HasParent :=
  ⟨acyclic_of_requireAcyclic, requireAcyclic_of_acyclic⟩

/-- The check raises exactly on a cycle, and names one. -/
theorem refuses_iff : Refuses self self.requireAcyclic ↔ ¬Acyclic self.HasParent := by
  constructor
  · rintro ⟨cycle, hcycle, -⟩
    exact hcycle.not_acyclic
  · intro hcyclic
    exact (requireAcyclic_cases self).resolve_left fun h => hcyclic (acyclic_of_requireAcyclic h)

end LineageGraphFields

end FinanceKing.Evolution

/-! The walks of the genealogy graph are exact: ancestors with their shortest distances, descendants at any
    depth, and the edge that would close a loop. -/

namespace FinanceKing.Evolution

open Lib Relation

namespace LineageGraphFields

variable (self : LineageGraphFields)

/-! ### The code -/

def childrenOf (genomeHash : String) : List String :=
  sortBy id ((self.parentsOf.entries.filter fun entry => genomeHash ∈ entry.2).map Prod.fst)

variable {self}

theorem mem_childrenOf {genomeHash child : String} :
    child ∈ self.childrenOf genomeHash ↔ self.HasParent child genomeHash := by
  rw [childrenOf, mem_sortBy, List.mem_map]
  constructor
  · rintro ⟨⟨_, declared⟩, hentry, rfl⟩
    obtain ⟨hmem, hparent⟩ := List.mem_filter.mp hentry
    rw [HasParent, parents, (Dict.get?_eq_some_iff _ _ _).mpr hmem]
    exact of_decide_eq_true hparent
  · intro hparent
    have hkey := (Dict.mem_keys_iff _ _).mp (mem_keys_of_hasParent hparent)
    obtain ⟨declared, hget⟩ := Option.isSome_iff_exists.mp hkey
    rw [HasParent, parents, hget] at hparent
    exact ⟨(child, declared), List.mem_filter.mpr ⟨(Dict.get?_eq_some_iff _ _ _).mp hget,
      decide_eq_true hparent⟩, rfl⟩

/-- A child met for the first time is found, and goes on top of the stack. -/
def discover (walked : Finset String × List String) (child : String) : Finset String × List String :=
  if child ∈ walked.1 then walked else (insert child walked.1, child :: walked.2)

theorem discover_foldl : ∀ (children : List String) (walked : Finset String × List String),
    (∀ node, node ∈ (children.foldl discover walked).1 ↔ node ∈ walked.1 ∨ node ∈ children) ∧
      ∀ node, node ∈ (children.foldl discover walked).2 ↔
        node ∈ walked.2 ∨ (node ∈ children ∧ node ∉ walked.1)
  | [], walked => by simp
  | child :: children, walked => by
    obtain ⟨hfound, hpending⟩ := discover_foldl children (discover walked child)
    rw [List.foldl_cons]
    by_cases hold : child ∈ walked.1
    · have hsame : discover walked child = walked := if_pos hold
      rw [hsame] at hfound hpending ⊢
      refine ⟨fun node => ?_, fun node => ?_⟩
      · rw [hfound, List.mem_cons]
        by_cases hnode : node = child <;> simp [hnode, hold]
      · rw [hpending, List.mem_cons]
        by_cases hnode : node = child <;> simp [hnode, hold]
    · have hnew : discover walked child = (insert child walked.1, child :: walked.2) := if_neg hold
      rw [hnew] at hfound hpending ⊢
      refine ⟨fun node => ?_, fun node => ?_⟩
      · rw [hfound, Finset.mem_insert, List.mem_cons]
        tauto
      · rw [hpending, List.mem_cons, Finset.mem_insert, List.mem_cons]
        by_cases hnode : node = child
        · simp [hnode, hold]
        · simp [hnode]

/-- The genomes still to find and those still to expand; a child that is found moves from the one to the other. -/
theorem left_discover_foldl {keys : Finset String} : ∀ {children : List String}
    {walked : Finset String × List String}, (∀ child ∈ children, child ∈ keys) →
    (children.foldl discover walked).2.length + (keys \ (children.foldl discover walked).1).card =
      walked.2.length + (keys \ walked.1).card
  | [], _, _ => rfl
  | child :: children, walked, hkeys => by
    obtain ⟨hchild, hrest⟩ := List.forall_mem_cons.mp hkeys
    rw [List.foldl_cons, left_discover_foldl hrest, discover]
    split
    · rfl
    · next hnew =>
      have hmem : child ∈ keys \ walked.1 := Finset.mem_sdiff.mpr ⟨hchild, hnew⟩
      have hcard : (keys \ insert child walked.1).card + 1 = (keys \ walked.1).card := by
        rw [Finset.sdiff_insert, Finset.card_erase_add_one hmem]
      dsimp only
      rw [← hcard, List.length_cons]
      omega

variable (self)

theorem left_childrenOf (found : Finset String) (node : String) (rest : List String) :
    ((self.childrenOf node).foldl discover (found, rest)).2.length +
        (self.parentsOf.keys.toFinset \ ((self.childrenOf node).foldl discover (found, rest)).1).card <
      (node :: rest).length + (self.parentsOf.keys.toFinset \ found).card := by
  rw [left_discover_foldl fun child hchild =>
    List.mem_toFinset.mpr (mem_keys_of_hasParent (mem_childrenOf.mp hchild)), List.length_cons]
  dsimp only
  omega

/-- `while pending`: pop a genome, and push the children not found before. -/
def descendantsFrom (found : Finset String) (pending : List String) : Finset String :=
  match pending with
  | [] => found
  | node :: rest =>
    let walked := (self.childrenOf node).foldl discover (found, rest)
    descendantsFrom walked.1 walked.2
termination_by pending.length + (self.parentsOf.keys.toFinset \ found).card
decreasing_by exact self.left_childrenOf found node rest

/-- Everything downstream, at unbounded depth. -/
def descendantsOf (genomeHash : String) : Finset String := self.descendantsFrom ∅ [genomeHash]

/-- The graph with one more parent declared, after the others of the child. -/
def declareParent (child parent : String) : LineageGraphFields :=
  ⟨self.parentsOf.set child (self.parents child ++ [parent])⟩

end LineageGraphFields

/-- `LineageGraph(parents_of=…)`. -/
def lineageGraph (fields : LineageGraphFields) : PyResult LineageGraph :=
  construct LineageGraphFields.requireAcyclic LineageGraph.mk fields

/-! ### Descendants -/

namespace LineageGraphFields

variable {self : LineageGraphFields}

/-- Between two iterations: what is found is downstream of the root, what is pending is the root or found, and
    the children of what is neither pending nor unknown are found. -/
structure Descending (graph : LineageGraphFields) (root : String) (found : Finset String)
    (pending : List String) : Prop where
  sound : ∀ node ∈ found, TransGen graph.HasParent node root
  known : ∀ node ∈ pending, node = root ∨ node ∈ found
  closed : ∀ node, node = root ∨ node ∈ found → node ∈ pending ∨
    ∀ child, graph.HasParent child node → child ∈ found

theorem Descending.step {root node : String} {found : Finset String} {rest : List String}
    (h : Descending self root found (node :: rest)) :
    Descending self root ((self.childrenOf node).foldl discover (found, rest)).1
      ((self.childrenOf node).foldl discover (found, rest)).2 := by
  obtain ⟨hfound, hpending⟩ := discover_foldl (self.childrenOf node) (found, rest)
  simp only [mem_childrenOf] at hfound hpending
  refine ⟨fun child hchild => ?_, fun child hchild => ?_, fun other hother => ?_⟩
  · rcases (hfound child).mp hchild with hold | hparent
    · exact h.sound child hold
    · rcases h.known node List.mem_cons_self with rfl | hnode
      · exact .single hparent
      · exact .head hparent (h.sound node hnode)
  · rcases (hpending child).mp hchild with hrest | ⟨hparent, -⟩
    · exact (h.known child (List.mem_cons_of_mem _ hrest)).imp_right fun hold => (hfound child).mpr (.inl hold)
    · exact .inr ((hfound child).mpr (.inr hparent))
  · by_cases hnode : other = node
    · exact .inr fun child hparent => (hfound child).mpr (.inr (hnode ▸ hparent))
    · have hbefore : other ∈ node :: rest ∨ (∀ child, self.HasParent child other → child ∈ found) ∨
          (self.HasParent other node ∧ other ∉ found) := by
        rcases hother with hroot | hmem
        · exact (h.closed other (.inl hroot)).imp_right .inl
        · by_cases hold : other ∈ found
          · exact (h.closed other (.inr hold)).imp_right .inl
          · exact .inr (.inr ⟨((hfound other).mp hmem).resolve_left hold, hold⟩)
      rcases hbefore with hmem | hclosed | hnew
      · exact .inl ((hpending other).mpr (.inl ((List.mem_cons.mp hmem).resolve_left hnode)))
      · exact .inr fun child hparent => (hfound child).mpr (.inl (hclosed child hparent))
      · exact .inl ((hpending other).mpr (.inr hnew))

theorem Descending.run {root : String} (found : Finset String) (pending : List String)
    (h : Descending self root found pending) :
    Descending self root (self.descendantsFrom found pending) [] := by
  induction found, pending using descendantsFrom.induct self with
  | case1 found =>
    rw [descendantsFrom]
    exact h
  | case2 found node rest walked ih =>
    rw [descendantsFrom]
    exact ih h.step

/-- The walk downstream finds what has the genome among its ancestors. -/
theorem mem_descendantsOf {genomeHash node : String} :
    node ∈ self.descendantsOf genomeHash ↔ TransGen self.HasParent node genomeHash := by
  have hstart : Descending self genomeHash ∅ [genomeHash] :=
    ⟨by simp, fun node hnode => .inl (List.mem_singleton.mp hnode), fun node hnode => .inl (by simpa using hnode)⟩
  have hdone := hstart.run
  constructor
  · exact hdone.sound node
  · intro hpath
    induction hpath using TransGen.head_induction_on with
    | single hstep => exact ((hdone.closed _ (.inl rfl)).resolve_left List.not_mem_nil) _ hstep
    | head hstep _ ih => exact ((hdone.closed _ (.inr ih)).resolve_left List.not_mem_nil) _ hstep

/-! ### Ancestors -/

/-- What is reached keeps its distance, and a parent met for the first time has this one. -/
theorem get?_reach_foldl (distance : ℤ) (node : String) : ∀ (parents : List String)
    (walked : Dict String ℤ × List String), (parents.foldl (reach distance) walked).1.get? node =
      (walked.1.get? node).or (if node ∈ parents then some distance else none)
  | [], walked => by simp
  | parent :: parents, walked => by
    rw [List.foldl_cons, get?_reach_foldl distance node parents, reach]
    split
    · next hold =>
      by_cases hnode : node = parent
      · subst hnode
        obtain ⟨d, hd⟩ := Option.isSome_iff_exists.mp hold
        simp [hd]
      · simp [hnode]
    · next hnew =>
      rw [Dict.get?_set]
      by_cases hnode : node = parent
      · subst hnode
        have hnone : walked.1.get? node = none := by simpa using hnew
        simp [hnone]
      · simp [hnode]

/-- After a generation: the distances found are the shortest, as far as this layer, and the frontier is it. -/
structure Layered (graph : LineageGraphFields) (source : String) (layer : ℕ) (reached : Dict String ℤ)
    (frontier : List String) : Prop where
  distances : ∀ (node : String) (distance : ℤ), reached.get? node = some distance ↔
    ∃ k ≤ layer, distance = k ∧ AtDistance graph.HasParent k source node
  frontier : ∀ node, node ∈ frontier ↔ AtDistance graph.HasParent layer source node

theorem Layered.mem_keys {source node : String} {layer : ℕ} {reached : Dict String ℤ}
    {frontier : List String} (h : Layered self source layer reached frontier) :
    node ∈ reached.keys ↔ ∃ k ≤ layer, AtDistance self.HasParent k source node := by
  rw [Dict.mem_keys_iff, Option.isSome_iff_exists]
  constructor
  · rintro ⟨distance, hget⟩
    obtain ⟨k, hk, -, hat⟩ := (h.distances node distance).mp hget
    exact ⟨k, hk, hat⟩
  · rintro ⟨k, hk, hat⟩
    exact ⟨k, (h.distances node k).mpr ⟨k, hk, rfl, hat⟩⟩

/-- A generation walks one layer. -/
theorem Layered.step {source : String} {layer : ℕ} {reached : Dict String ℤ} {frontier : List String}
    (h : Layered self source layer reached frontier) :
    Layered self source (layer + 1)
      ((frontier.flatMap self.parents).foldl (reach (layer + 1)) (reached, [])).1
      ((frontier.flatMap self.parents).foldl (reach (layer + 1)) (reached, [])).2 := by
  have hnext : ∀ node, (node ∈ frontier.flatMap self.parents ∧ node ∉ reached.keys) ↔
      AtDistance self.HasParent (layer + 1) source node := by
    intro node
    rw [atDistance_succ_iff, h.mem_keys, List.mem_flatMap]
    simp only [h.frontier, HasParent, not_exists, not_and]
  refine ⟨fun node distance => ?_, fun node => ?_⟩
  · rw [get?_reach_foldl]
    cases hget : reached.get? node with
    | some d =>
      obtain ⟨k, hk, rfl, hat⟩ := (h.distances node d).mp hget
      rw [Option.some_or, Option.some_inj]
      constructor
      · rintro rfl
        exact ⟨k, Nat.le_succ_of_le hk, rfl, hat⟩
      · rintro ⟨j, -, rfl, hat'⟩
        exact congrArg Nat.cast (hat.unique hat')
    | none =>
      have hfresh : node ∉ reached.keys := by simp [Dict.mem_keys_iff, hget]
      rw [Option.none_or, Option.ite_none_right_eq_some, Option.some_inj]
      constructor
      · rintro ⟨hmem, rfl⟩
        exact ⟨layer + 1, le_rfl, by push_cast; rfl, (hnext node).mp ⟨hmem, hfresh⟩⟩
      · rintro ⟨k, hk, rfl, hat⟩
        have hlayer : k = layer + 1 := by
          refine le_antisymm hk (not_lt.mp fun hlt => hfresh (h.mem_keys.mpr ⟨k, ?_, hat⟩))
          exact Nat.le_of_lt_succ hlt
        subst hlayer
        exact ⟨((hnext node).mpr hat).1, by push_cast; rfl⟩
  · rw [(reach_foldl _ _ _).2, ← hnext]
    simp

theorem get?_walkGenerations {source : String} : ∀ (generations : ℕ) {layer : ℕ} {reached : Dict String ℤ}
    {frontier : List String}, Layered self source layer reached frontier →
    ∀ (node : String) (distance : ℤ),
      (self.walkGenerations generations (layer + 1) reached frontier).get? node = some distance ↔
        ∃ k ≤ layer + generations, distance = k ∧ AtDistance self.HasParent k source node
  | 0, _, _, _, h, node, distance => h.distances node distance
  | generations + 1, layer, reached, frontier, h, node, distance => by
    have hstep := h.step
    rw [walkGenerations]
    generalize (frontier.flatMap self.parents).foldl (reach (layer + 1)) (reached, []) = walked at hstep ⊢
    obtain ⟨next, nextFrontier⟩ := walked
    dsimp only at hstep ⊢
    split
    · next hempty =>
      -- an empty layer ends the walk, and nothing lies past it
      have hlayer : ∀ other, ¬AtDistance self.HasParent (layer + 1) source other := fun other hother =>
        absurd ((hstep.frontier other).mpr hother) (hempty ▸ List.not_mem_nil)
      rw [hstep.distances]
      constructor
      · rintro ⟨k, hk, hdistance⟩
        exact ⟨k, by omega, hdistance⟩
      · rintro ⟨k, -, rfl, hat⟩
        exact ⟨k, not_lt.mp fun hlt => not_atDistance_of_le hlayer hlt.le node hat, rfl, hat⟩
    · have hrest := get?_walkGenerations generations hstep node distance
      rw [Nat.cast_succ] at hrest
      rw [hrest, Nat.add_right_comm, Nat.add_assoc]

/-- The ancestors within so many generations are the genomes at most so far off, with their distances. -/
theorem get?_ancestorsWithin (genomeHash : String) (generations : ℕ) :
    ∃ ancestors, self.ancestorsWithin genomeHash generations = .ok ancestors ∧
      ∀ (node : String) (distance : ℤ), ancestors.get? node = some distance ↔
        ∃ k ≤ generations, distance = k ∧ AtDistance self.HasParent k genomeHash node := by
  have hstart : Layered self genomeHash 0 (Dict.empty.set genomeHash 0) [genomeHash] := by
    refine ⟨fun node distance => ?_, fun node => ?_⟩
    · rw [Dict.get?_set]
      simp only [Dict.get?_empty, Option.ite_none_right_eq_some, Nat.le_zero, exists_eq_left, atDistance_zero,
        Nat.cast_zero, Option.some_inj]
      tauto
    · rw [List.mem_singleton, atDistance_zero]
  refine ⟨_, bind_eq_ok.mpr ⟨(), raiseIf_eq_ok.mpr (not_lt.mpr (Int.natCast_nonneg _)), rfl⟩,
    fun node distance => ?_⟩
  have hwalk := get?_walkGenerations generations hstart node distance
  rw [Nat.zero_add, Nat.cast_zero, zero_add] at hwalk
  exact hwalk

/-! ### One more edge -/

theorem hasParent_declareParent {child parent other ancestor : String} :
    (self.declareParent child parent).HasParent other ancestor ↔
      self.HasParent other ancestor ∨ (other = child ∧ ancestor = parent) := by
  rw [HasParent, parents, declareParent, Dict.get?_set]
  by_cases hother : other = child
  · subst hother
    rw [if_pos rfl, Option.getD_some, List.mem_append, List.mem_singleton, HasParent]
    simp
  · rw [if_neg hother, HasParent, parents]
    simp [hother]

/-- A new edge closes a loop exactly when its parent reaches its child. -/
theorem acyclic_declareParent_iff (h : Acyclic self.HasParent) {child parent : String} :
    Acyclic (self.declareParent child parent).HasParent ↔ ¬ReflTransGen self.HasParent parent child := by
  constructor
  · intro hacyclic hreaches
    have hkept : ReflTransGen (self.declareParent child parent).HasParent parent child :=
      hreaches.lift id fun _ _ hedge => hasParent_declareParent.mpr (.inl hedge)
    exact hacyclic child (TransGen.head' (hasParent_declareParent.mpr (.inr ⟨rfl, rfl⟩)) hkept)
  · intro hnot
    have hedges : ∀ other ancestor, (self.declareParent child parent).HasParent other ancestor →
        self.HasParent other ancestor ∨ (other = child ∧ ¬ReflTransGen self.HasParent ancestor child) := by
      intro other ancestor hedge
      refine (hasParent_declareParent.mp hedge).imp_right ?_
      rintro ⟨rfl, rfl⟩
      exact ⟨rfl, hnot⟩
    exact h.add_outgoing hedges

/-- The question asked before an edge is stored is answered, and rightly. -/
theorem wouldCreateCycle_eq (child parent : String) : ∃ closes : Bool,
    self.wouldCreateCycle child parent = .ok closes ∧
      (closes = true ↔ ReflTransGen self.HasParent parent child) := by
  by_cases heq : child = parent
  · exact ⟨true, if_pos heq, by simp [heq, ReflTransGen.refl]⟩
  · obtain ⟨ancestors, hancestors, hexact⟩ :=
      self.get?_ancestorsWithin parent (self.parentsOf.keys.length + 1)
    have hanswer : self.wouldCreateCycle child parent = .ok (ancestors.get? child).isSome := by
      rw [wouldCreateCycle, if_neg heq]
      rw [Nat.cast_succ] at hancestors
      rw [hancestors]
      rfl
    refine ⟨_, hanswer, ?_⟩
    constructor
    · intro hsome
      obtain ⟨distance, hget⟩ := Option.isSome_iff_exists.mp hsome
      obtain ⟨k, -, -, hat⟩ := (hexact child distance).mp hget
      exact reflTransGen_iff_atDistance.mpr ⟨k, hat⟩
    · intro hreaches
      by_contra hnone
      rw [Bool.not_eq_true] at hnone
      exact not_reaches_of_wouldCreateCycle (hnone ▸ hanswer) hreaches

end LineageGraphFields

/-! ### The graph as a whole -/

/-- Construction decides: a search that does not raise runs until nothing is pending, a graph is built exactly
    without a cycle, and what is raised otherwise names one. -/
structure ConstructionDecides (fields : LineageGraphFields) : Prop where
  terminates : ∀ settled start final,
    fields.search (fields.work (.start settled start)) (.start settled start) = .ok final → final.pending = []
  builds : (∃ graph, lineageGraph fields = .ok graph ∧ graph.toLineageGraphFields = fields) ↔
    Acyclic fields.HasParent
  refuses : (∃ cycle, IsCycle fields.HasParent cycle ∧
    lineageGraph fields = raise .lineageCycle ["the lineage graph holds a cycle: ", .texts cycle]) ↔
      ¬Acyclic fields.HasParent

/-- The walks of a graph answer for the relation itself. -/
structure WalksExact (graph : LineageGraph) : Prop where
  ancestors : ∀ (genomeHash : String) (generations : ℕ), ∃ ancestors,
    graph.ancestorsWithin genomeHash generations = .ok ancestors ∧
      ∀ (node : String) (distance : ℤ), ancestors.get? node = some distance ↔
        ∃ k ≤ generations, distance = k ∧ AtDistance graph.HasParent k genomeHash node
  descendants : ∀ genomeHash node,
    node ∈ graph.descendantsOf genomeHash ↔ TransGen graph.HasParent node genomeHash
  closes : ∀ child parent, ∃ closes, graph.wouldCreateCycle child parent = .ok closes ∧
    (closes = true ↔ ∃ cycle, lineageGraph (graph.declareParent child parent) =
      raise .lineageCycle ["the lineage graph holds a cycle: ", .texts cycle])

theorem lineageGraph_eq_error {fields : LineageGraphFields} {e : PyError} :
    lineageGraph fields = .error e ↔ fields.requireAcyclic = .error e := by
  refine ⟨fun h => ?_, construct_error⟩
  cases hcheck : fields.requireAcyclic with
  | ok =>
    rw [lineageGraph, construct_ok hcheck] at h
    cases h
  | error raised =>
    rw [lineageGraph, construct_error hcheck] at h
    cases h
    rfl

theorem constructionDecides (fields : LineageGraphFields) : ConstructionDecides fields := by
  refine ⟨fun settled start final => LineageGraphFields.pending_search le_rfl, ?_, ?_⟩
  · rw [← LineageGraphFields.requireAcyclic_iff]
    constructor
    · rintro ⟨graph, hbuilt, rfl⟩
      exact graph.checked
    · intro hpassed
      exact ⟨⟨fields, hpassed⟩, construct_ok hpassed, rfl⟩
  · rw [← LineageGraphFields.refuses_iff]
    exact exists_congr fun cycle => and_congr_right fun _ => lineageGraph_eq_error

theorem walksExact (graph : LineageGraph) : WalksExact graph := by
  have hacyclic : Acyclic graph.HasParent := LineageGraphFields.acyclic_of_requireAcyclic graph.checked
  refine ⟨LineageGraphFields.get?_ancestorsWithin, fun _ _ => LineageGraphFields.mem_descendantsOf,
    fun child parent => ?_⟩
  obtain ⟨closes, hanswer, hreaches⟩ :=
    graph.toLineageGraphFields.wouldCreateCycle_eq child parent
  refine ⟨closes, hanswer, hreaches.trans ?_⟩
  have hdecided := constructionDecides (graph.declareParent child parent)
  rw [← not_iff_not, ← LineageGraphFields.acyclic_declareParent_iff hacyclic]
  constructor
  · rintro hkept ⟨cycle, hraised⟩
    obtain ⟨built, hbuilt, -⟩ := hdecided.builds.mpr hkept
    rw [hraised] at hbuilt
    cases hbuilt
  · intro hnever
    by_contra hcyclic
    obtain ⟨cycle, -, hraised⟩ := hdecided.refuses.mpr hcyclic
    exact hnever ⟨cycle, hraised⟩

/-- The algorithms of the lineage graph are exact: its construction, and every walk of a graph built. -/
theorem lineage_algorithms_exact : (∀ fields, ConstructionDecides fields) ∧ ∀ graph, WalksExact graph :=
  ⟨constructionDecides, walksExact⟩

end FinanceKing.Evolution
