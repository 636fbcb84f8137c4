import Mathlib.Data.Finite.Sum
import Mathlib.Data.Fintype.Pigeonhole
import Mathlib.Data.Nat.Find
import Mathlib.Data.Set.Finite.Basic
import Mathlib.Logic.Relation

/-! Directed graphs without a cycle: what a vertex may gain without closing one, and why no walk in one
    goes on for ever. -/

namespace Lib

open Relation

section Digraph

variable {α : Type} {edge larger : α → α → Prop}

/-- No vertex reaches itself. -/
def Acyclic (edge : α → α → Prop) : Prop := ∀ a, ¬TransGen edge a a

/-- A path of one edge or more that ends where it starts. -/
def IsCycle (edge : α → α → Prop) (path : List α) : Prop :=
  path.IsChain edge ∧ ∃ a between, path = a :: (between ++ [a])

theorem transGen_of_isChain : ∀ {between : List α} {a b : α},
    (a :: (between ++ [b])).IsChain edge → TransGen edge a b
  | [], _, _, h => .single (List.isChain_pair.mp h)
  | c :: between, a, b, h => by
    obtain ⟨hstep, hrest⟩ := List.isChain_cons_cons.mp h
    exact .head hstep (transGen_of_isChain hrest)

theorem IsCycle.not_acyclic {path : List α} (h : IsCycle edge path) : ¬Acyclic edge := by
  obtain ⟨hchain, a, between, rfl⟩ := h
  exact fun hacyclic => hacyclic a (transGen_of_isChain hchain)

/-- Vertices that lead only to one another, and to themselves by no path. -/
structure Settled (edge : α → α → Prop) (settled : Set α) : Prop where
  closed : ∀ a ∈ settled, ∀ b, edge a b → b ∈ settled
  acyclic : ∀ a ∈ settled, ¬TransGen edge a a

theorem Settled.empty : Settled edge ∅ :=
  ⟨fun _ h => absurd h (Set.notMem_empty _), fun _ h => absurd h (Set.notMem_empty _)⟩

/-- A vertex whose successors are settled may be settled. -/
theorem Settled.insert {settled : Set α} (h : Settled edge settled) {a : α}
    (ha : ∀ b, edge a b → b ∈ settled) : Settled edge (insert a settled) := by
  have hpath : ∀ b, TransGen edge a b → b ∈ settled := by
    intro b hpath
    induction hpath with
    | single hstep => exact ha _ hstep
    | tail _ hstep ih => exact h.closed _ ih _ hstep
  refine ⟨fun b hb c hstep => ?_, fun b hb hcycle => ?_⟩
  · rcases Set.mem_insert_iff.mp hb with rfl | hb
    · exact Set.mem_insert_of_mem _ (ha c hstep)
    · exact Set.mem_insert_of_mem _ (h.closed b hb c hstep)
  · rcases Set.mem_insert_iff.mp hb with rfl | hb
    · exact h.acyclic b (hpath b hcycle) hcycle
    · exact h.acyclic b hb hcycle

/-- Edges out of one vertex shorten no path to it. -/
theorem reaches_source {source : α} (hlarger : ∀ a b, larger a b → edge a b ∨ a = source) {a : α}
    (h : ReflTransGen larger a source) : ReflTransGen edge a source := by
  induction h using ReflTransGen.head_induction_on with
  | refl => exact .refl
  | head hstep _ ih =>
    rcases hlarger _ _ hstep with hedge | rfl
    · exact .head hedge ih
    · exact .refl

/-- A vertex may gain edges to vertices that do not reach it. -/
theorem Acyclic.add_outgoing (h : Acyclic edge) {source : α}
    (hlarger : ∀ a b, larger a b → edge a b ∨ (a = source ∧ ¬ReflTransGen edge b source)) :
    Acyclic larger := by
  have hsource : ∀ a b, larger a b → edge a b ∨ a = source := fun a b hab =>
    (hlarger a b hab).imp_right And.left
  have hsplit : ∀ {a b}, TransGen larger a b → TransGen edge a b ∨
      (ReflTransGen larger a source ∧ ∃ c, ¬ReflTransGen edge c source ∧ ReflTransGen edge c b) := by
    intro a b hpath
    induction hpath with
    | single hstep =>
      rcases hlarger _ _ hstep with hedge | ⟨rfl, hnot⟩
      · exact .inl (.single hedge)
      · exact .inr ⟨.refl, _, hnot, .refl⟩
    | tail hbefore hstep ih =>
      rcases hlarger _ _ hstep with hedge | ⟨rfl, hnot⟩
      · rcases ih with hold | ⟨hto, c, hnot, hfrom⟩
        · exact .inl (hold.tail hedge)
        · exact .inr ⟨hto, c, hnot, hfrom.tail hedge⟩
      · exact .inr ⟨hbefore.to_reflTransGen, _, hnot, .refl⟩
  intro a hcycle
  rcases hsplit hcycle with hold | ⟨hto, c, hnot, hfrom⟩
  · exact h a hold
  · exact hnot (hfrom.trans (reaches_source hsource hto))

theorem transGen_walk {walk : ℕ → α} (h : ∀ n, edge (walk n) (walk (n + 1))) (n k : ℕ) :
    TransGen edge (walk n) (walk (n + k + 1)) := by
  induction k with
  | zero => exact .single (h n)
  | succ k ih => exact ih.tail (h (n + k + 1))

/-- No walk goes on for ever where there is no cycle and only finitely many vertices are entered. -/
theorem Acyclic.no_endless_walk (h : Acyclic edge) {entered : List α}
    (hentered : ∀ a b, edge a b → b ∈ entered) : ¬∃ walk : ℕ → α, ∀ n, edge (walk n) (walk (n + 1)) := by
  rintro ⟨walk, hwalk⟩
  have hfinite : Finite {a // a ∈ entered} := List.finite_toSet entered
  obtain ⟨m, n, hne, heq⟩ := Finite.exists_ne_map_eq_of_infinite
    fun n => (⟨walk (n + 1), hentered _ _ (hwalk n)⟩ : {a // a ∈ entered})
  have hsame : walk (m + 1) = walk (n + 1) := congrArg Subtype.val heq
  rcases lt_or_gt_of_ne hne with hlt | hlt
  · refine h (walk (m + 1)) ?_
    have hpath := transGen_walk hwalk (m + 1) (n - m - 1)
    rwa [show m + 1 + (n - m - 1) + 1 = n + 1 by omega, ← hsame] at hpath
  · refine h (walk (n + 1)) ?_
    have hpath := transGen_walk hwalk (n + 1) (m - n - 1)
    rwa [show n + 1 + (m - n - 1) + 1 = m + 1 by omega, hsame] at hpath

end Digraph

end Lib

/-! Distances in a directed graph, and the layers of vertices that they cut it into. -/

namespace Lib

open Relation

section Distance

variable {α : Type} {edge : α → α → Prop} {a b c : α}

/-- A path of so many edges. -/
inductive Steps (edge : α → α → Prop) : ℕ → α → α → Prop where
  | refl (a : α) : Steps edge 0 a a
  | tail {n : ℕ} {a b c : α} (path : Steps edge n a b) (step : edge b c) : Steps edge (n + 1) a c

/-- The shortest path has so many edges. -/
def AtDistance (edge : α → α → Prop) (k : ℕ) (a b : α) : Prop :=
  Steps edge k a b ∧ ∀ j < k, ¬Steps edge j a b

theorem reflTransGen_iff_steps : ReflTransGen edge a b ↔ ∃ n, Steps edge n a b := by
  constructor
  · intro h
    induction h with
    | refl => exact ⟨0, .refl a⟩
    | tail _ hstep ih =>
      obtain ⟨n, hpath⟩ := ih
      exact ⟨n + 1, .tail hpath hstep⟩
  · rintro ⟨n, hpath⟩
    induction hpath with
    | refl a => exact .refl
    | tail _ hstep ih => exact .tail ih hstep

theorem Steps.exists_atDistance {n : ℕ} (h : Steps edge n a b) : ∃ k ≤ n, AtDistance edge k a b := by
  classical
  have hsome : ∃ k, Steps edge k a b := ⟨n, h⟩
  exact ⟨Nat.find hsome, Nat.find_le h, Nat.find_spec hsome, fun j hj => Nat.find_min hsome hj⟩

theorem reflTransGen_iff_atDistance : ReflTransGen edge a b ↔ ∃ k, AtDistance edge k a b := by
  rw [reflTransGen_iff_steps]
  constructor
  · rintro ⟨n, hpath⟩
    obtain ⟨k, -, hk⟩ := hpath.exists_atDistance
    exact ⟨k, hk⟩
  · rintro ⟨k, hk⟩
    exact ⟨k, hk.1⟩

theorem AtDistance.unique {j k : ℕ} (hj : AtDistance edge j a b) (hk : AtDistance edge k a b) : j = k :=
  le_antisymm (not_lt.mp fun h => hj.2 k h hk.1) (not_lt.mp fun h => hk.2 j h hj.1)

theorem atDistance_zero : AtDistance edge 0 a b ↔ b = a := by
  constructor
  · rintro ⟨hpath, -⟩
    cases hpath
    rfl
  · rintro rfl
    exact ⟨.refl b, fun j hj => absurd hj (Nat.not_lt_zero j)⟩

/-- The next layer: what an edge leads to from this one and no layer so far holds. -/
theorem atDistance_succ_iff {k : ℕ} : AtDistance edge (k + 1) a c ↔
    (∃ b, AtDistance edge k a b ∧ edge b c) ∧ ∀ j ≤ k, ¬AtDistance edge j a c := by
  constructor
  · rintro ⟨hpath, hshortest⟩
    refine ⟨?_, fun j hj hat => hshortest j (Nat.lt_succ_of_le hj) hat.1⟩
    cases hpath with
    | tail hpath hstep =>
      exact ⟨_, ⟨hpath, fun j hj hshorter => hshortest (j + 1) (Nat.succ_lt_succ hj) (hshorter.tail hstep)⟩,
        hstep⟩
  · rintro ⟨⟨b, hb, hstep⟩, hfar⟩
    refine ⟨hb.1.tail hstep, fun j hj hshorter => ?_⟩
    obtain ⟨i, hi, hat⟩ := hshorter.exists_atDistance
    exact hfar i (le_trans hi (Nat.le_of_lt_succ hj)) hat

/-- Past an empty layer every layer is empty. -/
theorem not_atDistance_of_le {k : ℕ} (hempty : ∀ b, ¬AtDistance edge k a b) {j : ℕ} (hle : k ≤ j) :
    ∀ b, ¬AtDistance edge j a b := by
  induction j, hle using Nat.le_induction with
  | base => exact hempty
  | succ j _ ih =>
    intro c hc
    obtain ⟨⟨b, hb, -⟩, -⟩ := atDistance_succ_iff.mp hc
    exact ih b hb

end Distance

end Lib
