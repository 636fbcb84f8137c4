import FinanceKing.Evolution.GenomeIdentity
import FinanceKing.Evolution.Lineage

/-! The genealogy table under concurrent recordings: each transaction checks its parents against the edges it
    reads, then inserts the genome and one edge at a time, and commits. -/

namespace FinanceKing.Evolution

open Lib Relation

/-- A genome and what its digest leaves out. -/
structure GenomeRecord where
  genome : Genome
  generationNumber : ℤ
  trialIndexAtCreation : ℤ
  parentGenomeHashes : List String
  createdAtUtc : DateTime

/-- A row of `genome_parent`; a `BYTEA` is read as its lower-case hexadecimal text. -/
structure ParentEdge where
  child : String
  parent : String
  ordinal : ℤ
  deriving DecidableEq

/-! ### Reading the graph -/

/-- One row of `_load_lineage_graph`'s loop. -/
def groupParent (parentsOf : Dict String (List String)) (row : ParentEdge) : Dict String (List String) :=
  parentsOf.set row.child ((parentsOf.get? row.child).getD [] ++ [row.parent])

/-- The rows by child and ordinal, grouped by child. -/
def lineageFields (edges : List ParentEdge) : LineageGraphFields :=
  ⟨(sortBy (fun row => toLex (row.child, row.ordinal)) edges).foldl groupParent Dict.empty⟩

/-- `_load_lineage_graph`. -/
def loadLineageGraph (edges : List ParentEdge) : PyResult LineageGraph :=
  construct LineageGraphFields.requireAcyclic LineageGraph.mk (lineageFields edges)

/-- What `_record_genome` checks before its first insert. -/
def requireNoCycle (edges : List ParentEdge) (child : String) (parents : List String) : PyResult Unit :=
  if parents = [] then pure ()
  else do
    let graph ← loadLineageGraph edges
    parents.forM fun parent => do
      let closes ← graph.wouldCreateCycle child parent
      raiseIf closes .lineageCycle
        ["declaring ", .text parent, " a parent of ", .text child, " would close a cycle; ", .text child,
          " is already upstream of it"]

/-! ### The store and its transactions -/

/-- An open transaction: its genome's hash, the parents still to insert once the genome is, and the rows
    it has written. -/
structure Recording where
  record : GenomeRecord
  child : String
  remaining : Option (List (String × ℕ))
  genomes : List String
  edges : List ParentEdge

structure Genealogy where
  genomes : List String
  edges : List ParentEdge
  recordings : Dict ℕ Recording

inductive RecordingAction where
  | check (tx : ℕ) (record : GenomeRecord)
  | insertGenome (tx : ℕ)
  | insertParent (tx : ℕ)
  | commit (tx : ℕ)
  | rollback (tx : ℕ)

def isHexDigit (c : Char) : Bool := c.isDigit || ('a' ≤ c && c ≤ 'f') || ('A' ≤ c && c ≤ 'F')

/-- The whitespace `bytes.fromhex` skips. -/
def isAsciiSpace (c : Char) : Bool := c.toNat = 32 ∨ (9 ≤ c.toNat ∧ c.toNat ≤ 13)

/-- `bytes.fromhex`, as the text `hex()` gives back: whitespace between bytes is skipped. -/
def fromHex : List Char → Option (List Char)
  | [] => some []
  | c :: rest =>
    if isAsciiSpace c then fromHex rest
    else
      match rest with
      | [] => none
      | d :: rest =>
        if isHexDigit c ∧ isHexDigit d then (fromHex rest).map (c.toLower :: d.toLower :: ·) else none

def hashColumn (text : String) : Option String := (fromHex text.toList).map String.ofList

/-- A SHA-256 digest has 32 bytes. -/
def sha256HexLength : ℕ := 64

def smallintLimit : ℤ := 2 ^ 15

/-- The column checks of `genome` that the record does not meet by construction. -/
def GenomeRecord.storable (record : GenomeRecord) : Bool :=
  0 ≤ record.generationNumber ∧ record.generationNumber < 2 ^ 31 ∧
    0 ≤ record.trialIndexAtCreation ∧ record.trialIndexAtCreation < 2 ^ 63 ∧
    record.genome.holdingHorizonMicroseconds < 2 ^ 63

namespace Genealogy

variable (s : Genealogy) (tx : ℕ)

def init : Genealogy := ⟨[], [], Dict.empty⟩

def withRecording (recording : Recording) : Genealogy :=
  { s with recordings := s.recordings.set tx recording }

/-- The transaction ends without a trace. -/
def abandon : Genealogy := { s with recordings := s.recordings.erase tx }

/-- The other open transactions. -/
def others : List Recording := (s.recordings.erase tx).values

variable (digest : JsonValue → String)

/-- The transaction begins: it reads the edges and refuses a parent downstream of the child. -/
def check (record : GenomeRecord) : Genealogy :=
  if (s.recordings.get? tx).isSome then s
  else
    let checked : PyResult String := do
      let child ← genomeHash digest record.genome
      requireNoCycle s.edges child record.parentGenomeHashes
      pure child
    match checked with
    | .error _ => s
    | .ok child => s.withRecording tx ⟨record, child, none, [], []⟩

/-- `_INSERT_GENOME`: a genome recorded before is left as it is, and one that another transaction is
    recording is waited for. -/
def insertGenome : Genealogy :=
  match s.recordings.get? tx with
  | none => s
  | some recording =>
    if recording.remaining.isSome then s
    else
      match hashColumn recording.child with
      | none => s.abandon tx
      | some child =>
        let parents := recording.record.parentGenomeHashes.zipIdx
        if child.length ≠ sha256HexLength ∨ ¬recording.record.storable then s.abandon tx
        else if child ∈ s.genomes then
          s.withRecording tx { recording with child := child, remaining := some parents }
        else if (s.others tx).any (fun other => child ∈ other.genomes) then s
        else
          s.withRecording tx
            { recording with child := child, remaining := some parents, genomes := [child] }

/-- `_INSERT_PARENT` for the next parent: an edge already stored is skipped, one that another transaction
    is inserting is waited for, and a row the constraints refuse ends the transaction. -/
def insertParent : Genealogy :=
  match s.recordings.get? tx with
  | none => s
  | some recording =>
    match recording.remaining with
    | some ((parent, ordinal) :: rest) =>
      match hashColumn parent with
      | none => s.abandon tx
      | some parent =>
        let edge : ParentEdge := ⟨recording.child, parent, ordinal⟩
        let visible := s.edges ++ recording.edges
        if edge.child = edge.parent ∨ smallintLimit ≤ edge.ordinal then s.abandon tx
        else if visible.any (fun row => row.child = edge.child ∧ row.parent = edge.parent) then
          s.withRecording tx { recording with remaining := some rest }
        else if (s.others tx).any (fun other => other.edges.any fun row =>
            row.child = edge.child ∧ (row.parent = edge.parent ∨ row.ordinal = edge.ordinal)) then s
        else if visible.any (fun row => row.child = edge.child ∧ row.ordinal = edge.ordinal) ∨
            edge.parent ∉ s.genomes ++ recording.genomes then s.abandon tx
        else
          s.withRecording tx
            { recording with remaining := some rest, edges := recording.edges ++ [edge] }
    | _ => s

def commit : Genealogy :=
  match s.recordings.get? tx with
  | none => s
  | some recording =>
    if recording.remaining = some [] then
      { genomes := s.genomes ++ recording.genomes
        edges := s.edges ++ recording.edges
        recordings := s.recordings.erase tx }
    else s

/-- One step of the system. -/
def step : RecordingAction → Genealogy
  | .check tx record => s.check tx digest record
  | .insertGenome tx => s.insertGenome tx
  | .insertParent tx => s.insertParent tx
  | .commit tx => s.commit tx
  | .rollback tx => s.abandon tx

/-- The tables an interleaving of the transactions' steps reaches. -/
def run (actions : List RecordingAction) : Genealogy :=
  actions.foldl (fun s action => s.step digest action) init

/-- No edge that the action commits closes a cycle over the edges committed by then. -/
def CommitsNoCycle : RecordingAction → Prop
  | .commit tx => ∀ recording, s.recordings.get? tx = some recording → ∀ edge ∈ recording.edges,
      (lineageFields s.edges).wouldCreateCycle edge.child edge.parent = .ok false
  | _ => True

end Genealogy

/-! ### The stored graph -/

/-- Child to parent, over the stored rows. -/
def StoredEdge (edges : List ParentEdge) (child parent : String) : Prop :=
  ∃ row ∈ edges, row.child = child ∧ row.parent = parent

theorem mem_foldl_groupParent {child parent : String} : ∀ (rows : List ParentEdge)
    (parentsOf : Dict String (List String)),
    parent ∈ ((rows.foldl groupParent parentsOf).get? child).getD [] ↔
      parent ∈ (parentsOf.get? child).getD [] ∨ StoredEdge rows child parent
  | [], parentsOf => by simp [StoredEdge]
  | row :: rows, parentsOf => by
    rw [List.foldl_cons, mem_foldl_groupParent rows, groupParent, Dict.get?_set]
    by_cases hchild : child = row.child
    · subst hchild
      simp [StoredEdge, or_assoc, eq_comm]
    · simp [StoredEdge, hchild, Ne.symm hchild]

theorem hasParent_lineageFields {edges : List ParentEdge} {child parent : String} :
    (lineageFields edges).HasParent child parent ↔ StoredEdge edges child parent := by
  rw [LineageGraphFields.HasParent, LineageGraphFields.parents, lineageFields, mem_foldl_groupParent]
  simp [StoredEdge, mem_sortBy]

theorem loadLineageGraph_of_acyclic {edges : List ParentEdge} (h : Acyclic (StoredEdge edges)) :
    ∃ graph, loadLineageGraph edges = .ok graph := by
  have hsame : (lineageFields edges).HasParent = StoredEdge edges := by
    funext child parent
    exact propext hasParent_lineageFields
  exact ⟨_, construct_ok (LineageGraphFields.requireAcyclic_of_acyclic (hsame ▸ h))⟩

/-! ### What every run keeps -/

namespace Genealogy

/-- The stored edges have no cycle, and a transaction's edges all leave its own genome. -/
structure Sound (s : Genealogy) : Prop where
  acyclic : Acyclic (StoredEdge s.edges)
  outgoing : ∀ tx recording, s.recordings.get? tx = some recording →
    (recording.remaining = none → recording.edges = []) ∧
      ∀ edge ∈ recording.edges, edge.child = recording.child

variable {s : Genealogy} {tx : ℕ}

theorem sound_init : init.Sound where
  acyclic a hcycle := by
    obtain ⟨b, hstep, -⟩ := TransGen.head'_iff.mp hcycle
    obtain ⟨row, hrow, -⟩ := hstep
    cases hrow
  outgoing _ _ h := by cases h

theorem Sound.withRecording (h : s.Sound) {recording : Recording}
    (hrecording : (recording.remaining = none → recording.edges = []) ∧
      ∀ edge ∈ recording.edges, edge.child = recording.child) :
    (s.withRecording tx recording).Sound where
  acyclic := h.acyclic
  outgoing other found hfound := by
    rw [Genealogy.withRecording, Dict.get?_set] at hfound
    split at hfound
    · rwa [← Option.some.inj hfound]
    · exact h.outgoing other found hfound

theorem Sound.abandon (h : s.Sound) : (s.abandon tx).Sound where
  acyclic := h.acyclic
  outgoing other found hfound := by
    rw [Genealogy.abandon, Dict.get?_erase] at hfound
    split at hfound
    · cases hfound
    · exact h.outgoing other found hfound

theorem Sound.check (h : s.Sound) (digest : JsonValue → String) (record : GenomeRecord) :
    (s.check tx digest record).Sound := by
  rw [Genealogy.check]
  split
  · exact h
  · dsimp only
    split
    · exact h
    · exact h.withRecording ⟨fun _ => rfl, fun _ hedge => absurd hedge List.not_mem_nil⟩

theorem Sound.insertGenome (h : s.Sound) : (s.insertGenome tx).Sound := by
  rw [Genealogy.insertGenome]
  split
  · exact h
  · next recording hget =>
    obtain ⟨hempty, -⟩ := h.outgoing tx recording hget
    split
    · exact h
    · next hremaining =>
      have hedges : recording.edges = [] := hempty (by simpa using hremaining)
      split
      · exact h.abandon
      · have hkeep : ∀ child remaining genomes, (s.withRecording tx
            { recording with child := child, remaining := some remaining, genomes := genomes }).Sound :=
          fun child remaining genomes => h.withRecording ⟨nofun, by simp [hedges]⟩
        dsimp only
        split
        · exact h.abandon
        · split
          · exact hkeep _ _ _
          · split
            · exact h
            · exact hkeep _ _ _

theorem Sound.insertParent (h : s.Sound) : (s.insertParent tx).Sound := by
  rw [Genealogy.insertParent]
  split
  · exact h
  · next recording hget =>
    obtain ⟨-, houtgoing⟩ := h.outgoing tx recording hget
    split
    · split
      · exact h.abandon
      · dsimp only
        split
        · exact h.abandon
        · split
          · exact h.withRecording ⟨nofun, houtgoing⟩
          · split
            · exact h
            · split
              · exact h.abandon
              · refine h.withRecording ⟨nofun, fun edge hedge => ?_⟩
                rcases List.mem_append.mp hedge with hold | hnew
                · exact houtgoing edge hold
                · rw [List.mem_singleton.mp hnew]
    · exact h

/-- A commit that closes no cycle over what is committed by then leaves none. -/
theorem Sound.commit (h : s.Sound) (hmeet : s.CommitsNoCycle (.commit tx)) : (s.commit tx).Sound := by
  rw [Genealogy.commit]
  split
  · exact h
  · next recording hget =>
    split
    · refine ⟨?_, fun other found hfound => ?_⟩
      · have hlarger : ∀ child parent, StoredEdge (s.edges ++ recording.edges) child parent →
            StoredEdge s.edges child parent ∨
              (child = recording.child ∧
                ¬ReflTransGen (StoredEdge s.edges) parent recording.child) := by
          rintro child parent ⟨row, hrow, rfl, rfl⟩
          rcases List.mem_append.mp hrow with hold | hnew
          · exact .inl ⟨row, hold, rfl, rfl⟩
          have hchild := (h.outgoing tx recording hget).2 row hnew
          have hnot := LineageGraphFields.not_reaches_of_wouldCreateCycle (hmeet recording hget row hnew)
          refine .inr ⟨hchild, fun hreaches => hnot ?_⟩
          rw [hchild]
          exact hreaches.lift id fun _ _ => hasParent_lineageFields.mpr
        exact h.acyclic.add_outgoing hlarger
      · rw [Dict.get?_erase] at hfound
        split at hfound
        · cases hfound
        · exact h.outgoing other found hfound
    · exact h

theorem Sound.step (digest : JsonValue → String) (s : Genealogy) (action : RecordingAction) (h : s.Sound)
    (hmeet : s.CommitsNoCycle action) : (s.step digest action).Sound := by
  cases action with
  | check tx record => exact h.check digest record
  | insertGenome tx => exact h.insertGenome
  | insertParent tx => exact h.insertParent
  | commit tx => exact h.commit hmeet
  | rollback tx => exact h.abandon

end Genealogy

/-- In every run whose commits close no cycle over the edges committed by then, the stored graph has
    none, loads, and lets no ancestry walk go on for ever. -/
theorem genealogy_acyclic (digest : JsonValue → String) {actions : List RecordingAction}
    (h : StepsMeet (fun s action => Genealogy.step s digest action) Genealogy.CommitsNoCycle
      Genealogy.init actions) :
    Acyclic (StoredEdge (Genealogy.run digest actions).edges) ∧
      (∃ graph, loadLineageGraph (Genealogy.run digest actions).edges = .ok graph) ∧
      ¬∃ walk : ℕ → String, ∀ n,
        StoredEdge (Genealogy.run digest actions).edges (walk n) (walk (n + 1)) := by
  have hsound : (Genealogy.run digest actions).Sound :=
    foldl_invariant (Genealogy.Sound.step digest) h Genealogy.sound_init
  refine ⟨hsound.acyclic, loadLineageGraph_of_acyclic hsound.acyclic, ?_⟩
  have hentered : ∀ child parent, StoredEdge (Genealogy.run digest actions).edges child parent →
      parent ∈ (Genealogy.run digest actions).edges.map ParentEdge.parent := by
    rintro _ _ ⟨row, hrow, -, rfl⟩
    exact List.mem_map_of_mem hrow
  exact hsound.acyclic.no_endless_walk hentered

/-! ### Two recordings that cross -/

/-- SHA-256 of the payloads of `rsi_14 > 1.5` and `rsi_14 > 2`. -/
def sampleDigest : JsonValue → String
  | .object ((_, .object [_, _, _, _, _, (_, .array [_, .object [_, _, _, _, (_, .text "2"), _]])]) :: _) =>
    "302b85224bf3e3c0ba054397a2335552992ff18724144e5490fd537d89947531"
  | _ => "6f073caa7dd77c8743434ce7b20cd41fca8c426893795ddf4e68601ccdc07354"

def sampleRecord (threshold : DecimalFloat) (parents : List String) : GenomeRecord :=
  ⟨thresholdGenome threshold, 0, 0, parents, 0⟩

def lowHash : String := "6f073caa7dd77c8743434ce7b20cd41fca8c426893795ddf4e68601ccdc07354"

def highHash : String := "302b85224bf3e3c0ba054397a2335552992ff18724144e5490fd537d89947531"

/-- A founder, then a child of it. -/
def sampleRecordings : List RecordingAction :=
  [.check 1 (sampleRecord ⟨false, 15, -1⟩ []), .insertGenome 1, .commit 1,
    .check 2 (sampleRecord ⟨false, 2, 0⟩ [lowHash]), .insertGenome 2, .insertParent 2, .commit 2]

theorem commitsNoCycle_of_all {s : Genealogy} {tx : ℕ}
    (h : (s.recordings.get? tx).all fun recording => recording.edges.all fun edge =>
      (lineageFields s.edges).wouldCreateCycle edge.child edge.parent = .ok false) :
    s.CommitsNoCycle (.commit tx) := by
  intro recording hget edge hedge
  rw [hget, Option.all_some, List.all_eq_true] at h
  exact of_decide_eq_true (h edge hedge)

theorem genealogy_acyclic_sample :
    (Genealogy.run sampleDigest sampleRecordings).edges = [⟨highHash, lowHash, 0⟩] ∧
      Acyclic (StoredEdge (Genealogy.run sampleDigest sampleRecordings).edges) := by
  have hmeet : StepsMeet (fun s action => Genealogy.step s sampleDigest action) Genealogy.CommitsNoCycle
      Genealogy.init sampleRecordings := by
    refine ⟨trivial, trivial, commitsNoCycle_of_all ?_, trivial, trivial, trivial,
      commitsNoCycle_of_all ?_, trivial⟩
    · decide +kernel
    · decide +kernel
  exact ⟨by decide +kernel, (genealogy_acyclic sampleDigest hmeet).1⟩

/-- Two founders, each then recorded again as a child of the other by transactions that overlap. -/
def crossingRecordings : List RecordingAction :=
  [.check 1 (sampleRecord ⟨false, 15, -1⟩ []), .insertGenome 1, .commit 1,
    .check 1 (sampleRecord ⟨false, 2, 0⟩ []), .insertGenome 1, .commit 1,
    .check 1 (sampleRecord ⟨false, 15, -1⟩ [highHash]), .check 2 (sampleRecord ⟨false, 2, 0⟩ [lowHash]),
    .insertGenome 1, .insertGenome 2, .insertParent 1, .insertParent 2, .commit 1, .commit 2]

/-- Each check reads no edges, both transactions commit, and the graph no longer loads. -/
theorem crossing_recordings_close_cycle :
    (Genealogy.run sampleDigest crossingRecordings).edges =
        [⟨lowHash, highHash, 0⟩, ⟨highHash, lowHash, 0⟩] ∧
      ¬Acyclic (StoredEdge (Genealogy.run sampleDigest crossingRecordings).edges) ∧
      (loadLineageGraph (Genealogy.run sampleDigest crossingRecordings).edges).toBool = false := by
  have hedges : (Genealogy.run sampleDigest crossingRecordings).edges =
      [⟨lowHash, highHash, 0⟩, ⟨highHash, lowHash, 0⟩] := by
    decide +kernel
  refine ⟨hedges, fun hacyclic => ?_, ?_⟩
  · rw [hedges] at hacyclic
    have hlow : StoredEdge [⟨lowHash, highHash, 0⟩, ⟨highHash, lowHash, 0⟩] lowHash highHash :=
      ⟨⟨lowHash, highHash, 0⟩, by simp, rfl, rfl⟩
    have hhigh : StoredEdge [⟨lowHash, highHash, 0⟩, ⟨highHash, lowHash, 0⟩] highHash lowHash :=
      ⟨⟨highHash, lowHash, 0⟩, by simp, rfl, rfl⟩
    exact hacyclic lowHash (.tail (.single hlow) hhigh)
  · rw [hedges]
    decide +kernel

end FinanceKing.Evolution
