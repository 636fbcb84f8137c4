import Mathlib

/-! Files under names. A name leads to an inode and an open file keeps its inode, so what is written through it lands
    where the inode is now: under a new name after a rename, under none after an unlink. No two names lead to one
    inode, and every inode is older than the next one to be made. -/

namespace Lib

/-- The content after a write at a position: a gap before it is filled, what lies behind it stays. -/
def overwrite {α : Type} [Inhabited α] (content : List α) (position : ℕ) (chunk : List α) : List α :=
  content.take position ++ List.replicate (position - content.length) default ++ chunk ++
    content.drop (position + chunk.length)

theorem overwrite_end {α : Type} [Inhabited α] (content chunk : List α) :
    overwrite content content.length chunk = content ++ chunk := by
  simp [overwrite]

structure Files (ν α : Type) where
  inode : ν → Option ℕ
  contents : ℕ → List α
  fresh : ℕ
  inode_lt : ∀ {name id}, inode name = some id → id < fresh
  inode_inj : ∀ {name name' id}, inode name = some id → inode name' = some id → name = name'

namespace Files

variable {ν α : Type}

def empty : Files ν α where
  inode := fun _ => none
  contents := fun _ => []
  fresh := 0
  inode_lt := fun h => by cases h
  inode_inj := fun h => by cases h

/-- `is_file`. -/
def isFile (files : Files ν α) (name : ν) : Bool := (files.inode name).isSome

/-- What a file holds, read whole. -/
def read (files : Files ν α) (name : ν) : Option (List α) := (files.inode name).map files.contents

/-- A write through an open file. -/
def write [Inhabited α] (files : Files ν α) (id position : ℕ) (chunk : List α) : Files ν α :=
  { files with contents := Function.update files.contents id (overwrite (files.contents id) position chunk) }

theorem read_eq_some {files : Files ν α} {name : ν} {content : List α} :
    files.read name = some content ↔ ∃ id, files.inode name = some id ∧ files.contents id = content := by
  rw [read, Option.map_eq_some_iff]

theorem contents_write [Inhabited α] {files : Files ν α} {id : ℕ} {position : ℕ} {chunk : List α} :
    (files.write id position chunk).contents id = overwrite (files.contents id) position chunk :=
  Function.update_self id _ _

theorem contents_write_of_ne [Inhabited α] {files : Files ν α} {id : ℕ} {written position : ℕ} {chunk : List α} (h : id ≠ written) :
    (files.write written position chunk).contents id = files.contents id := Function.update_of_ne h _ _

/-- What is under the name is the same file, with the same content. -/
structure Same (files files' : Files ν α) (name : ν) : Prop where
  inode : files'.inode name = files.inode name
  contents : ∀ id, files.inode name = some id → files'.contents id = files.contents id

theorem Same.refl (files : Files ν α) (name : ν) : Same files files name := ⟨rfl, fun _ _ => rfl⟩

theorem Same.read {files files' : Files ν α} {name : ν} (h : Same files files' name) :
    files'.read name = files.read name := by
  rw [Files.read, Files.read, h.inode]
  cases hinode : files.inode name with
  | none => rfl
  | some id => exact congrArg some (h.contents id hinode)

theorem same_write [Inhabited α] {files : Files ν α} {other : ν} {written position : ℕ} {chunk : List α} (h : files.inode other ≠ some written) :
    Same files (files.write written position chunk) other := by
  refine ⟨rfl, fun id hid => contents_write_of_ne ?_⟩
  rintro rfl
  exact h hid

/-- A file open under a name: no other name leads to it, and the name to nothing else, though it may be gone. -/
structure Opened (files : Files ν α) (name : ν) (id : ℕ) (content : List α) : Prop where
  old : id < files.fresh
  holds : files.contents id = content
  named : ∀ other, files.inode other = some id → other = name
  leads : ∀ other, files.inode name = some other → other = id

/-- A write at the end of what was written. -/
theorem Opened.append [Inhabited α] {files : Files ν α} {name : ν} {id : ℕ} {content : List α}
    (h : Opened files name id content) (chunk : List α) :
    Opened (files.write id content.length chunk) name id (content ++ chunk) where
  old := h.old
  holds := by rw [contents_write, h.holds, overwrite_end]
  named := h.named
  leads := h.leads

theorem Opened.write [Inhabited α] {files : Files ν α} {name : ν} {id : ℕ} {content : List α}
    (h : Opened files name id content) {written position : ℕ} {chunk : List α}
    (hwritten : id ≠ written) : Opened (files.write written position chunk) name id content :=
  ⟨h.old, by rw [contents_write_of_ne hwritten, h.holds], h.named, h.leads⟩

variable [DecidableEq ν]

/-- An existing file, emptied. -/
def truncated (files : Files ν α) (id : ℕ) : Files ν α :=
  { files with contents := Function.update files.contents id [] }

/-- A file that was not there, empty. -/
def created (files : Files ν α) (name : ν) : Files ν α where
  inode := Function.update files.inode name (some files.fresh)
  contents := Function.update files.contents files.fresh []
  fresh := files.fresh + 1
  inode_lt := by
    intro other id h
    rw [Function.update_apply] at h
    split at h
    · obtain rfl := Option.some.inj h
      exact Nat.lt_succ_self _
    · exact Nat.lt_succ_of_lt (files.inode_lt h)
  inode_inj := by
    intro other other' id h h'
    rw [Function.update_apply] at h h'
    split at h
    · split at h'
      · rw [‹other = name›, ‹other' = name›]
      · obtain rfl := Option.some.inj h
        exact absurd (files.inode_lt h') (lt_irrefl _)
    · split at h'
      · obtain rfl := Option.some.inj h'
        exact absurd (files.inode_lt h) (lt_irrefl _)
      · exact files.inode_inj h h'

/-- Open for writing: an existing file is truncated, a missing one made. -/
def openForWriting (files : Files ν α) (name : ν) : ℕ × Files ν α :=
  match files.inode name with
  | some id => (id, files.truncated id)
  | none => (files.fresh, files.created name)

/-- `unlink(missing_ok=True)`. -/
def unlink (files : Files ν α) (name : ν) : Files ν α where
  inode := Function.update files.inode name none
  contents := files.contents
  fresh := files.fresh
  inode_lt := by
    intro other id h
    rw [Function.update_apply] at h
    split at h
    · cases h
    · exact files.inode_lt h
  inode_inj := by
    intro other other' id h h'
    rw [Function.update_apply] at h h'
    split at h
    · cases h
    · split at h'
      · cases h'
      · exact files.inode_inj h h'

/-- The inode of one name goes to another, which loses its own. -/
def moved (files : Files ν α) (source target : ν) (id : ℕ) (hsource : files.inode source = some id) :
    Files ν α where
  inode := fun name => if name = target then some id else if name = source then none else files.inode name
  contents := files.contents
  fresh := files.fresh
  inode_lt := by
    intro name other h
    split at h
    · obtain rfl := Option.some.inj h
      exact files.inode_lt hsource
    · split at h
      · cases h
      · exact files.inode_lt h
  inode_inj := by
    intro name name' other h h'
    split at h <;> split at h'
    · rw [‹name = target›, ‹name' = target›]
    · split at h'
      · cases h'
      · obtain rfl := Option.some.inj h
        exact absurd (files.inode_inj h' hsource) ‹_›
    · split at h
      · cases h
      · obtain rfl := Option.some.inj h'
        exact absurd (files.inode_inj h hsource) ‹_›
    · split at h
      · cases h
      · split at h'
        · cases h'
        · exact files.inode_inj h h'

/-- `replace`, which is atomic; there is none where the source is missing. -/
def replace (files : Files ν α) (source target : ν) : Option (Files ν α) :=
  match h : files.inode source with
  | some id => some (files.moved source target id h)
  | none => none

/-! ### What the operations leave -/

section Lemmas

variable {files files' : Files ν α} {name other : ν} {id : ℕ}

theorem inode_openForWriting : (files.openForWriting name).2.inode name = some (files.openForWriting name).1 := by
  rw [openForWriting]
  cases h : files.inode name with
  | some id => exact h
  | none => exact Function.update_self name _ _

theorem inode_openForWriting_of_ne (h : other ≠ name) :
    (files.openForWriting name).2.inode other = files.inode other := by
  rw [openForWriting]
  cases files.inode name with
  | some id => rfl
  | none => exact Function.update_of_ne h _ _

theorem contents_openForWriting : (files.openForWriting name).2.contents (files.openForWriting name).1 = [] := by
  rw [openForWriting]
  cases files.inode name with
  | some id => exact Function.update_self id _ _
  | none => exact Function.update_self files.fresh _ _

theorem fresh_le_openForWriting : files.fresh ≤ (files.openForWriting name).2.fresh := by
  rw [openForWriting]
  cases files.inode name with
  | some id => exact le_rfl
  | none => exact Nat.le_succ _

/-- An inode under another name, or under none, is not the one that is opened. -/
theorem openForWriting_ne (hlt : id < files.fresh) (hname : files.inode name ≠ some id) :
    (files.openForWriting name).1 ≠ id := by
  rw [openForWriting]
  cases h : files.inode name with
  | some opened =>
    rintro rfl
    exact hname h
  | none => exact (ne_of_lt hlt).symm

theorem contents_openForWriting_of_ne (hlt : id < files.fresh) (hname : files.inode name ≠ some id) :
    (files.openForWriting name).2.contents id = files.contents id := by
  have hne := openForWriting_ne hlt hname
  rw [openForWriting] at hne ⊢
  cases h : files.inode name with
  | some opened =>
    rw [h] at hne
    exact Function.update_of_ne hne.symm _ _
  | none =>
    rw [h] at hne
    exact Function.update_of_ne hne.symm _ _

theorem inode_unlink_of_ne (h : other ≠ name) : (files.unlink name).inode other = files.inode other :=
  Function.update_of_ne h _ _

theorem inode_of_unlink (h : (files.unlink name).inode other = some id) : files.inode other = some id := by
  change Function.update files.inode name none other = some id at h
  rw [Function.update_apply] at h
  split at h
  · cases h
  · exact h

theorem replace_eq_some {source target : ν} (h : files.replace source target = some files') :
    ∃ id, files.inode source = some id ∧ files'.inode target = some id ∧ files'.contents = files.contents ∧
      files'.fresh = files.fresh ∧
      ∀ name, name ≠ target → files'.inode name = if name = source then none else files.inode name := by
  rw [replace] at h
  split at h
  · next id hsource =>
    obtain rfl := Option.some.inj h
    exact ⟨id, hsource, if_pos rfl, rfl, rfl, fun name hname => if_neg hname⟩
  · cases h

theorem replace_isSome {source target : ν} (h : files.inode source = some id) :
    ∃ files', files.replace source target = some files' := by
  rw [replace]
  split
  · exact ⟨_, rfl⟩
  · next hnone => rw [h] at hnone; cases hnone

end Lemmas

/-! ### What an operation leaves alone -/

section Same

variable {files files' : Files ν α} {name other : ν}

theorem same_openForWriting (h : other ≠ name) : Same files (files.openForWriting name).2 other := by
  refine ⟨inode_openForWriting_of_ne h, fun id hid => ?_⟩
  exact contents_openForWriting_of_ne (files.inode_lt hid) fun hname => h (files.inode_inj hid hname)

theorem same_unlink (h : other ≠ name) : Same files (files.unlink name) other :=
  ⟨inode_unlink_of_ne h, fun _ _ => rfl⟩

theorem same_replace {source target : ν} (hreplace : files.replace source target = some files')
    (hsource : other ≠ source) (htarget : other ≠ target) : Same files files' other := by
  obtain ⟨_, _, _, hcontents, _, hnames⟩ := replace_eq_some hreplace
  exact ⟨by rw [hnames other htarget, if_neg hsource], fun id _ => by rw [hcontents]⟩

end Same

section Opened

variable {files files' : Files ν α} {name other : ν} {id : ℕ} {content : List α}

theorem opened_openForWriting (files : Files ν α) (name : ν) :
    Opened (files.openForWriting name).2 name (files.openForWriting name).1 [] where
  old := inode_lt _ inode_openForWriting
  holds := contents_openForWriting
  named := fun _ h => inode_inj _ h inode_openForWriting
  leads := fun _ h => Option.some.inj (h.symm.trans inode_openForWriting)

theorem Opened.openForWriting (h : Opened files name id content) (hother : name ≠ other) :
    Opened (files.openForWriting other).2 name id content := by
  have hname : files.inode other ≠ some id := fun hid => hother (h.named other hid).symm
  refine ⟨h.old.trans_le fresh_le_openForWriting, ?_, fun third hthird => ?_, fun leads hleads => ?_⟩
  · rw [contents_openForWriting_of_ne h.old hname, h.holds]
  · by_cases hsame : third = other
    · rw [hsame, inode_openForWriting] at hthird
      exact absurd (Option.some.inj hthird) (openForWriting_ne h.old hname)
    · rw [inode_openForWriting_of_ne hsame] at hthird
      exact h.named third hthird
  · rw [inode_openForWriting_of_ne hother] at hleads
    exact h.leads leads hleads

theorem Opened.unlink (h : Opened files name id content) (other : ν) :
    Opened (files.unlink other) name id content :=
  ⟨h.old, h.holds, fun third hthird => h.named third (inode_of_unlink hthird),
    fun leads hleads => h.leads leads (inode_of_unlink hleads)⟩

theorem Opened.replace (h : Opened files name id content) {source target : ν}
    (hreplace : files.replace source target = some files') (hsource : name ≠ source) (htarget : name ≠ target) :
    Opened files' name id content := by
  obtain ⟨moved, hmoved, hnew, hcontents, hfresh, hnames⟩ := replace_eq_some hreplace
  refine ⟨hfresh ▸ h.old, by rw [hcontents, h.holds], fun third hthird => ?_, fun leads hleads => ?_⟩
  · by_cases hsame : third = target
    · rw [hsame, hnew] at hthird
      obtain rfl := Option.some.inj hthird
      exact absurd (h.named source hmoved).symm hsource
    · rw [hnames third hsame] at hthird
      split at hthird
      · cases hthird
      · exact h.named third hthird
  · rw [hnames name htarget, if_neg hsource] at hleads
    exact h.leads leads hleads

end Opened

end Files

end Lib
