import FinanceKing.Data.ArchiveCache

/-! What one step of a fetch needs, and what it leaves to the others. A fetch relies on different things in each phase;
    a step gives them to its own fetch, and keeps those of every fetch that does not share a partial file with it. -/

namespace FinanceKing.Data.ArchiveCache

open Lib

/-! ### What is on disk -/

namespace Disk

variable (sha256 : List UInt8 → String)

/-- An upstream sibling that names the archive claimed this digest of it. -/
def Claimed (disk : Disk) (path : CachePath) (digest : String) : Prop :=
  ∃ text, (path.url, text) ∈ disk.answered ∧
    parseChecksumSibling text.toList (path.url ++ ".CHECKSUM") = .ok ⟨digest, path.name⟩

/-- The file at the path hashes to the digest. -/
def Hashes (disk : Disk) (path : CachePath) (digest : String) : Prop :=
  ∃ bytes, disk.archives.read path = some bytes ∧ sha256 bytes = digest

/-- The archive and its sibling are both on disk. -/
def IsCached (disk : Disk) (path : CachePath) : Prop :=
  disk.archives.isFile path ∧ disk.siblings.isFile path.sibling

end Disk

/-! ### Where a fetch stands -/

/-- The fetch is between opening the partial file and completing the sibling. -/
def Phase.holds : Phase → Bool
  | .downloading _ _ _ _ | .replacing _ | .openingSibling _ | .writingSibling _ _ _ => true
  | _ => false

/-- The open partial file. -/
def Phase.openFile : Phase → Option ℕ
  | .downloading _ _ handle _ => some handle
  | _ => none

def Phase.writesSibling : Phase → Bool
  | .writingSibling _ _ _ => true
  | _ => false

/-- The step opens the partial file. -/
def Phase.opensPartial : Phase → Input → Bool
  | .opening _ _, .proceed => true
  | _, _ => false

/-! ### What a fetch relies on -/

section Invariant

variable (sha256 : List UInt8 → String)

/-- The archive is recorded, and hashes to the digest upstream claimed. -/
structure Served (disk : Disk) (path : CachePath) (digest : String) : Prop where
  recorded : disk.siblings.isFile path.sibling
  hashes : disk.Hashes sha256 path digest
  claimed : disk.Claimed path digest

/-- What a fetch relies on where it stands. -/
def Relies (disk : Disk) (fetch : Fetch) : Prop :=
  match fetch.phase with
  | .readingSibling => disk.siblings.isFile fetch.path.sibling
  | .openingArchive claimed | .hashing claimed _ _ => Served sha256 disk fetch.path claimed
  | .opening _ claimed => disk.Claimed fetch.path claimed
  | .downloading _ claimed handle received =>
    disk.Claimed fetch.path claimed ∧ disk.siblings.inode fetch.path.sibling = none ∧
      Files.Opened disk.archives fetch.path.partialFile handle received
  | .replacing digest =>
    disk.Claimed fetch.path digest ∧ disk.siblings.inode fetch.path.sibling = none ∧
      ∀ id, disk.archives.inode fetch.path.partialFile = some id → sha256 (disk.archives.contents id) = digest
  | .openingSibling digest =>
    disk.Claimed fetch.path digest ∧ disk.siblings.inode fetch.path.sibling = none ∧
      disk.Hashes sha256 fetch.path digest
  | .writingSibling digest handle written =>
    disk.Claimed fetch.path digest ∧ disk.Hashes sha256 fetch.path digest ∧
      disk.siblings.inode fetch.path.sibling = some handle ∧
      written ≤ (siblingText digest fetch.path.name).length ∧
      disk.siblings.contents handle = (siblingText digest fetch.path.name).take written
  | .cleaning (.ok record) | .done (.ok record) =>
    record.path = fetch.path ∧ Served sha256 disk fetch.path record.sha256Hex
  | _ => True

/-- The text beside an archive is a prefix of its record. -/
structure Records (disk : Disk) (path : CachePath) (text : List Char) (digest : String) : Prop where
  claimed : disk.Claimed path digest
  hashes : disk.Hashes sha256 path digest
  recordable : Recordable path.name
  cut : text <+: siblingText digest path.name

end Invariant

/-! ### What a step does to the disk -/

/-- What one step of a fetch can do: the phase it takes it in, the one it leaves it in, and the disk. -/
inductive Effect (fetch : Fetch) (disk : Disk) (input : Input) : Phase × Disk → Prop
  | waited : Effect fetch disk input (fetch.phase, disk)
  | moved (phase : Phase) (holdsNone : phase.holds = false) : Effect fetch disk input (phase, disk)
  | asked (text : String) (phase : Phase) (holdsNone : phase.holds = false) :
      Effect fetch disk input (phase, { disk with answered := disk.answered ++ [(fetch.path.url, text)] })
  | openedPartial (mismatches : List (String × String)) (claimed : String) (opens : fetch.phase.opensPartial input) :
      Effect fetch disk input
        (.downloading mismatches claimed (disk.archives.openForWriting fetch.path.partialFile).1 [],
          { disk with archives := (disk.archives.openForWriting fetch.path.partialFile).2 })
  | wrotePartial (handle : ℕ) (bytes received : List UInt8) (mismatches : List (String × String)) (claimed : String)
      (phase : fetch.phase = .downloading mismatches claimed handle received) :
      Effect fetch disk input
        (.downloading mismatches claimed handle (received ++ bytes),
          { disk with archives := disk.archives.write handle received.length bytes })
  | verified (digest : String) (holds : fetch.phase.holds) (writesNone : fetch.phase.writesSibling = false) :
      Effect fetch disk input (.replacing digest, disk)
  | renamed (digest : String) (phase : fetch.phase = .replacing digest) (archives : Files CachePath UInt8)
      (replaced : disk.archives.replace fetch.path.partialFile fetch.path = some archives) :
      Effect fetch disk input (.openingSibling digest, { disk with archives })
  | openedSibling (digest : String) (phase : fetch.phase = .openingSibling digest) :
      Effect fetch disk input
        (.writingSibling digest (disk.siblings.openForWriting fetch.path.sibling).1 0,
          { disk with siblings := (disk.siblings.openForWriting fetch.path.sibling).2 })
  | wroteSibling (digest : String) (handle written : ℕ) (phase : fetch.phase = .writingSibling digest handle written)
      (chunk : List Char) (next : Phase) (opensNone : next.openFile = none) :
      Effect fetch disk input (next, { disk with siblings := disk.siblings.write handle written chunk })
  | unlinked (phase : Phase) (holdsNone : phase.holds = false) :
      Effect fetch disk input (phase, { disk with archives := disk.archives.unlink fetch.path.partialFile })

variable {sha256 : List UInt8 → String}

theorem next_effect (sha256 : List UInt8 → String) (fetch : Fetch) (disk : Disk) (input : Input) :
    Effect fetch disk input (fetch.next sha256 disk input) := by
  unfold Fetch.next
  split
  case h_1 => exact .moved _ (by split <;> rfl)
  case h_2 => exact .moved _ (by split <;> rfl)
  case h_3 =>
    split
    · exact .moved _ rfl
    · split <;> exact .moved _ rfl
  case h_4 => split <;> exact .moved _ rfl
  case h_5 =>
    dsimp only
    split
    · exact .moved _ rfl
    · split <;> exact .moved _ rfl
  case h_6 => exact .asked _ _ (by split <;> rfl)
  case h_7 => exact .moved _ rfl
  case h_8 => exact .openedPartial _ _ (by rw [‹fetch.phase = _›]; rfl)
  case h_9 => exact .moved _ rfl
  case h_10 => exact .wrotePartial _ _ _ _ _ ‹_›
  case h_11 => exact .moved _ rfl
  case h_12 =>
    dsimp only
    split
    · exact .verified _ (by rw [‹fetch.phase = _›]; rfl) (by rw [‹fetch.phase = _›]; rfl)
    · split <;> exact .moved _ rfl
  case h_13 =>
    split
    · exact .moved _ rfl
    · next hreplace => exact .renamed _ ‹_› _ hreplace
  case h_14 => exact .openedSibling _ ‹_›
  case h_15 =>
    refine .wroteSibling _ _ _ ‹_› _ _ ?_
    split <;> rfl
  case h_16 => exact .unlinked _ rfl
  case h_17 => exact .waited

/-- The step does not touch the partial file of this archive, or its fetch neither holds that nor opens it. -/
def Free (fetch : Fetch) (input : Input) (path : CachePath) : Prop :=
  path = fetch.path → fetch.phase.holds = false ∧ fetch.phase.opensPartial input = false

theorem Free.ne_of_holds {fetch : Fetch} {input : Input} {path : CachePath} (h : Free fetch input path)
    (hholds : fetch.phase.holds) : path ≠ fetch.path := fun hpath => by
  rw [(h hpath).1] at hholds
  cases hholds

theorem Free.ne_of_opens {fetch : Fetch} {input : Input} {path : CachePath} (h : Free fetch input path)
    (hopens : fetch.phase.opensPartial input) : path ≠ fetch.path := fun hpath => by
  rw [(h hpath).2] at hopens
  cases hopens

/-- What a step leaves to the other fetches, and to its own where the archive is recorded. -/
structure Frame (disk disk' : Disk) (fetch : Fetch) (input : Input) : Prop where
  answered : ∀ entry ∈ disk.answered, entry ∈ disk'.answered
  recorded : ∀ name, disk.siblings.isFile name → disk'.siblings.isFile name
  archive : ∀ coordinate granularity,
    Free fetch input (cachePath coordinate granularity) ∨ disk.siblings.isFile fetch.path.sibling →
    Files.Same disk.archives disk'.archives (cachePath coordinate granularity)
  partialFile : ∀ path, Free fetch input path → ∀ id, disk'.archives.inode path.partialFile = some id →
    disk.archives.inode path.partialFile = some id ∧ disk'.archives.contents id = disk.archives.contents id
  sibling : ∀ path, Free fetch input path → Files.Same disk.siblings disk'.siblings path.sibling
  downloads : ∀ path, Free fetch input path → ∀ handle received, fetch.phase.openFile ≠ some handle →
    Files.Opened disk.archives path.partialFile handle received →
    Files.Opened disk'.archives path.partialFile handle received

theorem partialFile_inj {path other : CachePath} (h : path.partialFile = other.partialFile) : path = other :=
  withSuffix_inj.mp h

theorem sibling_inj {path other : CachePath} (h : path.sibling = other.sibling) : path = other := withSuffix_inj.mp h

/-- What is still under the name of the partial file was there before. -/
theorem same_partialFile {files files' : Files CachePath UInt8} {name : CachePath} (h : Files.Same files files' name)
    (id : ℕ) (hid : files'.inode name = some id) :
    files.inode name = some id ∧ files'.contents id = files.contents id :=
  have hold := h.inode.symm.trans hid
  ⟨hold, h.contents id hold⟩

/-- A change that leaves the archives alone. -/
theorem frame_of_siblings {disk disk' : Disk} {fetch : Fetch} {input : Input}
    (harchives : disk'.archives = disk.archives)
    (hanswered : ∀ entry ∈ disk.answered, entry ∈ disk'.answered)
    (hrecorded : ∀ name, disk.siblings.isFile name → disk'.siblings.isFile name)
    (hsibling : ∀ path, Free fetch input path → Files.Same disk.siblings disk'.siblings path.sibling) :
    Frame disk disk' fetch input where
  answered := hanswered
  recorded := hrecorded
  archive := fun _ _ _ => harchives ▸ Files.Same.refl _ _
  partialFile := fun _ _ => same_partialFile (harchives ▸ Files.Same.refl _ _)
  sibling := hsibling
  downloads := fun _ _ _ _ _ h => harchives ▸ h

theorem frame_refl (disk : Disk) (fetch : Fetch) (input : Input) : Frame disk disk fetch input :=
  frame_of_siblings rfl (fun _ => id) (fun _ => id) fun _ _ => Files.Same.refl _ _

/-- A step leaves all this to the others. -/
theorem next_frame {fetch : Fetch} {disk : Disk} (input : Input) (h : Relies sha256 disk fetch) :
    Frame disk (fetch.next sha256 disk input).2 fetch input := by
  have heffect := next_effect sha256 fetch disk input
  generalize fetch.next sha256 disk input = after at heffect ⊢
  have hne : ∀ {path}, path ≠ fetch.path → path.partialFile ≠ fetch.path.partialFile :=
    fun hpath hname => hpath (partialFile_inj hname)
  have hnot : ∀ coordinate granularity, cachePath coordinate granularity ≠ fetch.path.partialFile :=
    fun coordinate granularity => (partialFile_ne coordinate granularity _).symm
  cases heffect with
  | waited => exact frame_refl disk fetch input
  | moved phase _ => exact frame_refl disk fetch input
  | verified digest _ _ => exact frame_refl disk fetch input
  | asked text phase _ =>
    exact frame_of_siblings rfl (fun _ hentry => List.mem_append_left _ hentry) (fun _ => id)
      fun _ _ => Files.Same.refl _ _
  | openedPartial mismatches claimed hopens =>
    exact {
      answered := fun _ => id
      recorded := fun _ => id
      archive := fun _ _ _ => Files.same_openForWriting (hnot _ _)
      partialFile := fun path hfree => same_partialFile (Files.same_openForWriting (hne (hfree.ne_of_opens hopens)))
      sibling := fun _ _ => Files.Same.refl _ _
      downloads := fun path hfree _ _ _ hdown => hdown.openForWriting (hne (hfree.ne_of_opens hopens)) }
  | wrotePartial handle bytes received mismatches claimed hphase =>
    have hholds : fetch.phase.holds := by rw [hphase]; rfl
    rw [Relies, hphase] at h
    obtain ⟨_, _, hopened⟩ := h
    -- Only the partial file of this fetch leads to the open file.
    exact {
      answered := fun _ => id
      recorded := fun _ => id
      archive := fun _ _ _ => Files.same_write fun hname => hnot _ _ (hopened.named _ hname)
      partialFile := fun path hfree => same_partialFile
        (Files.same_write fun hname => hne (hfree.ne_of_holds hholds) (hopened.named _ hname))
      sibling := fun _ _ => Files.Same.refl _ _
      downloads := fun path _ other _ hother hdown =>
        hdown.write fun hsame => hother (by rw [hphase, hsame]; rfl) }
  | renamed digest hphase archives hreplaced =>
    have hholds : fetch.phase.holds := by rw [hphase]; rfl
    rw [Relies, hphase] at h
    obtain ⟨_, hunrecorded, _⟩ := h
    exact {
      answered := fun _ => id
      recorded := fun _ => id
      archive := fun coordinate granularity hother => by
        refine Files.same_replace hreplaced (hnot _ _) ?_
        rcases hother with hfree | hfile
        · exact hfree.ne_of_holds hholds
        · rw [Files.isFile, hunrecorded] at hfile
          cases hfile
      partialFile := fun path hfree => same_partialFile
        (Files.same_replace hreplaced (hne (hfree.ne_of_holds hholds)) (partialFile_ne _ _ _))
      sibling := fun _ _ => Files.Same.refl _ _
      downloads := fun path hfree _ _ _ hdown =>
        hdown.replace hreplaced (hne (hfree.ne_of_holds hholds)) (partialFile_ne _ _ _) }
  | openedSibling digest hphase =>
    have hholds : fetch.phase.holds := by rw [hphase]; rfl
    refine frame_of_siblings rfl (fun _ => id) (fun name hname => ?_) fun path hfree =>
      Files.same_openForWriting fun hname => hfree.ne_of_holds hholds (sibling_inj hname)
    by_cases hsame : name = fetch.path.sibling
    · rw [hsame, Files.isFile, Files.inode_openForWriting, Option.isSome_some]
    · rw [Files.isFile, Files.inode_openForWriting_of_ne hsame]
      exact hname
  | wroteSibling digest handle written hphase chunk phase _ =>
    have hholds : fetch.phase.holds := by rw [hphase]; rfl
    rw [Relies, hphase] at h
    obtain ⟨_, _, hinode, _⟩ := h
    refine frame_of_siblings rfl (fun _ => id) (fun _ => id) fun path hfree => Files.same_write fun hname => ?_
    exact hfree.ne_of_holds hholds (sibling_inj (disk.siblings.inode_inj hname hinode))
  | unlinked phase _ =>
    exact {
      answered := fun _ => id
      recorded := fun _ => id
      archive := fun _ _ _ => Files.same_unlink (hnot _ _)
      partialFile := fun _ _ _ hid => ⟨Files.inode_of_unlink hid, rfl⟩
      sibling := fun _ _ => Files.Same.refl _ _
      downloads := fun _ _ _ _ _ hdown => hdown.unlink _ }

/-! ### What the other fetches keep -/

section Kept

variable {disk disk' : Disk} {fetch other : Fetch} {input : Input} {path : CachePath} {digest : String}

theorem Disk.Claimed.mono (h : disk.Claimed path digest) (hsub : ∀ entry ∈ disk.answered, entry ∈ disk'.answered) :
    disk'.Claimed path digest := by
  obtain ⟨text, hmem, hparse⟩ := h
  exact ⟨text, hsub _ hmem, hparse⟩

theorem Disk.Hashes.same (h : disk.Hashes sha256 path digest)
    (hsame : Files.Same disk.archives disk'.archives path) : disk'.Hashes sha256 path digest := by
  obtain ⟨bytes, hread, hsha⟩ := h
  exact ⟨bytes, hsame.read.trans hread, hsha⟩

/-- What is served stays as it is, whoever takes a step. -/
theorem Served.frame {coordinate : ArchiveCoordinate} {granularity : Granularity}
    (h : Served sha256 disk (cachePath coordinate granularity) digest) (hframe : Frame disk disk' fetch input) :
    Served sha256 disk' (cachePath coordinate granularity) digest := by
  refine ⟨hframe.recorded _ h.recorded, h.hashes.same (hframe.archive _ _ ?_), h.claimed.mono hframe.answered⟩
  by_cases hpath : cachePath coordinate granularity = fetch.path
  · exact .inr (hpath ▸ h.recorded)
  · exact .inl fun hsame => absurd hsame hpath

/-- A fetch keeps what it relies on while another takes a step, unless both hold the partial file of one archive. -/
theorem Relies.frame (h : Relies sha256 disk other) (hframe : Frame disk disk' fetch input)
    (hfree : other.phase.holds → Free fetch input other.path)
    (hopen : ∀ handle, other.phase.openFile = some handle → fetch.phase.openFile ≠ some handle) :
    Relies sha256 disk' other := by
  obtain ⟨coordinate, granularity, phase⟩ := other
  cases phase with
  | readingSibling => exact hframe.recorded _ h
  | openingArchive claimed => exact Served.frame h hframe
  | hashing claimed handle consumed => exact Served.frame h hframe
  | opening mismatches claimed => exact Disk.Claimed.mono h hframe.answered
  | downloading mismatches claimed handle received =>
    obtain ⟨hclaimed, hunrecorded, hdown⟩ := h
    exact ⟨hclaimed.mono hframe.answered, (hframe.sibling _ (hfree rfl)).inode.trans hunrecorded,
      hframe.downloads _ (hfree rfl) _ _ (hopen handle rfl) hdown⟩
  | replacing digest =>
    obtain ⟨hclaimed, hunrecorded, hdigest⟩ := h
    refine ⟨hclaimed.mono hframe.answered, (hframe.sibling _ (hfree rfl)).inode.trans hunrecorded, fun id hid => ?_⟩
    obtain ⟨hold, hcontents⟩ := hframe.partialFile _ (hfree rfl) id hid
    rw [hcontents]
    exact hdigest id hold
  | openingSibling digest =>
    obtain ⟨hclaimed, hunrecorded, hhashes⟩ := h
    exact ⟨hclaimed.mono hframe.answered, (hframe.sibling _ (hfree rfl)).inode.trans hunrecorded,
      hhashes.same (hframe.archive _ _ (.inl (hfree rfl)))⟩
  | writingSibling digest handle written =>
    obtain ⟨hclaimed, hhashes, hinode, hle, hcontents⟩ := h
    have hsame := hframe.sibling _ (hfree rfl)
    exact ⟨hclaimed.mono hframe.answered, hhashes.same (hframe.archive _ _ (.inl (hfree rfl))),
      hsame.inode.trans hinode, hle, (hsame.contents _ hinode).trans hcontents⟩
  | cleaning outcome =>
    cases outcome with
    | error e => trivial
    | ok record => exact ⟨h.1, Served.frame h.2 hframe⟩
  | done outcome =>
    cases outcome with
    | error e => trivial
    | ok record => exact ⟨h.1, Served.frame h.2 hframe⟩
  | _ => trivial

end Kept

/-! ### What a fetch gives itself -/

section Own

variable {disk : Disk} {fetch : Fetch} {input : Input}

theorem isFile_of_read {files : Files CachePath Char} {name : CachePath} (h : files.isFile name) :
    ∃ text, files.read name = some text := by
  obtain ⟨id, hid⟩ := Option.isSome_iff_exists.mp h
  exact ⟨files.contents id, Files.read_eq_some.mpr ⟨id, hid, rfl⟩⟩

theorem Disk.Claimed.plain {path : CachePath} {digest : String} (h : disk.Claimed path digest) :
    isSha256Hex digest ∧ ∀ c ∈ path.name.toList, isLineBreak c = false := by
  obtain ⟨_, _, hparse⟩ := h
  exact parsed_plain hparse

theorem Records.served {path : CachePath} {text : List Char} {digest : String}
    (h : Records sha256 disk path text digest) (hread : disk.siblings.read path.sibling = some text) :
    Served sha256 disk path digest := by
  obtain ⟨id, hid, _⟩ := Files.read_eq_some.mp hread
  exact ⟨by rw [Files.isFile, hid, Option.isSome_some], h.hashes, h.claimed⟩

/-- However much of a record is there, a fetch that reads a claim in it reads the record's. -/
theorem Records.claims {path : CachePath} {text : List Char} {digest claimed url : String}
    {misnamed : String → Message} (h : Records sha256 disk path text digest)
    (hclaimed : claimedDigest text url path.name misnamed = .ok claimed) : claimed = digest :=
  digest_of_prefix h.claimed.plain.1 h.recordable.unbroken h.cut (claimedDigest_eq_ok.mp hclaimed)

/-- The characters written so far and the next ones. -/
theorem take_append_chunk {α : Type} (l : List α) (written count : ℕ) :
    l.take written ++ (l.drop written).take count = l.take (written + ((l.drop written).take count).length) := by
  rw [List.take_add]
  exact congrArg _ (List.prefix_iff_eq_take.mp (List.take_prefix _ _))

/-- A write where the last one ended. -/
theorem contents_write_next {files : Files CachePath Char} {text : List Char} {handle written : ℕ} (count : ℕ)
    (hle : written ≤ text.length) (hcontents : files.contents handle = text.take written) :
    (files.write handle written ((text.drop written).take count)).contents handle =
      text.take (written + ((text.drop written).take count).length) := by
  have hend := overwrite_end (text.take written) ((text.drop written).take count)
  rw [List.length_take, min_eq_left hle] at hend
  rw [Files.contents_write, hcontents, hend, take_append_chunk]

/-- Every step gives its fetch what it relies on next. -/
theorem next_relies (h : Relies sha256 disk fetch)
    (hrecords : ∀ text, disk.siblings.read fetch.path.sibling = some text →
      ∃ digest, Records sha256 disk fetch.path text digest)
    (hopens : fetch.phase.opensPartial input → ¬disk.IsCached fetch.path) :
    Relies sha256 (fetch.next sha256 disk input).2 { fetch with phase := (fetch.next sha256 disk input).1 } := by
  have hframe := next_frame input h
  obtain ⟨coordinate, granularity, phase⟩ := fetch
  cases phase with
  | lookingForArchive =>
    cases input with
    | proceed =>
      simp only [Fetch.next]
      split <;> trivial
    | _ => trivial
  | lookingForSibling =>
    cases input with
    | proceed =>
      simp only [Fetch.next]
      split
      · next hfile => exact hfile
      · trivial
    | _ => trivial
  | readingSibling =>
    cases input with
    | proceed =>
      simp only [Fetch.next]
      split
      · trivial
      · next text hread =>
        split
        · trivial
        · next claimed hclaimed =>
          obtain ⟨digest, hrecord⟩ := hrecords text hread
          obtain rfl := hrecord.claims hclaimed
          exact hrecord.served hread
    | _ => exact h
  | openingArchive claimed =>
    cases input with
    | proceed =>
      simp only [Fetch.next]
      split
      · trivial
      · exact h
    | _ => exact h
  | hashing claimed handle consumed =>
    cases input with
    | proceed =>
      simp only [Fetch.next]
      split
      · exact h
      · split
        · exact ⟨rfl, h⟩
        · trivial
    | _ => exact h
  | asking mismatches =>
    cases input with
    | answer text =>
      simp only [Fetch.next]
      split
      · trivial
      · next claimed hclaimed =>
        exact ⟨text, List.mem_append_right _ (List.mem_singleton_self _), claimedDigest_eq_ok.mp hclaimed⟩
    | _ => trivial
  | opening mismatches claimed =>
    cases input with
    | proceed =>
      refine ⟨h, ?_, Files.opened_openForWriting _ _⟩
      -- A sibling with no archive beside it would record nothing.
      by_contra hsome
      have hfile : disk.siblings.isFile (cachePath coordinate granularity).sibling :=
        Option.isSome_iff_ne_none.mpr hsome
      obtain ⟨text, hread⟩ := isFile_of_read hfile
      obtain ⟨digest, hrecord⟩ := hrecords text hread
      obtain ⟨bytes, harchive, _⟩ := hrecord.hashes
      obtain ⟨id, hid, _⟩ := Files.read_eq_some.mp harchive
      exact hopens rfl ⟨by rw [Files.isFile, hid, Option.isSome_some], hfile⟩
    | _ => first | exact h | trivial
  | downloading mismatches claimed handle received =>
    obtain ⟨hclaimed, hunrecorded, hdown⟩ := h
    cases input with
    | chunk bytes => exact ⟨hclaimed, hunrecorded, hdown.append bytes⟩
    | endOfBody =>
      simp only [Fetch.next]
      split
      · next hsha =>
        refine ⟨hclaimed, hunrecorded, fun id hid => ?_⟩
        rw [hdown.leads id hid, hdown.holds]
        exact hsha
      · split <;> trivial
    | refused e => trivial
    | _ => exact ⟨hclaimed, hunrecorded, hdown⟩
  | replacing digest =>
    obtain ⟨hclaimed, hunrecorded, hdigest⟩ := h
    cases input with
    | proceed =>
      simp only [Fetch.next]
      split
      · trivial
      · next archives hreplace =>
        obtain ⟨id, hid, hnew, hcontents, _⟩ := Files.replace_eq_some hreplace
        exact ⟨hclaimed, hunrecorded, disk.archives.contents id,
          Files.read_eq_some.mpr ⟨id, hnew, by rw [hcontents]⟩, hdigest id hid⟩
    | _ => exact ⟨hclaimed, hunrecorded, hdigest⟩
  | openingSibling digest =>
    obtain ⟨hclaimed, hunrecorded, hhashes⟩ := h
    cases input with
    | proceed =>
      exact ⟨hclaimed, hhashes, Files.inode_openForWriting, Nat.zero_le _, Files.contents_openForWriting⟩
    | _ => exact ⟨hclaimed, hunrecorded, hhashes⟩
  | writingSibling digest handle written =>
    obtain ⟨hclaimed, hhashes, hinode, hle, hcontents⟩ := h
    cases input with
    | took count =>
      simp only [Fetch.next]
      split
      · next hmore =>
        exact ⟨hclaimed, hhashes, hinode, hmore.le, contents_write_next count hle hcontents⟩
      · exact ⟨rfl, Option.isSome_iff_exists.mpr ⟨handle, hinode⟩, hhashes, hclaimed⟩
    | _ => exact ⟨hclaimed, hhashes, hinode, hle, hcontents⟩
  | cleaning outcome =>
    cases input with
    | proceed =>
      cases outcome with
      | error e => trivial
      | ok record => exact ⟨h.1, Served.frame h.2 hframe⟩
    | _ => exact h
  | done outcome => exact h
  | crashed => trivial

end Own

/-! ### What a step does to the phase -/

section Phases

variable {fetch : Fetch} {input : Input}

/-- A step that leaves its fetch holding a partial file found it so, or opened it. -/
theorem holds_next {disk : Disk} (h : (fetch.next sha256 disk input).1.holds) :
    fetch.phase.holds ∨ fetch.phase.opensPartial input := by
  have heffect := next_effect sha256 fetch disk input
  generalize fetch.next sha256 disk input = after at heffect h
  cases heffect with
  | waited => exact .inl h
  | moved phase hnone => rw [hnone] at h; cases h
  | asked text phase hnone => rw [hnone] at h; cases h
  | openedPartial mismatches claimed hopens => exact .inr hopens
  | wrotePartial handle bytes received mismatches claimed hphase => exact .inl (by rw [hphase]; rfl)
  | verified digest hholds _ => exact .inl hholds
  | renamed digest hphase archives _ => exact .inl (by rw [hphase]; rfl)
  | openedSibling digest hphase => exact .inl (by rw [hphase]; rfl)
  | wroteSibling digest handle written hphase chunk phase _ => exact .inl (by rw [hphase]; rfl)
  | unlinked phase hnone => rw [hnone] at h; cases h

theorem holds_of_openFile {phase : Phase} {handle : ℕ} (h : phase.openFile = some handle) : phase.holds := by
  cases phase with
  | downloading => rfl
  | _ => cases h

/-- The open file of a fetch after a step is the one it had, or one it opened. -/
theorem openFile_next {disk : Disk} {handle : ℕ} (h : (fetch.next sha256 disk input).1.openFile = some handle) :
    fetch.phase.openFile = some handle ∨
      fetch.phase.opensPartial input ∧ handle = (disk.archives.openForWriting fetch.path.partialFile).1 := by
  have heffect := next_effect sha256 fetch disk input
  generalize fetch.next sha256 disk input = after at heffect h
  cases heffect with
  | waited => exact .inl h
  | moved phase hnone => rw [holds_of_openFile h] at hnone; cases hnone
  | asked text phase hnone => rw [holds_of_openFile h] at hnone; cases hnone
  | openedPartial mismatches claimed hopens => exact .inr ⟨hopens, (Option.some.inj h).symm⟩
  | wrotePartial other bytes received mismatches claimed hphase =>
    rw [hphase]
    exact .inl h
  | verified digest _ _ => cases h
  | renamed digest hphase archives _ => cases h
  | openedSibling digest hphase => cases h
  | wroteSibling digest other written hphase chunk phase hnone => rw [hnone] at h; cases h
  | unlinked phase hnone => rw [holds_of_openFile h] at hnone; cases hnone

/-- A step that neither finds nor leaves a sibling being written changes no sibling. -/
theorem siblings_next {disk : Disk} (hbefore : fetch.phase.writesSibling = false)
    (hafter : (fetch.next sha256 disk input).1.writesSibling = false) :
    (fetch.next sha256 disk input).2.siblings = disk.siblings := by
  have heffect := next_effect sha256 fetch disk input
  generalize fetch.next sha256 disk input = after at heffect hafter ⊢
  cases heffect with
  | openedSibling digest _ => cases hafter
  | wroteSibling digest handle written hphase chunk phase _ => rw [hphase] at hbefore; cases hbefore
  | _ => rfl

/-- A sibling on disk and the digest it records of the archive beside it. -/
structure Written (sha256 : List UInt8 → String) (disk : Disk) (path : CachePath) (digest : String) (handle : ℕ) : Prop where
  claimed : disk.Claimed path digest
  hashes : disk.Hashes sha256 path digest
  inode : disk.siblings.inode path.sibling = some handle
  cut : disk.siblings.contents handle <+: siblingText digest path.name

theorem Relies.written {disk : Disk} (h : Relies sha256 disk fetch) (hwrites : fetch.phase.writesSibling) :
    ∃ digest handle, Written sha256 disk fetch.path digest handle := by
  obtain ⟨coordinate, granularity, phase⟩ := fetch
  cases phase with
  | writingSibling digest handle written =>
    obtain ⟨hclaimed, hhashes, hinode, _, hcontents⟩ := h
    exact ⟨digest, handle, hclaimed, hhashes, hinode, hcontents ▸ List.take_prefix _ _⟩
  | _ => cases hwrites

/-- A sibling that is written, or was until this step, is a prefix of its record. -/
theorem written_next {disk : Disk} (h : Relies sha256 disk fetch)
    (hnext : Relies sha256 (fetch.next sha256 disk input).2
      { fetch with phase := (fetch.next sha256 disk input).1 })
    (hwrites : fetch.phase.writesSibling ∨ (fetch.next sha256 disk input).1.writesSibling) :
    ∃ digest handle, Written sha256 (fetch.next sha256 disk input).2 fetch.path digest handle ∧
      ((fetch.next sha256 disk input).2.siblings.contents handle = siblingText digest fetch.path.name ∨
        (fetch.next sha256 disk input).1.writesSibling) := by
  by_cases hafter : (fetch.next sha256 disk input).1.writesSibling
  · obtain ⟨digest, handle, hwritten⟩ := hnext.written hafter
    exact ⟨digest, handle, hwritten, .inr hafter⟩
  · have hbefore := hwrites.resolve_right hafter
    obtain ⟨coordinate, granularity, phase⟩ := fetch
    cases phase with
    | writingSibling digest handle written =>
      obtain ⟨hclaimed, hhashes, hinode, hle, hcontents⟩ := h
      cases input with
      | took count =>
        have hdone := contents_write_next count hle hcontents
        simp only [Fetch.next] at hafter ⊢
        split at hafter
        · exact absurd rfl hafter
        · next hall =>
          rw [List.take_of_length_le (not_lt.mp hall)] at hdone
          exact ⟨digest, handle, ⟨hclaimed, hhashes, hinode, [], (List.append_nil _).trans hdone⟩, .inl hdone⟩
      | _ => exact absurd rfl hafter
    | _ => cases hbefore

theorem Relies.opened {disk : Disk} {handle : ℕ} (h : Relies sha256 disk fetch)
    (hopen : fetch.phase.openFile = some handle) :
    ∃ received, Files.Opened disk.archives fetch.path.partialFile handle received := by
  obtain ⟨coordinate, granularity, phase⟩ := fetch
  cases phase with
  | downloading mismatches claimed other received =>
    obtain rfl := Option.some.inj hopen
    exact ⟨received, h.2.2⟩
  | _ => cases hopen

end Phases

end FinanceKing.Data.ArchiveCache
