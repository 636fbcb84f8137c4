import FinanceKing.Data.ArchiveCacheSteps
import FinanceKing.Lib.Fold

/-! What the archive cache keeps while fetches interleave and are cut off. As long as one fetch at a time downloads an
    archive that is not cached, and none is cut off inside the write of its sibling, a sibling on disk is a prefix of
    the record of the archive beside it: whatever is served was verified, and a fetch that runs alone returns. -/

namespace FinanceKing.Data.ArchiveCache

open Lib

/-! ### What must hold -/

/-- Whatever a fetch returns in this step is at its path, and upstream claimed its digest. -/
def ReturnsVerified (sha256 : List UInt8 → String) (s : CacheState) (event : CacheEvent) : Prop :=
  ∀ (i : ℕ) (fetch : Fetch) (record : FetchedArchive), (s.step sha256 event).fetches[i]? = some fetch →
    fetch.phase = .done (.ok record) → s.fetches[i]? ≠ some fetch →
    (s.step sha256 event).Hashes sha256 record.path record.sha256Hex ∧
      (s.step sha256 event).Claimed record.path record.sha256Hex

/-- An upstream that answers: a sibling, the archive's bytes, and how much of a body or a write goes at once. -/
structure Upstream where
  sibling : String
  bytes : List UInt8
  cut : ℕ → ℕ
  cut_pos : ∀ position, 0 < cut position

namespace Upstream

/-- The sibling names the archive, with the digest of its bytes. -/
def Agrees (sha256 : List UInt8 → String) (upstream : Upstream) (path : CachePath) : Prop :=
  parseChecksumSibling upstream.sibling.toList (path.url ++ ".CHECKSUM") = .ok ⟨sha256 upstream.bytes, path.name⟩

/-- What a fetch meets in each phase. -/
def input (upstream : Upstream) : Phase → Input
  | .asking _ => .answer upstream.sibling
  | .downloading _ _ _ received =>
    if received.length < upstream.bytes.length then
      .chunk ((upstream.bytes.drop received.length).take (upstream.cut received.length))
    else .endOfBody
  | .writingSibling _ _ written => .took (upstream.cut written)
  | _ => .proceed

end Upstream

/-- One step of a fetch that nothing interrupts. -/
def aloneStep (sha256 : List UInt8 → String) (upstream : Upstream) (fetch : Fetch) (now : Phase × Disk) :
    Phase × Disk :=
  { fetch with phase := now.1 }.next sha256 now.2 (upstream.input now.1)

/-- The fetch has returned, raised or been cut off. -/
def Fetch.IsOver (fetch : Fetch) : Prop := fetch.phase = .crashed ∨ ∃ outcome, fetch.phase = .done outcome

/-- Once no fetch is under way, a fetch that runs alone against an upstream that agrees with itself returns. -/
def Recovers (sha256 : List UInt8 → String) (s : CacheState) : Prop :=
  (∀ fetch ∈ s.fetches, fetch.IsOver) →
    ∀ coordinate todayUtc granularity (upstream : Upstream),
      upstream.Agrees sha256 (Fetch.start coordinate todayUtc granularity).path →
      ∃ n record disk, (aloneStep sha256 upstream (Fetch.start coordinate todayUtc granularity))^[n]
        (.lookingForArchive, s.toDisk) = (.done (.ok record), disk)

/-! ### The condition on a step -/

/-- A fetch is of a symbol with no leading star; it opens the partial file only while the archive is not cached and no
    other fetch of it holds that file; and none is cut off inside the write of a sibling. -/
def Orderly (s : CacheState) : CacheEvent → Prop
  | .start coordinate _ _ => coordinate.symbol.toList.head? ≠ some '*'
  | .advance i input => ∀ fetch ∈ s.fetches[i]?, fetch.phase.opensPartial input →
      ¬s.IsCached fetch.path ∧
        ∀ other ∈ s.fetches.eraseIdx i, other.path = fetch.path → other.phase.holds = false
  | .crash i => ∀ fetch ∈ s.fetches[i]?, fetch.phase.writesSibling = false

instance (s : CacheState) : ∀ event, Decidable (Orderly s event)
  | .start coordinate _ _ => inferInstanceAs (Decidable (coordinate.symbol.toList.head? ≠ some '*'))
  | .advance i input => inferInstanceAs (Decidable (∀ fetch ∈ s.fetches[i]?, fetch.phase.opensPartial input →
      ¬(s.archives.isFile fetch.path ∧ s.siblings.isFile fetch.path.sibling) ∧
        ∀ other ∈ s.fetches.eraseIdx i, other.path = fetch.path → other.phase.holds = false))
  | .crash i => inferInstanceAs (Decidable (∀ fetch ∈ s.fetches[i]?, fetch.phase.writesSibling = false))

/-! ### The step lemma -/

/-- What holds in every state: each fetch has what it relies on, one fetch at a time holds the partial file of an
    archive, open files are not shared, and every sibling records its archive, whole unless a fetch is writing it. -/
structure Sound (sha256 : List UInt8 → String) (s : CacheState) : Prop where
  relies : ∀ fetch ∈ s.fetches, Relies sha256 s.toDisk fetch
  unstarred : ∀ fetch ∈ s.fetches, fetch.coordinate.symbol.toList.head? ≠ some '*'
  one : ∀ {i j : ℕ} {fetch other : Fetch}, s.fetches[i]? = some fetch → s.fetches[j]? = some other →
    fetch.path = other.path → fetch.phase.holds → other.phase.holds → i = j
  apart : ∀ {i j : ℕ} {fetch other : Fetch} {handle : ℕ}, s.fetches[i]? = some fetch → s.fetches[j]? = some other →
    fetch.phase.openFile = some handle → other.phase.openFile = some handle → i = j
  records : ∀ coordinate granularity text,
    s.siblings.read (cachePath coordinate granularity).sibling = some text →
    ∃ digest, Records sha256 s.toDisk (cachePath coordinate granularity) text digest ∧
      (text = siblingText digest (cachePath coordinate granularity).name ∨
        ∃ fetch ∈ s.fetches, fetch.path = cachePath coordinate granularity ∧ fetch.phase.writesSibling)

variable {sha256 : List UInt8 → String}

section Step

variable {s : CacheState} {fetch : Fetch} {input : Input}

theorem sound_init : Sound sha256 CacheState.init where
  relies := fun _ h => by cases h
  unstarred := fun _ h => by cases h
  one := fun h => by cases h
  apart := fun h => by cases h
  records := fun _ _ _ h => by cases h

theorem getElem?_set_cases {l : List Fetch} {i j : ℕ} {next other : Fetch} (h : (l.set i next)[j]? = some other) :
    j = i ∧ other = next ∨ j ≠ i ∧ l[j]? = some other := by
  rw [List.getElem?_set] at h
  split at h
  · split at h
    · exact .inl ⟨‹i = j›.symm, (Option.some.inj h).symm⟩
    · cases h
  · exact .inr ⟨fun hsame => ‹¬i = j› hsame.symm, h⟩

theorem mem_set_cases {l : List Fetch} {i : ℕ} {next other : Fetch} (h : other ∈ l.set i next) :
    other = next ∨ ∃ j, j ≠ i ∧ l[j]? = some other := by
  obtain ⟨j, hj⟩ := List.mem_iff_getElem?.mp h
  rcases getElem?_set_cases hj with ⟨_, hnew⟩ | ⟨hne, hold⟩
  · exact .inl hnew
  · exact .inr ⟨j, hne, hold⟩

theorem mem_set_of_ne {l : List Fetch} {i j : ℕ} {next other : Fetch} (hne : j ≠ i) (h : l[j]? = some other) :
    other ∈ l.set i next := by
  refine List.mem_iff_getElem?.mpr ⟨j, ?_⟩
  rw [List.getElem?_set_ne hne.symm]
  exact h

theorem Sound.start (h : Sound sha256 s) {coordinate : ArchiveCoordinate} {todayUtc : Date}
    {granularity : Option Granularity} (hstar : coordinate.symbol.toList.head? ≠ some '*') :
    Sound sha256 { s with fetches := s.fetches ++ [Fetch.start coordinate todayUtc granularity] } := by
  have hcases : ∀ {j : ℕ} {other : Fetch},
      (s.fetches ++ [Fetch.start coordinate todayUtc granularity])[j]? = some other →
      s.fetches[j]? = some other ∨ other = Fetch.start coordinate todayUtc granularity := by
    intro j other hj
    rw [List.getElem?_append] at hj
    split at hj
    · exact .inl hj
    · exact .inr (List.mem_singleton.mp (List.mem_of_getElem? hj))
  refine ⟨fun other hother => ?_, fun other hother => ?_, fun hi hj hpath hholds hholds' => ?_,
    fun hi hj hopen hopen' => ?_, fun coordinate granularity text hread => ?_⟩
  · rcases List.mem_append.mp hother with hold | hnew
    · exact h.relies other hold
    · rw [List.mem_singleton.mp hnew]
      trivial
  · rcases List.mem_append.mp hother with hold | hnew
    · exact h.unstarred other hold
    · rw [List.mem_singleton.mp hnew]
      exact hstar
  · rcases hcases hi with hi | rfl
    · rcases hcases hj with hj | rfl
      · exact h.one hi hj hpath hholds hholds'
      · cases hholds'
    · cases hholds
  · rcases hcases hi with hi | rfl
    · rcases hcases hj with hj | rfl
      · exact h.apart hi hj hopen hopen'
      · cases hopen'
    · cases hopen
  · obtain ⟨digest, hrecords, hwhole⟩ := h.records coordinate granularity text hread
    refine ⟨digest, hrecords, hwhole.imp id ?_⟩
    rintro ⟨writer, hwriter, hwrites⟩
    exact ⟨writer, List.mem_append_left _ hwriter, hwrites⟩

theorem Sound.advance (h : Sound sha256 s) {i : ℕ} (hfetch : s.fetches[i]? = some fetch)
    (horderly : Orderly s (.advance i input)) :
    Sound sha256 ⟨(fetch.next sha256 s.toDisk input).2,
      s.fetches.set i { fetch with phase := (fetch.next sha256 s.toDisk input).1 }⟩ := by
  have hmem := List.mem_of_getElem? hfetch
  have hrelies := h.relies fetch hmem
  have hframe := next_frame input hrelies
  have hopens : fetch.phase.opensPartial input → ¬s.toDisk.IsCached fetch.path :=
    fun hopens => (horderly fetch hfetch hopens).1
  have hnext := next_relies hrelies (fun text hread => by
    obtain ⟨digest, hrecords, _⟩ := h.records fetch.coordinate fetch.granularity text hread
    exact ⟨digest, hrecords⟩) hopens
  -- Another fetch that holds the partial file of the same archive rules out that this one does, or opens it.
  have hfree : ∀ {j : ℕ} {other : Fetch}, j ≠ i → s.fetches[j]? = some other → other.phase.holds →
      Free fetch input other.path := by
    intro j other hne hj hholds hpath
    constructor
    · by_contra hholds'
      exact hne (h.one hj hfetch hpath hholds (Bool.of_not_eq_false hholds'))
    · by_contra hopens
      rw [(horderly fetch hfetch (Bool.of_not_eq_false hopens)).2 other
        (List.mem_eraseIdx_iff_getElem?.mpr ⟨j, hne, hj⟩) hpath] at hholds
      cases hholds
  have hone : ∀ {j : ℕ} {other : Fetch}, j ≠ i → s.fetches[j]? = some other → fetch.path = other.path →
      (fetch.next sha256 s.toDisk input).1.holds → other.phase.holds → False := by
    intro j other hne hj hpath hholds hholds'
    obtain ⟨hnot, hnot'⟩ := hfree hne hj hholds' hpath.symm
    rcases holds_next hholds with hheld | hopened
    · rw [hnot] at hheld
      cases hheld
    · rw [hnot'] at hopened
      cases hopened
  have hapart : ∀ {j : ℕ} {other : Fetch} {handle : ℕ}, j ≠ i → s.fetches[j]? = some other →
      (fetch.next sha256 s.toDisk input).1.openFile = some handle → other.phase.openFile = some handle → False := by
    intro j other handle hne hj hopen hopen'
    rcases openFile_next hopen with hheld | ⟨hopened, rfl⟩
    · exact hne (h.apart hj hfetch hopen' hheld)
    · obtain ⟨received, hdown⟩ := (h.relies other (List.mem_of_getElem? hj)).opened hopen'
      refine Files.openForWriting_ne hdown.old (fun hname => ?_) rfl
      have hpath := partialFile_inj (hdown.named _ hname)
      exact hone hne hj hpath (holds_of_openFile hopen) (holds_of_openFile hopen')
  refine ⟨fun other hother => ?_, fun other hother => ?_, fun hi hj hpath hholds hholds' => ?_,
    fun hi hj hopen hopen' => ?_, fun coordinate granularity text hread => ?_⟩
  · rcases mem_set_cases hother with rfl | ⟨j, hne, hj⟩
    · exact hnext
    · refine (h.relies other (List.mem_of_getElem? hj)).frame hframe (hfree hne hj) fun handle hopen hopen' => ?_
      exact hne (h.apart hj hfetch hopen hopen')
  · rcases mem_set_cases hother with rfl | ⟨j, _, hj⟩
    · exact h.unstarred fetch hmem
    · exact h.unstarred other (List.mem_of_getElem? hj)
  · rcases getElem?_set_cases hi with ⟨rfl, rfl⟩ | ⟨hne, hold⟩
    · rcases getElem?_set_cases hj with ⟨rfl, _⟩ | ⟨hne, hold⟩
      · rfl
      · exact (hone hne hold hpath hholds hholds').elim
    · rcases getElem?_set_cases hj with ⟨rfl, rfl⟩ | ⟨_, hold'⟩
      · exact (hone hne hold hpath.symm hholds' hholds).elim
      · exact h.one hold hold' hpath hholds hholds'
  · rcases getElem?_set_cases hi with ⟨rfl, rfl⟩ | ⟨hne, hold⟩
    · rcases getElem?_set_cases hj with ⟨rfl, _⟩ | ⟨hne, hold⟩
      · rfl
      · exact (hapart hne hold hopen hopen').elim
    · rcases getElem?_set_cases hj with ⟨rfl, rfl⟩ | ⟨_, hold'⟩
      · exact (hapart hne hold hopen' hopen).elim
      · exact h.apart hold hold' hopen hopen'
  · by_cases hmine : cachePath coordinate granularity = fetch.path ∧
        (fetch.phase.writesSibling ∨ (fetch.next sha256 s.toDisk input).1.writesSibling)
    · obtain ⟨hpath, hwrites⟩ := hmine
      rw [hpath] at hread ⊢
      obtain ⟨digest, handle, hwritten, hwhole⟩ := written_next hrelies hnext hwrites
      obtain ⟨id, hid, htext⟩ := Files.read_eq_some.mp hread
      obtain rfl := Option.some.inj (hid.symm.trans hwritten.inode)
      have hrecordable : Recordable fetch.path.name :=
        cachePath_recordable (h.unstarred fetch hmem) hwritten.claimed.plain.2
      refine ⟨digest, ⟨hwritten.claimed, hwritten.hashes, hrecordable, htext ▸ hwritten.cut⟩, ?_⟩
      refine hwhole.imp (fun hfull => htext ▸ hfull) fun hwriting =>
        ⟨{ fetch with phase := (fetch.next sha256 s.toDisk input).1 }, ?_, rfl, hwriting⟩
      exact List.mem_set (List.getElem?_eq_some_iff.mp hfetch).1 _
    · have hsame : Files.Same s.siblings (fetch.next sha256 s.toDisk input).2.siblings
          (cachePath coordinate granularity).sibling := by
        by_cases hpath : cachePath coordinate granularity = fetch.path
        · push Not at hmine
          obtain ⟨hbefore, hafter⟩ := hmine hpath
          rw [siblings_next (Bool.eq_false_iff.mpr hbefore) (Bool.eq_false_iff.mpr hafter)]
          exact Files.Same.refl _ _
        · exact hframe.sibling _ fun hsame => absurd hsame hpath
      have hread' : s.siblings.read (cachePath coordinate granularity).sibling = some text := hsame.read ▸ hread
      obtain ⟨digest, hrecords, hwhole⟩ := h.records coordinate granularity text hread'
      have hserved := (hrecords.served hread').frame hframe
      refine ⟨digest, ⟨hserved.claimed, hserved.hashes, hrecords.recordable, hrecords.cut⟩, hwhole.imp id ?_⟩
      rintro ⟨writer, hwriter, hpath, hwriting⟩
      obtain ⟨j, hj⟩ := List.mem_iff_getElem?.mp hwriter
      refine ⟨writer, mem_set_of_ne (fun hsame => hmine ?_) hj, hpath, hwriting⟩
      rw [hsame, hfetch] at hj
      obtain rfl := Option.some.inj hj
      exact ⟨hpath.symm, .inl hwriting⟩

theorem Sound.crash (h : Sound sha256 s) {i : ℕ} (hfetch : s.fetches[i]? = some fetch)
    (hwrites : fetch.phase.writesSibling = false) :
    Sound sha256 { s with fetches := s.fetches.set i { fetch with phase := .crashed } } := by
  refine ⟨fun other hother => ?_, fun other hother => ?_, fun hi hj hpath hholds hholds' => ?_,
    fun hi hj hopen hopen' => ?_, fun coordinate granularity text hread => ?_⟩
  · rcases mem_set_cases hother with rfl | ⟨j, _, hj⟩
    · trivial
    · exact h.relies other (List.mem_of_getElem? hj)
  · rcases mem_set_cases hother with rfl | ⟨j, _, hj⟩
    · exact h.unstarred fetch (List.mem_of_getElem? hfetch)
    · exact h.unstarred other (List.mem_of_getElem? hj)
  · rcases getElem?_set_cases hi with ⟨_, rfl⟩ | ⟨_, hi⟩
    · cases hholds
    · rcases getElem?_set_cases hj with ⟨_, rfl⟩ | ⟨_, hj⟩
      · cases hholds'
      · exact h.one hi hj hpath hholds hholds'
  · rcases getElem?_set_cases hi with ⟨_, rfl⟩ | ⟨_, hi⟩
    · cases hopen
    · rcases getElem?_set_cases hj with ⟨_, rfl⟩ | ⟨_, hj⟩
      · cases hopen'
      · exact h.apart hi hj hopen hopen'
  · obtain ⟨digest, hrecords, hwhole⟩ := h.records coordinate granularity text hread
    refine ⟨digest, hrecords, hwhole.imp id ?_⟩
    rintro ⟨writer, hwriter, hpath, hwriting⟩
    obtain ⟨j, hj⟩ := List.mem_iff_getElem?.mp hwriter
    refine ⟨writer, mem_set_of_ne (fun hsame => ?_) hj, hpath, hwriting⟩
    rw [hsame, hfetch] at hj
    rw [← Option.some.inj hj, hwrites] at hwriting
    cases hwriting

/-- An orderly step keeps the cache sound. -/
theorem Sound.step (h : Sound sha256 s) {event : CacheEvent} (horderly : Orderly s event) :
    Sound sha256 (s.step sha256 event) := by
  cases event with
  | start coordinate todayUtc granularity => exact h.start horderly
  | advance i input =>
    rw [CacheState.step]
    cases hfetch : s.fetches[i]? with
    | none => exact h
    | some fetch => exact h.advance hfetch horderly
  | crash i =>
    rw [CacheState.step]
    cases hfetch : s.fetches[i]? with
    | none => exact h
    | some fetch =>
      dsimp only
      split
      · exact h
      · exact h.crash hfetch (horderly fetch hfetch)

end Step

/-! ### A fetch that runs alone -/

section Alone

variable (sha256) (upstream : Upstream) (fetch : Fetch)

/-- From here the fetch returns, if nothing interrupts it. -/
def ReturnsAlone (now : Phase × Disk) : Prop :=
  ∃ n record disk, (aloneStep sha256 upstream fetch)^[n] now = (.done (.ok record), disk)

variable {sha256 upstream fetch} {disk : Disk}

theorem ReturnsAlone.step {now : Phase × Disk}
    (h : ReturnsAlone sha256 upstream fetch (aloneStep sha256 upstream fetch now)) :
    ReturnsAlone sha256 upstream fetch now := by
  obtain ⟨n, record, disk, hdone⟩ := h
  exact ⟨n + 1, record, disk, hdone⟩

theorem returnsAlone_done (record : FetchedArchive) : ReturnsAlone sha256 upstream fetch (.done (.ok record), disk) :=
  ⟨0, record, disk, rfl⟩

theorem returnsAlone_cleaning (record : FetchedArchive) :
    ReturnsAlone sha256 upstream fetch (.cleaning (.ok record), disk) :=
  ReturnsAlone.step (returnsAlone_done record)

theorem chunk_length_pos {α : Type} {l : List α} {position count : ℕ} (hposition : position < l.length)
    (hcount : 0 < count) : 0 < ((l.drop position).take count).length := by
  rw [List.length_take, List.length_drop]
  omega

/-- The sibling is written to its end, however much of it goes at once. -/
theorem returnsAlone_writingSibling (digest : String) (handle written : ℕ) :
    ReturnsAlone sha256 upstream fetch (.writingSibling digest handle written, disk) := by
  generalize hleft : (siblingText digest fetch.path.name).length - written = left
  induction left using Nat.strong_induction_on generalizing written disk with
  | _ left ih =>
    refine ReturnsAlone.step ?_
    simp only [aloneStep, Upstream.input, Fetch.next]
    split
    · next hmore =>
      have hcount : written +
          (((siblingText digest fetch.path.name).drop written).take (upstream.cut written)).length <
          (siblingText digest fetch.path.name).length := hmore
      have hpos := chunk_length_pos (show written < (siblingText digest fetch.path.name).length by omega)
        (upstream.cut_pos written)
      exact ih ((siblingText digest fetch.path.name).length -
        (written + (((siblingText digest fetch.path.name).drop written).take (upstream.cut written)).length))
        (by omega) _ rfl
    · exact returnsAlone_cleaning _

theorem returnsAlone_replacing {digest : String} {id : ℕ}
    (hinode : disk.archives.inode fetch.path.partialFile = some id) :
    ReturnsAlone sha256 upstream fetch (.replacing digest, disk) := by
  obtain ⟨archives, hreplace⟩ : ∃ archives, disk.archives.replace
      { fetch with phase := .replacing digest }.path.partialFile { fetch with phase := .replacing digest }.path =
        some archives := Files.replace_isSome hinode
  refine ReturnsAlone.step ?_
  simp only [aloneStep, Upstream.input, Fetch.next, hreplace]
  exact ReturnsAlone.step (returnsAlone_writingSibling _ _ _)

/-- A prefix and the next characters are a prefix. -/
theorem prefix_append_chunk {α : Type} {l taken : List α} (h : taken <+: l) (count : ℕ) :
    taken ++ (l.drop taken.length).take count <+: l := by
  have hwhole := take_append_chunk l taken.length count
  rw [← List.prefix_iff_eq_take.mp h] at hwhole
  rw [hwhole]
  exact List.take_prefix _ _

/-- The body arrives to its end, however it is cut. -/
theorem returnsAlone_downloading {mismatches : List (String × String)} {handle : ℕ} {received : List UInt8}
    (hreceived : received <+: upstream.bytes) (hinode : disk.archives.inode fetch.path.partialFile = some handle) :
    ReturnsAlone sha256 upstream fetch
      (.downloading mismatches (sha256 upstream.bytes) handle received, disk) := by
  generalize hleft : upstream.bytes.length - received.length = left
  induction left using Nat.strong_induction_on generalizing received disk with
  | _ left ih =>
    refine ReturnsAlone.step ?_
    by_cases hmore : received.length < upstream.bytes.length
    · simp only [aloneStep, Upstream.input, if_pos hmore, Fetch.next]
      have hpos := chunk_length_pos hmore (upstream.cut_pos received.length)
      refine ih _ ?_ (prefix_append_chunk hreceived _) hinode rfl
      rw [List.length_append]
      omega
    · obtain rfl := hreceived.eq_of_length_le (not_lt.mp hmore)
      simp only [aloneStep, Upstream.input, if_neg hmore, Fetch.next, if_true]
      exact returnsAlone_replacing hinode

theorem returnsAlone_asking (hagrees : upstream.Agrees sha256 fetch.path) :
    ReturnsAlone sha256 upstream fetch (.asking [], disk) := by
  have hdigest : { fetch with phase := .asking [] }.upstreamDigest upstream.sibling = .ok (sha256 upstream.bytes) :=
    claimedDigest_eq_ok.mpr hagrees
  refine ReturnsAlone.step ?_
  simp only [aloneStep, Upstream.input, Fetch.next, hdigest]
  refine ReturnsAlone.step ?_
  simp only [aloneStep, Upstream.input, Fetch.next]
  exact returnsAlone_downloading (List.nil_prefix) Files.inode_openForWriting

/-- A recorded archive is hashed to its end, and matches. -/
theorem returnsAlone_hashing {claimed : String} {handle : ℕ} {consumed bytes : List UInt8}
    (hcontents : disk.archives.contents handle = bytes) (hsha : sha256 bytes = claimed)
    (hconsumed : consumed <+: bytes) :
    ReturnsAlone sha256 upstream fetch (.hashing claimed handle consumed, disk) := by
  generalize hleft : bytes.length - consumed.length = left
  induction left using Nat.strong_induction_on generalizing consumed with
  | _ left ih =>
    refine ReturnsAlone.step ?_
    simp only [aloneStep, Upstream.input, Fetch.next, hcontents]
    split
    · next hchunk =>
      have hpos := List.length_pos_of_ne_nil hchunk
      have hlength := (prefix_append_chunk hconsumed hashChunkBytes).length_le
      rw [List.length_append] at hlength
      refine ih _ ?_ (prefix_append_chunk hconsumed _) rfl
      rw [List.length_append]
      omega
    · next hchunk =>
      have hall : ¬consumed.length < bytes.length := fun hmore =>
        hchunk (List.ne_nil_of_length_pos (chunk_length_pos hmore (by decide)))
      obtain rfl := hconsumed.eq_of_length_le (not_lt.mp hall)
      rw [if_pos hsha]
      exact returnsAlone_done _

/-- An archive that is recorded whole is served. -/
theorem returnsAlone_cached {digest : String} {bytes : List UInt8} (hdigest : isSha256Hex digest)
    (hname : Recordable fetch.path.name) (harchive : disk.archives.read fetch.path = some bytes)
    (hsha : sha256 bytes = digest)
    (hsibling : disk.siblings.read fetch.path.sibling = some (siblingText digest fetch.path.name)) :
    ReturnsAlone sha256 upstream fetch (.readingSibling, disk) := by
  obtain ⟨handle, hhandle, hcontents⟩ := Files.read_eq_some.mp harchive
  have hread : disk.siblings.read { fetch with phase := .readingSibling }.path.sibling = _ := hsibling
  have hclaim :
      { fetch with phase := .readingSibling }.cachedDigest (siblingText digest fetch.path.name) = .ok digest :=
    claimedDigest_eq_ok.mpr (parse_siblingText hdigest hname)
  have hinode : disk.archives.inode { fetch with phase := .openingArchive digest }.path = some handle := hhandle
  refine ReturnsAlone.step ?_
  simp only [aloneStep, Upstream.input, Fetch.next, hread, hclaim]
  refine ReturnsAlone.step ?_
  simp only [aloneStep, Upstream.input, Fetch.next, hinode]
  exact returnsAlone_hashing hcontents hsha List.nil_prefix

end Alone

theorem Sound.recovers {s : CacheState} (h : Sound sha256 s) : Recovers sha256 s := by
  intro hover coordinate todayUtc granularity upstream hagrees
  generalize hfetch : Fetch.start coordinate todayUtc granularity = fetch at hagrees ⊢
  change ReturnsAlone sha256 upstream fetch (.lookingForArchive, s.toDisk)
  refine ReturnsAlone.step ?_
  simp only [aloneStep, Upstream.input, Fetch.next]
  split
  · refine ReturnsAlone.step ?_
    simp only [aloneStep, Upstream.input, Fetch.next]
    split
    · next hsibling =>
      obtain ⟨text, hread⟩ := isFile_of_read hsibling
      obtain ⟨digest, hrecords, hwhole⟩ := h.records fetch.coordinate fetch.granularity text hread
      -- No fetch is under way, so none is writing the record.
      have htext : text = siblingText digest fetch.path.name := by
        refine hwhole.resolve_right ?_
        rintro ⟨writer, hwriter, _, hwriting⟩
        rcases hover writer hwriter with hcrashed | ⟨outcome, hdone⟩
        · rw [hcrashed] at hwriting
          cases hwriting
        · rw [hdone] at hwriting
          cases hwriting
      obtain ⟨bytes, harchive, hsha⟩ := hrecords.hashes
      exact returnsAlone_cached hrecords.claimed.plain.1 hrecords.recordable harchive hsha (htext ▸ hread)
    · exact returnsAlone_asking hagrees
  · exact returnsAlone_asking hagrees

theorem Sound.returnsVerified {s : CacheState} {event : CacheEvent} (h : Sound sha256 (s.step sha256 event)) :
    ReturnsVerified sha256 s event := by
  intro i fetch record hfetch hphase _
  have hrelies := h.relies fetch (List.mem_of_getElem? hfetch)
  rw [Relies, hphase] at hrelies
  obtain ⟨hpath, hserved⟩ := hrelies
  rw [hpath]
  exact ⟨hserved.hashes, hserved.claimed⟩

/-! ### Runs -/

theorem sound_run {events : List CacheEvent}
    (hmeet : StepsMeet (CacheState.step sha256) Orderly CacheState.init events) :
    Sound sha256 (CacheState.init.run sha256 events) :=
  foldl_invariant (fun _ _ h horderly => h.step horderly) hmeet sound_init

/-- In a run of orderly steps, whatever is returned was verified, and whenever no fetch is under way a fetch that runs
    alone recovers. -/
theorem archiveCache_verified (sha256 : List UInt8 → String) {events : List CacheEvent}
    (hmeet : StepsMeet (CacheState.step sha256) Orderly CacheState.init events) :
    (∀ earlier event, earlier ++ [event] <+: events →
      ReturnsVerified sha256 (CacheState.init.run sha256 earlier) event) ∧
    ∀ earlier, earlier <+: events → Recovers sha256 (CacheState.init.run sha256 earlier) := by
  have hsound : ∀ earlier, earlier <+: events → Sound sha256 (CacheState.init.run sha256 earlier) :=
    fun earlier hearlier => sound_run (stepsMeet_earlier hearlier hmeet)
  refine ⟨fun earlier event hearlier => Sound.returnsVerified ?_,
    fun earlier hearlier => (hsound earlier hearlier).recovers⟩
  have hnext := hsound _ hearlier
  rwa [CacheState.run, List.foldl_append, List.foldl_cons, List.foldl_nil] at hnext

/-- A daily kline archive. -/
def klinesArchive : ArchiveCoordinate where
  market := .spot
  dataset := .klines
  symbol := "BTCUSDT"
  archiveDate := 20666
  interval := some "1m"
  checked := by decide +kernel

/-- A digest that tells an empty file from one that is not. -/
def emptiness (bytes : List UInt8) : String :=
  if bytes = [] then "0000000000000000000000000000000000000000000000000000000000000000"
  else "aaaaaaaaaaaaaaaaaaaaaaaaaaaaaaaaaaaaaaaaaaaaaaaaaaaaaaaaaaaaaaaa"

/-- What upstream says of an archive of one byte. -/
def klinesSibling : String :=
  "aaaaaaaaaaaaaaaaaaaaaaaaaaaaaaaaaaaaaaaaaaaaaaaaaaaaaaaaaaaaaaaa  BTCUSDT-1m-2026-08-01.zip"

/-- A fetch downloads the archive and is about to commit it. -/
def downloaded : List CacheEvent :=
  [.start klinesArchive 20666 none, .advance 0 .proceed, .advance 0 (.answer klinesSibling), .advance 0 .proceed,
    .advance 0 (.chunk [1]), .advance 0 .endOfBody]

/-- The first fetch commits the archive and records it. -/
def committed : List CacheEvent := downloaded ++ [.advance 0 .proceed, .advance 0 .proceed, .advance 0 (.took 128)]

/-- It is cut off between the rename and the record instead. -/
def unrecorded : List CacheEvent := downloaded ++ [.advance 0 .proceed, .crash 0]

/-- A run whose steps are all orderly. -/
structure OrderlyRun (sha256 : List UInt8 → String) where
  events : List CacheEvent
  orderly : StepsMeet (CacheState.step sha256) Orderly CacheState.init events

def committedRun : OrderlyRun emptiness := ⟨committed ++ [.advance 0 .proceed], by decide +kernel⟩

def unrecordedRun : OrderlyRun emptiness := ⟨unrecorded, by decide +kernel⟩

theorem archiveCache_verified_download :
    ReturnsVerified emptiness (CacheState.init.run emptiness committed) (.advance 0 .proceed) ∧
      Recovers emptiness (CacheState.init.run emptiness unrecorded) :=
  ⟨(archiveCache_verified emptiness committedRun.orderly).1 committed _ (List.prefix_refl _),
    (archiveCache_verified emptiness unrecordedRun.orderly).2 unrecorded (List.prefix_refl _)⟩

/-- A second fetch of the archive opens the same partial file before the first one commits it. -/
def sharedPartial : List CacheEvent :=
  downloaded ++ [.start klinesArchive 20666 none, .advance 1 .proceed, .advance 1 (.answer klinesSibling),
    .advance 1 .proceed, .advance 0 .proceed, .advance 0 .proceed, .advance 0 (.took 128)]

/-- The fetch is cut off after three characters of the sibling. -/
def cutOff : List CacheEvent :=
  downloaded ++ [.advance 0 .proceed, .advance 0 .proceed, .advance 0 (.took 3), .crash 0]

/-- Upstream as it was. -/
def klinesUpstream : Upstream := ⟨klinesSibling, [1], fun _ => 1, fun _ => Nat.one_pos⟩

/-- Whether a fetch has raised. -/
def Phase.raised : Phase → Bool
  | .done (.error _) => true
  | _ => false

/-- What returns from here returns from the next step. -/
theorem ReturnsAlone.next {sha256 : List UInt8 → String} {upstream : Upstream} {fetch : Fetch} {now : Phase × Disk}
    (h : ReturnsAlone sha256 upstream fetch now) :
    ReturnsAlone sha256 upstream fetch (aloneStep sha256 upstream fetch now) := by
  obtain ⟨n, record, disk, hdone⟩ := h
  cases n with
  | zero =>
    obtain rfl : now = (.done (.ok record), disk) := hdone
    exact returnsAlone_done record
  | succ n => exact ⟨n, record, disk, hdone⟩

theorem not_returnsAlone_of_raised {sha256 : List UInt8 → String} {upstream : Upstream} {fetch : Fetch}
    {now : Phase × Disk} (h : now.1.raised) : ¬ReturnsAlone sha256 upstream fetch now := by
  obtain ⟨phase, disk⟩ := now
  rintro ⟨n, record, disk', hdone⟩
  have hfixed : aloneStep sha256 upstream fetch (phase, disk) = (phase, disk) := by
    cases phase with
    | done outcome => rfl
    | _ => cases h
  rw [Function.iterate_fixed hfixed] at hdone
  rw [(Prod.mk.inj hdone).1] at h
  cases h

/-- The first fetch returns an archive that the second has emptied; and after a write cut short, a fetch that runs
    alone raises. -/
theorem archive_of_two_fetches_is_empty :
    ¬ReturnsVerified emptiness (CacheState.init.run emptiness sharedPartial) (.advance 0 .proceed) ∧
      ¬Recovers emptiness (CacheState.init.run emptiness cutOff) := by
  constructor
  · intro h
    have hreturned :
        ((CacheState.init.run emptiness sharedPartial).step emptiness (.advance 0 .proceed)).fetches[0]? =
          some { Fetch.start klinesArchive 20666 none with
            phase := .done (.ok ((Fetch.start klinesArchive 20666 none).record (emptiness [1]) false)) } := by
      decide +kernel
    have hempty : ((CacheState.init.run emptiness sharedPartial).step emptiness (.advance 0 .proceed)).archives.read
        (Fetch.start klinesArchive 20666 none).path = some [] := by decide +kernel
    obtain ⟨⟨bytes, hread, hsha⟩, _⟩ := h 0 _ _ hreturned rfl (by decide +kernel)
    obtain rfl := Option.some.inj (hempty.symm.trans hread)
    revert hsha
    decide +kernel
  · intro h
    have hcrashed : ∀ fetch ∈ (CacheState.init.run emptiness cutOff).fetches, fetch.phase = .crashed := by
      decide +kernel
    have hagrees : klinesUpstream.Agrees emptiness (Fetch.start klinesArchive 20666 none).path := by
      rw [Upstream.Agrees]
      decide +kernel
    have hreturns := h (fun fetch hfetch => .inl (hcrashed fetch hfetch)) klinesArchive 20666 none klinesUpstream
      hagrees
    refine not_returnsAlone_of_raised ?_ (ReturnsAlone.next (ReturnsAlone.next (ReturnsAlone.next hreturns)))
    decide +kernel

/-! ### What is cached stays -/

/-- The archive is cached, with these bytes. -/
def CachedAs (s : CacheState) (path : CachePath) (bytes : List UInt8) : Prop :=
  s.siblings.isFile path.sibling ∧ s.archives.read path = some bytes

/-- A step of a sound cache leaves what is cached as it is, whichever fetch takes it and wherever it stands. -/
theorem Sound.cachedAs_step {s : CacheState} (h : Sound sha256 s) (event : CacheEvent) {coordinate : ArchiveCoordinate}
    {granularity : Granularity} {bytes : List UInt8} (hcached : CachedAs s (cachePath coordinate granularity) bytes) :
    CachedAs (s.step sha256 event) (cachePath coordinate granularity) bytes := by
  cases event with
  | start other todayUtc choice => exact hcached
  | advance i input =>
    rw [CacheState.step]
    cases hfetch : s.fetches[i]? with
    | none => exact hcached
    | some fetch =>
      have hframe := next_frame input (h.relies fetch (List.mem_of_getElem? hfetch))
      refine ⟨hframe.recorded _ hcached.1, (hframe.archive _ _ ?_).read.trans hcached.2⟩
      by_cases hpath : cachePath coordinate granularity = fetch.path
      · exact .inr (hpath ▸ hcached.1)
      · exact .inl fun hsame => absurd hsame hpath
  | crash i =>
    rw [CacheState.step]
    cases s.fetches[i]? with
    | none => exact hcached
    | some fetch =>
      dsimp only
      split
      · exact hcached
      · exact hcached

/-- In a run of orderly steps an archive, once recorded, is never changed, emptied or removed. -/
theorem cachedArchive_stays (sha256 : List UInt8 → String) {events : List CacheEvent}
    (hmeet : StepsMeet (CacheState.step sha256) Orderly CacheState.init events) (coordinate : ArchiveCoordinate)
    (granularity : Granularity) (bytes : List UInt8) (earlier later : List CacheEvent)
    (hsplit : earlier ++ later <+: events)
    (hcached : CachedAs (CacheState.init.run sha256 earlier) (cachePath coordinate granularity) bytes) :
    CachedAs (CacheState.init.run sha256 (earlier ++ later)) (cachePath coordinate granularity) bytes := by
  induction later using List.reverseRecOn with
  | nil => rwa [List.append_nil]
  | append_singleton later event ih =>
    rw [← List.append_assoc] at hsplit ⊢
    have hbefore : earlier ++ later <+: events := (List.prefix_append _ _).trans hsplit
    rw [CacheState.run, List.foldl_append]
    exact (sound_run (stepsMeet_earlier hbefore hmeet)).cachedAs_step event (ih hbefore)

/-- After the first fetch returns, a second one finds the archive and is cut off. -/
def servedAgain : OrderlyRun emptiness :=
  ⟨committed ++ [.advance 0 .proceed, .start klinesArchive 20666 none, .advance 1 .proceed, .crash 1],
    by decide +kernel⟩

theorem cachedArchive_stays_served :
    CachedAs (CacheState.init.run emptiness servedAgain.events) (Fetch.start klinesArchive 20666 none).path [1] :=
  cachedArchive_stays emptiness servedAgain.orderly klinesArchive _ [1] committed _ (List.prefix_refl _)
    ⟨by decide +kernel, by decide +kernel⟩

/-! ### Nothing partial is left -/

/-- The fetch is between its miss and the unlink of its partial file. -/
def Phase.pending : Phase → Bool
  | .asking _ | .opening _ _ | .downloading _ _ _ _ | .replacing _ | .openingSibling _ | .writingSibling _ _ _
  | .cleaning _ => true
  | _ => false

/-- Every partial file on disk is one that some fetch is still to unlink. -/
def PartialsPending (s : CacheState) : Prop :=
  ∀ path : CachePath, s.archives.isFile path.partialFile →
    ∃ fetch ∈ s.fetches, fetch.path = path ∧ fetch.phase.pending

/-- A pending fetch stays so, or has unlinked its partial file. -/
theorem pending_next (fetch : Fetch) (disk : Disk) (input : Input) (h : fetch.phase.pending) :
    (fetch.next sha256 disk input).1.pending ∨
      (fetch.next sha256 disk input).2.archives.isFile fetch.path.partialFile = false := by
  unfold Fetch.next
  split
  case h_16 =>
    refine .inr ?_
    rw [Files.isFile, Option.isSome_eq_false_iff, Option.isNone_iff_eq_none]
    exact Function.update_self _ _ _
  case h_17 => exact .inl h
  case h_1 => rw [‹fetch.phase = _›] at h; cases h
  case h_2 => rw [‹fetch.phase = _›] at h; cases h
  case h_3 => rw [‹fetch.phase = _›] at h; cases h
  case h_4 => rw [‹fetch.phase = _›] at h; cases h
  case h_5 => rw [‹fetch.phase = _›] at h; cases h
  case h_6 => refine .inl ?_; split <;> rfl
  case h_12 =>
    refine .inl ?_
    dsimp only
    split
    · rfl
    · split <;> rfl
  case h_13 => refine .inl ?_; split <;> rfl
  case h_15 =>
    refine .inl ?_
    dsimp only
    split <;> rfl
  all_goals exact .inl rfl

/-- A partial file that is there after a step was there before it, or the step opened it. -/
theorem partialFile_next (fetch : Fetch) (disk : Disk) (input : Input) (path : CachePath)
    (h : (fetch.next sha256 disk input).2.archives.isFile path.partialFile) :
    disk.archives.isFile path.partialFile ∨ fetch.path = path ∧ (fetch.next sha256 disk input).1.pending := by
  have heffect := next_effect sha256 fetch disk input
  generalize fetch.next sha256 disk input = after at heffect h ⊢
  cases heffect with
  | openedPartial mismatches claimed hopens =>
    by_cases hpath : path = fetch.path
    · exact .inr ⟨hpath.symm, rfl⟩
    · rw [Files.isFile, Files.inode_openForWriting_of_ne fun hname => hpath (partialFile_inj hname)] at h
      exact .inl h
  | renamed digest hphase archives hreplaced =>
    obtain ⟨_, _, _, _, _, hnames⟩ := Files.replace_eq_some hreplaced
    rw [Files.isFile, hnames _ (partialFile_ne _ _ _)] at h
    split at h
    · cases h
    · exact .inl h
  | unlinked phase _ =>
    obtain ⟨id, hid⟩ := Option.isSome_iff_exists.mp h
    exact .inl (Option.isSome_iff_exists.mpr ⟨id, Files.inode_of_unlink hid⟩)
  | _ => exact .inl h

theorem PartialsPending.step {s : CacheState} (h : PartialsPending s) {event : CacheEvent}
    (hruns : ∀ i, event ≠ .crash i) : PartialsPending (s.step sha256 event) := by
  cases event with
  | start coordinate todayUtc granularity =>
    intro path hfile
    obtain ⟨fetch, hmem, hfetch⟩ := h path hfile
    exact ⟨fetch, List.mem_append_left _ hmem, hfetch⟩
  | advance i input =>
    rw [CacheState.step]
    cases hfetch : s.fetches[i]? with
    | none => exact h
    | some fetch =>
      intro path hfile
      have hnext : { fetch with phase := (fetch.next sha256 s.toDisk input).1 } ∈
          s.fetches.set i { fetch with phase := (fetch.next sha256 s.toDisk input).1 } :=
        List.mem_set (List.getElem?_eq_some_iff.mp hfetch).1 _
      rcases partialFile_next fetch s.toDisk input path hfile with hbefore | ⟨hpath, hpending⟩
      · obtain ⟨owner, howner, hpath, hpending⟩ := h path hbefore
        obtain ⟨j, hj⟩ := List.mem_iff_getElem?.mp howner
        by_cases hsame : j = i
        · rw [hsame, hfetch] at hj
          obtain rfl := Option.some.inj hj
          -- its own partial file is there, so it has not unlinked it
          rcases pending_next fetch s.toDisk input hpending with hstill | hgone
          · exact ⟨_, hnext, hpath, hstill⟩
          · rw [hpath] at hgone
            exact absurd hfile (by simp [hgone])
        · exact ⟨owner, mem_set_of_ne hsame hj, hpath, hpending⟩
      · exact ⟨_, hnext, hpath, hpending⟩
  | crash i => exact absurd rfl (hruns i)

/-- However fetches interleave, once all of them have returned or raised no partial file is left. -/
theorem partialFiles_unlinked (sha256 : List UInt8 → String) (events : List CacheEvent)
    (hruns : ∀ event ∈ events, ∀ i, event ≠ .crash i)
    (hover : ∀ fetch ∈ (CacheState.init.run sha256 events).fetches, fetch.IsOver) (path : CachePath) :
    (CacheState.init.run sha256 events).archives.isFile path.partialFile = false := by
  have hpending : PartialsPending (CacheState.init.run sha256 events) := by
    clear hover
    induction events using List.reverseRecOn with
    | nil =>
      intro path hfile
      cases hfile
    | append_singleton events event ih =>
      rw [CacheState.run, List.foldl_append]
      refine PartialsPending.step (ih fun earlier h => hruns earlier (List.mem_append_left _ h)) ?_
      exact hruns event (List.mem_append_right _ (List.mem_singleton_self event))
  by_contra hfile
  obtain ⟨fetch, hmem, _, hphase⟩ := hpending path (Bool.of_not_eq_false hfile)
  rcases hover fetch hmem with hcrashed | ⟨outcome, hdone⟩
  · rw [hcrashed] at hphase
    cases hphase
  · rw [hdone] at hphase
    cases hphase

theorem partialFiles_unlinked_download :
    (CacheState.init.run emptiness committedRun.events).archives.isFile
      (Fetch.start klinesArchive 20666 none).path.partialFile = false := by
  have hover : ∀ fetch ∈ (CacheState.init.run emptiness committedRun.events).fetches,
      fetch.phase = .done (.ok ((Fetch.start klinesArchive 20666 none).record (emptiness [1]) false)) := by
    decide +kernel
  refine partialFiles_unlinked emptiness _ ?_ (fun fetch hfetch => .inr ⟨_, hover fetch hfetch⟩) _
  rintro event hmem i rfl
  simp [committedRun, committed, downloaded] at hmem

end FinanceKing.Data.ArchiveCache
