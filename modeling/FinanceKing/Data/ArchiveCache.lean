import FinanceKing.Data.Backfill
import FinanceKing.Data.ParseRows
import FinanceKing.Lib.Files

/-! The archive fetcher's cache, one file operation at a time. A fetch serves a cached archive that still matches the
    checksum beside it; otherwise it downloads into a partial file, renames that once the digest is the one upstream
    claims, and records the claim beside it. Any number of fetches take their steps in any order, and each may be cut
    off between two of them. -/

namespace FinanceKing.Data.ArchiveCache

open Lib

/-! ### Names -/

/-- `_MARKET_PATH`. -/
def marketPath : Market → String
  | .spot => "spot"
  | .futuresUm => "futures/um"

/-- A number in decimal, filled with zeros to a width. -/
def zeroPadded (width : ℕ) (n : ℤ) : String := String.ofList ((toString n).toList.leftpad width '0')

def dateToken (archiveDate : Date) (granularity : Granularity) : String :=
  let month := yearMonth archiveDate
  let monthToken := zeroPadded 4 month.1 ++ "-" ++ zeroPadded 2 month.2
  match granularity with
  | .monthly => monthToken
  | .daily => monthToken ++ "-" ++ zeroPadded 2 (archiveDate - firstDayOf month + 1)

/-- The slot between symbol and date: the interval for klines, the dataset for the rest. -/
def middleToken (coordinate : ArchiveCoordinate) : String := coordinate.interval.getD coordinate.dataset.value

/-- The `.zip` filename, which is also the name the `.CHECKSUM` sibling must carry. -/
def archiveFilename (coordinate : ArchiveCoordinate) (granularity : Granularity) : String :=
  coordinate.symbol ++ "-" ++ middleToken coordinate ++ "-" ++ dateToken coordinate.archiveDate granularity ++ ".zip"

def pathSegments (coordinate : ArchiveCoordinate) (granularity : Granularity) : List String :=
  [marketPath coordinate.market, granularity.value, coordinate.dataset.value, coordinate.symbol] ++
    coordinate.interval.toList

/-- A path under the cache root. -/
structure CachePath where
  directory : List String
  name : String
  deriving DecidableEq

namespace CachePath

def withSuffix (path : CachePath) (suffix : String) : CachePath := ⟨path.directory, path.name ++ suffix⟩

/-- The checksum record beside an archive. -/
def sibling (path : CachePath) : CachePath := path.withSuffix ".CHECKSUM"

/-- Where an archive is downloaded before it is verified. -/
def partialFile (path : CachePath) : CachePath := path.withSuffix ".partial"

/-- The path as text, and the URL it mirrors. -/
def rendered (path : CachePath) : String := "/".intercalate (path.directory ++ [path.name])

def url (path : CachePath) : String := "https://data.binance.vision/data/" ++ path.rendered

end CachePath

def cachePath (coordinate : ArchiveCoordinate) (granularity : Granularity) : CachePath :=
  ⟨pathSegments coordinate granularity, archiveFilename coordinate granularity⟩

/-! ### Checksum siblings -/

/-- `line.split(maxsplit=1)`. -/
def splitOnce (line : List Char) : List (List Char) :=
  let fields := line.dropWhile isSpace
  let word := fields.takeWhile fun c => !isSpace c
  let rest := (fields.dropWhile fun c => !isSpace c).dropWhile isSpace
  if fields = [] then [] else if rest = [] then [word] else [word, rest]

structure ChecksumSibling where
  digestHex : String
  filename : String
  deriving DecidableEq

/-- `removeprefix("*")`. -/
def withoutStar : List Char → List Char
  | '*' :: rest => rest
  | name => name

/-- A `.zip.CHECKSUM` body: one record of a digest and the file it names. -/
def parseChecksumSibling (text : List Char) (url : String) : PyResult ChecksumSibling :=
  match (splitLinesFrom [] text).filter fun line => strip line ≠ [] with
  | [line] =>
    match splitOnce line.toList with
    | [digestHex, rawFilename] => do
      raiseIf (¬ isSha256Hex (String.ofList digestHex)) .dataIntegrity
        ["checksum sibling at ", .text url, " does not begin with a lowercase 64-character SHA-256 digest; got ",
          .quoted (String.ofList digestHex)]
      let filename := withoutStar (stripChars rawFilename)
      raiseIf (filename = []) .dataIntegrity ["checksum sibling at ", .text url, " names no file: ", .quoted line]
      return ⟨String.ofList digestHex, String.ofList filename⟩
    | _ => raise .dataIntegrity
        ["checksum sibling at ", .text url, " does not split into a digest and a filename: ", .quoted line]
  | lines => raise .dataIntegrity
      ["checksum sibling at ", .text url, " holds ", .count lines.length,
        " non-empty lines; expected exactly one `<sha256>  <filename>` record"]

/-- The digest of a sibling, where it names the expected file. -/
def claimedDigest (text : List Char) (url expectedFilename : String) (misnamed : String → Message) :
    PyResult String := do
  let sibling ← parseChecksumSibling text url
  raiseIf (sibling.filename ≠ expectedFilename) .dataIntegrity (misnamed sibling.filename)
  return sibling.digestHex

/-- The record that is written beside an archive. -/
def siblingText (digestHex filename : String) : List Char :=
  digestHex.toList ++ ' ' :: ' ' :: filename.toList ++ ['\n']

/-! ### One fetch -/

/-- `MAX_DOWNLOAD_ATTEMPTS`. -/
def maxDownloadAttempts : ℕ := 2

/-- `_HASH_CHUNK_BYTES`. -/
def hashChunkBytes : ℕ := 1024 * 1024

/-- A verified archive on disk, and the provenance of the verification. -/
structure FetchedArchive where
  coordinate : ArchiveCoordinate
  granularity : Granularity
  url : String
  path : CachePath
  sha256Hex : String
  servedFromCache : Bool
  deriving DecidableEq

/-- Where a fetch stands, with what it has in hand. -/
inductive Phase where
  | lookingForArchive
  | lookingForSibling
  | readingSibling
  | openingArchive (claimed : String)
  | hashing (claimed : String) (handle : ℕ) (consumed : List UInt8)
  | asking (mismatches : List (String × String))
  | opening (mismatches : List (String × String)) (claimed : String)
  | downloading (mismatches : List (String × String)) (claimed : String) (handle : ℕ) (received : List UInt8)
  | replacing (digest : String)
  | openingSibling (digest : String)
  | writingSibling (digest : String) (handle written : ℕ)
  | cleaning (outcome : PyResult FetchedArchive)
  | done (outcome : PyResult FetchedArchive)
  | crashed
  deriving DecidableEq

/-- The disk, where archives and partial files hold bytes and siblings hold text, and what upstream has answered to a
    request for a sibling so far. -/
structure Disk where
  archives : Files CachePath UInt8
  siblings : Files CachePath Char
  answered : List (String × String)

/-- What a step meets: a file operation goes ahead, upstream answers or refuses, sends some bytes or the end of the
    body, or the operating system takes some characters of a write. -/
inductive Input where
  | proceed
  | answer (text : String)
  | refused (e : PyError)
  | chunk (bytes : List UInt8)
  | endOfBody
  | took (count : ℕ)
  deriving DecidableEq

structure Fetch where
  coordinate : ArchiveCoordinate
  granularity : Granularity
  phase : Phase
  deriving DecidableEq

namespace Fetch

/-- A fetch at its start, its granularity resolved where the caller states none. -/
def start (coordinate : ArchiveCoordinate) (todayUtc : Date) (granularity : Option Granularity) : Fetch :=
  ⟨coordinate, granularity.getD (resolveGranularity coordinate.archiveDate todayUtc), .lookingForArchive⟩

def path (self : Fetch) : CachePath := cachePath self.coordinate self.granularity

def record (self : Fetch) (digest : String) (servedFromCache : Bool) : FetchedArchive :=
  ⟨self.coordinate, self.granularity, self.path.url, self.path, digest, servedFromCache⟩

def missingFile (path : CachePath) : PyError :=
  ⟨.fileNotFound, ["[Errno 2] No such file or directory: ", .quoted path.rendered]⟩

/-- What a cached sibling claims of the archive. -/
def cachedDigest (self : Fetch) (text : List Char) : PyResult String :=
  claimedDigest text self.path.sibling.rendered self.path.name fun filename =>
    ["cached checksum sibling ", .text self.path.sibling.rendered, " names ", .quoted filename, ", not ",
      .quoted self.path.name, "; the cache entry and its provenance disagree"]

/-- What an upstream sibling claims of the archive. -/
def upstreamDigest (self : Fetch) (text : String) : PyResult String :=
  claimedDigest text.toList (self.path.url ++ ".CHECKSUM") self.path.name fun filename =>
    ["checksum sibling for ", .text self.path.url, " names ", .quoted filename, ", not ", .quoted self.path.name,
      "; the digest would be verified against the wrong archive. An upstream rename is the usual cause"]

def corruptEntry (self : Fetch) (claimed observed : String) : PyError :=
  ⟨.dataIntegrity, ["cached archive ", .text self.path.rendered,
    " no longer matches the checksum recorded beside it (expected ", .text claimed, ", observed ", .text observed,
    "). The cache entry is corrupt; delete it and re-run to refetch"]⟩

def verificationFailed (self : Fetch) (mismatches : List (String × String)) : PyError :=
  ⟨.dataIntegrity, (["checksum verification failed ", .count maxDownloadAttempts, " consecutive times for ",
    .text self.path.url, " ("] : Message) ++
    List.intercalate (["; "] : Message) (mismatches.zipIdx.map fun (mismatch, i) =>
      ["attempt ", .count (i + 1), ": expected ", .text mismatch.1, ", observed ", .text mismatch.2]) ++
    (["). This is a data-integrity event, not a retry: if the upstream archive changed, every backtest that ",
      "consumed the previous copy is suspect. DATA_PIPELINE.md section 11"] : Message)⟩

/-- One step of a fetch. The two looks of `_read_cache` come first; the partial file is unlinked whatever the download
    came to. -/
def next (sha256 : List UInt8 → String) (self : Fetch) (disk : Disk) (input : Input) : Phase × Disk :=
  match self.phase, input with
  | .lookingForArchive, .proceed =>
    (if disk.archives.isFile self.path then .lookingForSibling else .asking [], disk)
  | .lookingForSibling, .proceed =>
    (if disk.siblings.isFile self.path.sibling then .readingSibling else .asking [], disk)
  | .readingSibling, .proceed =>
    match disk.siblings.read self.path.sibling with
    | none => (.done (.error (missingFile self.path.sibling)), disk)
    | some text =>
      match self.cachedDigest text with
      | .error e => (.done (.error e), disk)
      | .ok claimed => (.openingArchive claimed, disk)
  | .openingArchive claimed, .proceed =>
    match disk.archives.inode self.path with
    | none => (.done (.error (missingFile self.path)), disk)
    | some handle => (.hashing claimed handle [], disk)
  | .hashing claimed handle consumed, .proceed =>
    let chunk := ((disk.archives.contents handle).drop consumed.length).take hashChunkBytes
    if chunk ≠ [] then (.hashing claimed handle (consumed ++ chunk), disk)
    else if sha256 consumed = claimed then (.done (.ok (self.record claimed true)), disk)
    else (.done (.error (self.corruptEntry claimed (sha256 consumed))), disk)
  | .asking mismatches, .answer text =>
    (match self.upstreamDigest text with
      | .error e => .cleaning (.error e)
      | .ok claimed => .opening mismatches claimed,
      { disk with answered := disk.answered ++ [(self.path.url, text)] })
  | .asking _, .refused e => (.cleaning (.error e), disk)
  | .opening mismatches claimed, .proceed =>
    let opened := disk.archives.openForWriting self.path.partialFile
    (.downloading mismatches claimed opened.1 [], { disk with archives := opened.2 })
  | .opening _ _, .refused e => (.cleaning (.error e), disk)
  | .downloading mismatches claimed handle received, .chunk bytes =>
    (.downloading mismatches claimed handle (received ++ bytes),
      { disk with archives := disk.archives.write handle received.length bytes })
  | .downloading _ _ _ _, .refused e => (.cleaning (.error e), disk)
  | .downloading mismatches claimed _ received, .endOfBody =>
    let mismatches := mismatches ++ [(claimed, sha256 received)]
    if sha256 received = claimed then (.replacing claimed, disk)
    else if mismatches.length < maxDownloadAttempts then (.asking mismatches, disk)
    else (.cleaning (.error (self.verificationFailed mismatches)), disk)
  | .replacing digest, .proceed =>
    match disk.archives.replace self.path.partialFile self.path with
    | none => (.cleaning (.error (missingFile self.path.partialFile)), disk)
    | some archives => (.openingSibling digest, { disk with archives })
  | .openingSibling digest, .proceed =>
    let opened := disk.siblings.openForWriting self.path.sibling
    (.writingSibling digest opened.1 0, { disk with siblings := opened.2 })
  | .writingSibling digest handle written, .took count =>
    let text := siblingText digest self.path.name
    let chunk := (text.drop written).take count
    (if written + chunk.length < text.length then .writingSibling digest handle (written + chunk.length)
      else .cleaning (.ok (self.record digest false)),
      { disk with siblings := disk.siblings.write handle written chunk })
  | .cleaning outcome, .proceed =>
    (.done outcome, { disk with archives := disk.archives.unlink self.path.partialFile })
  | phase, _ => (phase, disk)

end Fetch

/-! ### Any number of fetches -/

/-- The disk, and every fetch that was started, in order. -/
structure CacheState extends Disk where
  fetches : List Fetch

/-- A fetch starts, takes a step, or is cut off where it stands. -/
inductive CacheEvent where
  | start (coordinate : ArchiveCoordinate) (todayUtc : Date) (granularity : Option Granularity)
  | advance (i : ℕ) (input : Input)
  | crash (i : ℕ)
  deriving DecidableEq

namespace CacheState

/-- An empty cache. -/
def init : CacheState := ⟨⟨Files.empty, Files.empty, []⟩, []⟩

variable (sha256 : List UInt8 → String)

def step (self : CacheState) : CacheEvent → CacheState
  | .start coordinate todayUtc granularity =>
    { self with fetches := self.fetches ++ [Fetch.start coordinate todayUtc granularity] }
  | .advance i input =>
    match self.fetches[i]? with
    | none => self
    | some fetch =>
      let (phase, disk) := fetch.next sha256 self.toDisk input
      ⟨disk, self.fetches.set i { fetch with phase }⟩
  | .crash i =>
    match self.fetches[i]? with
    | none => self
    | some fetch =>
      match fetch.phase with
      | .done _ => self
      | _ => { self with fetches := self.fetches.set i { fetch with phase := .crashed } }

def run (events : List CacheEvent) (self : CacheState) : CacheState := events.foldl (step sha256) self

end CacheState

/-! ### What a record says -/

theorem splitLinesFrom_noBreak {text line : List Char} (hline : ∀ c ∈ line, isLineBreak c = false) :
    ∀ read ∈ splitLinesFrom line text, ∀ c ∈ read.toList, isLineBreak c = false := by
  have hof : ∀ {line : List Char}, (∀ c ∈ line, isLineBreak c = false) →
      ∀ c ∈ (String.ofList line.reverse).toList, isLineBreak c = false := by
    intro line hline c hc
    rw [String.toList_ofList, List.mem_reverse] at hc
    exact hline c hc
  induction line, text using splitLinesFrom.induct with
  | case1 =>
    intro read hread
    cases hread
  | case2 line hne =>
    intro read hread
    rw [splitLinesFrom, if_neg hne, List.mem_singleton] at hread
    exact hread ▸ hof hline
  | case3 line rest ih =>
    intro read hread
    rw [splitLinesFrom, List.mem_cons] at hread
    rcases hread with rfl | hread
    · exact hof hline
    · exact ih (by simp) read hread
  | case4 line c rest hother hbreak ih =>
    intro read hread
    rw [splitLinesFrom, if_pos hbreak, List.mem_cons] at hread
    · rcases hread with rfl | hread
      · exact hof hline
      · exact ih (by simp) read hread
    · exact hother
  | case5 line c rest hother hbreak ih =>
    intro read hread
    rw [splitLinesFrom, if_neg hbreak] at hread
    · exact ih (List.forall_mem_cons.mpr ⟨Bool.eq_false_iff.mpr hbreak, hline⟩) read hread
    · exact hother

/-- Characters with no break in them are one line, whether a newline follows or not. -/
theorem splitLinesFrom_newline {chars : List Char} (line : List Char) (h : ∀ c ∈ chars, isLineBreak c = false) :
    splitLinesFrom line (chars ++ ['\n']) = [String.ofList (line.reverse ++ chars)] := by
  induction chars generalizing line with
  | nil => simp [splitLinesFrom, isLineBreak]
  | cons c rest ih =>
    obtain ⟨hc, hrest⟩ := List.forall_mem_cons.mp h
    have hplain : splitLinesFrom line (c :: (rest ++ ['\n'])) = splitLinesFrom (c :: line) (rest ++ ['\n']) := by
      rw [splitLinesFrom, if_neg (by simp [hc])]
      rintro _ rfl
      cases hc
    rw [List.cons_append, hplain, ih _ hrest]
    simp

/-- A parsed sibling is its one line, cut at the first whitespace. -/
theorem parseChecksumSibling_eq_ok {text : List Char} {url : String} {sibling : ChecksumSibling} :
    parseChecksumSibling text url = .ok sibling ↔
      ∃ line digestHex rawFilename, ((splitLinesFrom [] text).filter fun line => strip line ≠ []) = [line] ∧
        splitOnce line.toList = [digestHex, rawFilename] ∧ isSha256Hex (String.ofList digestHex) ∧
        withoutStar (stripChars rawFilename) ≠ [] ∧
        sibling = ⟨String.ofList digestHex, String.ofList (withoutStar (stripChars rawFilename))⟩ := by
  rw [parseChecksumSibling]
  split
  · next line hline =>
    split
    · next digestHex rawFilename hfields =>
      simp only [bind_eq_ok, raiseIf_eq_ok, pure_eq_ok, Unique.exists_iff, not_not]
      constructor
      · rintro ⟨hdigest, hname, rfl⟩
        exact ⟨line, digestHex, rawFilename, hline, hfields, hdigest, hname, rfl⟩
      · rintro ⟨other, digest, raw, hother, hcut, hdigest, hname, rfl⟩
        obtain rfl := List.singleton_inj.mp (hline.symm.trans hother)
        rw [hfields] at hcut
        obtain ⟨rfl, rfl⟩ : digestHex = digest ∧ rawFilename = raw := by simpa using hcut
        exact ⟨hdigest, hname, rfl⟩
    · next hfields =>
      refine ⟨fun h => by (cases h), ?_⟩
      rintro ⟨other, digest, raw, hother, hcut, _⟩
      obtain rfl := List.singleton_inj.mp (hline.symm.trans hother)
      exact absurd hcut (hfields digest raw)
  · next hlines =>
    refine ⟨fun h => by (cases h), ?_⟩
    rintro ⟨line, _, _, hline, _⟩
    exact absurd hline (hlines line)

section Words

variable {word : List Char} (hword : ∀ c ∈ word, isSpace c = false) (hne : word ≠ [])

theorem dropWhile_word (rest : List Char) (hword : ∀ c ∈ word, isSpace c = false) (hne : word ≠ []) :
    (word ++ rest).dropWhile isSpace = word ++ rest := by
  obtain ⟨c, chars, rfl⟩ := List.exists_cons_of_ne_nil hne
  rw [List.cons_append, List.dropWhile_cons_of_neg (by simp [hword c List.mem_cons_self])]

include hword hne

/-- A word alone is one field. -/
theorem splitOnce_word : splitOnce word = [word] := by
  have hdrop : word.dropWhile isSpace = word := by simpa using dropWhile_word [] hword hne
  have htake : word.takeWhile (fun c => !isSpace c) = word :=
    List.takeWhile_eq_self_iff.mpr fun c hc => by simp [hword c hc]
  have hrest : word.dropWhile (fun c => !isSpace c) = [] :=
    List.dropWhile_eq_nil_iff.mpr fun c hc => by simp [hword c hc]
  simp only [splitOnce, hdrop, htake, hrest, List.dropWhile_nil, if_neg hne, if_true]

/-- A word, and what follows the whitespace behind it where anything does. -/
theorem splitOnce_cut (rest : List Char) :
    splitOnce (word ++ ' ' :: rest) =
      if rest.dropWhile isSpace = [] then [word] else [word, rest.dropWhile isSpace] := by
  have hspace : isSpace ' ' = true := by decide
  have htake : (word ++ ' ' :: rest).takeWhile (fun c => !isSpace c) = word := by
    rw [List.takeWhile_append_of_pos fun c hc => by simp [hword c hc],
      List.takeWhile_cons_of_neg (by simp [hspace]), List.append_nil]
  have hrest : (word ++ ' ' :: rest).dropWhile (fun c => !isSpace c) = ' ' :: rest := by
    rw [List.dropWhile_append_of_pos fun c hc => by simp [hword c hc],
      List.dropWhile_cons_of_neg (by simp [hspace])]
  simp only [splitOnce, dropWhile_word _ hword hne, htake, hrest, List.dropWhile_cons_of_pos hspace]
  rw [if_neg (by simp)]

end Words

/-- A filename that reads back from a record: no padding, no leading star and no break. -/
structure Recordable (name : String) : Prop where
  nonempty : name.toList ≠ []
  starts : ∀ c ∈ name.toList.head?, isSpace c = false ∧ c ≠ '*'
  ends : ∀ c ∈ name.toList.getLast?, isSpace c = false
  unbroken : ∀ c ∈ name.toList, isLineBreak c = false

/-- Text with no whitespace at either end is stripped already. -/
theorem stripChars_eq_self {chars : List Char} (hstarts : ∀ c ∈ chars.head?, isSpace c = false)
    (hends : ∀ c ∈ chars.getLast?, isSpace c = false) : stripChars chars = chars := by
  have hkeep : ∀ {chars : List Char}, (∀ c ∈ chars.head?, isSpace c = false) → chars.dropWhile isSpace = chars := by
    intro chars h
    cases chars with
    | nil => rfl
    | cons c rest => exact List.dropWhile_cons_of_neg (by simp [h c rfl])
  rw [stripChars, hkeep hstarts, hkeep (by rwa [List.head?_reverse]), List.reverse_reverse]

theorem isSpace_of_isHex {c : Char} (h : (c.isDigit || ('a' ≤ c && c ≤ 'f')) = true) :
    isSpace c = false ∧ isLineBreak c = false := by
  have hrange : 48 ≤ c.toNat ∧ c.toNat ≤ 102 := by
    simp only [Bool.or_eq_true, Bool.and_eq_true, decide_eq_true_eq] at h
    rcases h with h | ⟨hlow, hhigh⟩
    · simp only [Char.isDigit, Bool.and_eq_true, decide_eq_true_eq] at h
      exact ⟨h.1, le_trans h.2 (by decide)⟩
    · exact ⟨le_trans (by decide) hlow, hhigh⟩
  simp only [isSpace, isLineBreak, Bool.or_eq_false_iff, Bool.and_eq_false_iff, decide_eq_false_iff_not,
    beq_eq_false_iff_ne, ne_eq]
  omega

theorem isSha256Hex_chars {digest : String} (h : isSha256Hex digest) :
    digest.toList ≠ [] ∧ ∀ c ∈ digest.toList, isSpace c = false ∧ isLineBreak c = false := by
  simp only [isSha256Hex, Bool.and_eq_true, decide_eq_true_eq, List.all_eq_true] at h
  refine ⟨fun hnil => ?_, fun c hc => isSpace_of_isHex (h.2 c hc)⟩
  rw [hnil] at h
  simp at h

/-- The line of a record, and what it is cut into. -/
theorem record_chars {digest name : String} (hdigest : isSha256Hex digest)
    (hname : ∀ c ∈ name.toList, isLineBreak c = false) :
    ∀ c ∈ digest.toList ++ ' ' :: ' ' :: name.toList, isLineBreak c = false := by
  obtain ⟨_, hchars⟩ := isSha256Hex_chars hdigest
  intro c hc
  rcases List.mem_append.mp hc with hc | hc
  · exact (hchars c hc).2
  · simp only [List.mem_cons] at hc
    rcases hc with rfl | rfl | hc
    · decide
    · decide
    · exact hname c hc

/-- A whole record reads back. -/
theorem parse_siblingText {digest name url : String} (hdigest : isSha256Hex digest) (hname : Recordable name) :
    parseChecksumSibling (siblingText digest name) url = .ok ⟨digest, name⟩ := by
  obtain ⟨hne, hchars⟩ := isSha256Hex_chars hdigest
  have hstrip : stripChars name.toList = name.toList :=
    stripChars_eq_self (fun c hc => (hname.starts c hc).1) hname.ends
  obtain ⟨first, rest, hfirst⟩ := List.exists_cons_of_ne_nil hname.nonempty
  obtain ⟨hspace, hstar⟩ := hname.starts first (by rw [hfirst]; rfl)
  have hdrop : (' ' :: name.toList).dropWhile isSpace = name.toList := by
    rw [List.dropWhile_cons_of_pos (by decide), hfirst, List.dropWhile_cons_of_neg (by simp [hspace])]
  have hplain : withoutStar name.toList = name.toList := by
    rw [hfirst, withoutStar]
    intro other h
    exact hstar (List.cons.inj h).1
  rw [parseChecksumSibling_eq_ok]
  refine ⟨String.ofList (digest.toList ++ ' ' :: ' ' :: name.toList), digest.toList, name.toList, ?_, ?_, ?_, ?_, ?_⟩
  · rw [siblingText, splitLinesFrom_newline [] (record_chars hdigest hname.unbroken), List.filter_cons_of_pos]
    · rfl
    · rw [decide_eq_true_eq, strip, String.toList_ofList, stripChars_ne_nil_iff]
      obtain ⟨c, hc⟩ := List.exists_mem_of_ne_nil _ hne
      exact ⟨c, by simp [hc], (hchars c hc).1⟩
  · rw [String.toList_ofList, splitOnce_cut (fun c hc => (hchars c hc).1) hne, hdrop, if_neg hname.nonempty]
  · rwa [String.ofList_toList]
  · rw [hstrip, hplain]
    exact hname.nonempty
  · rw [hstrip, hplain, String.ofList_toList, String.ofList_toList]

/-- However much of a record was written, what it claims is the record's digest, or it does not parse. -/
theorem digest_of_prefix {digest name url : String} {text : List Char} {sibling : ChecksumSibling}
    (hdigest : isSha256Hex digest) (hname : ∀ c ∈ name.toList, isLineBreak c = false)
    (hpre : text <+: siblingText digest name) (hparse : parseChecksumSibling text url = .ok sibling) :
    sibling.digestHex = digest := by
  obtain ⟨hne, hchars⟩ := isSha256Hex_chars hdigest
  have hword : ∀ c ∈ digest.toList, isSpace c = false := fun c hc => (hchars c hc).1
  obtain ⟨line, digestHex, rawFilename, hline, hfields, _, _, rfl⟩ := parseChecksumSibling_eq_ok.mp hparse
  -- The one line is the record cut short, with its newline or before it.
  have hcut : line.toList <+: digest.toList ++ ' ' :: ' ' :: name.toList := by
    have hmem : line ∈ splitLinesFrom [] text := List.mem_of_mem_filter (hline ▸ List.mem_singleton_self line)
    rcases List.prefix_concat_iff.mp hpre with rfl | hshort
    · rw [splitLinesFrom_newline [] (record_chars hdigest hname), List.mem_singleton] at hmem
      rw [hmem, String.toList_ofList]
      exact List.prefix_refl _
    · rcases text.eq_nil_or_concat with rfl | hsome
      · cases hmem
      · have hne : text ≠ [] := by
          obtain ⟨before, last, rfl⟩ := hsome
          simp
        rw [splitLinesFrom_plain [] (fun c hc => record_chars hdigest hname c (hshort.subset hc)) (.inr hne),
          List.mem_singleton] at hmem
        rw [hmem, String.toList_ofList]
        exact hshort
  rcases List.prefix_or_prefix_of_prefix hcut (List.prefix_append digest.toList _) with hshort | ⟨rest, hrest⟩
  · -- No whitespace was written yet, so there is no second field.
    by_cases hempty : line.toList = []
    · rw [hempty] at hfields
      cases hfields
    · rw [splitOnce_word (fun c hc => hword c (hshort.subset hc)) hempty] at hfields
      cases hfields
  · rw [← hrest] at hcut hfields
    cases rest with
    | nil =>
      rw [List.append_nil, splitOnce_word hword hne] at hfields
      cases hfields
    | cons c rest =>
      obtain ⟨rfl, _⟩ := List.cons_prefix_cons.mp ((List.prefix_append_right_inj _).mp hcut)
      rw [splitOnce_cut hword hne] at hfields
      split at hfields
      · cases hfields
      · obtain ⟨rfl, _⟩ := List.cons.inj hfields
        exact String.ofList_toList

theorem claimedDigest_eq_ok {text : List Char} {url expected digest : String} {misnamed : String → Message} :
    claimedDigest text url expected misnamed = .ok digest ↔
      parseChecksumSibling text url = .ok ⟨digest, expected⟩ := by
  simp only [claimedDigest, bind_eq_ok, raiseIf_eq_ok, pure_eq_ok, Unique.exists_iff, not_not]
  constructor
  · rintro ⟨⟨_, _⟩, hparse, rfl, rfl⟩
    exact hparse
  · intro hparse
    exact ⟨_, hparse, rfl, rfl⟩

/-- What a sibling names has no break in it, and its digest is one. -/
theorem parsed_plain {text : List Char} {url digest name : String}
    (hparse : parseChecksumSibling text url = .ok ⟨digest, name⟩) :
    isSha256Hex digest ∧ ∀ c ∈ name.toList, isLineBreak c = false := by
  obtain ⟨line, digestHex, rawFilename, hline, hfields, hdigest, _, hsibling⟩ := parseChecksumSibling_eq_ok.mp hparse
  obtain ⟨rfl, rfl⟩ := ChecksumSibling.mk.inj hsibling
  have hmem : line ∈ splitLinesFrom [] text := List.mem_of_mem_filter (hline ▸ List.mem_singleton_self line)
  have hraw : rawFilename <:+ line.toList := by
    simp only [splitOnce] at hfields
    split at hfields
    · cases hfields
    · split at hfields
      · cases hfields
      · rw [List.cons.injEq, List.cons.injEq] at hfields
        rw [← hfields.2.1]
        exact ((List.dropWhile_suffix _).trans (List.dropWhile_suffix _)).trans (List.dropWhile_suffix _)
  have hname : ∀ c ∈ withoutStar (stripChars rawFilename), c ∈ rawFilename := by
    intro c hc
    have hstripped : c ∈ stripChars rawFilename := by
      rw [withoutStar.eq_def] at hc
      split at hc
      · next hstarred => rw [hstarred]; exact List.mem_cons_of_mem _ hc
      · exact hc
    rw [stripChars, List.mem_reverse] at hstripped
    exact (List.dropWhile_suffix _).subset (List.mem_reverse.mp ((List.dropWhile_suffix _).subset hstripped))
  refine ⟨hdigest, fun c hc => ?_⟩
  rw [String.toList_ofList] at hc
  exact splitLinesFrom_noBreak (by simp) line hmem c (hraw.subset (hname c hc))

/-! ### The name of an archive -/

theorem symbol_plain (coordinate : ArchiveCoordinate) :
    coordinate.symbol.toList ≠ [] ∧ ∀ c ∈ coordinate.symbol.toList.head?, isSpace c = false := by
  have hchecked := coordinate.checked
  obtain ⟨_, hsymbol, _⟩ := bind_eq_ok.mp hchecked
  rw [raiseIf_eq_ok] at hsymbol
  push Not at hsymbol
  obtain ⟨hne, hstrip⟩ := hsymbol
  refine ⟨fun hnil => hne (String.toList_eq_nil_iff.mp hnil), fun c hc => ?_⟩
  obtain ⟨rest, hchars⟩ := List.head?_eq_some_iff.mp hc
  by_contra hspace
  -- A leading space would be dropped by the strip that changes nothing.
  have hlength : (stripChars (c :: rest)).length ≤ rest.length := by
    rw [stripChars, List.length_reverse, List.dropWhile_cons_of_pos (by simpa using hspace)]
    calc ((rest.dropWhile isSpace).reverse.dropWhile isSpace).length
        ≤ (rest.dropWhile isSpace).reverse.length := (List.dropWhile_suffix _).length_le
      _ = (rest.dropWhile isSpace).length := List.length_reverse
      _ ≤ rest.length := (List.dropWhile_suffix _).length_le
  rw [strip, hchars] at hstrip
  rw [hstrip, List.length_cons] at hlength
  exact absurd hlength (by omega)

theorem name_chars (coordinate : ArchiveCoordinate) (granularity : Granularity) :
    ∃ middle, (cachePath coordinate granularity).name.toList =
      coordinate.symbol.toList ++ middle ++ ['.', 'z', 'i', 'p'] := by
  refine ⟨("-" ++ middleToken coordinate ++ "-" ++ dateToken coordinate.archiveDate granularity).toList, ?_⟩
  simp [cachePath, archiveFilename]

theorem cachePath_recordable {coordinate : ArchiveCoordinate} {granularity : Granularity}
    (hstar : coordinate.symbol.toList.head? ≠ some '*')
    (hunbroken : ∀ c ∈ (cachePath coordinate granularity).name.toList, isLineBreak c = false) :
    Recordable (cachePath coordinate granularity).name := by
  obtain ⟨hne, hstart⟩ := symbol_plain coordinate
  obtain ⟨middle, hname⟩ := name_chars coordinate granularity
  obtain ⟨first, rest, hsymbol⟩ := List.exists_cons_of_ne_nil hne
  refine ⟨by simp [hname], fun c hc => ?_, fun c hc => ?_, hunbroken⟩
  · rw [hname, hsymbol, List.cons_append, List.cons_append, List.head?_cons] at hc
    obtain rfl := Option.some.inj hc
    rw [hsymbol, List.head?_cons] at hstar hstart
    exact ⟨hstart first rfl, fun h => hstar (congrArg some h)⟩
  · rw [hname, List.getLast?_append_of_ne_nil _ (by simp)] at hc
    obtain rfl := Option.some.inj hc
    decide

/-- No archive is another one's partial file. -/
theorem partialFile_ne (coordinate : ArchiveCoordinate) (granularity : Granularity) (path : CachePath) :
    path.partialFile ≠ cachePath coordinate granularity := by
  intro h
  obtain ⟨middle, hname⟩ := name_chars coordinate granularity
  have hlast := congrArg (fun path : CachePath => path.name.toList.getLast?) h
  rw [hname, List.getLast?_append_of_ne_nil _ (by simp), CachePath.partialFile, CachePath.withSuffix,
    String.toList_append, List.getLast?_append_of_ne_nil _ (by decide)] at hlast
  revert hlast
  decide

theorem withSuffix_inj {path other : CachePath} {suffix : String} :
    path.withSuffix suffix = other.withSuffix suffix ↔ path = other := by
  obtain ⟨directory, name⟩ := path
  obtain ⟨directory', name'⟩ := other
  simp [CachePath.withSuffix]

end FinanceKing.Data.ArchiveCache
