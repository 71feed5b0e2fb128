import Mathlib.Algebra.BigOperators.Group.List.Basic
import Databasus.Walmath.WalSegmentNo
import Databasus.WalStreaming.Upload

/-
  The local queue of segment files and its size.

  Received segments wait in the watch directory, or in a
  directory below it for those that were moved out of the way
  of the receiver.  The queue reads names with the cluster's
  segment size and then once more with the default one; the
  backlog reads them with the default one only.

  Main declarations:
    * `getWalSegmentFiles`
    * `listQueuedWalSegments`
    * `getWalBacklogBytes`
    * `Recognised`
    * `recognised_iff`
-/

------------------------------------------------------------
-- Directories
------------------------------------------------------------

namespace Databasus

namespace WalStreaming

open Walmath

/- An entry of a directory; its size may fail to be read. -/
structure DirEntry where
  name : String
  isDir : Bool
  size : Option Nat
deriving DecidableEq, Repr

/- What reading each directory answers, `none` on an error. -/
abbrev FileSystem := String → Option (List DirEntry)

def joinPath
    (directory name : String) : String :=
  directory ++ "/" ++ name

/- The same files without one entry of a directory. -/
def FileSystem.without
    (fs : FileSystem)
    (directory : String)
    (entry : DirEntry) : FileSystem := fun path =>
  if path = directory then
    (fs path).map fun entries => entries.erase entry
  else
    fs path

def isCompleteSegmentFile
    (segmentSizeBytes : Nat)
    (entry : DirEntry) : Bool :=
  !entry.isDir && entry.size = some segmentSizeBytes

structure WalSegmentFile where
  filename : String
  localPath : String
  timelineID : Nat
  startLSN : LSN
  endLSN : LSN
  isComplete : Bool
deriving DecidableEq, Repr

/- The segment file that an entry is, if it is one. -/
def walSegmentFileOf
    (directory : String)
    (segmentSizeBytes : Nat)
    (entry : DirEntry) : Option WalSegmentFile :=
  if entry.isDir then
    none
  else
    match parseWALFilename entry.name segmentSizeBytes with
    | .error _ => none
    | .ok (timeline, segmentNo) =>
        match entry.size with
        | none => none
        | some bytes =>
            let startLSN := firstLSN segmentNo segmentSizeBytes
            some
              { filename := entry.name
                localPath := joinPath directory entry.name
                timelineID := timeline
                startLSN := startLSN
                endLSN :=
                  (startLSN + segmentSizeBytes) % 2 ^ 64
                isComplete := bytes = segmentSizeBytes }

def getWalSegmentFiles
    (fs : FileSystem)
    (directory : String)
    (segmentSizeBytes : Nat) : List WalSegmentFile :=
  match fs directory with
  | none => []
  | some entries =>
      entries.filterMap
        (walSegmentFileOf directory segmentSizeBytes)

------------------------------------------------------------
-- The Queue and the Backlog
------------------------------------------------------------

structure QueuedWalSegment where
  walFilename : String
  localPath : String
  timelineID : Nat
  startLSN : LSN
  endLSN : LSN
  isComplete : Bool
deriving DecidableEq, Repr

def pendingUploadDirName : String := "pending-upload"

def queuedOf
    (segment : WalSegmentFile) : QueuedWalSegment :=
  { walFilename := segment.filename
    localPath := segment.localPath
    timelineID := segment.timelineID
    startLSN := segment.startLSN
    endLSN := segment.endLSN
    isComplete := segment.isComplete }

def listQueuedWalSegmentsIn
    (fs : FileSystem)
    (directory : String)
    (segmentSizeBytes : Nat) : List QueuedWalSegment :=
  ((getWalSegmentFiles fs directory segmentSizeBytes).filter
    fun segment =>
      isWalFilename segment.filename
        defaultSegmentSizeBytes).map queuedOf

def listQueuedWalSegments
    (fs : FileSystem)
    (watchDir : String)
    (segmentSizeBytes : Nat) : List QueuedWalSegment :=
  listQueuedWalSegmentsIn fs watchDir segmentSizeBytes ++
    listQueuedWalSegmentsIn fs
      (joinPath watchDir pendingUploadDirName)
      segmentSizeBytes

/- What an entry adds to the backlog. -/
def backlogBytesOf
    (entry : DirEntry) : Nat :=
  if
    entry.isDir ∨
      isWalFilename entry.name defaultSegmentSizeBytes = false
  then
    0
  else
    match entry.size with
    | none => 0
    | some bytes => bytes

def sumWalSegmentBytes
    (fs : FileSystem)
    (dir : String) : Nat :=
  match fs dir with
  | none => 0
  | some entries => (entries.map backlogBytesOf).sum

def getWalBacklogBytes
    (fs : FileSystem)
    (watchDir : String) : Nat :=
  sumWalSegmentBytes fs watchDir +
    sumWalSegmentBytes fs
      (joinPath watchDir pendingUploadDirName)

/- The directories that segments wait in. -/
def queueDirectories
    (watchDir : String) : List String :=
  [watchDir, joinPath watchDir pendingUploadDirName]

theorem mem_listQueuedWalSegments_iff
    {fs : FileSystem}
    {watchDir : String}
    {segmentSizeBytes : Nat}
    {queued : QueuedWalSegment} :
    queued ∈
        listQueuedWalSegments fs watchDir segmentSizeBytes ↔
      ∃ directory ∈ queueDirectories watchDir,
        ∃ entries, fs directory = some entries ∧
          ∃ entry ∈ entries, ∃ segment,
            walSegmentFileOf directory segmentSizeBytes
                entry =
              some segment ∧
            isWalFilename segment.filename
                defaultSegmentSizeBytes =
              true ∧
            queuedOf segment = queued := by
  have hIn :
      ∀ directory,
        queued ∈
            listQueuedWalSegmentsIn fs directory
              segmentSizeBytes ↔
          ∃ entries, fs directory = some entries ∧
            ∃ entry ∈ entries, ∃ segment,
              walSegmentFileOf directory segmentSizeBytes
                  entry =
                some segment ∧
              isWalFilename segment.filename
                  defaultSegmentSizeBytes =
                true ∧
              queuedOf segment = queued := by
    intro directory
    unfold listQueuedWalSegmentsIn getWalSegmentFiles
    cases fs directory with
    | none => simp
    | some entries =>
        simp only [List.mem_map, List.mem_filter,
          List.mem_filterMap, Option.some.injEq,
          exists_eq_left']
        constructor
        · rintro ⟨segment, ⟨⟨entry, hEntry, hFile⟩, hName⟩,
            hQueued⟩
          exact ⟨entry, hEntry, segment, hFile, hName, hQueued⟩
        · rintro ⟨entry, hEntry, segment, hFile, hName,
            hQueued⟩
          exact
            ⟨segment, ⟨⟨entry, hEntry, hFile⟩, hName⟩,
              hQueued⟩
  unfold listQueuedWalSegments
  rw [List.mem_append, hIn, hIn]
  simp [queueDirectories]

------------------------------------------------------------
-- Segments of Any Size
------------------------------------------------------------

/- The entry of a finished segment file. -/
def segmentEntry
    (segmentNo timelineID segmentSizeBytes : Nat) :
    DirEntry :=
  { name :=
      getFilename segmentNo timelineID segmentSizeBytes
    isDir := false
    size := some segmentSizeBytes }

/-
  A complete segment file that waits in a directory is listed
  with the bounds of its segment, its bytes are part of the
  backlog, and an upload of it gets past its checks.
-/
structure Recognised
    (fs : FileSystem)
    (watchDir directory : String)
    (segmentNo timelineID segmentSizeBytes : Nat) :
    Prop where
  listed :
    { walFilename :=
        getFilename segmentNo timelineID segmentSizeBytes
      localPath :=
        joinPath directory
          (getFilename segmentNo timelineID segmentSizeBytes)
      timelineID := timelineID
      startLSN := segmentNo * segmentSizeBytes
      endLSN :=
        (segmentNo * segmentSizeBytes + segmentSizeBytes) %
          2 ^ 64
      isComplete := true } ∈
        listQueuedWalSegments fs watchDir segmentSizeBytes
  counted :
    getWalBacklogBytes fs watchDir =
      getWalBacklogBytes
          (fs.without directory
            (segmentEntry segmentNo timelineID
              segmentSizeBytes))
          watchDir +
        segmentSizeBytes
  uploaded :
    segmentBounds
          (getFilename segmentNo timelineID segmentSizeBytes)
          segmentSizeBytes =
        .ok
          (timelineID, segmentNo * segmentSizeBytes,
            (segmentNo * segmentSizeBytes +
                segmentSizeBytes) %
              2 ^ 64) ∧
      isCompleteSegmentFile segmentSizeBytes
          (segmentEntry segmentNo timelineID
            segmentSizeBytes) =
        true

variable {fs : FileSystem}
variable {watchDir directory : String}
variable {segmentNo timelineID segmentSizeBytes : Nat}
variable {entries : List DirEntry}
variable {entry : DirEntry}

/- The two directories have different paths. -/
theorem joinPath_ne
    (directory name : String) :
    joinPath directory name ≠ directory := by
  intro hSame
  have hLength := congrArg String.length hSame
  have hSlash : "/".length = 1 := by decide
  unfold joinPath at hLength
  rw [String.length_append, String.length_append, hSlash]
    at hLength
  omega

/- A directory without an entry lacks the entry's bytes. -/
theorem sumWalSegmentBytes_without
    (hRead : fs directory = some entries)
    (hEntry : entry ∈ entries) :
    sumWalSegmentBytes fs directory =
      sumWalSegmentBytes (fs.without directory entry)
          directory +
        backlogBytesOf entry := by
  have hLess :
      fs.without directory entry directory =
        some (entries.erase entry) := by
    unfold FileSystem.without
    rw [if_pos rfl, hRead, Option.map_some]
  have hSum :=
    ((List.perm_cons_erase hEntry).map backlogBytesOf).sum_eq
  unfold sumWalSegmentBytes
  rw [hRead, hLess]
  simp only
  rw [hSum, List.map_cons, List.sum_cons, Nat.add_comm]

/- Other directories keep their bytes. -/
theorem sumWalSegmentBytes_without_of_ne
    {other : String}
    (hOther : other ≠ directory) :
    sumWalSegmentBytes (fs.without directory entry) other =
      sumWalSegmentBytes fs other := by
  unfold sumWalSegmentBytes FileSystem.without
  rw [if_neg hOther]

theorem getWalBacklogBytes_without
    (hDirectory : directory ∈ queueDirectories watchDir)
    (hRead : fs directory = some entries)
    (hEntry : entry ∈ entries) :
    getWalBacklogBytes fs watchDir =
      getWalBacklogBytes (fs.without directory entry)
          watchDir +
        backlogBytesOf entry := by
  have hDistinct := joinPath_ne watchDir pendingUploadDirName
  unfold getWalBacklogBytes
  simp only [queueDirectories, List.mem_cons,
    List.not_mem_nil, or_false] at hDirectory
  rcases hDirectory with rfl | rfl
  · rw [sumWalSegmentBytes_without hRead hEntry,
      sumWalSegmentBytes_without_of_ne hDistinct]
    omega
  · rw [sumWalSegmentBytes_without hRead hEntry,
      sumWalSegmentBytes_without_of_ne hDistinct.symm]
    omega

/- The segment that the cluster's size reads from an entry. -/
theorem walSegmentFileOf_segmentEntry
    (hDivides : segmentSizeBytes ∣ 2 ^ 32)
    (hTimeline : timelineID < 2 ^ 32)
    (hNumber : segmentNo * segmentSizeBytes < 2 ^ 64) :
    walSegmentFileOf directory segmentSizeBytes
        (segmentEntry segmentNo timelineID
          segmentSizeBytes) =
      some
        { filename :=
            getFilename segmentNo timelineID segmentSizeBytes
          localPath :=
            joinPath directory
              (getFilename segmentNo timelineID
                segmentSizeBytes)
          timelineID := timelineID
          startLSN := segmentNo * segmentSizeBytes
          endLSN :=
            (segmentNo * segmentSizeBytes +
                segmentSizeBytes) %
              2 ^ 64
          isComplete := true } := by
  have hFirst :
      firstLSN segmentNo segmentSizeBytes =
        segmentNo * segmentSizeBytes :=
    Nat.mod_eq_of_lt hNumber
  unfold walSegmentFileOf segmentEntry
  rw [parseWALFilename_getFilename hDivides hTimeline
    hNumber]
  simp [hFirst]

theorem segmentBounds_getFilename
    (hDivides : segmentSizeBytes ∣ 2 ^ 32)
    (hTimeline : timelineID < 2 ^ 32)
    (hNumber : segmentNo * segmentSizeBytes < 2 ^ 64) :
    segmentBounds
        (getFilename segmentNo timelineID segmentSizeBytes)
        segmentSizeBytes =
      .ok
        (timelineID, segmentNo * segmentSizeBytes,
          (segmentNo * segmentSizeBytes +
              segmentSizeBytes) %
            2 ^ 64) := by
  unfold segmentBounds
  rw [parseWALFilename_getFilename hDivides hTimeline
    hNumber]
  simp only [Nat.mod_eq_of_lt hNumber]

/- The default size accepts the name of a listed segment. -/
theorem isWalFilename_of_listed
    {queued : QueuedWalSegment}
    (hListed :
      queued ∈
        listQueuedWalSegments fs watchDir
          segmentSizeBytes) :
    isWalFilename queued.walFilename
        defaultSegmentSizeBytes =
      true := by
  rcases mem_listQueuedWalSegments_iff.mp hListed with
    ⟨_, _, _, _, _, _, segment, _, hName, rfl⟩
  exact hName

/-
  A segment file is recognised exactly when the default size
  accepts its number: the number within a log of 4 GiB has
  to be below 256.  For 16 MiB and more it always is.
-/
theorem recognised_iff
    (fs : FileSystem)
    (watchDir directory : String)
    (entries : List DirEntry)
    (sizeExponent segmentNo timelineID : Nat)
    (hSizes : 20 ≤ sizeExponent ∧ sizeExponent ≤ 30)
    (hTimeline : timelineID < 2 ^ 32)
    (hNumber : segmentNo * 2 ^ sizeExponent < 2 ^ 64)
    (hDirectory : directory ∈ queueDirectories watchDir)
    (hRead : fs directory = some entries)
    (hEntry :
      segmentEntry segmentNo timelineID (2 ^ sizeExponent) ∈
        entries) :
    Recognised fs watchDir directory segmentNo timelineID
        (2 ^ sizeExponent) ↔
      segmentNo % (2 ^ 32 / 2 ^ sizeExponent) < 256 := by
  have hDivides : 2 ^ sizeExponent ∣ 2 ^ 32 :=
    Nat.pow_dvd_pow 2 (by omega)
  have hDefault : defaultSegmentSizeBytes ∣ 2 ^ 32 := by
    decide
  have hName :=
    isWalFilename_getFilename_iff hDivides hDefault hTimeline
      hNumber
  have hCount : 2 ^ 32 / defaultSegmentSizeBytes = 256 := by
    decide
  rw [hCount] at hName
  rw [← hName]
  constructor
  · intro hRecognised
    have hListed :=
      isWalFilename_of_listed hRecognised.listed
    exact hListed
  · intro hAccepted
    refine
      { listed := ?_
        counted := ?_
        uploaded :=
          ⟨segmentBounds_getFilename hDivides hTimeline
              hNumber,
            ?_⟩ }
    · apply mem_listQueuedWalSegments_iff.mpr
      exact
        ⟨directory, hDirectory, entries, hRead, _, hEntry, _,
          walSegmentFileOf_segmentEntry hDivides hTimeline
            hNumber,
          hAccepted, rfl⟩
    · rw [getWalBacklogBytes_without hDirectory hRead hEntry]
      have hBytes :
          backlogBytesOf
              (segmentEntry segmentNo timelineID
                (2 ^ sizeExponent)) =
            2 ^ sizeExponent := by
        simp [backlogBytesOf, segmentEntry, hAccepted]
      rw [hBytes]
    · simp [isCompleteSegmentFile, segmentEntry]

/- One segment of a cluster with segments of 1 MiB. -/
def sampleFileSystem
    (segmentNo : Nat) : FileSystem := fun path =>
  if path = "wal" then
    some [segmentEntry segmentNo 1 (2 ^ 20)]
  else
    none

/- The last segment of a log's first 256 is recognised. -/
theorem small_segment_recognised :
    Recognised (sampleFileSystem 255) "wal" "wal" 255 1
      (2 ^ 20) :=
  (recognised_iff (sampleFileSystem 255) "wal" "wal"
    [segmentEntry 255 1 (2 ^ 20)] 20 255 1 (by decide)
    (by decide) (by decide) (by decide) rfl
    (by exact List.mem_singleton.mpr rfl)).mpr (by decide)

/- The one after it is in no list and adds no bytes. -/
theorem small_segment_is_skipped :
    ¬ ∀ (fs : FileSystem)
        (watchDir directory : String)
        (entries : List DirEntry)
        (sizeExponent segmentNo timelineID : Nat),
        20 ≤ sizeExponent ∧ sizeExponent ≤ 30 →
        timelineID < 2 ^ 32 →
        segmentNo * 2 ^ sizeExponent < 2 ^ 64 →
        directory ∈ queueDirectories watchDir →
        fs directory = some entries →
        segmentEntry segmentNo timelineID
            (2 ^ sizeExponent) ∈
          entries →
        Recognised fs watchDir directory segmentNo timelineID
          (2 ^ sizeExponent) := by
  intro hAlways
  have hRecognised :=
    hAlways (sampleFileSystem 256) "wal" "wal"
      [segmentEntry 256 1 (2 ^ 20)] 20 256 1 (by decide)
      (by decide) (by decide) (by decide) rfl
      (by exact List.mem_singleton.mpr rfl)
  have hAccepted :=
    isWalFilename_of_listed hRecognised.listed
  revert hAccepted
  decide +kernel

end WalStreaming

end Databasus
