import Databasus.Chains.RestoreCoverage
import Databasus.WalStreaming.ArchiveProgress
import Databasus.WalStreaming.ExpectedSegments

/-
  The verdict on the chain while segments wait, arrive, are
  uploaded and commit.

  The queue's two directories are read one after the other,
  the monitor reads the catalog and the remembered lowest
  segment in separate steps, and a request for statistics
  reads backups, segments and the newest sample.  A key that
  arrives late lies above all that has been started, so that
  no sample passes it.

  Main declarations:
    * `StreamHealth`
    * `healthSystem`
    * `FollowsTimelines`
    * `VerdictSound`
    * `HealthInvariant`
    * `chain_verdict_sound`
-/

------------------------------------------------------------
-- The State
------------------------------------------------------------

namespace Databasus

namespace WalStreaming

open Catalog
open Chains
open Walmath (LSN)

/- What a listing of the queue has read so far. -/
inductive ListingStage
  | idle
  | watchDirRead (queued : List QueuedWalSegment)
  | bothRead (queued : List QueuedWalSegment)
deriving DecidableEq, Repr

def ListingStage.queued :
    ListingStage → List QueuedWalSegment
  | .idle => []
  | .watchDirRead queued => queued
  | .bothRead queued => queued

/- What a tick of the lag monitor has read so far. -/
inductive TickStage
  | idle
  | committedRead (newestCommitted : Option WalPosition)
  | progressRead (archiveProgressLSN : LSN)
deriving DecidableEq, Repr

/- What a request for the statistics has read so far. -/
inductive StatisticsRequest
  | idle
  | backupsRead (backups : List Backup)
  | coverageRead (read : CatalogState)
deriving DecidableEq

/- The stream of one database, its monitor and a request. -/
structure StreamHealth where
  uploads : State
  backups : List Backup
  listing : ListingStage := .idle
  listed : List QueuedWalSegment := []
  hasListed : Bool := false
  lowestQueuedSegment : Option WalPosition := none
  tick : TickStage := .idle
  newestSample : Option WalStreamSample := none
  request : StatisticsRequest := .idle
deriving DecidableEq

/- The gaps of the coverage, once a full is completed. -/
def restoreBlockingGaps
    (read : CatalogState)
    (databaseID : Uuid) : List LSNRange :=
  match getRestoreCoverage read databaseID with
  | .error _ => []
  | .ok coverage =>
      if coverage.latestRestorableAt.isSome then
        coverage.blockingGaps
      else
        []

/- The timeline of the chain that the coverage is of. -/
def chainTimeline
    (read : CatalogState)
    (databaseID : Uuid) : Option Nat :=
  match resolveRestoreReach read databaseID none with
  | .error _ => none
  | .ok reach => some reach.chain.rootFull.timelineID

------------------------------------------------------------
-- Steps
------------------------------------------------------------

open Foundation

variable (env : StreamEnvironment)
variable (databaseID : Uuid)

def pendingUploadDirOf : String :=
  joinPath (env.watchDirOf databaseID) pendingUploadDirName

def listQueuedIn
    (files : List LocalFile)
    (directory : String) : List QueuedWalSegment :=
  listQueuedWalSegmentsIn (fileSystemOf files databaseID)
    directory (env.segSizeOf databaseID)

/- A file as it stands in the directory of pending uploads. -/
def pendingUploadOf
    (file : LocalFile) : LocalFile :=
  { file with directory := pendingUploadDirOf env databaseID }

/- The rename replaces whatever has the new path. -/
def moveToPendingUpload
    (s : State)
    (file : LocalFile) : State :=
  { s with
    files :=
      pendingUploadOf env databaseID file ::
        Table.deleteWhere
          (fun other =>
            other.SamePath file ∨
              other.SamePath
                (pendingUploadOf env databaseID file))
          s.files }

/-
  Complete segments are moved out of the resume path, in the
  order of their names.
-/
def IsMovable
    (s : State)
    (file : LocalFile) : Prop :=
  (file ∈ s.files ∧ file.databaseID = databaseID ∧
      file.directory = env.watchDirOf databaseID ∧
        (file.keyIn env).isSome ∧
          file.sizeBytes = env.segSizeOf databaseID) ∧
    ∀ other ∈ s.files,
      other.databaseID = databaseID →
        other.directory = env.watchDirOf databaseID →
          other.sizeBytes = env.segSizeOf databaseID →
            ∀ key ∈ file.keyIn env,
              ∀ lower ∈ other.keyIn env,
                lower.timelineID ≤ key.timelineID →
                  key.startLSN ≤ lower.startLSN

instance instDecidableIsMovable
    (s : State)
    (file : LocalFile) :
    Decidable (IsMovable env databaseID s file) :=
  inferInstanceAs
    (Decidable
      (_ ∧ ∀ _ ∈ _, _ → _ → _ → ∀ _ ∈ _, ∀ _ ∈ _, _ → _))

inductive HealthAction
  | upload (action : Action)
  | moveToPendingUpload (file : LocalFile)
  | readWatchDir (isRead : Bool)
  | readPendingUploadDir (isRead : Bool)
  | recordQueuedSegments
  | readLastCommittedWal (isRead : Bool)
  | readArchiveProgress
  | recordWalStreamSample (isRecorded : Bool)
  | restart
  | changeBackups (backups : List Backup)
  | readBackups
  | readSegments
deriving DecidableEq

/- Uploads begin with the segments of the last listing. -/
def beginsListed
    (s : StreamHealth)
    (action : Action) : Bool :=
  match begunFile action with
  | none => true
  | some file =>
      file.databaseID = databaseID &&
        (queuedSegmentOf env file).any
          fun queued => queued ∈ s.listed

/- A directory that cannot be read lists nothing. -/
def healthStep
    (s : StreamHealth) : HealthAction → Option StreamHealth
  | .upload action =>
      if beginsListed env databaseID s action then
        (step env.segSizeOf s.uploads action).map
          fun uploads => { s with uploads := uploads }
      else
        none
  | .moveToPendingUpload file =>
      if IsMovable env databaseID s.uploads file then
        some
          { s with
            uploads :=
              moveToPendingUpload env databaseID s.uploads
                file }
      else
        none
  | .readWatchDir isRead =>
      match s.listing with
      | .idle =>
          some
            { s with
              listing :=
                .watchDirRead
                  (if isRead then
                    listQueuedIn env databaseID
                      s.uploads.files
                      (env.watchDirOf databaseID)
                  else
                    []) }
      | _ => none
  | .readPendingUploadDir isRead =>
      match s.listing with
      | .watchDirRead queued =>
          some
            { s with
              listing :=
                .bothRead
                  (queued ++
                    if isRead then
                      listQueuedIn env databaseID
                        s.uploads.files
                        (pendingUploadDirOf env databaseID)
                    else
                      []) }
      | _ => none
  | .recordQueuedSegments =>
      match s.listing with
      | .bothRead queued =>
          let sorted := sortQueuedWalSegments queued
          some
            { s with
              listing := .idle
              listed := sorted
              hasListed := true
              lowestQueuedSegment := lowestQueuedOf sorted }
      | _ => none
  | .readLastCommittedWal isRead =>
      if s.hasListed ∧ s.tick = .idle then
        some
          { s with
            tick :=
              .committedRead
                (if isRead then
                  getLastCommittedWal s.uploads.segments
                    databaseID
                else
                  none) }
      else
        none
  | .readArchiveProgress =>
      match s.tick with
      | .committedRead newestCommitted =>
          some
            { s with
              tick :=
                .progressRead
                  (getArchiveProgressPoint
                    s.lowestQueuedSegment
                    newestCommitted) }
      | _ => none
  | .recordWalStreamSample isRecorded =>
      match s.tick with
      | .progressRead archiveProgressLSN =>
          some
            { s with
              tick := .idle
              newestSample :=
                if isRecorded then
                  some
                    (buildWalStreamSample archiveProgressLSN)
                else
                  s.newestSample }
      | _ => none
  | .restart =>
      some
        { s with
          listing := .idle
          listed := []
          hasListed := false
          lowestQueuedSegment := none
          tick := .idle }
  | .changeBackups backups =>
      some { s with backups := backups }
  | .readBackups =>
      some { s with request := .backupsRead s.backups }
  | .readSegments =>
      match s.request with
      | .backupsRead backups =>
          some
            { s with
              request :=
                .coverageRead
                  { backups := backups
                    segments := s.uploads.segments
                    historyFiles := []
                    requested := [] } }
      | _ => none

/-
  A streamer has started: files and rows may be left over,
  and the file of a claim is still there.
-/
def IsStarting
    (s : State) : Prop :=
  Table.UniqueBy WalSegment.id s.segments ∧
    Table.UniqueBy WalSegment.chainKey s.segments ∧
      s.uploads = [] ∧
        ∀ row ∈ s.segments,
          RowSound env row ∧ Expected env s row.chainKey

def healthSystem :
    TransitionSystem StreamHealth HealthAction where
  initial s :=
    IsStarting env s.uploads ∧
      s =
        { uploads := s.uploads
          backups := s.backups }
  step := healthStep env databaseID

------------------------------------------------------------
-- Pending Segments
------------------------------------------------------------

/- The file is one that listings of the queue contain. -/
def IsQueued
    (file : LocalFile) : Prop :=
  (queuedSegmentOf env file).isSome

instance instDecidableIsQueued
    (file : LocalFile) :
    Decidable (IsQueued env file) :=
  inferInstanceAs (Decidable (_ = true))

/- A file of the queue holds an uncommitted segment. -/
def IsPending
    (s : State)
    (key : ChainKey) : Prop :=
  key.databaseID = databaseID ∧
    (∃ file ∈ s.files,
      IsQueued env file ∧ file.keyIn env = some key) ∧
    ¬ Durable s.segments key

instance instDecidableIsPending
    (s : State)
    (key : ChainKey) :
    Decidable (IsPending env databaseID s key) :=
  inferInstanceAs (Decidable (_ ∧ _ ∧ _))

/- The segment lies in the gap and on the chain's timeline. -/
def FillsGap
    (read : CatalogState)
    (gap : LSNRange)
    (key : ChainKey) : Prop :=
  chainTimeline read databaseID = some key.timelineID ∧
    gap.start ≤ key.startLSN ∧ key.startLSN < gap.endLSN

/-
  No sample passes a pending segment, and no chain is called
  broken for a gap that a pending segment fills.
-/
structure VerdictSound
    (s : StreamHealth) : Prop where
  progress :
    ∀ sample ∈ s.newestSample,
      ∀ archiveProgressLSN ∈ sample.archiveProgressLSN,
        ∀ key,
          IsPending env databaseID s.uploads key →
            archiveProgressLSN ≤ key.startLSN
  chainBroken :
    ∀ read,
      s.request = .coverageRead read →
        ∀ gap ∈ restoreBlockingGaps read databaseID,
          (getWalChainBrokenReason s.newestSample
            [gap]).isSome →
            ∀ key,
              IsPending env databaseID s.uploads key →
                ¬ FillsGap databaseID read gap key

/- The keys of all that is committed or queued. -/
def receivedKeys
    (s : State) : List ChainKey :=
  ((s.segments.filter fun row =>
      row.fileName.isSome).map WalSegment.chainKey ++
    (s.files.filter fun file =>
      IsQueued env file).filterMap
        (LocalFile.keyIn env)).filter
      fun key => key.databaseID = databaseID

/-
  The queue loses nothing, and a timeline's segments arrive
  whole and one after the other, or again.
-/
def KeepsStream
    (s : StreamHealth) : HealthAction → Prop
  | .upload action =>
      (keepsStreaming action = true ∧
        KeepsHeldClaims s.uploads action) ∧
        match action with
        | .fileArrives file =>
            IsQueued env file →
              file.databaseID = databaseID →
                (file.directory = env.watchDirOf databaseID ∧
                  file.sizeBytes =
                    env.segSizeOf databaseID) ∧
                ∀ key ∈ file.keyIn env,
                  key ∈
                      receivedKeys env databaseID
                        s.uploads ∨
                    ∀ other ∈
                        receivedKeys env databaseID
                          s.uploads,
                      other.timelineID = key.timelineID →
                        other.startLSN < key.startLSN
        | _ => True
  | _ => True

instance instDecidableKeepsStream
    (s : StreamHealth)
    (action : HealthAction) :
    Decidable (KeepsStream env databaseID s action) := by
  cases action with
  | upload action =>
      unfold KeepsStream
      cases action <;> infer_instance
  | _ => exact inferInstanceAs (Decidable True)

/- Segments of a newer timeline start above older ones'. -/
def TimelinesAscend
    (s : State) : Prop :=
  ∀ older ∈ receivedKeys env databaseID s,
    ∀ newer ∈ receivedKeys env databaseID s,
      older.timelineID < newer.timelineID →
        older.startLSN < newer.startLSN

instance instDecidableTimelinesAscend
    (s : State) :
    Decidable (TimelinesAscend env databaseID s) :=
  inferInstanceAs (Decidable (∀ _ ∈ _, ∀ _ ∈ _, _ → _))

/- Every segment that waits in the directory is committed. -/
def NothingPendingIn
    (s : State)
    (directory : String) : Prop :=
  ∀ file ∈ s.files,
    file.databaseID = databaseID →
      file.directory = directory →
        ∀ key ∈ file.keyIn env, Durable s.segments key

instance instDecidableNothingPendingIn
    (s : State)
    (directory : String) :
    Decidable
      (NothingPendingIn env databaseID s directory) :=
  inferInstanceAs
    (Decidable (∀ _ ∈ _, _ → _ → ∀ _ ∈ _, _))

/-
  What arrives on another timeline lies on a newer one and
  above, and a directory that cannot be read holds nothing
  that is pending.
-/
def FollowsTimelines
    (s : StreamHealth)
    (action : HealthAction) : Prop :=
  TimelinesAscend env databaseID s.uploads ∧
    match action with
    | .upload (.fileArrives file) =>
        IsQueued env file →
          file.databaseID = databaseID →
            ∀ key ∈ file.keyIn env,
              key ∈ receivedKeys env databaseID s.uploads ∨
                ∀ other ∈
                    receivedKeys env databaseID s.uploads,
                  other.timelineID ≠ key.timelineID →
                    other.timelineID < key.timelineID ∧
                      other.startLSN < key.startLSN
    | .readWatchDir isRead =>
        isRead = true ∨
          NothingPendingIn env databaseID s.uploads
            (env.watchDirOf databaseID)
    | .readPendingUploadDir isRead =>
        isRead = true ∨
          NothingPendingIn env databaseID s.uploads
            (pendingUploadDirOf env databaseID)
    | _ => True

instance instDecidableFollowsTimelines
    (s : StreamHealth)
    (action : HealthAction) :
    Decidable
      (FollowsTimelines env databaseID s action) := by
  unfold FollowsTimelines
  cases action with
  | upload action =>
      cases action <;> infer_instance
  | _ => infer_instance

------------------------------------------------------------
-- Received Keys
------------------------------------------------------------

variable {env}
variable {databaseID}
variable {s : State}
variable {key : ChainKey}

theorem mem_receivedKeys_iff :
    key ∈ receivedKeys env databaseID s ↔
      key.databaseID = databaseID ∧
        (Durable s.segments key ∨
          ∃ file ∈ s.files,
            IsQueued env file ∧
              file.keyIn env = some key) := by
  unfold receivedKeys
  simp only [List.mem_filter, List.mem_append, List.mem_map,
    List.mem_filterMap, decide_eq_true_eq]
  constructor
  · rintro ⟨⟨row, ⟨hMember, hName⟩, rfl⟩ |
      ⟨file, ⟨hFile, hQueued⟩, hKey⟩, hDatabase⟩
    · exact ⟨hDatabase, Or.inl ⟨row, hMember, hName, rfl⟩⟩
    · exact ⟨hDatabase, Or.inr ⟨file, hFile, hQueued, hKey⟩⟩
  · rintro ⟨hDatabase, ⟨row, hMember, hName, rfl⟩ |
      ⟨file, hFile, hQueued, hKey⟩⟩
    · exact ⟨Or.inl ⟨row, ⟨hMember, hName⟩, rfl⟩, hDatabase⟩
    · exact ⟨Or.inr ⟨file, ⟨hFile, hQueued⟩, hKey⟩, hDatabase⟩

theorem IsPending.received
    (hPending : IsPending env databaseID s key) :
    key ∈ receivedKeys env databaseID s := by
  exact
    mem_receivedKeys_iff.mpr
      ⟨hPending.1, Or.inr hPending.2.1⟩

/- A file's segment starts at a multiple of the size. -/
theorem size_dvd_of_keyIn
    {file : LocalFile}
    (hKey : file.keyIn env = some key) :
    env.segSizeOf key.databaseID ∣ key.startLSN := by
  unfold LocalFile.keyIn LocalFile.chainKey segmentBounds
    at hKey
  cases hRead :
      Walmath.parseWALFilename file.walFilename
        (env.segSizeOf file.databaseID) with
  | error error =>
      rw [hRead] at hKey
      cases hKey
  | ok parsed =>
      rw [hRead] at hKey
      cases hKey
      exact (segmentBounds_of_parse hRead).aligned

theorem size_dvd_of_received
    (hSound : QueueSound env s)
    (hReceived : key ∈ receivedKeys env databaseID s) :
    env.segSizeOf databaseID ∣ key.startLSN := by
  rcases mem_receivedKeys_iff.mp hReceived with
    ⟨rfl, ⟨row, hRow, _, rfl⟩ | ⟨file, _, _, hKey⟩⟩
  · exact (hSound.rows row hRow).aligned
  · exact size_dvd_of_keyIn hKey

/- A received segment ends before one that starts above. -/
theorem endOf_le_of_received
    {lower upper : ChainKey}
    (hSound : QueueSound env s)
    (hLower : lower ∈ receivedKeys env databaseID s)
    (hUpper :
      env.segSizeOf databaseID ∣ upper.startLSN)
    (hOrder : lower.startLSN < upper.startLSN) :
    endOf env lower ≤ upper.startLSN := by
  have hDatabase := (mem_receivedKeys_iff.mp hLower).1
  unfold endOf
  rw [hDatabase]
  exact
    add_size_le (size_dvd_of_received hSound hLower) hUpper
      hOrder

------------------------------------------------------------
-- Listings of One Directory
------------------------------------------------------------

variable {files : List LocalFile}
variable {directory : String}
variable {file : LocalFile}

theorem mem_listQueuedIn_iff
    (hDirectory :
      directory ∈
        queueDirectories (env.watchDirOf databaseID))
    {queued : QueuedWalSegment} :
    queued ∈ listQueuedIn env databaseID files directory ↔
      ∃ file ∈ files,
        file.databaseID = databaseID ∧
          file.directory = directory ∧
            queuedSegmentOf env file = some queued := by
  unfold listQueuedIn listQueuedWalSegmentsIn
    getWalSegmentFiles fileSystemOf
  simp only [List.mem_map, List.mem_filter,
    List.mem_filterMap, Bool.and_eq_true, decide_eq_true_eq]
  constructor
  · rintro ⟨segment, ⟨⟨entry, ⟨file, hFile, rfl⟩, hSegment⟩,
      hName⟩, rfl⟩
    rcases hFile with ⟨hMember, rfl, rfl⟩
    refine ⟨file, hMember, rfl, rfl, ?_⟩
    unfold queuedSegmentOf
    rw [if_pos hDirectory, hSegment]
    simp only [hName, if_true]
  · rintro ⟨file, hMember, rfl, rfl, hQueued⟩
    unfold queuedSegmentOf at hQueued
    rw [if_pos hDirectory] at hQueued
    split at hQueued
    · cases hQueued
    · next segment hSegment =>
        split at hQueued
        · next hName =>
            cases hQueued
            exact
              ⟨segment,
                ⟨⟨file.entry, ⟨file, ⟨hMember, rfl, rfl⟩,
                  rfl⟩, hSegment⟩, hName⟩, rfl⟩
        · cases hQueued

/- The key of a listed segment of the database. -/
def queuedKey
    (databaseID : Uuid)
    (queued : QueuedWalSegment) : ChainKey :=
  { databaseID := databaseID
    timelineID := queued.timelineID
    startLSN := queued.startLSN }

/- A file of the queue is listed under its key. -/
theorem queued_of_isQueued
    (hQueued : IsQueued env file)
    (hKey : file.keyIn env = some key) :
    ∃ queued,
      queuedSegmentOf env file = some queued ∧
        queuedKey file.databaseID queued = key ∧
          file.directory ∈
            queueDirectories
              (env.watchDirOf file.databaseID) := by
  rcases Option.isSome_iff_exists.mp hQueued with
    ⟨queued, hSegment⟩
  refine ⟨queued, hSegment, ?_, ?_⟩
  · have hListed := (queuedSegmentOf_some hSegment).2.1
    rw [hKey] at hListed
    exact (Option.some.inj hListed).symm
  · unfold queuedSegmentOf at hSegment
    split at hSegment
    · assumption
    · cases hSegment

theorem isQueued_of_isWaiting
    (hWaits : IsWaiting env file) :
    IsQueued env file := by
  unfold IsWaiting at hWaits
  unfold IsQueued
  cases hSegment : queuedSegmentOf env file with
  | none =>
      rw [hSegment] at hWaits
      cases hWaits
  | some queued => rfl

theorem sizeBytes_of_isWaiting
    (hWaits : IsWaiting env file) :
    file.sizeBytes = env.segSizeOf file.databaseID := by
  unfold IsWaiting at hWaits
  cases hSegment : queuedSegmentOf env file with
  | none =>
      rw [hSegment] at hWaits
      cases hWaits
  | some queued =>
      rw [hSegment, Option.any_some,
        (queuedSegmentOf_some hSegment).2.2] at hWaits
      exact of_decide_eq_true hWaits

/- A file of the queue that is whole waits. -/
theorem isWaiting_of_isQueued
    (hQueued : IsQueued env file)
    (hSize :
      file.sizeBytes = env.segSizeOf file.databaseID) :
    IsWaiting env file := by
  rcases Option.isSome_iff_exists.mp hQueued with
    ⟨queued, hSegment⟩
  unfold IsWaiting
  rw [hSegment, Option.any_some,
    (queuedSegmentOf_some hSegment).2.2]
  exact decide_eq_true hSize

/- A key that is listed has been received. -/
theorem received_of_listed
    (hDirectory :
      directory ∈
        queueDirectories (env.watchDirOf databaseID))
    {queued : QueuedWalSegment}
    (hListed :
      queued ∈
        listQueuedIn env databaseID s.files directory) :
    queuedKey databaseID queued ∈
      receivedKeys env databaseID s := by
  rcases (mem_listQueuedIn_iff hDirectory).mp hListed with
    ⟨file, hFile, rfl, _, hQueued⟩
  exact
    mem_receivedKeys_iff.mpr
      ⟨rfl, Or.inr
        ⟨file, hFile, Option.isSome_of_eq_some hQueued,
          (queuedSegmentOf_some hQueued).2.1⟩⟩

/- The key of a file depends on its database and its name. -/
theorem keyIn_of_samePath
    {file other : LocalFile}
    (hDatabase : other.databaseID = file.databaseID)
    (hName : other.walFilename = file.walFilename) :
    other.keyIn env = file.keyIn env := by
  unfold LocalFile.keyIn LocalFile.chainKey
  rw [hDatabase, hName]

/- The queue lists a name in either of its directories. -/
theorem isQueued_of_sameName
    {file other : LocalFile}
    (hDirectory :
      file.directory ∈
        queueDirectories (env.watchDirOf file.databaseID))
    (hDatabase : other.databaseID = file.databaseID)
    (hName : other.walFilename = file.walFilename)
    (hQueued : IsQueued env other) :
    IsQueued env file := by
  unfold IsQueued queuedSegmentOf at hQueued ⊢
  rw [if_pos hDirectory]
  split at hQueued
  · unfold walSegmentFileOf at hQueued ⊢
    simp only [LocalFile.entry] at hQueued ⊢
    rw [hDatabase, hName] at hQueued
    cases hRead :
        Walmath.parseWALFilename file.walFilename
          (env.segSizeOf file.databaseID) with
    | error error =>
        rw [hRead] at hQueued
        simp at hQueued
    | ok parsed =>
        rw [hRead] at hQueued
        simp only [Bool.false_eq_true, if_false] at hQueued ⊢
        split at hQueued
        · next hListed =>
            rw [if_pos hListed]
            rfl
        · cases hQueued
  · cases hQueued

theorem pendingUploadDirOf_mem :
    pendingUploadDirOf env databaseID ∈
      queueDirectories (env.watchDirOf databaseID) := by
  simp [queueDirectories, pendingUploadDirOf]

theorem watchDirOf_mem :
    env.watchDirOf databaseID ∈
      queueDirectories (env.watchDirOf databaseID) := by
  simp [queueDirectories]

------------------------------------------------------------
-- The Invariant
------------------------------------------------------------

variable (env)
variable (databaseID)

/- A segment that is committed, under way or listed. -/
def Started
    (s : StreamHealth)
    (key : ChainKey) : Prop :=
  key.databaseID = databaseID ∧
    (Durable s.uploads.segments key ∨
      (∃ upload ∈ s.uploads.uploads,
        upload.file.keyIn env = some key) ∨
        ∃ queued ∈ s.listed,
          queuedKey databaseID queued = key)

/- All that is started lies below the key. -/
def IsLate
    (s : StreamHealth)
    (key : ChainKey) : Prop :=
  ∀ other, Started env databaseID s other →
    other.startLSN < key.startLSN

/- The key is above all that a listing has read, too. -/
def IsUnread
    (s : StreamHealth)
    (listed : List QueuedWalSegment)
    (key : ChainKey) : Prop :=
  IsLate env databaseID s key ∧
    ∀ queued ∈ listed, queued.startLSN < key.startLSN

/- A file of the segment stands among pending uploads. -/
def IsMoved
    (s : State)
    (key : ChainKey) : Prop :=
  ∃ file ∈ s.files,
    file.databaseID = databaseID ∧
      file.directory = pendingUploadDirOf env databaseID ∧
        IsQueued env file ∧ file.keyIn env = some key

/- It stands in the watch directory, above all moved files. -/
def IsUnmoved
    (s : State)
    (key : ChainKey) : Prop :=
  (∃ file ∈ s.files,
    file.databaseID = databaseID ∧
      file.directory = env.watchDirOf databaseID ∧
        IsWaiting env file ∧ file.keyIn env = some key) ∧
    ∀ file ∈ s.files,
      file.databaseID = databaseID →
        file.directory = pendingUploadDirOf env databaseID →
          IsQueued env file →
            ∀ other, file.keyIn env = some other →
              other.startLSN < key.startLSN

/- The position comes first, or is the key's own. -/
def WalPosition.IsNoLater
    (position : WalPosition)
    (key : ChainKey) : Prop :=
  position.timelineID < key.timelineID ∨
    position.timelineID = key.timelineID ∧
      position.lsn ≤ key.startLSN

/- A point below all that is pending and is yet to come. -/
def ProgressSound
    (s : State)
    (archiveProgressLSN : LSN) : Prop :=
  (∀ key,
    IsPending env databaseID s key →
      archiveProgressLSN ≤ key.startLSN) ∧
    (archiveProgressLSN = 0 ∨
      ∃ key ∈ receivedKeys env databaseID s,
        archiveProgressLSN ≤ endOf env key)

/- The position is within a committed segment's end. -/
def CommittedSound
    (s : State)
    (position : WalPosition) : Prop :=
  ∃ key, Durable s.segments key ∧
    key.databaseID = databaseID ∧
      key.timelineID = position.timelineID ∧
        position.lsn ≤ endOf env key

/-
  What a listing has not read arrived after it began, and so
  did what lies below the remembered position.
-/
structure HealthInvariant
    (s : StreamHealth) : Prop where
  queue : QueueSound env s.uploads
  started :
    ∀ key, Started env databaseID s key →
      key ∈ receivedKeys env databaseID s.uploads
  reading :
    ∀ queued ∈ s.listing.queued,
      queuedKey databaseID queued ∈
        receivedKeys env databaseID s.uploads
  watchDirRead :
    ∀ listed, s.listing = .watchDirRead listed →
      ∀ key,
        IsPending env databaseID s.uploads key →
          (∃ queued ∈ listed,
            queuedKey databaseID queued = key) ∨
            IsMoved env databaseID s.uploads key ∨
              IsUnmoved env databaseID s.uploads key ∧
                IsUnread env databaseID s listed key
  bothRead :
    ∀ listed, s.listing = .bothRead listed →
      ∀ key,
        IsPending env databaseID s.uploads key →
          (∃ queued ∈ listed,
            queuedKey databaseID queued = key) ∨
            IsUnread env databaseID s listed key
  lowest :
    s.hasListed = true →
      ∀ key,
        IsPending env databaseID s.uploads key →
          (∃ lowest ∈ s.lowestQueuedSegment,
            lowest.IsNoLater key) ∨
            IsLate env databaseID s key
  remembered :
    ∀ lowest ∈ s.lowestQueuedSegment,
      ∃ queued ∈ s.listed,
        queued.timelineID = lowest.timelineID ∧
          queued.startLSN = lowest.lsn
  committedRead :
    ∀ newestCommitted,
      s.tick = .committedRead newestCommitted →
        s.hasListed = true ∧
          ∀ position ∈ newestCommitted,
            CommittedSound env databaseID s.uploads position
  progressRead :
    ∀ archiveProgressLSN,
      s.tick = .progressRead archiveProgressLSN →
        ProgressSound env databaseID s.uploads
          archiveProgressLSN
  sample :
    ∀ sample ∈ s.newestSample,
      ∀ archiveProgressLSN ∈ sample.archiveProgressLSN,
        ProgressSound env databaseID s.uploads
          archiveProgressLSN

variable {env : StreamEnvironment}
variable {databaseID : Uuid}
variable {s : StreamHealth}

/- A gap that a sample has passed holds nothing pending. -/
theorem HealthInvariant.verdictSound
    (hHolds : HealthInvariant env databaseID s) :
    VerdictSound env databaseID s := by
  have hProgress :
      ∀ sample ∈ s.newestSample,
        ∀ archiveProgressLSN ∈ sample.archiveProgressLSN,
          ∀ key,
            IsPending env databaseID s.uploads key →
              archiveProgressLSN ≤ key.startLSN :=
    fun sample hSample lsn hLSN =>
      (hHolds.sample sample hSample lsn hLSN).1
  refine ⟨hProgress, ?_⟩
  intro read _ gap _ hBroken key hPending hFills
  unfold getWalChainBrokenReason at hBroken
  split at hBroken
  · cases hBroken
  · next archiveProgressLSN hSample =>
      rcases Option.bind_eq_some_iff.mp hSample with
        ⟨sample, hNewest, hLSN⟩
      have hBelow :=
        hProgress sample hNewest archiveProgressLSN hLSN key
          hPending
      split at hBroken
      · next hPassed =>
          simp only [List.any_cons, List.any_nil,
            Bool.or_false, decide_eq_true_eq] at hPassed
          have hEnd := hPassed.trans hBelow
          exact Nat.not_lt_of_le hEnd hFills.2.2
      · cases hBroken

------------------------------------------------------------
-- Changes of the Queue
------------------------------------------------------------

/-
  What a step of the queue keeps.  A segment that is pending
  after it was pending before, or is above all received.
-/
structure KeepsQueued
    (env : StreamEnvironment)
    (databaseID : Uuid)
    (s s' : State) : Prop where
  queue : QueueSound env s'
  durable :
    ∀ key, Durable s.segments key → Durable s'.segments key
  received :
    ∀ key ∈ receivedKeys env databaseID s,
      key ∈ receivedKeys env databaseID s'
  pending :
    ∀ key, IsPending env databaseID s' key →
      IsPending env databaseID s key ∨
        IsUnmoved env databaseID s' key ∧
          ∀ other ∈ receivedKeys env databaseID s,
            other.startLSN < key.startLSN
  moved :
    ∀ key, IsPending env databaseID s' key →
      IsMoved env databaseID s key →
        IsMoved env databaseID s' key
  unmoved :
    ∀ key, IsPending env databaseID s' key →
      IsUnmoved env databaseID s key →
        IsMoved env databaseID s' key ∨
          IsUnmoved env databaseID s' key

variable {env : StreamEnvironment}
variable {databaseID : Uuid}
variable {s s' : StreamHealth}

/- What is new lies above a point within received ends. -/
theorem ProgressSound.keeps
    {before after : State}
    {archiveProgressLSN : LSN}
    (hSound : QueueSound env before)
    (hKeeps : KeepsQueued env databaseID before after)
    (hProgress :
      ProgressSound env databaseID before
        archiveProgressLSN) :
    ProgressSound env databaseID after
      archiveProgressLSN := by
  refine ⟨?_, ?_⟩
  · intro key hPending
    rcases hKeeps.pending key hPending with hOld | hNew
    · exact hProgress.1 key hOld
    · rcases hProgress.2 with rfl | ⟨other, hOther, hEnd⟩
      · exact Nat.zero_le _
      · have hAligned :=
          size_dvd_of_received hKeeps.queue hPending.received
        exact
          hEnd.trans
            (endOf_le_of_received hSound hOther hAligned
              (hNew.2 other hOther))
  · rcases hProgress.2 with hZero | ⟨other, hOther, hEnd⟩
    · exact Or.inl hZero
    · exact Or.inr ⟨other, hKeeps.received other hOther, hEnd⟩

/- The invariant rides on a step of the queue alone. -/
theorem HealthInvariant.keeps
    {after : State}
    (hHolds : HealthInvariant env databaseID s)
    (hKeeps :
      KeepsQueued env databaseID s.uploads after)
    (hStarted :
      ∀ key,
        Started env databaseID { s with uploads := after }
            key →
          Started env databaseID s key) :
    HealthInvariant env databaseID
      { s with uploads := after } := by
  have hLate :
      ∀ key, IsLate env databaseID s key →
        IsLate env databaseID { s with uploads := after }
          key :=
    fun key hLate other hOther =>
      hLate other (hStarted other hOther)
  have hAfter :
      ∀ key, IsPending env databaseID after key →
        IsPending env databaseID s.uploads key ∨
          IsUnmoved env databaseID after key ∧
            IsUnread env databaseID
              { s with uploads := after } s.listing.queued
              key := by
    intro key hPending
    rcases hKeeps.pending key hPending with
      hOld | ⟨hUnmoved, hNew⟩
    · exact Or.inl hOld
    · refine Or.inr ⟨hUnmoved, ?_, ?_⟩
      · intro other hOther
        exact
          hNew other
            (hHolds.started other (hStarted other hOther))
      · intro queued hQueued
        exact hNew _ (hHolds.reading queued hQueued)
  refine
    { queue := hKeeps.queue
      started := fun key hKey =>
        hKeeps.received key
          (hHolds.started key (hStarted key hKey))
      reading := fun queued hQueued =>
        hKeeps.received _ (hHolds.reading queued hQueued)
      watchDirRead := ?_
      bothRead := ?_
      lowest := ?_
      remembered := hHolds.remembered
      committedRead := ?_
      progressRead := fun lsn hTick =>
        (hHolds.progressRead lsn hTick).keeps hHolds.queue
          hKeeps
      sample := fun sample hSample lsn hLSN =>
        (hHolds.sample sample hSample lsn hLSN).keeps
          hHolds.queue hKeeps }
  · intro listed hListing key hPending
    rcases hAfter key hPending with hOld | hNew
    · rcases hHolds.watchDirRead listed hListing key hOld with
        hListed | hMoved | ⟨hUnmoved, hUnread⟩
      · exact Or.inl hListed
      · exact
          Or.inr
            (Or.inl (hKeeps.moved key hPending hMoved))
      · right
        rcases hKeeps.unmoved key hPending hUnmoved with
          hMoved | hStill
        · exact Or.inl hMoved
        · exact
            Or.inr
              ⟨hStill, hLate key hUnread.1, hUnread.2⟩
    · change s.listing = _ at hListing
      rw [hListing] at hNew
      exact Or.inr (Or.inr hNew)
  · intro listed hListing key hPending
    rcases hAfter key hPending with hOld | hNew
    · rcases hHolds.bothRead listed hListing key hOld with
        hListed | hUnread
      · exact Or.inl hListed
      · exact Or.inr ⟨hLate key hUnread.1, hUnread.2⟩
    · change s.listing = _ at hListing
      rw [hListing] at hNew
      exact Or.inr hNew.2
  · intro hHasListed key hPending
    rcases hAfter key hPending with hOld | hNew
    · rcases hHolds.lowest hHasListed key hOld with
        hLowest | hKeyLate
      · exact Or.inl hLowest
      · exact Or.inr (hLate key hKeyLate)
    · exact Or.inr hNew.2.1
  · intro newestCommitted hTick
    rcases hHolds.committedRead newestCommitted hTick with
      ⟨hHasListed, hCommitted⟩
    refine ⟨hHasListed, ?_⟩
    intro position hPosition
    rcases hCommitted position hPosition with
      ⟨key, hDurable, hRest⟩
    exact ⟨key, hKeeps.durable key hDurable, hRest⟩

------------------------------------------------------------
-- Uploads and Moves Keep the Queue
------------------------------------------------------------

variable {action : Action}
variable {after : State}
variable {state : State}

/- A listed segment's file is one of the queue. -/
theorem isListedBy_of_beginsListed
    (hBegins :
      beginsListed env databaseID s action = true) :
    isListedBy env action = true := by
  have hSome :
      ∀ file, begunFile action = some file →
        (queuedSegmentOf env file).isSome = true := by
    intro file hFile
    unfold beginsListed at hBegins
    rw [hFile] at hBegins
    rcases Option.any_eq_true_iff_get _ _ |>.mp
        (Bool.and_eq_true_iff.mp hBegins).2 with
      ⟨hQueued, _⟩
    exact hQueued
  cases action with
  | processSegment runID claimID deps file =>
      exact hSome file rfl
  | recoverSegment runID claimID deps file =>
      exact hSome file rfl
  | _ => rfl

/- The file of an upload that begins is of a listed key. -/
theorem listed_of_beginsListed
    (hBegins :
      beginsListed env databaseID s action = true)
    (hBegun : begunFile action = some file)
    {key : ChainKey}
    (hKey : file.keyIn env = some key) :
    key.databaseID = databaseID ∧
      ∃ queued ∈ s.listed,
        queuedKey databaseID queued = key := by
  unfold beginsListed at hBegins
  rw [hBegun] at hBegins
  rcases Bool.and_eq_true_iff.mp hBegins with
    ⟨hDatabase, hAny⟩
  have hOwn := of_decide_eq_true hDatabase
  cases hSegment : queuedSegmentOf env file with
  | none =>
      rw [hSegment] at hAny
      cases hAny
  | some queued =>
      rw [hSegment] at hAny
      have hListed := (queuedSegmentOf_some hSegment).2.1
      rw [hKey] at hListed
      cases hListed
      refine ⟨hOwn, queued, of_decide_eq_true hAny, ?_⟩
      unfold queuedKey
      rw [hOwn]

/- A file arrives whole, and new ones above all received. -/
theorem arrives_of_keeps
    (hKeeps :
      KeepsStream env databaseID s (.upload action))
    (hFollows :
      FollowsTimelines env databaseID s (.upload action))
    (hArrives : action = .fileArrives file)
    (hQueued : IsQueued env file)
    (hOwn : file.databaseID = databaseID) :
    file.directory = env.watchDirOf databaseID ∧
      file.sizeBytes = env.segSizeOf databaseID ∧
        ∀ key, file.keyIn env = some key →
          key ∈ receivedKeys env databaseID s.uploads ∨
            ∀ other ∈ receivedKeys env databaseID s.uploads,
              other.startLSN < key.startLSN := by
  subst hArrives
  rcases hKeeps.2 hQueued hOwn with ⟨⟨hHere, hSize⟩, hOrder⟩
  refine ⟨hHere, hSize, ?_⟩
  intro key hKey
  rcases hOrder key hKey with hReceived | hAbove
  · exact Or.inl hReceived
  · rcases hFollows.2 hQueued hOwn key hKey with
      hReceived | hNewer
    · exact Or.inl hReceived
    · right
      intro other hOther
      by_cases hSame : other.timelineID = key.timelineID
      · exact hAbove other hOther hSame
      · exact (hNewer other hOther hSame).2

theorem keepsQueued_upload
    (hSound : QueueSound env s.uploads)
    (hKeeps :
      KeepsStream env databaseID s (.upload action))
    (hFollows :
      FollowsTimelines env databaseID s (.upload action))
    (hBegins :
      beginsListed env databaseID s action = true)
    (hStep :
      step env.segSizeOf s.uploads action = some after) :
    KeepsQueued env databaseID s.uploads after := by
  have hStays :
      ∀ file ∈ s.uploads.files,
        ∀ key, file.keyIn env = some key →
          file ∈ after.files ∨ Durable after.segments key := by
    intro file hFile key hKey
    by_cases hLeft : file ∈ after.files
    · exact Or.inl hLeft
    · right
      have hRemoves :=
        removesOnlyArchived_of_invariant action
          hSound.uploads
      exact
        durable_of_archived hKey
          (hRemoves after hStep file hFile hLeft)
  have hMovedOld :
      ∀ file ∈ after.files,
        file.databaseID = databaseID →
          file.directory =
              pendingUploadDirOf env databaseID →
            IsQueued env file → file ∈ s.uploads.files := by
    intro file hFile hOwn hThere hQueued
    rcases files_of_step hStep file hFile with
      hOld | hArrives
    · exact hOld
    · have hHere :=
        (arrives_of_keeps hKeeps hFollows hArrives hQueued
          hOwn).1
      rw [hThere] at hHere
      exact absurd hHere (joinPath_ne _ _)
  refine
    { queue :=
        queueSound_step hSound
          (isListedBy_of_beginsListed hBegins) hKeeps.1.1
          hKeeps.1.2 hStep
      durable := fun key => durable_of_step hStep
      received := ?_
      pending := ?_
      moved := ?_
      unmoved := ?_ }
  · intro key hReceived
    rcases mem_receivedKeys_iff.mp hReceived with
      ⟨hDatabase, hDurable | ⟨file, hFile, hQueued, hKey⟩⟩
    · exact
        mem_receivedKeys_iff.mpr
          ⟨hDatabase, Or.inl (durable_of_step hStep hDurable)⟩
    · rcases hStays file hFile key hKey with hLeft | hDurable
      · exact
          mem_receivedKeys_iff.mpr
            ⟨hDatabase, Or.inr ⟨file, hLeft, hQueued, hKey⟩⟩
      · exact
          mem_receivedKeys_iff.mpr
            ⟨hDatabase, Or.inl hDurable⟩
  · rintro key ⟨hDatabase, ⟨file, hFile, hQueued, hKey⟩,
      hPending⟩
    have hBefore : ¬ Durable s.uploads.segments key :=
      fun hDurable => hPending (durable_of_step hStep hDurable)
    rcases files_of_step hStep file hFile with
      hOld | hArrives
    · exact
        Or.inl
          ⟨hDatabase, ⟨file, hOld, hQueued, hKey⟩, hBefore⟩
    · have hOwn : file.databaseID = databaseID := by
        rcases queued_of_isQueued hQueued hKey with
          ⟨queued, _, rfl, _⟩
        exact hDatabase
      rcases
          arrives_of_keeps hKeeps hFollows hArrives hQueued
            hOwn with
        ⟨hHere, hSize, hNew⟩
      rcases hNew key hKey with hReceived | hAbove
      · left
        rcases (mem_receivedKeys_iff.mp hReceived).2 with
          hDurable | hWaiting
        · exact absurd hDurable hBefore
        · exact ⟨hDatabase, hWaiting, hBefore⟩
      · right
        have hWaits : IsWaiting env file := by
          apply isWaiting_of_isQueued hQueued
          rw [hOwn]
          exact hSize
        refine
          ⟨⟨⟨file, hFile, hOwn, hHere, hWaits, hKey⟩, ?_⟩,
            hAbove⟩
        intro moved hMoved hMovedOwn hThere hMovedQueued other
          hOther
        apply hAbove other
        apply mem_receivedKeys_iff.mpr
        have hOld :=
          hMovedOld moved hMoved hMovedOwn hThere hMovedQueued
        refine ⟨?_, Or.inr ⟨moved, hOld, hMovedQueued, hOther⟩⟩
        rcases queued_of_isQueued hMovedQueued hOther with
          ⟨queued, _, rfl, _⟩
        exact hMovedOwn
  · rintro key hPending
      ⟨file, hFile, hDatabase, hDirectory, hQueued, hKey⟩
    rcases hStays file hFile key hKey with hLeft | hDurable
    · exact ⟨file, hLeft, hDatabase, hDirectory, hQueued, hKey⟩
    · exact absurd hDurable hPending.2.2
  · rintro key hPending
      ⟨⟨file, hFile, hDatabase, hHere, hWaits, hKey⟩, hBelow⟩
    right
    constructor
    · rcases hStays file hFile key hKey with
        hLeft | hDurable
      · exact ⟨file, hLeft, hDatabase, hHere, hWaits, hKey⟩
      · exact absurd hDurable hPending.2.2
    · intro moved hMoved hMovedOwn hThere hMovedQueued
      exact
        hBelow moved
          (hMovedOld moved hMoved hMovedOwn hThere
            hMovedQueued)
          hMovedOwn hThere hMovedQueued

/- An upload step starts nothing that was not listed. -/
theorem started_upload
    (hSound : QueueSound env s.uploads)
    (hBegins :
      beginsListed env databaseID s action = true)
    (hStep :
      step env.segSizeOf s.uploads action = some after)
    {key : ChainKey}
    (hStarted :
      Started env databaseID { s with uploads := after }
        key) :
    Started env databaseID s key := by
  rcases hStarted with
    ⟨hDatabase, hDurable | ⟨upload, hUpload, hKey⟩ | hListed⟩
  · refine ⟨hDatabase, ?_⟩
    rcases durable_before hSound hStep hDurable with
      hOld | ⟨_, claim, hClaim, rfl⟩
    · exact Or.inl hOld
    · rcases committedClaim_some hClaim with
        ⟨upload, hUpload, hOwn, _⟩
      have hKey :=
        (hSound.uploads.uploads upload hUpload).key claim
          hOwn
      exact Or.inr (Or.inl ⟨upload, hUpload, hKey⟩)
  · rcases uploadFiles_of_step hStep upload hUpload with
      ⟨old, hOld, hFile⟩ | hBegun
    · rw [hFile] at hKey
      exact ⟨hDatabase, Or.inr (Or.inl ⟨old, hOld, hKey⟩)⟩
    · rcases listed_of_beginsListed hBegins hBegun hKey with
        ⟨_, queued, hQueued, hOwn⟩
      exact
        ⟨hDatabase,
          Or.inr (Or.inr ⟨queued, hQueued, hOwn⟩)⟩
  · exact ⟨hDatabase, Or.inr (Or.inr hListed)⟩

/- A rename leaves each key's file in the queue. -/
theorem mem_moveToPendingUpload
    {file other : LocalFile}
    (hMovable : IsMovable env databaseID state file)
    (hOther : other ∈ state.files) :
    other ∈
        (moveToPendingUpload env databaseID state
          file).files ∨
      other.databaseID = databaseID ∧
        other.walFilename = file.walFilename := by
  by_cases hPath :
      other.SamePath file ∨
        other.SamePath (pendingUploadOf env databaseID file)
  · right
    rcases hPath with
      ⟨hDatabase, _, hName⟩ | ⟨hDatabase, _, hName⟩
    · exact ⟨hDatabase.trans hMovable.1.2.1, hName⟩
    · exact ⟨hDatabase.trans hMovable.1.2.1, hName⟩
  · left
    refine List.mem_cons_of_mem _ ?_
    rw [Table.mem_deleteWhere_iff]
    exact ⟨hOther, decide_eq_false hPath⟩

theorem keyIn_pendingUploadOf
    {file other : LocalFile}
    (hDatabase : other.databaseID = file.databaseID)
    (hName : other.walFilename = file.walFilename) :
    (pendingUploadOf env databaseID file).keyIn env =
      other.keyIn env :=
  keyIn_of_samePath hDatabase.symm hName.symm

/- A file of the queue is there under its key after a move. -/
theorem queued_move
    {file other : LocalFile}
    (hMovable : IsMovable env databaseID state file)
    (hOther : other ∈ state.files)
    (hQueued : IsQueued env other) :
    ∃ left ∈
        (moveToPendingUpload env databaseID state file).files,
      (left = other ∨
          left = pendingUploadOf env databaseID file) ∧
        IsQueued env left ∧
          left.keyIn env = other.keyIn env := by
  rcases mem_moveToPendingUpload hMovable hOther with
    hStays | ⟨hDatabase, hName⟩
  · exact ⟨other, hStays, Or.inl rfl, hQueued, rfl⟩
  · have hSame : other.databaseID = file.databaseID :=
      hDatabase.trans hMovable.1.2.1.symm
    have hMoved :
        (pendingUploadOf env databaseID file).directory ∈
          queueDirectories
            (env.watchDirOf
              (pendingUploadOf env databaseID
                file).databaseID) := by
      have hOwn :
          (pendingUploadOf env databaseID
              file).databaseID =
            databaseID :=
        hMovable.1.2.1
      rw [hOwn]
      exact pendingUploadDirOf_mem
    exact
      ⟨_, List.mem_cons_self, Or.inr rfl,
        isQueued_of_sameName hMoved hSame hName hQueued,
        keyIn_pendingUploadOf hSame hName⟩

theorem expected_move
    (hMovable : IsMovable env databaseID state file)
    {key : ChainKey}
    (hExpected : Expected env state key) :
    Expected env
      (moveToPendingUpload env databaseID state file) key := by
  rcases hExpected with hDurable | ⟨other, hOther, hWaits, hKey⟩
  · exact Or.inl hDurable
  · right
    rcases
        queued_move hMovable hOther
          (isQueued_of_isWaiting hWaits) with
      ⟨left, hLeft, hWhich, hQueued, hSame⟩
    refine ⟨left, hLeft, ?_, hSame.trans hKey⟩
    rcases hWhich with rfl | rfl
    · exact hWaits
    · apply isWaiting_of_isQueued hQueued
      have hSize := hMovable.1.2.2.2.2
      rw [← hMovable.1.2.1] at hSize
      exact hSize

/- A moved file was queued before its move. -/
theorem isQueued_of_pendingUpload
    (hMovable : IsMovable env databaseID state file)
    (hQueued :
      IsQueued env (pendingUploadOf env databaseID file)) :
    IsQueued env file := by
  have hHere :
      file.directory ∈
        queueDirectories
          (env.watchDirOf file.databaseID) := by
    rw [hMovable.1.2.2.1, hMovable.1.2.1]
    exact watchDirOf_mem
  have hSame :
      (pendingUploadOf env databaseID file).databaseID =
        file.databaseID :=
    rfl
  exact isQueued_of_sameName hHere hSame rfl hQueued

/- A file moves only once all below it have moved. -/
theorem below_of_movable
    {file other : LocalFile}
    {lower key : ChainKey}
    (hAscend : TimelinesAscend env databaseID state)
    (hMovable : IsMovable env databaseID state file)
    (hQueued : IsQueued env file)
    (hLower : file.keyIn env = some lower)
    (hOther : other ∈ state.files)
    (hDatabase : other.databaseID = databaseID)
    (hHere : other.directory = env.watchDirOf databaseID)
    (hWaits : IsWaiting env other)
    (hKey : other.keyIn env = some key)
    (hApart : lower ≠ key) :
    lower.startLSN < key.startLSN := by
  have hLowerOwn : lower.databaseID = databaseID := by
    rcases queued_of_isQueued hQueued hLower with
      ⟨queued, _, rfl, _⟩
    exact hMovable.1.2.1
  have hKeyOwn : key.databaseID = databaseID := by
    rcases
        queued_of_isQueued (isQueued_of_isWaiting hWaits)
          hKey with
      ⟨queued, _, rfl, _⟩
    exact hDatabase
  have hLowerReceived :
      lower ∈ receivedKeys env databaseID state :=
    mem_receivedKeys_iff.mpr
      ⟨hLowerOwn,
        Or.inr ⟨file, hMovable.1.1, hQueued, hLower⟩⟩
  have hKeyReceived :
      key ∈ receivedKeys env databaseID state :=
    mem_receivedKeys_iff.mpr
      ⟨hKeyOwn,
        Or.inr
          ⟨other, hOther, isQueued_of_isWaiting hWaits,
            hKey⟩⟩
  have hSize := sizeBytes_of_isWaiting hWaits
  rw [hDatabase] at hSize
  have hOrder :=
    hMovable.2 other hOther hDatabase hHere hSize lower hLower
      key hKey
  rcases Nat.lt_trichotomy lower.timelineID key.timelineID with
    hOlder | hSame | hNewer
  · exact hAscend lower hLowerReceived key hKeyReceived hOlder
  · apply Nat.lt_of_le_of_ne (hOrder hSame.ge)
    intro hStart
    apply hApart
    cases lower
    cases key
    simp only at hLowerOwn hKeyOwn hSame hStart
    rw [hLowerOwn, hKeyOwn, hSame, hStart]
  · have hAbove :=
      hAscend key hKeyReceived lower hLowerReceived hNewer
    exact absurd (hOrder hNewer.le) (Nat.not_le_of_lt hAbove)

theorem keepsQueued_move
    (hSound : QueueSound env state)
    (hAscend : TimelinesAscend env databaseID state)
    (hMovable : IsMovable env databaseID state file) :
    KeepsQueued env databaseID state
      (moveToPendingUpload env databaseID state file) := by
  have hOwn := hMovable.1.2.1
  refine
    { queue :=
        { uploads :=
            ⟨hSound.uploads.uniqueIDs,
              hSound.uploads.uniqueKeys,
              hSound.uploads.uploads⟩
          rows := hSound.rows
          rowsExpected := fun row hRow =>
            expected_move hMovable
              (hSound.rowsExpected row hRow)
          claims := fun upload hUpload claim hClaim =>
            ⟨(hSound.claims upload hUpload claim hClaim).1,
              expected_move hMovable
                (hSound.claims upload hUpload claim
                  hClaim).2⟩
          unnamed := hSound.unnamed }
      durable := fun key hDurable => hDurable
      received := ?_
      pending := ?_
      moved := ?_
      unmoved := ?_ }
  · intro key hReceived
    rcases mem_receivedKeys_iff.mp hReceived with
      ⟨hDatabase, hDurable | ⟨other, hOther, hQueued, hKey⟩⟩
    · exact
        mem_receivedKeys_iff.mpr ⟨hDatabase, Or.inl hDurable⟩
    · rcases queued_move hMovable hOther hQueued with
        ⟨left, hLeft, _, hLeftQueued, hSame⟩
      exact
        mem_receivedKeys_iff.mpr
          ⟨hDatabase,
            Or.inr
              ⟨left, hLeft, hLeftQueued,
                hSame.trans hKey⟩⟩
  · rintro key ⟨hDatabase, ⟨other, hOther, hQueued, hKey⟩,
      hPending⟩
    left
    refine ⟨hDatabase, ?_, hPending⟩
    rcases List.mem_cons.mp hOther with rfl | hOld
    · exact
        ⟨file, hMovable.1.1,
          isQueued_of_pendingUpload hMovable hQueued, hKey⟩
    · exact
        ⟨other, ((Table.mem_deleteWhere_iff _ _ _).mp hOld).1,
          hQueued, hKey⟩
  · rintro key hPending
      ⟨other, hOther, hDatabase, hDirectory, hQueued, hKey⟩
    rcases queued_move hMovable hOther hQueued with
      ⟨left, hLeft, hWhich, hLeftQueued, hSame⟩
    refine ⟨left, hLeft, ?_, ?_, hLeftQueued, hSame.trans hKey⟩
    · rcases hWhich with rfl | rfl
      · exact hDatabase
      · exact hOwn
    · rcases hWhich with rfl | rfl
      · exact hDirectory
      · rfl
  · rintro key hPending
      ⟨⟨other, hOther, hDatabase, hHere, hWaits, hKey⟩,
        hBelow⟩
    rcases
        queued_move hMovable hOther
          (isQueued_of_isWaiting hWaits) with
      ⟨left, hLeft, rfl | rfl, hQueued, hSame⟩
    · by_cases hTaken :
          IsQueued env (pendingUploadOf env databaseID file) ∧
            file.keyIn env = some key
      · left
        exact
          ⟨_, List.mem_cons_self, hOwn, rfl, hTaken.1,
            (keyIn_pendingUploadOf rfl rfl).trans hTaken.2⟩
      · right
        refine
          ⟨⟨left, hLeft, hDatabase, hHere, hWaits, hKey⟩, ?_⟩
        intro moved hMoved hMovedOwn hThere hMovedQueued lower
          hLower
        rcases List.mem_cons.mp hMoved with rfl | hOld
        · have hLowerKey : file.keyIn env = some lower :=
            (keyIn_pendingUploadOf rfl rfl).symm.trans hLower
          apply
            below_of_movable hAscend hMovable
              (isQueued_of_pendingUpload hMovable
                hMovedQueued)
              hLowerKey hOther hDatabase hHere hWaits hKey
          rintro rfl
          exact hTaken ⟨hMovedQueued, hLowerKey⟩
        · exact
            hBelow moved
              ((Table.mem_deleteWhere_iff _ _ _).mp hOld).1
              hMovedOwn hThere hMovedQueued lower hLower
    · exact
        Or.inl
          ⟨_, hLeft, hOwn, rfl, hQueued, hSame.trans hKey⟩

------------------------------------------------------------
-- Steps of the Listing
------------------------------------------------------------

variable {directory : String}
variable {isRead : Bool}

/- A pending file stands in one of the two directories. -/
theorem directory_of_pending
    {key : ChainKey}
    (hPending : IsPending env databaseID s.uploads key) :
    ∃ file ∈ s.uploads.files,
      file.databaseID = databaseID ∧ IsQueued env file ∧
        file.keyIn env = some key ∧
          (file.directory = env.watchDirOf databaseID ∨
            file.directory =
              pendingUploadDirOf env databaseID) := by
  rcases hPending with
    ⟨hDatabase, ⟨file, hFile, hQueued, hKey⟩, _⟩
  rcases queued_of_isQueued hQueued hKey with
    ⟨queued, _, hOwn, hDirectory⟩
  have hSame : file.databaseID = databaseID := by
    rw [← hDatabase, ← hOwn]
    rfl
  rw [hSame] at hDirectory
  simp only [queueDirectories, List.mem_cons,
    List.not_mem_nil, or_false] at hDirectory
  exact ⟨file, hFile, hSame, hQueued, hKey, hDirectory⟩

/- What a directory lists, unless it cannot be read. -/
theorem listed_of_read
    (hDirectory :
      directory ∈
        queueDirectories (env.watchDirOf databaseID))
    (hRead :
      isRead = true ∨
        NothingPendingIn env databaseID s.uploads directory)
    {file : LocalFile}
    {key : ChainKey}
    (hPending : IsPending env databaseID s.uploads key)
    (hFile : file ∈ s.uploads.files)
    (hDatabase : file.databaseID = databaseID)
    (hHere : file.directory = directory)
    (hQueued : IsQueued env file)
    (hKey : file.keyIn env = some key) :
    ∃ queued ∈
        (if isRead then
          listQueuedIn env databaseID s.uploads.files
            directory
        else
          []),
      queuedKey databaseID queued = key := by
  rcases hRead with rfl | hNothing
  · rcases queued_of_isQueued hQueued hKey with
      ⟨queued, hSegment, hOwn, _⟩
    refine ⟨queued, ?_, ?_⟩
    · rw [if_pos rfl]
      exact
        (mem_listQueuedIn_iff hDirectory).mpr
          ⟨file, hFile, hDatabase, hHere, hSegment⟩
    · rw [← hDatabase]
      exact hOwn
  · exact
      absurd (hNothing file hFile hDatabase hHere key hKey)
        hPending.2.2

/- A read lists received keys only. -/
theorem received_of_read
    (hDirectory :
      directory ∈
        queueDirectories (env.watchDirOf databaseID))
    {queued : QueuedWalSegment}
    (hListed :
      queued ∈
        (if isRead then
          listQueuedIn env databaseID s.uploads.files
            directory
        else
          [])) :
    queuedKey databaseID queued ∈
      receivedKeys env databaseID s.uploads := by
  cases isRead with
  | true => exact received_of_listed hDirectory hListed
  | false => cases hListed

/- The invariant after a change of the listing alone. -/
theorem HealthInvariant.setListing
    {listing : ListingStage}
    (hHolds : HealthInvariant env databaseID s)
    (hReading :
      ∀ queued ∈ listing.queued,
        queuedKey databaseID queued ∈
          receivedKeys env databaseID s.uploads)
    (hWatchDirRead :
      ∀ listed, listing = .watchDirRead listed →
        ∀ key,
          IsPending env databaseID s.uploads key →
            (∃ queued ∈ listed,
              queuedKey databaseID queued = key) ∨
              IsMoved env databaseID s.uploads key ∨
                IsUnmoved env databaseID s.uploads key ∧
                  IsUnread env databaseID s listed key)
    (hBothRead :
      ∀ listed, listing = .bothRead listed →
        ∀ key,
          IsPending env databaseID s.uploads key →
            (∃ queued ∈ listed,
              queuedKey databaseID queued = key) ∨
              IsUnread env databaseID s listed key) :
    HealthInvariant env databaseID
      { s with listing := listing } :=
  { queue := hHolds.queue
    started := hHolds.started
    reading := hReading
    watchDirRead := hWatchDirRead
    bothRead := hBothRead
    lowest := hHolds.lowest
    remembered := hHolds.remembered
    committedRead := hHolds.committedRead
    progressRead := hHolds.progressRead
    sample := hHolds.sample }

theorem invariant_readWatchDir
    (hHolds : HealthInvariant env databaseID s)
    (hRead :
      isRead = true ∨
        NothingPendingIn env databaseID s.uploads
          (env.watchDirOf databaseID)) :
    HealthInvariant env databaseID
      { s with
        listing :=
          .watchDirRead
            (if isRead then
              listQueuedIn env databaseID s.uploads.files
                (env.watchDirOf databaseID)
            else
              []) } := by
  apply hHolds.setListing
  · intro queued hQueued
    exact received_of_read watchDirOf_mem hQueued
  · rintro listed hListed key hPending
    cases hListed
    rcases directory_of_pending hPending with
      ⟨file, hFile, hDatabase, hQueued, hKey, hHere | hMoved⟩
    · left
      exact
        listed_of_read watchDirOf_mem hRead hPending hFile
          hDatabase hHere hQueued hKey
    · exact
        Or.inr
          (Or.inl
            ⟨file, hFile, hDatabase, hMoved, hQueued, hKey⟩)
  · intro listed hListed
    cases hListed

theorem invariant_readPendingUploadDir
    {listed : List QueuedWalSegment}
    (hHolds : HealthInvariant env databaseID s)
    (hStage : s.listing = .watchDirRead listed)
    (hRead :
      isRead = true ∨
        NothingPendingIn env databaseID s.uploads
          (pendingUploadDirOf env databaseID)) :
    HealthInvariant env databaseID
      { s with
        listing :=
          .bothRead
            (listed ++
              if isRead then
                listQueuedIn env databaseID s.uploads.files
                  (pendingUploadDirOf env databaseID)
              else
                []) } := by
  have hReading := hHolds.reading
  rw [hStage] at hReading
  apply hHolds.setListing
  · intro queued hQueued
    rcases List.mem_append.mp hQueued with hOld | hNew
    · exact hReading queued hOld
    · exact received_of_read pendingUploadDirOf_mem hNew
  · intro other hOther
    cases hOther
  · rintro other hOther key hPending
    cases hOther
    rcases hHolds.watchDirRead listed hStage key hPending with
      ⟨queued, hQueued, hKey⟩ | hMoved | ⟨hUnmoved, hUnread⟩
    · exact
        Or.inl
          ⟨queued, List.mem_append.mpr (Or.inl hQueued),
            hKey⟩
    · rcases hMoved with
        ⟨file, hFile, hDatabase, hHere, hQueued, hKey⟩
      rcases
          listed_of_read pendingUploadDirOf_mem hRead hPending
            hFile hDatabase hHere hQueued hKey with
        ⟨queued, hListed, hOwn⟩
      exact
        Or.inl
          ⟨queued, List.mem_append.mpr (Or.inr hListed),
            hOwn⟩
    · right
      refine ⟨hUnread.1, ?_⟩
      intro queued hQueued
      rcases List.mem_append.mp hQueued with hOld | hNew
      · exact hUnread.2 queued hOld
      · cases isRead with
        | false => cases hNew
        | true =>
            rcases
                (mem_listQueuedIn_iff
                  pendingUploadDirOf_mem).mp hNew with
              ⟨file, hFile, hDatabase, hHere, hSegment⟩
            exact
              hUnmoved.2 file hFile hDatabase hHere
                (Option.isSome_of_eq_some hSegment) _
                (queuedSegmentOf_some hSegment).2.1

------------------------------------------------------------
-- Steps of the Monitor
------------------------------------------------------------

variable {position : WalPosition}
variable {lowest : WalPosition}
variable {newest : WalPosition}

/- The recorded listing has every key that is not late. -/
theorem invariant_recordQueuedSegments
    {listed : List QueuedWalSegment}
    (hHolds : HealthInvariant env databaseID s)
    (hStage : s.listing = .bothRead listed) :
    HealthInvariant env databaseID
      { s with
        listing := .idle
        listed := sortQueuedWalSegments listed
        hasListed := true
        lowestQueuedSegment :=
          lowestQueuedOf (sortQueuedWalSegments listed) } := by
  have hMember :
      ∀ queued,
        queued ∈ sortQueuedWalSegments listed ↔
          queued ∈ listed :=
    fun queued => List.mem_insertionSort walOrderNoLater
  have hReading := hHolds.reading
  rw [hStage] at hReading
  refine
    { queue := hHolds.queue
      started := ?_
      reading := fun _ hQueued => nomatch hQueued
      watchDirRead := fun _ hListing => nomatch hListing
      bothRead := fun _ hListing => nomatch hListing
      lowest := ?_
      remembered := ?_
      committedRead := ?_
      progressRead := hHolds.progressRead
      sample := hHolds.sample }
  · rintro key ⟨hDatabase, hDurable | hUpload | hListed⟩
    · exact hHolds.started key ⟨hDatabase, Or.inl hDurable⟩
    · exact
        hHolds.started key
          ⟨hDatabase, Or.inr (Or.inl hUpload)⟩
    · rcases hListed with ⟨queued, hQueued, rfl⟩
      exact hReading queued ((hMember queued).mp hQueued)
  · intro _ key hPending
    rcases hHolds.bothRead listed hStage key hPending with
      ⟨queued, hQueued, rfl⟩ | ⟨hLate, hAbove⟩
    · exact Or.inl (lowestQueuedOf_le hQueued)
    · right
      rintro other ⟨hDatabase, hDurable | hUpload | hListed⟩
      · exact hLate other ⟨hDatabase, Or.inl hDurable⟩
      · exact hLate other ⟨hDatabase, Or.inr (Or.inl hUpload)⟩
      · rcases hListed with ⟨queued, hQueued, rfl⟩
        exact hAbove queued ((hMember queued).mp hQueued)
  · intro lowest hLowest
    rcases mem_of_lowestQueuedOf hLowest with
      ⟨queued, hQueued, hOwn⟩
    exact ⟨queued, (hMember queued).mpr hQueued, hOwn⟩
  · intro newestCommitted hTick
    exact ⟨rfl, (hHolds.committedRead newestCommitted hTick).2⟩

/- The newest committed end is a durable segment's. -/
theorem committedSound_getLastCommittedWal
    (hSound : QueueSound env state)
    (hPosition :
      getLastCommittedWal state.segments databaseID =
        some position) :
    CommittedSound env databaseID state position := by
  rcases Option.map_eq_some_iff.mp hPosition with
    ⟨row, hFound, rfl⟩
  rcases Table.mem_of_firstBy hFound with ⟨hRow, hSelected⟩
  rw [Bool.and_eq_true, decide_eq_true_eq] at hSelected
  refine
    ⟨row.chainKey, ⟨row, hRow, hSelected.2, rfl⟩,
      hSelected.1, rfl, ?_⟩
  have hBounds := hSound.rows row hRow
  unfold RowSound at hBounds
  change row.endLSN ≤ _
  rw [hBounds.ends]
  exact Nat.mod_le _ _

/- A committed end lies below what starts above it. -/
theorem CommittedSound.le_of_lt
    {lower key : ChainKey}
    (hSound : QueueSound env state)
    (hDurable : Durable state.segments lower)
    (hDatabase : lower.databaseID = databaseID)
    (hEnd : position.lsn ≤ endOf env lower)
    (hKey : key ∈ receivedKeys env databaseID state)
    (hOrder : lower.startLSN < key.startLSN) :
    position.lsn ≤ key.startLSN :=
  hEnd.trans
    (endOf_le_of_received hSound
      (mem_receivedKeys_iff.mpr
        ⟨hDatabase, Or.inl hDurable⟩)
      (size_dvd_of_received hSound hKey) hOrder)

/- The remembered segment is one of the started ones. -/
theorem HealthInvariant.startedLowest
    (hHolds : HealthInvariant env databaseID s)
    (hLowest : s.lowestQueuedSegment = some lowest) :
    Started env databaseID s
      { databaseID := databaseID
        timelineID := lowest.timelineID
        startLSN := lowest.lsn } := by
  rcases hHolds.remembered lowest hLowest with
    ⟨queued, hQueued, hTimeline, hStart⟩
  refine ⟨rfl, Or.inr (Or.inr ⟨queued, hQueued, ?_⟩)⟩
  unfold queuedKey
  rw [hTimeline, hStart]

/- The remembered position passes nothing that is pending. -/
theorem lowest_le_of_pending
    (hHolds : HealthInvariant env databaseID s)
    (hAscend : TimelinesAscend env databaseID s.uploads)
    (hListed : s.hasListed = true)
    (hLowest : s.lowestQueuedSegment = some lowest)
    {key : ChainKey}
    (hPending : IsPending env databaseID s.uploads key) :
    lowest.lsn ≤ key.startLSN := by
  have hStarted := hHolds.startedLowest hLowest
  rcases hHolds.lowest hListed key hPending with
    ⟨position, hPosition, hNoLater⟩ | hLate
  · rw [hLowest] at hPosition
    cases hPosition
    rcases hNoLater with hOlder | ⟨_, hBelow⟩
    · exact
        Nat.le_of_lt
          (hAscend _ (hHolds.started _ hStarted) key
            hPending.received hOlder)
    · exact hBelow
  · exact Nat.le_of_lt (hLate _ hStarted)

/- Nor does the newest committed end, if it comes first. -/
theorem newest_le_of_pending
    (hHolds : HealthInvariant env databaseID s)
    (hAscend : TimelinesAscend env databaseID s.uploads)
    (hListed : s.hasListed = true)
    (hNewest :
      CommittedSound env databaseID s.uploads newest)
    (hFirst :
      ∀ lowest ∈ s.lowestQueuedSegment,
        newest.timelineID < lowest.timelineID ∨
          newest.timelineID = lowest.timelineID ∧
            newest.lsn ≤ lowest.lsn)
    {key : ChainKey}
    (hPending : IsPending env databaseID s.uploads key) :
    newest.lsn ≤ key.startLSN := by
  rcases hNewest with
    ⟨lower, hDurable, hDatabase, hTimeline, hEnd⟩
  have hLowerStarted : Started env databaseID s lower :=
    ⟨hDatabase, Or.inl hDurable⟩
  rcases hHolds.lowest hListed key hPending with
    ⟨lowest, hLowest, _⟩ | hLate
  · have hBelow :=
      lowest_le_of_pending hHolds hAscend hListed hLowest
        hPending
    rcases hFirst lowest hLowest with
      hOlder | ⟨_, hLess⟩
    · have hReceived :=
        hHolds.started _ (hHolds.startedLowest hLowest)
      rw [← hTimeline] at hOlder
      have hOrder :=
        hAscend lower (hHolds.started lower hLowerStarted) _
          hReceived hOlder
      exact
        (CommittedSound.le_of_lt hHolds.queue hDurable
          hDatabase hEnd hReceived hOrder).trans hBelow
    · exact hLess.trans hBelow
  · exact
      CommittedSound.le_of_lt hHolds.queue hDurable hDatabase
        hEnd hPending.received (hLate lower hLowerStarted)

theorem progressSound_lowest
    (hHolds : HealthInvariant env databaseID s)
    (hAscend : TimelinesAscend env databaseID s.uploads)
    (hListed : s.hasListed = true)
    (hLowest : s.lowestQueuedSegment = some lowest) :
    ProgressSound env databaseID s.uploads lowest.lsn := by
  constructor
  · intro key hPending
    exact
      lowest_le_of_pending hHolds hAscend hListed hLowest
        hPending
  · exact
      Or.inr
        ⟨_, hHolds.started _ (hHolds.startedLowest hLowest),
          Nat.le_add_right _ _⟩

theorem progressSound_newest
    (hHolds : HealthInvariant env databaseID s)
    (hAscend : TimelinesAscend env databaseID s.uploads)
    (hListed : s.hasListed = true)
    (hNewest :
      CommittedSound env databaseID s.uploads newest)
    (hFirst :
      ∀ lowest ∈ s.lowestQueuedSegment,
        newest.timelineID < lowest.timelineID ∨
          newest.timelineID = lowest.timelineID ∧
            newest.lsn ≤ lowest.lsn) :
    ProgressSound env databaseID s.uploads newest.lsn := by
  constructor
  · intro key hPending
    exact
      newest_le_of_pending hHolds hAscend hListed hNewest
        hFirst hPending
  · rcases hNewest with ⟨lower, hDurable, hDatabase, _, hEnd⟩
    exact
      Or.inr
        ⟨lower,
          mem_receivedKeys_iff.mpr
            ⟨hDatabase, Or.inl hDurable⟩, hEnd⟩

/- The point is sound where timelines ascend. -/
theorem progressSound_getArchiveProgressPoint
    {newestCommitted : Option WalPosition}
    (hHolds : HealthInvariant env databaseID s)
    (hAscend : TimelinesAscend env databaseID s.uploads)
    (hTick : s.tick = .committedRead newestCommitted) :
    ProgressSound env databaseID s.uploads
      (getArchiveProgressPoint s.lowestQueuedSegment
        newestCommitted) := by
  rcases hHolds.committedRead newestCommitted hTick with
    ⟨hListed, hCommitted⟩
  unfold getArchiveProgressPoint
  split
  · exact ⟨fun _ _ => Nat.zero_le _, Or.inl rfl⟩
  · next newest hNone =>
      apply
        progressSound_newest hHolds hAscend hListed
          (hCommitted newest rfl)
      intro lowest hLowest
      rw [hNone] at hLowest
      cases hLowest
  · next lowest hLowest =>
      exact progressSound_lowest hHolds hAscend hListed hLowest
  · next lowest newest hLowest =>
      split
      · exact
          progressSound_lowest hHolds hAscend hListed hLowest
      · next hNotBefore =>
          apply
            progressSound_newest hHolds hAscend hListed
              (hCommitted newest rfl)
          intro other hOther
          rw [hLowest] at hOther
          cases hOther
          rw [compareWalOrder_lt_iff, not_or, not_and,
            Nat.not_lt] at hNotBefore
          rcases Nat.lt_or_eq_of_le hNotBefore.1 with
            hOlder | hSame
          · exact Or.inl hOlder
          · exact
              Or.inr
                ⟨hSame,
                  Nat.le_of_not_lt
                    (hNotBefore.2 hSame.symm)⟩

------------------------------------------------------------
-- Runs
------------------------------------------------------------

theorem healthInvariant_initial
    (hInitial : (healthSystem env databaseID).initial s) :
    HealthInvariant env databaseID s := by
  rcases hInitial with
    ⟨⟨hIDs, hKeys, hNone, hRows⟩, hFresh⟩
  have hUpload : ∀ upload, upload ∉ s.uploads.uploads := by
    intro upload hUpload
    rw [hNone] at hUpload
    cases hUpload
  rw [hFresh]
  refine
    { queue :=
        { uploads :=
            ⟨hIDs, hKeys, fun upload hMember =>
              absurd hMember (hUpload upload)⟩
          rows := fun row hRow => (hRows row hRow).1
          rowsExpected := fun row hRow => (hRows row hRow).2
          claims := fun upload hMember =>
            absurd hMember (hUpload upload)
          unnamed := fun upload hMember =>
            absurd hMember (hUpload upload) }
      started := ?_
      reading := fun _ hQueued => nomatch hQueued
      watchDirRead := fun _ hListing => nomatch hListing
      bothRead := fun _ hListing => nomatch hListing
      lowest := fun hListed => nomatch hListed
      remembered := fun _ hLowest => nomatch hLowest
      committedRead := fun _ hTick => nomatch hTick
      progressRead := fun _ hTick => nomatch hTick
      sample := fun _ hSample => nomatch hSample }
  rintro key ⟨hDatabase, hDurable | hOther | hListed⟩
  · exact mem_receivedKeys_iff.mpr ⟨hDatabase, Or.inl hDurable⟩
  · rcases hOther with ⟨upload, hMember, _⟩
    exact absurd hMember (hUpload upload)
  · rcases hListed with ⟨queued, hQueued, _⟩
    cases hQueued

theorem healthInvariant_step
    {action : HealthAction}
    (hHolds : HealthInvariant env databaseID s)
    (hKeeps : KeepsStream env databaseID s action)
    (hFollows : FollowsTimelines env databaseID s action)
    (hStep : healthStep env databaseID s action = some s') :
    HealthInvariant env databaseID s' := by
  have hAscend := hFollows.1
  cases action with
  | upload action =>
      simp only [healthStep] at hStep
      split at hStep
      · next hBegins =>
          rcases Option.map_eq_some_iff.mp hStep with
            ⟨after, hTaken, rfl⟩
          apply
            hHolds.keeps
              (keepsQueued_upload hHolds.queue hKeeps hFollows
                hBegins hTaken)
          intro key hStarted
          exact
            started_upload hHolds.queue hBegins hTaken
              hStarted
      · cases hStep
  | moveToPendingUpload file =>
      simp only [healthStep] at hStep
      split at hStep
      · next hMovable =>
          cases hStep
          exact
            hHolds.keeps
              (keepsQueued_move hHolds.queue hAscend hMovable)
              fun key hStarted => hStarted
      · cases hStep
  | readWatchDir isRead =>
      simp only [healthStep] at hStep
      split at hStep
      · cases hStep
        exact invariant_readWatchDir hHolds hFollows.2
      · cases hStep
  | readPendingUploadDir isRead =>
      simp only [healthStep] at hStep
      split at hStep
      · next listed hStage =>
          cases hStep
          exact
            invariant_readPendingUploadDir hHolds hStage
              hFollows.2
      · cases hStep
  | recordQueuedSegments =>
      simp only [healthStep] at hStep
      split at hStep
      · next listed hStage =>
          cases hStep
          exact invariant_recordQueuedSegments hHolds hStage
      · cases hStep
  | readLastCommittedWal isRead =>
      simp only [healthStep] at hStep
      split at hStep
      · next hReady =>
          cases hStep
          refine
            { hHolds with
              committedRead := ?_
              progressRead := fun _ hTick => nomatch hTick }
          intro newestCommitted hTick
          cases hTick
          refine ⟨hReady.1, ?_⟩
          intro position hPosition
          cases isRead with
          | false => cases hPosition
          | true =>
              exact
                committedSound_getLastCommittedWal
                  hHolds.queue hPosition
      · cases hStep
  | readArchiveProgress =>
      simp only [healthStep] at hStep
      split at hStep
      · next newestCommitted hTick =>
          cases hStep
          refine
            { hHolds with
              committedRead := fun _ hOther => nomatch hOther
              progressRead := ?_ }
          have hProgress :=
            progressSound_getArchiveProgressPoint hHolds
              hAscend hTick
          intro archiveProgressLSN hOther
          cases hOther
          exact hProgress
      · cases hStep
  | recordWalStreamSample isRecorded =>
      simp only [healthStep] at hStep
      split at hStep
      · next archiveProgressLSN hTick =>
          cases hStep
          refine
            { hHolds with
              committedRead := fun _ hOther => nomatch hOther
              progressRead := fun _ hOther => nomatch hOther
              sample := ?_ }
          intro sample hSample lsn hLSN
          cases isRecorded with
          | false => exact hHolds.sample sample hSample lsn hLSN
          | true =>
              cases hSample
              simp only [buildWalStreamSample] at hLSN
              split at hLSN
              · cases hLSN
                exact
                  hHolds.progressRead archiveProgressLSN hTick
              · cases hLSN
      · cases hStep
  | restart =>
      cases hStep
      refine
        { queue := hHolds.queue
          started := ?_
          reading := fun _ hQueued => nomatch hQueued
          watchDirRead := fun _ hListing => nomatch hListing
          bothRead := fun _ hListing => nomatch hListing
          lowest := fun hListed => nomatch hListed
          remembered := fun _ hLowest => nomatch hLowest
          committedRead := fun _ hTick => nomatch hTick
          progressRead := fun _ hTick => nomatch hTick
          sample := hHolds.sample }
      rintro key ⟨hDatabase, hDurable | hUpload | hListed⟩
      · exact hHolds.started key ⟨hDatabase, Or.inl hDurable⟩
      · exact
          hHolds.started key
            ⟨hDatabase, Or.inr (Or.inl hUpload)⟩
      · rcases hListed with ⟨queued, hQueued, _⟩
        cases hQueued
  | changeBackups backups =>
      cases hStep
      exact { hHolds with }
  | readBackups =>
      cases hStep
      exact { hHolds with }
  | readSegments =>
      simp only [healthStep] at hStep
      split at hStep
      · cases hStep
        exact { hHolds with }
      · cases hStep

/-
  In every run in which the stream is kept, timelines ascend
  and directories that hold pending segments can be read, no
  sample passes a pending segment, and no chain is called
  broken for a gap that a pending segment fills.
-/
theorem chain_verdict_sound
    (env : StreamEnvironment)
    (databaseID : Uuid)
    (s : StreamHealth)
    (hReachable :
      (healthSystem env databaseID).ReachableWhile
        (fun s action =>
          KeepsStream env databaseID s action ∧
            FollowsTimelines env databaseID s action)
        s) :
    VerdictSound env databaseID s := by
  apply HealthInvariant.verdictSound
  apply hReachable.invariant
  · intro s hInitial
    exact healthInvariant_initial hInitial
  · intro s action s' hHolds hGuard hStep
    exact
      healthInvariant_step hHolds hGuard.1 hGuard.2 hStep

def streamEnvironment : StreamEnvironment :=
  { segSizeOf := fun _ => 16777216
    watchDirOf := fun _ => "wal" }

def streamFile
    (timelineID segmentNo : Nat) : LocalFile :=
  { databaseID := 1
    directory := "wal"
    walFilename :=
      Walmath.getFilename segmentNo timelineID 16777216
    sizeBytes := 16777216 }

/- The row of a committed segment. -/
def streamRow
    (timelineID segmentNo : Nat) : WalSegment :=
  { id := segmentNo
    databaseID := 1
    storageID := 5
    timelineID := timelineID
    fileName := some "segment"
    walFilename :=
      Walmath.getFilename segmentNo timelineID 16777216
    startLSN := segmentNo * 16777216
    endLSN := (segmentNo + 1) * 16777216
    receivedAt := 0
    claimedAt := 0 }

/- A full that ends within the given segment. -/
def streamFull
    (timelineID segmentNo : Nat) : Backup :=
  { id := 1
    databaseID := 1
    storageID := 5
    kind := .full
    timelineID := timelineID
    status := .completed
    fileName := some "full"
    startLSN := some (segmentNo * 16777216)
    stopLSN := some (segmentNo * 16777216 + 8)
    createdAt := 5
    completedAt := some 10 }

def startedStream
    (segments : List WalSegment)
    (files : List LocalFile)
    (full : Backup) : StreamHealth :=
  { uploads :=
      { segments := segments
        files := files
        uploads := []
        objects := []
        now := 0 }
    backups := [full] }

/- A listing of the queue, read without errors. -/
def listQueue : List HealthAction :=
  [.readWatchDir true, .readPendingUploadDir true,
    .recordQueuedSegments]

/- A tick of the monitor, and then a request's reads. -/
def tickAndRequest : List HealthAction :=
  [.readLastCommittedWal true, .readArchiveProgress,
    .recordWalStreamSample true, .readBackups,
    .readSegments]

theorem rowSound_streamRow
    {timelineID segmentNo : Nat}
    (hSmall : segmentNo < 256) :
    RowSound streamEnvironment
      (streamRow timelineID segmentNo) := by
  have hEnd : (segmentNo + 1) * 16777216 < 2 ^ 64 := by
    omega
  have hNext :
      segmentNo * 16777216 + 16777216 =
        (segmentNo + 1) * 16777216 := by
    ring
  have hWhole : (16777216 : Nat) ∣ 2 ^ 64 := by
    decide
  refine
    { positive := Nat.succ_pos 16777215
      whole := hWhole
      aligned := Nat.dvd_mul_left 16777216 segmentNo
      bounded := ?_
      ends := ?_ }
  · exact
      Nat.lt_of_le_of_lt (Nat.mul_le_mul_right _
        (Nat.le_succ segmentNo)) hEnd
  · change
      (segmentNo + 1) * 16777216 =
        (segmentNo * 16777216 + 16777216) % 2 ^ 64
    rw [hNext, Nat.mod_eq_of_lt hEnd]

/- The upper of two waiting segments has been uploaded. -/
def upperCommitsFirst : StreamHealth :=
  (healthSystem streamEnvironment 1).outcome
    (startedStream [streamRow 1 19]
      [streamFile 1 20, streamFile 1 21] (streamFull 1 19))
    (listQueue ++
      [.upload
          (.processSegment 1 101 ⟨5, .none⟩
            (streamFile 1 21)),
        .upload (.advance 1 .succeeded),
        .upload (.advance 1 (.opened 201 "" "")),
        .upload (.advance 1 .succeeded),
        .upload (.advance 1 (.streamed 1024)),
        .upload (.advance 1 .succeeded),
        .upload (.advance 1 .succeeded)] ++
      tickAndRequest)

/- The hole below it is listed, and is not reported. -/
theorem hole_of_pending_segment_is_no_break :
    getWalChainBrokenReason upperCommitsFirst.newestSample
          [⟨20 * 16777216, 21 * 16777216⟩] =
        none ∧
      VerdictSound streamEnvironment 1
        upperCommitsFirst := by
  refine ⟨by decide +kernel, ?_⟩
  apply chain_verdict_sound
  apply TransitionSystem.reachableWhile_outcome
  · refine ⟨⟨by decide, by decide, rfl, ?_⟩, rfl⟩
    intro row hRow
    rw [List.mem_singleton.mp hRow]
    exact
      ⟨rowSound_streamRow (by decide),
        Or.inl (by decide +kernel)⟩
  · decide +kernel

/-
  A segment of the old timeline waits above the switch.  The
  point is its start, and passes the new timeline's hole that
  a queued segment fills.
-/
def oldTimelineWaits : StreamHealth :=
  (healthSystem streamEnvironment 1).outcome
    (startedStream [streamRow 2 10, streamRow 2 12]
      [streamFile 2 11, streamFile 1 20] (streamFull 2 10))
    (listQueue ++ tickAndRequest)

theorem pending_segment_is_called_a_break :
    ¬ ∀ (env : StreamEnvironment)
        (databaseID : Uuid)
        (s : StreamHealth),
        (healthSystem env databaseID).ReachableWhile
            (KeepsStream env databaseID) s →
          VerdictSound env databaseID s := by
  intro hAlways
  have hSound :=
    hAlways streamEnvironment 1 oldTimelineWaits <| by
      apply TransitionSystem.reachableWhile_outcome
      · refine ⟨⟨by decide, by decide, rfl, ?_⟩, rfl⟩
        intro row hRow
        rcases List.mem_pair.mp hRow with rfl | rfl
        · exact
            ⟨rowSound_streamRow (by decide),
              Or.inl (by decide +kernel)⟩
        · exact
            ⟨rowSound_streamRow (by decide),
              Or.inl (by decide +kernel)⟩
      · decide +kernel
  refine
    hSound.chainBroken
      { backups := [streamFull 2 10]
        segments := [streamRow 2 10, streamRow 2 12]
        historyFiles := []
        requested := [] }
      (by decide +kernel)
      ⟨11 * 16777216, 12 * 16777216⟩ (by decide +kernel)
      (by decide +kernel)
      { databaseID := 1
        timelineID := 2
        startLSN := 11 * 16777216 }
      (by decide +kernel) ?_
  exact ⟨by decide +kernel, by decide, by decide⟩

end WalStreaming

end Databasus
