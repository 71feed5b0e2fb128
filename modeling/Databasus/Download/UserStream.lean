import Databasus.Cache.MemoryStore
import Databasus.Foundation.Runs

/-
  The one heavy stream of a user, held by a key in the cache.

  The key has no owner.  A stream acquires it, its heartbeat
  writes it again, and its end deletes it.  A write looks at
  its context before it locks the store, so that heartbeats
  and releases may reach the store late.

  Main declarations:
    * `acquire`, `refresh`, `release`
    * `StreamState`
    * `streamSystem`
    * `InTime`
    * `StreamsApart`
    * `streams_apart`
-/

------------------------------------------------------------
-- The Lock of a User
------------------------------------------------------------

namespace Databasus

namespace Download

open Cache

variable {first second : Uuid}

def userStreamNamespace : String := "backup_download_lock:"

def userStreamLifetime : Duration := 5 * Duration.second

/- The JSON text of the value `"1"`. -/
def userStreamValue : Bytes := [34, 49, 34]

def jsonStoreKey
    (storeNamespace key : String) : String :=
  toString storeNamespace.utf8ByteSize ++ ":" ++
    storeNamespace ++ ":" ++ key

def userKey
    (userID : Uuid) : String :=
  jsonStoreKey userStreamNamespace (toString userID)

def userStreamEntry
    (userID : Uuid) : Entry :=
  { key := userKey userID
    payload := userStreamValue
    lifetime := userStreamLifetime }

/- Whether the stream is the caller's, or another runs. -/
def acquire
    (store : MemoryStore)
    (isContextDone : Bool)
    (userID : Uuid)
    (now : Time) : MemoryStore × Except CacheError Bool :=
  store.createIfAbsent isContextDone (userStreamEntry userID)
    now

/- A cache that cannot answer reports the stream as held. -/
def isHeld
    (store : MemoryStore)
    (isContextDone : Bool)
    (userID : Uuid)
    (now : Time) : Bool :=
  match (store.get isContextDone (userKey userID) now).2 with
  | .error _ => true
  | .ok existingLock => existingLock.isSome

def refresh
    (store : MemoryStore)
    (isContextDone : Bool)
    (userID : Uuid)
    (now : Time) : MemoryStore × Except CacheError Unit :=
  store.set isContextDone (userStreamEntry userID) now

def release
    (store : MemoryStore)
    (isContextDone : Bool)
    (userID : Uuid) : MemoryStore × Except CacheError Unit :=
  store.delete isContextDone (userKey userID)

/- What the keys of all users start with. -/
def userKeyPrefix : String :=
  jsonStoreKey userStreamNamespace ""

def isUserKey
    (key : String) : Bool :=
  userKeyPrefix.toList.isPrefixOf key.toList

theorem userKey_eq
    (userID : Uuid) :
    userKey userID = userKeyPrefix ++ toString userID := by
  unfold userKey userKeyPrefix jsonStoreKey
  rw [String.append_empty]

theorem isUserKey_userKey
    (userID : Uuid) :
    isUserKey (userKey userID) = true := by
  unfold isUserKey
  rw [List.isPrefixOf_iff_prefix, userKey_eq,
    String.toList_append]
  exact List.prefix_append _ _

/- Two users have two keys. -/
theorem userKey_injective
    (hSame : userKey first = userKey second) :
    first = second := by
  rw [userKey_eq, userKey_eq] at hSame
  have hList := congrArg String.toList hSame
  rw [String.toList_append, String.toList_append] at hList
  have hDigits := List.append_cancel_left hList
  change first.repr.toList = second.repr.toList at hDigits
  rw [Nat.toList_repr, Nat.toList_repr] at hDigits
  have hValue :=
    congrArg (fun digits => Nat.ofDigitChars 10 digits 0)
      hDigits
  simp only [Nat.ofDigitChars_ten_toDigits] at hValue
  exact hValue

theorem userKey_ne
    (hApart : first ≠ second) :
    userKey first ≠ userKey second :=
  fun hSame => hApart (userKey_injective hSame)

theorem userStreamLifetime_entry
    (userID : Uuid) :
    0 < (userStreamEntry userID).lifetime := by
  have hPositive : 0 < userStreamLifetime := by
    decide
  exact hPositive

------------------------------------------------------------
-- Streams
------------------------------------------------------------

open Foundation

/-
  A stream that has acquired the lock.  No code reads
  `heldUntil`, when the lock ends that the stream itself has
  written last.
-/
structure StreamRun where
  id : Uuid
  userID : Uuid
  heldUntil : Time
  isCancelled : Bool := false
  isEnded : Bool := false
  isRefreshing : Bool := false
  isReleasing : Bool := false
  isReleased : Bool := false
deriving DecidableEq, Repr

structure StreamState where
  store : MemoryStore
  streams : List StreamRun
  now : Time

def StreamState.find
    (s : StreamState)
    (id : Uuid) : Option StreamRun :=
  Table.lookup StreamRun.id id s.streams

def StreamState.update
    (s : StreamState)
    (stream : StreamRun) : StreamState :=
  { s with
    streams :=
      Table.updateWhere (fun other => other.id = stream.id)
        (fun _ => stream) s.streams }

inductive StreamAction
  | tick (later : Time)
  | setOther (entry : Entry)
  | deleteOther (key : String)
  | acquire (id userID : Uuid) (isContextDone : Bool)
  | cancelHeartbeat (id : Uuid)
  | beginRefresh (id : Uuid)
  | finishRefresh (id : Uuid)
  | beginRelease (id : Uuid) (isContextDone : Bool)
  | finishRelease (id : Uuid)
deriving DecidableEq

/- The write of a heartbeat whose context was not done. -/
def finishRefresh
    (s : StreamState)
    (stream : StreamRun) : StreamState :=
  match refresh s.store false stream.userID s.now with
  | (store, .error _) =>
      { s with store := store }.update
        { stream with isRefreshing := false }
  | (store, .ok _) =>
      { s with store := store }.update
        { stream with
          isRefreshing := false
          heldUntil := s.now + userStreamLifetime }

def finishRelease
    (s : StreamState)
    (stream : StreamRun) : StreamState :=
  { s with
    store := (release s.store false stream.userID).1 }.update
      { stream with
        isReleasing := false
        isReleased := true }

/-
  A stream ends once: its heartbeat is cancelled, which is
  not waited for, and the lock is deleted.  A release whose
  context is done deletes nothing.
-/
def streamStep
    (s : StreamState) : StreamAction → Option StreamState
  | .tick later =>
      if s.now ≤ later then
        some { s with now := later }
      else
        none
  | .setOther entry =>
      if isUserKey entry.key then
        none
      else
        some
          { s with
            store := (s.store.set false entry s.now).1 }
  | .deleteOther key =>
      if isUserKey key then
        none
      else
        some
          { s with store := (s.store.delete false key).1 }
  | .acquire id userID isContextDone =>
      if (s.find id).isSome then
        none
      else
        match
          Download.acquire s.store isContextDone userID s.now
        with
        | (store, .ok true) =>
            some
              { s with
                store := store
                streams :=
                  { id := id
                    userID := userID
                    heldUntil :=
                      s.now + userStreamLifetime } ::
                    s.streams }
        | (store, _) => some { s with store := store }
  | .cancelHeartbeat id =>
      (s.find id).map fun stream =>
        s.update { stream with isCancelled := true }
  | .beginRefresh id =>
      match s.find id with
      | none => none
      | some stream =>
          if stream.isCancelled ∨ stream.isRefreshing then
            none
          else
            some (s.update { stream with isRefreshing := true })
  | .finishRefresh id =>
      match s.find id with
      | none => none
      | some stream =>
          if stream.isRefreshing then
            some (finishRefresh s stream)
          else
            none
  | .beginRelease id isContextDone =>
      match s.find id with
      | none => none
      | some stream =>
          if stream.isEnded then
            none
          else
            some
              (s.update
                { stream with
                  isCancelled := true
                  isEnded := true
                  isReleasing := !isContextDone })
  | .finishRelease id =>
      match s.find id with
      | none => none
      | some stream =>
          if stream.isReleasing then
            some (finishRelease s stream)
          else
            none

/- No user's key is in the cache at first. -/
def streamSystem :
    TransitionSystem StreamState StreamAction where
  initial s :=
    s.streams = [] ∧
      ∀ entry ∈ s.store.entries, isUserKey entry.key = false
  step := streamStep

/- The lock that the stream wrote last has not ended. -/
def Holds
    (s : StreamState)
    (stream : StreamRun) : Prop :=
  stream.isReleased = false ∧ s.now < stream.heldUntil

instance instDecidableHolds
    (s : StreamState)
    (stream : StreamRun) :
    Decidable (Holds s stream) :=
  inferInstanceAs (Decidable (_ ∧ _))

/-
  A stream that holds its acquisition finds the lock as it
  wrote it.  The lock is of a stream that is not released,
  and one stream of a user holds its acquisition at a time.
-/
structure StreamsApart
    (s : StreamState) : Prop where
  locked :
    ∀ stream ∈ s.streams,
      Holds s stream →
        ∃ entry,
          s.store.liveEntry (userKey stream.userID) s.now =
              some entry ∧
            entry.expiresAt = stream.heldUntil
  owned :
    ∀ userID entry,
      s.store.liveEntry (userKey userID) s.now =
          some entry →
        ∃ stream ∈ s.streams,
          stream.userID = userID ∧ Holds s stream ∧
            entry.expiresAt = stream.heldUntil
  single :
    ∀ first ∈ s.streams,
      ∀ second ∈ s.streams,
        first.userID = second.userID →
          Holds s first → Holds s second → first = second

/- No other stream of the user holds its acquisition. -/
def NoneElseHolds
    (s : StreamState)
    (stream : StreamRun) : Prop :=
  ∀ other ∈ s.streams,
    other.userID = stream.userID →
      Holds s other → other = stream

instance instDecidableNoneElseHolds
    (s : StreamState)
    (stream : StreamRun) :
    Decidable (NoneElseHolds s stream) :=
  inferInstanceAs (Decidable (∀ _ ∈ _, _ → _ → _))

/-
  A write or a deletion of the lock reaches the store before
  the stream's own lock has ended, or while nobody else has
  one; and a write reaches it before the stream's release.
-/
def InTime
    (s : StreamState) : StreamAction → Prop
  | .finishRefresh id =>
      ∀ stream ∈ s.find id,
        stream.isReleased = false ∧
          (s.now < stream.heldUntil ∨
            NoneElseHolds s stream)
  | .finishRelease id =>
      ∀ stream ∈ s.find id,
        s.now < stream.heldUntil ∨ NoneElseHolds s stream
  | _ => True

instance instDecidableInTime
    (s : StreamState)
    (action : StreamAction) :
    Decidable (InTime s action) := by
  unfold InTime
  cases action <;> infer_instance

/- The lock of every other stream that holds one stays. -/
def LeavesOthers
    (s : StreamState)
    (id : Uuid)
    (s' : StreamState) : Prop :=
  ∀ other ∈ s.streams,
    other.id ≠ id → Holds s other →
      s'.store.liveEntry (userKey other.userID) s'.now =
        s.store.liveEntry (userKey other.userID) s.now

------------------------------------------------------------
-- The Cache under a User's Key
------------------------------------------------------------

variable {store : MemoryStore}
variable {userID : Uuid}
variable {now : Time}
variable {key : String}

/- An entry that lives later was live before. -/
theorem liveEntry_later
    {later : Time}
    {entry : MemoryEntry}
    (hLater : now ≤ later) :
    store.liveEntry key later = some entry ↔
      store.liveEntry key now = some entry ∧
        later < entry.expiresAt := by
  rw [MemoryStore.liveEntry_some_iff,
    MemoryStore.liveEntry_some_iff]
  constructor
  · rintro ⟨hMember, hKey, hLive⟩
    exact ⟨⟨hMember, hKey, lt_of_le_of_lt hLater hLive⟩, hLive⟩
  · rintro ⟨⟨hMember, hKey, _⟩, hLive⟩
    exact ⟨hMember, hKey, hLive⟩

/- The entry that an acquisition or a heartbeat writes. -/
def lockEntry
    (userID : Uuid)
    (now : Time) : MemoryEntry :=
  { key := userKey userID
    payload := userStreamValue
    expiresAt := now + userStreamLifetime
    sizeBytes :=
      MemoryStore.entrySizeBytes (userStreamEntry userID) }

theorem refresh_eq :
    refresh store false userID now =
      store.store (userStreamEntry userID) now := by
  have hLifetime : ¬ (userStreamEntry userID).lifetime ≤ 0 :=
    not_le_of_gt (userStreamLifetime_entry userID)
  unfold refresh MemoryStore.set MemoryStore.validateWrite
  rw [if_neg Bool.false_ne_true, if_neg hLifetime]

/- A heartbeat writes its user's lock, or nothing. -/
theorem liveEntry_refresh
    (store : MemoryStore)
    (userID : Uuid)
    (now : Time) :
    ((refresh store false userID now).1.liveEntry
          (userKey userID) now =
        match (refresh store false userID now).2 with
        | .error _ => store.liveEntry (userKey userID) now
        | .ok _ => some (lockEntry userID now)) ∧
      ∀ other, other ≠ userID →
        (refresh store false userID now).1.liveEntry
            (userKey other) now =
          store.liveEntry (userKey other) now := by
  rw [refresh_eq]
  have hStore :=
    store.liveEntry_store now
      (userStreamLifetime_entry userID)
  refine ⟨hStore.1, ?_⟩
  intro other hOther
  exact hStore.2 _ (userKey_ne hOther.symm)

theorem liveEntry_release
    (store : MemoryStore)
    (userID : Uuid)
    (now : Time) :
    (release store false userID).1.liveEntry (userKey userID)
          now =
        none ∧
      ∀ other, other ≠ userID →
        (release store false userID).1.liveEntry
            (userKey other) now =
          store.liveEntry (userKey other) now := by
  have hDelete := store.liveEntry_delete now (userKey userID)
  refine ⟨hDelete.1, ?_⟩
  intro other hOther
  exact hDelete.2 _ (userKey_ne hOther.symm)

/- An acquisition finds no live lock, or changes nothing. -/
theorem liveEntry_acquire
    (store : MemoryStore)
    (isContextDone : Bool)
    (userID : Uuid)
    (now : Time) :
    (((acquire store isContextDone userID now).2 = .ok true ∧
          store.liveEntry (userKey userID) now = none ∧
            (acquire store isContextDone userID
                now).1.liveEntry (userKey userID) now =
              some (lockEntry userID now)) ∨
        (acquire store isContextDone userID now).2 ≠
            .ok true ∧
          (acquire store isContextDone userID
              now).1.liveEntry (userKey userID) now =
            store.liveEntry (userKey userID) now) ∧
      ∀ other, other ≠ userID →
        (acquire store isContextDone userID now).1.liveEntry
            (userKey other) now =
          store.liveEntry (userKey other) now := by
  unfold acquire MemoryStore.createIfAbsent
  split
  · exact ⟨Or.inr ⟨nofun, rfl⟩, fun _ _ => rfl⟩
  · have hSame :
        ∀ key,
          (store.getLiveEntry (userStreamEntry userID).key
              now).1.liveEntry key now =
            store.liveEntry key now :=
      fun key => MemoryStore.liveEntry_getLiveEntry
    have hFound :
        (store.getLiveEntry (userStreamEntry userID).key
            now).2 =
          store.liveEntry (userKey userID) now :=
      MemoryStore.getLiveEntry_snd
    split
    · next after entry hLive =>
        rw [hLive] at hSame
        exact ⟨Or.inr ⟨nofun, hSame _⟩, fun other _ => hSame _⟩
    · next after hLive =>
        rw [hLive] at hSame hFound
        have hStore :=
          after.liveEntry_store now
            (userStreamLifetime_entry userID)
        have hElse :
            ∀ other, other ≠ userID →
              (after.store (userStreamEntry userID)
                  now).1.liveEntry (userKey other) now =
                store.liveEntry (userKey other) now := by
          intro other hOther
          rw [← hSame (userKey other)]
          exact hStore.2 _ (userKey_ne hOther.symm)
        split
        · next stored error hFailed =>
            rw [hFailed] at hStore hElse
            refine ⟨Or.inr ⟨nofun, ?_⟩, hElse⟩
            exact hStore.1.trans (hSame _)
        · next stored written hWritten =>
            rw [hWritten] at hStore hElse
            exact ⟨Or.inl ⟨rfl, hFound.symm, hStore.1⟩, hElse⟩

/- What other parts write is under no user's key. -/
theorem liveEntry_setOther
    {entry : Entry}
    (hOther : isUserKey entry.key = false) :
    (store.set false entry now).1.liveEntry (userKey userID)
        now =
      store.liveEntry (userKey userID) now := by
  have hKey : entry.key ≠ userKey userID := by
    intro hSame
    rw [hSame, isUserKey_userKey] at hOther
    cases hOther
  unfold MemoryStore.set MemoryStore.validateWrite
  rw [if_neg Bool.false_ne_true]
  by_cases hLifetime : entry.lifetime ≤ 0
  · rw [if_pos hLifetime]
  · rw [if_neg hLifetime]
    exact
      (store.liveEntry_store now
        (lt_of_not_ge hLifetime)).2 _ hKey

theorem liveEntry_deleteOther
    (hOther : isUserKey key = false) :
    (store.delete false key).1.liveEntry (userKey userID)
        now =
      store.liveEntry (userKey userID) now := by
  apply (store.liveEntry_delete now key).2
  intro hSame
  rw [hSame, isUserKey_userKey] at hOther
  cases hOther

------------------------------------------------------------
-- Changes of One Stream
------------------------------------------------------------

variable {s : StreamState}
variable {old new : StreamRun}

/- A stream releases after its end, and once. -/
structure EndsOnce
    (stream : StreamRun) : Prop where
  ended :
    stream.isReleasing = true ∨ stream.isReleased = true →
      stream.isEnded = true
  once :
    stream.isReleasing = true → stream.isReleased = false

structure StreamInvariant
    (s : StreamState) : Prop where
  apart : StreamsApart s
  uniqueIDs : Table.UniqueBy StreamRun.id s.streams
  endsOnce : ∀ stream ∈ s.streams, EndsOnce stream

/- A stream after the change of one is new or another's. -/
theorem mem_update
    {old new stream : StreamRun}
    (hID : new.id = old.id)
    (hStream :
      stream ∈
        ({ s with store := store }.update new).streams) :
    stream = new ∨ stream ∈ s.streams ∧ stream ≠ old := by
  unfold StreamState.update at hStream
  rw [Table.mem_updateWhere_iff] at hStream
  rcases hStream with ⟨before, hBefore, hChange⟩
  by_cases hSame : before.id = new.id
  · rw [if_pos (decide_eq_true hSame)] at hChange
    exact Or.inl hChange.symm
  · rw [if_neg (by simp [hSame])] at hChange
    rw [← hChange]
    refine Or.inr ⟨hBefore, ?_⟩
    rintro rfl
    exact hSame hID.symm

theorem mem_update_new
    (hOld : old ∈ s.streams)
    (hID : new.id = old.id) :
    new ∈ ({ s with store := store }.update new).streams :=
  Table.mem_updateWhere_of_selects hOld
    (decide_eq_true hID.symm)

theorem mem_update_other
    {old new other : StreamRun}
    (hUnique : Table.UniqueBy StreamRun.id s.streams)
    (hOld : old ∈ s.streams)
    (hID : new.id = old.id)
    (hOther : other ∈ s.streams)
    (hApart : other ≠ old) :
    other ∈
      ({ s with store := store }.update new).streams := by
  apply Table.mem_updateWhere_of_not hOther
  rw [decide_eq_false_iff_not]
  intro hSame
  exact
    hApart
      (hUnique.eq_of_key_eq hOther hOld
        (hSame.trans hID))

/- A change of flags alone keeps streams apart. -/
theorem StreamsApart.setFlags
    (hApart : StreamsApart s)
    (hUnique : Table.UniqueBy StreamRun.id s.streams)
    (hOld : old ∈ s.streams)
    (hID : new.id = old.id)
    (hUser : new.userID = old.userID)
    (hHeld : new.heldUntil = old.heldUntil)
    (hReleased : new.isReleased = old.isReleased)
    (hStore :
      ∀ userID,
        store.liveEntry (userKey userID) s.now =
          s.store.liveEntry (userKey userID) s.now) :
    StreamsApart ({ s with store := store }.update new) := by
  have hHolds :
      Holds ({ s with store := store }.update new) new ↔
        Holds s old := by
    unfold Holds
    rw [hHeld, hReleased]
    rfl
  refine
    { locked := ?_
      owned := ?_
      single := ?_ }
  · intro stream hStream hStreamHolds
    change
      ∃ entry,
        store.liveEntry (userKey stream.userID) s.now =
            some entry ∧
          entry.expiresAt = stream.heldUntil
    rw [hStore]
    rcases mem_update hID hStream with
      rfl | ⟨hOther, _⟩
    · rw [hUser, hHeld]
      exact hApart.locked old hOld (hHolds.mp hStreamHolds)
    · exact hApart.locked stream hOther hStreamHolds
  · intro userID entry hEntry
    change store.liveEntry (userKey userID) s.now = _ at hEntry
    rw [hStore] at hEntry
    rcases hApart.owned userID entry hEntry with
      ⟨stream, hStream, hOwner, hStreamHolds, hExpires⟩
    by_cases hSame : stream = old
    · rw [hSame] at hOwner hStreamHolds hExpires
      exact
        ⟨new, mem_update_new hOld hID, hUser.trans hOwner,
          hHolds.mpr hStreamHolds,
          hExpires.trans hHeld.symm⟩
    · exact
        ⟨stream,
          mem_update_other hUnique hOld hID hStream hSame,
          hOwner, hStreamHolds, hExpires⟩
  · intro first hFirst second hSecond hUsers hFirstHolds
      hSecondHolds
    rcases mem_update hID hFirst with
      rfl | ⟨hFirstOld, hFirstApart⟩
    · rcases mem_update hID hSecond with
        rfl | ⟨hSecondOld, hSecondApart⟩
      · rfl
      · exact
          absurd
            (hApart.single old hOld second hSecondOld
              (hUser.symm.trans hUsers)
              (hHolds.mp hFirstHolds) hSecondHolds).symm
            hSecondApart
    · rcases mem_update hID hSecond with
        rfl | ⟨hSecondOld, _⟩
      · exact
          absurd
            (hApart.single first hFirstOld old hOld
              (hUsers.trans hUser) hFirstHolds
              (hHolds.mp hSecondHolds))
            hFirstApart
      · exact
          hApart.single first hFirstOld second hSecondOld
            hUsers hFirstHolds hSecondHolds

/-
  A stream that is alone writes or deletes its own lock: it
  holds what is there, or nothing is there.
-/
theorem StreamsApart.setLock
    (hApart : StreamsApart s)
    (hUnique : Table.UniqueBy StreamRun.id s.streams)
    (hOld : old ∈ s.streams)
    (hID : new.id = old.id)
    (hUser : new.userID = old.userID)
    (hAlone : NoneElseHolds s old)
    (hElse :
      ∀ userID, userID ≠ old.userID →
        store.liveEntry (userKey userID) s.now =
          s.store.liveEntry (userKey userID) s.now)
    (hOwn :
      (Holds ({ s with store := store }.update new) new ∧
          ∃ entry,
            store.liveEntry (userKey old.userID) s.now =
                some entry ∧
              entry.expiresAt = new.heldUntil) ∨
        ¬ Holds ({ s with store := store }.update new) new ∧
          store.liveEntry (userKey old.userID) s.now =
            none) :
    StreamsApart ({ s with store := store }.update new) := by
  refine
    { locked := ?_
      owned := ?_
      single := ?_ }
  · intro stream hStream hStreamHolds
    rcases mem_update hID hStream with
      rfl | ⟨hOther, hOtherApart⟩
    · rcases hOwn with ⟨_, hEntry⟩ | ⟨hNot, _⟩
      · rw [hUser]
        exact hEntry
      · exact absurd hStreamHolds hNot
    · have hUsers : stream.userID ≠ old.userID :=
        fun hSame =>
          hOtherApart
            (hAlone stream hOther hSame hStreamHolds)
      change
        ∃ entry,
          store.liveEntry (userKey stream.userID) s.now =
              some entry ∧
            entry.expiresAt = stream.heldUntil
      rw [hElse stream.userID hUsers]
      exact hApart.locked stream hOther hStreamHolds
  · intro userID entry hEntry
    change store.liveEntry (userKey userID) s.now = _ at hEntry
    by_cases hSame : userID = old.userID
    · rw [hSame] at hEntry ⊢
      rcases hOwn with ⟨hHolds, own, hOwnEntry, hExpires⟩ |
        ⟨_, hNone⟩
      · rw [hOwnEntry] at hEntry
        cases hEntry
        exact
          ⟨new, mem_update_new hOld hID, hUser, hHolds,
            hExpires⟩
      · rw [hNone] at hEntry
        cases hEntry
    · rw [hElse userID hSame] at hEntry
      rcases hApart.owned userID entry hEntry with
        ⟨stream, hStream, hOwner, hStreamHolds, hExpires⟩
      refine
        ⟨stream, mem_update_other hUnique hOld hID hStream ?_,
          hOwner, hStreamHolds, hExpires⟩
      rintro rfl
      exact hSame hOwner.symm
  · intro first hFirst second hSecond hUsers hFirstHolds
      hSecondHolds
    rcases mem_update hID hFirst with
      rfl | ⟨hFirstOld, hFirstApart⟩
    · rcases mem_update hID hSecond with
        rfl | ⟨hSecondOld, hSecondApart⟩
      · rfl
      · exact
          absurd
            (hAlone second hSecondOld
              (hUsers.symm.trans hUser) hSecondHolds)
            hSecondApart
    · rcases mem_update hID hSecond with
        rfl | ⟨hSecondOld, _⟩
      · exact
          absurd
            (hAlone first hFirstOld (hUsers.trans hUser)
              hFirstHolds)
            hFirstApart
      · exact
          hApart.single first hFirstOld second hSecondOld
            hUsers hFirstHolds hSecondHolds

/- A stream in time is the only one that can hold a lock. -/
theorem noneElseHolds_of_inTime
    {stream : StreamRun}
    (hApart : StreamsApart s)
    (hStream : stream ∈ s.streams)
    (hReleased : stream.isReleased = false)
    (hInTime :
      s.now < stream.heldUntil ∨ NoneElseHolds s stream) :
    NoneElseHolds s stream := by
  rcases hInTime with hLive | hAlone
  · intro other hOther hUser hOtherHolds
    exact
      hApart.single other hOther stream hStream hUser
        hOtherHolds ⟨hReleased, hLive⟩
  · exact hAlone

theorem StreamInvariant.update
    {new : StreamRun}
    (hHolds : StreamInvariant s)
    (old : StreamRun)
    (hID : new.id = old.id)
    (hApart :
      StreamsApart ({ s with store := store }.update new))
    (hEndsOnce : EndsOnce new) :
    StreamInvariant
      ({ s with store := store }.update new) := by
  refine
    { apart := hApart
      uniqueIDs := ?_
      endsOnce := ?_ }
  · apply hHolds.uniqueIDs.updateSelected
    intro stream hSelected
    exact (of_decide_eq_true hSelected).symm
  · intro stream hStream
    rcases mem_update hID hStream with
      rfl | ⟨hOther, _⟩
    · exact hEndsOnce
    · exact hHolds.endsOnce stream hOther

------------------------------------------------------------
-- Runs
------------------------------------------------------------

variable {s' : StreamState}
variable {id : Uuid}
variable {stream : StreamRun}

/- A step that leaves streams and live locks as they are. -/
theorem StreamInvariant.setStore
    (hHolds : StreamInvariant s)
    (hStore :
      ∀ userID,
        store.liveEntry (userKey userID) s.now =
          s.store.liveEntry (userKey userID) s.now) :
    StreamInvariant { s with store := store } := by
  refine
    { apart :=
        { locked := ?_
          owned := ?_
          single := hHolds.apart.single }
      uniqueIDs := hHolds.uniqueIDs
      endsOnce := hHolds.endsOnce }
  · intro stream hStream hStreamHolds
    simp only [hStore]
    exact hHolds.apart.locked stream hStream hStreamHolds
  · intro userID entry hEntry
    simp only [hStore] at hEntry
    exact hHolds.apart.owned userID entry hEntry

/- Locks and acquisitions end together. -/
theorem invariant_tick
    {later : Time}
    (hHolds : StreamInvariant s)
    (hLater : s.now ≤ later) :
    StreamInvariant { s with now := later } := by
  have hBefore :
      ∀ stream, Holds { s with now := later } stream →
        Holds s stream :=
    fun stream hStream =>
      ⟨hStream.1, lt_of_le_of_lt hLater hStream.2⟩
  refine
    { apart :=
        { locked := ?_
          owned := ?_
          single := fun first hFirst second hSecond hUsers
              hFirstHolds hSecondHolds =>
            hHolds.apart.single first hFirst second hSecond
              hUsers (hBefore first hFirstHolds)
              (hBefore second hSecondHolds) }
      uniqueIDs := hHolds.uniqueIDs
      endsOnce := hHolds.endsOnce }
  · intro stream hStream hStreamHolds
    rcases
        hHolds.apart.locked stream hStream
          (hBefore stream hStreamHolds) with
      ⟨entry, hEntry, hExpires⟩
    refine ⟨entry, ?_, hExpires⟩
    apply (liveEntry_later hLater).mpr
    refine ⟨hEntry, ?_⟩
    rw [hExpires]
    exact hStreamHolds.2
  · intro userID entry hEntry
    rcases (liveEntry_later hLater).mp hEntry with
      ⟨hLive, hStill⟩
    rcases hHolds.apart.owned userID entry hLive with
      ⟨stream, hStream, hUser, hStreamHolds, hExpires⟩
    refine
      ⟨stream, hStream, hUser, ⟨hStreamHolds.1, ?_⟩, hExpires⟩
    rw [← hExpires]
    exact hStill

/- A new stream finds no holder of the lock it creates. -/
theorem invariant_acquired
    (hHolds : StreamInvariant s)
    (hFresh : s.find id = none)
    (hNone :
      s.store.liveEntry (userKey userID) s.now = none)
    (hCreated :
      store.liveEntry (userKey userID) s.now =
        some (lockEntry userID s.now))
    (hElse :
      ∀ other, other ≠ userID →
        store.liveEntry (userKey other) s.now =
          s.store.liveEntry (userKey other) s.now) :
    StreamInvariant
      { s with
        store := store
        streams :=
          { id := id
            userID := userID
            heldUntil := s.now + userStreamLifetime } ::
            s.streams } := by
  have hNoHolder :
      ∀ stream ∈ s.streams, stream.userID = userID →
        ¬ Holds s stream := by
    rintro stream hStream rfl hStreamHolds
    rcases hHolds.apart.locked stream hStream hStreamHolds
      with ⟨entry, hEntry, _⟩
    rw [hNone] at hEntry
    cases hEntry
  refine
    { apart :=
        { locked := ?_
          owned := ?_
          single := ?_ }
      uniqueIDs := ?_
      endsOnce := ?_ }
  · intro stream hStream hStreamHolds
    rcases List.mem_cons.mp hStream with rfl | hOld
    · exact ⟨_, hCreated, rfl⟩
    · have hUsers : stream.userID ≠ userID :=
        fun hSame => hNoHolder stream hOld hSame hStreamHolds
      change
        ∃ entry,
          store.liveEntry (userKey stream.userID) s.now =
              some entry ∧
            entry.expiresAt = stream.heldUntil
      rw [hElse stream.userID hUsers]
      exact hHolds.apart.locked stream hOld hStreamHolds
  · intro user entry hEntry
    change store.liveEntry (userKey user) s.now = _ at hEntry
    by_cases hSame : user = userID
    · rw [hSame, hCreated] at hEntry
      cases hEntry
      exact
        ⟨_, List.mem_cons_self, hSame.symm,
          ⟨rfl,
            Int.lt_add_of_pos_right s.now
              (userStreamLifetime_entry userID)⟩, rfl⟩
    · rw [hElse user hSame] at hEntry
      rcases hHolds.apart.owned user entry hEntry with
        ⟨stream, hStream, hRest⟩
      exact ⟨stream, List.mem_cons_of_mem _ hStream, hRest⟩
  · intro first hFirst second hSecond hUsers hFirstHolds
      hSecondHolds
    rcases List.mem_cons.mp hFirst with rfl | hFirstOld
    · rcases List.mem_cons.mp hSecond with rfl | hSecondOld
      · rfl
      · exact
          absurd hSecondHolds
            (hNoHolder second hSecondOld hUsers.symm)
    · rcases List.mem_cons.mp hSecond with rfl | hSecondOld
      · exact
          absurd hFirstHolds
            (hNoHolder first hFirstOld hUsers)
      · exact
          hHolds.apart.single first hFirstOld second
            hSecondOld hUsers hFirstHolds hSecondHolds
  · unfold Table.UniqueBy
    rw [List.map_cons, List.nodup_cons]
    refine ⟨?_, hHolds.uniqueIDs⟩
    intro hMember
    rcases List.mem_map.mp hMember with
      ⟨stream, hStream, hSame⟩
    exact Table.lookup_eq_none_iff.mp hFresh stream hStream
      hSame
  · intro stream hStream
    rcases List.mem_cons.mp hStream with rfl | hOld
    · exact
        { ended := fun hDone => by simp at hDone
          once := fun hReleasing => nomatch hReleasing }
    · exact hHolds.endsOnce stream hOld

/- A change of flags alone keeps the invariant. -/
theorem StreamInvariant.setFlags
    (hHolds : StreamInvariant s)
    (hOld : old ∈ s.streams)
    (hID : new.id = old.id)
    (hUser : new.userID = old.userID)
    (hHeld : new.heldUntil = old.heldUntil)
    (hReleased : new.isReleased = old.isReleased)
    (hEndsOnce : EndsOnce new)
    (hStore :
      ∀ userID,
        store.liveEntry (userKey userID) s.now =
          s.store.liveEntry (userKey userID) s.now) :
    StreamInvariant
      ({ s with store := store }.update new) := by
  refine hHolds.update _ hID ?_ ?_
  · exact
      hHolds.apart.setFlags hHolds.uniqueIDs hOld hID hUser
        hHeld hReleased hStore
  · exact hEndsOnce

theorem invariant_finishRefresh
    (hHolds : StreamInvariant s)
    (hStream : stream ∈ s.streams)
    (hReleased : stream.isReleased = false)
    (hInTime :
      s.now < stream.heldUntil ∨ NoneElseHolds s stream) :
    StreamInvariant (finishRefresh s stream) := by
  have hAlone :=
    noneElseHolds_of_inTime hHolds.apart hStream hReleased
      hInTime
  have hEndsOnce := hHolds.endsOnce stream hStream
  have hWrite := liveEntry_refresh s.store stream.userID s.now
  unfold finishRefresh
  split
  · next store error hFailed =>
      rw [hFailed] at hWrite
      refine
        hHolds.setFlags hStream ?_ ?_ ?_ ?_
          ?_ ?_
      · rfl
      · rfl
      · rfl
      · rfl
      · exact
          { ended := hEndsOnce.ended
            once := hEndsOnce.once }
      · intro userID
        by_cases hSame : userID = stream.userID
        · rw [hSame]
          exact hWrite.1
        · exact hWrite.2 userID hSame
  · next store written hWritten =>
      rw [hWritten] at hWrite
      refine hHolds.update stream ?_ ?_ ?_
      · rfl
      · refine
          hHolds.apart.setLock hHolds.uniqueIDs hStream ?_ ?_
            hAlone hWrite.2 (Or.inl ?_)
        · rfl
        · rfl
        · refine ⟨⟨hReleased, ?_⟩, _, hWrite.1, rfl⟩
          exact
            Int.lt_add_of_pos_right s.now
              (userStreamLifetime_entry stream.userID)
      · exact
          { ended := hEndsOnce.ended
            once := hEndsOnce.once }

theorem invariant_finishRelease
    (hHolds : StreamInvariant s)
    (hStream : stream ∈ s.streams)
    (hReleasing : stream.isReleasing = true)
    (hInTime :
      s.now < stream.heldUntil ∨ NoneElseHolds s stream) :
    StreamInvariant (finishRelease s stream) := by
  have hEndsOnce := hHolds.endsOnce stream hStream
  have hAlone :=
    noneElseHolds_of_inTime hHolds.apart hStream
      (hEndsOnce.once hReleasing) hInTime
  have hDelete := liveEntry_release s.store stream.userID s.now
  unfold finishRelease
  refine hHolds.update stream ?_ ?_ ?_
  · rfl
  · refine
      hHolds.apart.setLock hHolds.uniqueIDs hStream ?_ ?_
        hAlone hDelete.2 (Or.inr ⟨?_, hDelete.1⟩)
    · rfl
    · rfl
    · exact fun hStill => nomatch hStill.1
  · exact
      { ended := fun _ => hEndsOnce.ended (Or.inl hReleasing)
        once := fun hAgain => nomatch hAgain }

/- What a stream's flags say does not touch the cache. -/
theorem invariant_flags
    (hHolds : StreamInvariant s)
    (hOld : old ∈ s.streams)
    (hID : new.id = old.id)
    (hUser : new.userID = old.userID)
    (hHeld : new.heldUntil = old.heldUntil)
    (hReleased : new.isReleased = old.isReleased)
    (hEndsOnce : EndsOnce new) :
    StreamInvariant (s.update new) :=
  hHolds.setFlags hOld hID hUser hHeld hReleased hEndsOnce
    fun _ => rfl

theorem streamInvariant_initial
    (s : StreamState)
    (hInitial : streamSystem.initial s) :
    StreamInvariant s := by
  rcases hInitial with ⟨hStreams, hKeys⟩
  refine
    { apart :=
        { locked := ?_
          owned := ?_
          single := ?_ }
      uniqueIDs := ?_
      endsOnce := ?_ }
  · rw [hStreams]
    exact nofun
  · intro userID entry hEntry
    rcases MemoryStore.liveEntry_some_iff.mp hEntry with
      ⟨hMember, hKey, _⟩
    have hFree := hKeys entry hMember
    rw [hKey, isUserKey_userKey] at hFree
    cases hFree
  · rw [hStreams]
    exact nofun
  · rw [hStreams]
    exact List.nodup_nil
  · rw [hStreams]
    exact nofun

theorem streamInvariant_acquire
    {isContextDone : Bool}
    (hHolds : StreamInvariant s)
    (hTaken :
      streamStep s (.acquire id userID isContextDone) =
        some s') :
    StreamInvariant s' := by
  have hAcquire :=
    liveEntry_acquire s.store isContextDone userID s.now
  simp only [streamStep] at hTaken
  split at hTaken
  · cases hTaken
  · next hFresh =>
      rw [Bool.not_eq_true, Option.isSome_eq_false_iff,
        Option.isNone_iff_eq_none] at hFresh
      split at hTaken
      · next store hDone =>
          cases hTaken
          rw [hDone] at hAcquire
          rcases hAcquire with ⟨⟨_, hNone, hCreated⟩ |
            ⟨hNot, _⟩, hElse⟩
          · exact
              invariant_acquired hHolds hFresh hNone hCreated
                hElse
          · exact absurd rfl hNot
      · next store answer hOther hDone =>
          cases hTaken
          rw [hDone] at hAcquire
          apply hHolds.setStore
          intro user
          rcases hAcquire with ⟨⟨hTrue, _⟩ |
            ⟨_, hSame⟩, hElse⟩
          · exact absurd hTrue hOther
          · by_cases hUser : user = userID
            · rw [hUser]
              exact hSame
            · exact hElse user hUser

theorem streamInvariant_step
    (s : StreamState)
    (action : StreamAction)
    (s' : StreamState)
    (hHolds : StreamInvariant s)
    (hInTime : InTime s action)
    (hTaken : streamStep s action = some s') :
    StreamInvariant s' := by
  cases action with
  | tick later =>
      simp only [streamStep] at hTaken
      split at hTaken
      · next hLater =>
          cases hTaken
          exact invariant_tick hHolds hLater
      · cases hTaken
  | setOther entry =>
      simp only [streamStep] at hTaken
      split at hTaken
      · cases hTaken
      · next hOther =>
          cases hTaken
          exact
            hHolds.setStore fun _ =>
              liveEntry_setOther (Bool.eq_false_iff.mpr hOther)
  | deleteOther key =>
      simp only [streamStep] at hTaken
      split at hTaken
      · cases hTaken
      · next hOther =>
          cases hTaken
          exact
            hHolds.setStore fun _ =>
              liveEntry_deleteOther
                (Bool.eq_false_iff.mpr hOther)
  | acquire id userID isContextDone =>
      exact streamInvariant_acquire hHolds hTaken
  | cancelHeartbeat id =>
      rcases Option.map_eq_some_iff.mp hTaken with
        ⟨stream, hFind, rfl⟩
      have hStream := (Table.lookup_some hFind).1
      have hEndsOnce := hHolds.endsOnce stream hStream
      refine invariant_flags hHolds hStream rfl rfl rfl rfl ?_
      exact
        { ended := hEndsOnce.ended
          once := hEndsOnce.once }
  | beginRefresh id =>
      simp only [streamStep] at hTaken
      split at hTaken
      · cases hTaken
      · next stream hFind =>
          split at hTaken
          · cases hTaken
          · cases hTaken
            have hStream := (Table.lookup_some hFind).1
            have hEndsOnce := hHolds.endsOnce stream hStream
            refine
              invariant_flags hHolds hStream rfl rfl rfl rfl ?_
            exact
              { ended := hEndsOnce.ended
                once := hEndsOnce.once }
  | finishRefresh id =>
      simp only [streamStep] at hTaken
      split at hTaken
      · cases hTaken
      · next stream hFind =>
          split at hTaken
          · cases hTaken
            rcases hInTime stream hFind with
              ⟨hReleased, hTime⟩
            exact
              invariant_finishRefresh hHolds
                (Table.lookup_some hFind).1 hReleased hTime
          · cases hTaken
  | beginRelease id isContextDone =>
      simp only [streamStep] at hTaken
      split at hTaken
      · cases hTaken
      · next stream hFind =>
          split at hTaken
          · cases hTaken
          · next hRunning =>
              cases hTaken
              have hStream := (Table.lookup_some hFind).1
              have hEndsOnce := hHolds.endsOnce stream hStream
              refine
                invariant_flags hHolds hStream rfl rfl rfl rfl
                  ?_
              refine
                { ended := fun _ => rfl
                  once := fun _ => ?_ }
              rw [← Bool.not_eq_true]
              exact fun hReleased =>
                hRunning (hEndsOnce.ended (Or.inr hReleased))
  | finishRelease id =>
      simp only [streamStep] at hTaken
      split at hTaken
      · cases hTaken
      · next stream hFind =>
          split at hTaken
          · next hReleasing =>
              cases hTaken
              exact
                invariant_finishRelease hHolds
                  (Table.lookup_some hFind).1 hReleasing
                  (hInTime stream hFind)
          · cases hTaken

/- A change of one user's lock leaves the other streams'. -/
theorem leavesOthers_of_alone
    {id : Uuid}
    (hID : stream.id = id)
    (hAlone : NoneElseHolds s stream)
    (hNow : s'.now = s.now)
    (hElse :
      ∀ userID, userID ≠ stream.userID →
        s'.store.liveEntry (userKey userID) s.now =
          s.store.liveEntry (userKey userID) s.now) :
    LeavesOthers s id s' := by
  intro other hOther hApart hOtherHolds
  rw [hNow]
  apply hElse
  intro hUser
  apply hApart
  rw [hAlone other hOther hUser hOtherHolds, hID]

theorem leavesOthers_finishRefresh
    {id : Uuid}
    (hID : stream.id = id)
    (hAlone : NoneElseHolds s stream) :
    LeavesOthers s id (finishRefresh s stream) := by
  have hWrite := liveEntry_refresh s.store stream.userID s.now
  unfold finishRefresh
  split
  · next store error hFailed =>
      rw [hFailed] at hWrite
      exact leavesOthers_of_alone hID hAlone rfl hWrite.2
  · next store written hWritten =>
      rw [hWritten] at hWrite
      exact leavesOthers_of_alone hID hAlone rfl hWrite.2

theorem leavesOthers_finishRelease
    {id : Uuid}
    (hID : stream.id = id)
    (hAlone : NoneElseHolds s stream) :
    LeavesOthers s id (finishRelease s stream) :=
  leavesOthers_of_alone hID hAlone rfl
    (liveEntry_release s.store stream.userID s.now).2

/-
  While heartbeats and releases reach the store in time, the
  streams of a user are apart, and no refresh or release
  touches the lock of another stream.
-/
theorem streams_apart
    (s : StreamState)
    (hReachable : streamSystem.ReachableWhile InTime s) :
    StreamsApart s ∧
      ∀ id action s',
        action = .finishRefresh id ∨
            action = .finishRelease id →
          InTime s action →
            streamStep s action = some s' →
              LeavesOthers s id s' := by
  have hHolds : StreamInvariant s :=
    hReachable.invariant streamInvariant_initial
      streamInvariant_step
  refine ⟨hHolds.apart, ?_⟩
  rintro id action s' (rfl | rfl) hInTime hTaken
  · simp only [streamStep] at hTaken
    split at hTaken
    · cases hTaken
    · next stream hFind =>
        rcases Table.lookup_some hFind with ⟨hStream, hID⟩
        rcases hInTime stream hFind with ⟨hReleased, hTime⟩
        split at hTaken
        · cases hTaken
          exact
            leavesOthers_finishRefresh hID
              (noneElseHolds_of_inTime hHolds.apart hStream
                hReleased hTime)
        · cases hTaken
  · simp only [streamStep] at hTaken
    split at hTaken
    · cases hTaken
    · next stream hFind =>
        rcases Table.lookup_some hFind with ⟨hStream, hID⟩
        have hTime := hInTime stream hFind
        split at hTaken
        · next hReleasing =>
            cases hTaken
            have hReleased :=
              (hHolds.endsOnce stream hStream).once hReleasing
            exact
              leavesOthers_finishRelease hID
                (noneElseHolds_of_inTime hHolds.apart hStream
                  hReleased hTime)
        · cases hTaken

/- No stream runs, and the cache is empty. -/
def quietStart : StreamState :=
  { store := MemoryStore.newMemoryStore 1024
    streams := []
    now := 0 }

theorem quietStart_initial :
    streamSystem.initial quietStart :=
  ⟨rfl, nofun⟩

/- A download ends after four seconds, and another begins. -/
def oneAfterAnother : StreamState :=
  streamSystem.outcome quietStart
    [.acquire 1 7 false,
      .tick (3 * Duration.second),
      .beginRefresh 1,
      .finishRefresh 1,
      .tick (4 * Duration.second),
      .beginRelease 1 false,
      .finishRelease 1,
      .acquire 2 7 false]

theorem streams_apart_oneAfterAnother :
    StreamsApart oneAfterAnother := by
  refine (streams_apart oneAfterAnother ?_).1
  apply TransitionSystem.reachableWhile_outcome
  · exact quietStart_initial
  · decide +kernel

/-
  The first stream's lock expires while it runs.  Its release
  deletes the lock of the second, and a third stream begins.
-/
def lateRelease : StreamState :=
  streamSystem.outcome quietStart
    [.acquire 1 7 false,
      .tick (5 * Duration.second),
      .acquire 2 7 false,
      .beginRelease 1 false,
      .finishRelease 1,
      .acquire 3 7 false]

theorem late_release_frees_user :
    ¬ ∀ s, streamSystem.Reachable s → StreamsApart s := by
  intro hAlways
  have hApart :=
    hAlways lateRelease
      (TransitionSystem.reachable_outcome _ quietStart_initial)
  have hSame :=
    hApart.single
      { id := 3
        userID := 7
        heldUntil := 10 * Duration.second }
      (by decide +kernel)
      { id := 2
        userID := 7
        heldUntil := 10 * Duration.second }
      (by decide +kernel) rfl
      (by decide +kernel) (by decide +kernel)
  cases hSame

end Download

end Databasus
