import Databasus.Common
import Databasus.Foundation.Table

/-
  A store of short-lived values in the memory of the process.

  An entry is live until it expires.  A write that would pass
  the payload budget first removes what has expired, and is
  refused when that does not help.

  Main declarations:
    * `MemoryStore`
    * `MemoryStore.set`
    * `MemoryStore.createIfAbsent`
    * `MemoryStore.readAndDelete`
    * `MemoryStore.delete`
    * `MemoryStore.liveEntry`
    * `MemoryStore.reclaimExpired_induction`
-/

------------------------------------------------------------
-- The Store
------------------------------------------------------------

namespace Databasus

namespace Cache

open Foundation

structure Entry where
  key : String
  payload : Bytes
  lifetime : Duration
deriving DecidableEq, Repr

structure MemoryEntry where
  key : String
  payload : Bytes
  expiresAt : Time
  sizeBytes : Int
deriving DecidableEq, Repr

inductive CacheError
  | contextDone
  | invalidLifetime
  | payloadBudgetReached
deriving DecidableEq, Repr

/- The entries are a map: no two have one key. -/
structure MemoryStore where
  entries : List MemoryEntry
  payloadBytes : Int
  payloadBudgetBytes : Int
  keysUnique : Table.UniqueBy MemoryEntry.key entries

namespace MemoryStore

variable (s : MemoryStore)

def newMemoryStore
    (payloadBudgetBytes : Int) : MemoryStore :=
  { entries := []
    payloadBytes := 0
    payloadBudgetBytes := payloadBudgetBytes
    keysUnique := List.nodup_nil }

def find (key : String) : Option MemoryEntry :=
  Table.lookup MemoryEntry.key key s.entries

def remove
    (entry : MemoryEntry) : MemoryStore :=
  { s with
    entries :=
      Table.deleteWhere
        (fun other => other.key = entry.key) s.entries
    payloadBytes := s.payloadBytes - entry.sizeBytes
    keysUnique := s.keysUnique.deleteWhere _ }

/- An expired entry is removed when it is met. -/
def getLiveEntry
    (key : String)
    (now : Time) : MemoryStore × Option MemoryEntry :=
  match s.find key with
  | none => (s, none)
  | some entry =>
      if now < entry.expiresAt then
        (s, some entry)
      else
        (s.remove entry, none)

def reclaimExpired (now : Time) : MemoryStore :=
  s.entries.foldl
    (fun store entry =>
      if now < entry.expiresAt then
        store
      else
        store.remove entry)
    s

def getStoredEntrySizeBytes (key : String) : Int :=
  match s.find key with
  | none => 0
  | some entry => entry.sizeBytes

def entrySizeBytes (entry : Entry) : Int :=
  entry.key.utf8ByteSize + entry.payload.length

/- The entry replaces the one of its key. -/
def put
    (entry : Entry)
    (now : Time) : MemoryStore :=
  { s with
    entries :=
      { key := entry.key
        payload := entry.payload
        expiresAt := now + entry.lifetime
        sizeBytes := entrySizeBytes entry } ::
        Table.deleteWhere
          (fun other => other.key = entry.key) s.entries
    payloadBytes :=
      s.payloadBytes - s.getStoredEntrySizeBytes entry.key +
        entrySizeBytes entry
    keysUnique := by
      unfold Table.UniqueBy
      rw [List.map_cons, List.nodup_cons]
      refine ⟨?_, s.keysUnique.deleteWhere _⟩
      intro hMember
      rcases List.mem_map.mp hMember with ⟨old, hOld, hKey⟩
      have hApart :=
        ((Table.mem_deleteWhere_iff _ _ _).mp hOld).2
      exact of_decide_eq_false hApart hKey }

def exceedsBudget (entry : Entry) : Bool :=
  s.payloadBudgetBytes <
    s.payloadBytes - s.getStoredEntrySizeBytes entry.key +
      entrySizeBytes entry

/- A store has written, or why it has not. -/
def store
    (entry : Entry)
    (now : Time) : MemoryStore × Except CacheError Unit :=
  if s.exceedsBudget entry then
    let reclaimed := s.reclaimExpired now
    if reclaimed.exceedsBudget entry then
      (reclaimed, .error .payloadBudgetReached)
    else
      (reclaimed.put entry now, .ok ())
  else
    (s.put entry now, .ok ())

/- The context is looked at before the mutex is locked. -/
def validateWrite
    (isContextDone : Bool)
    (entry : Entry) : Except CacheError Unit :=
  if isContextDone then
    .error .contextDone
  else if entry.lifetime ≤ 0 then
    .error .invalidLifetime
  else
    .ok ()

def set
    (isContextDone : Bool)
    (entry : Entry)
    (now : Time) : MemoryStore × Except CacheError Unit :=
  match validateWrite isContextDone entry with
  | .error error => (s, .error error)
  | .ok _ => s.store entry now

def createIfAbsent
    (isContextDone : Bool)
    (entry : Entry)
    (now : Time) : MemoryStore × Except CacheError Bool :=
  match validateWrite isContextDone entry with
  | .error error => (s, .error error)
  | .ok _ =>
      match s.getLiveEntry entry.key now with
      | (after, some _) => (after, .ok false)
      | (after, none) =>
          match after.store entry now with
          | (stored, .error error) => (stored, .error error)
          | (stored, .ok _) => (stored, .ok true)

def get
    (isContextDone : Bool)
    (key : String)
    (now : Time) :
    MemoryStore × Except CacheError (Option Bytes) :=
  if isContextDone then
    (s, .error .contextDone)
  else
    match s.getLiveEntry key now with
    | (after, found) =>
        (after, .ok (found.map MemoryEntry.payload))

def readAndDelete
    (isContextDone : Bool)
    (key : String)
    (now : Time) :
    MemoryStore × Except CacheError (Option Bytes) :=
  if isContextDone then
    (s, .error .contextDone)
  else
    match s.getLiveEntry key now with
    | (after, none) => (after, .ok none)
    | (after, some entry) =>
        (after.remove entry, .ok (some entry.payload))

def delete
    (isContextDone : Bool)
    (key : String) : MemoryStore × Except CacheError Unit :=
  if isContextDone then
    (s, .error .contextDone)
  else
    match s.find key with
    | none => (s, .ok ())
    | some entry => (s.remove entry, .ok ())

/- What a read of the key at the time finds. -/
def liveEntry
    (key : String)
    (now : Time) : Option MemoryEntry :=
  (s.find key).filter fun entry => now < entry.expiresAt

------------------------------------------------------------
-- Live Entries
------------------------------------------------------------

variable {s}
variable {key : String}
variable {now : Time}
variable {entry : MemoryEntry}
variable {other : String}
variable {later : Time}

theorem find_some_iff :
    s.find key = some entry ↔
      entry ∈ s.entries ∧ entry.key = key := by
  constructor
  · exact Table.lookup_some
  · rintro ⟨hMember, rfl⟩
    exact s.keysUnique.lookup_eq_some hMember

theorem liveEntry_some_iff :
    s.liveEntry key now = some entry ↔
      entry ∈ s.entries ∧ entry.key = key ∧
        now < entry.expiresAt := by
  unfold liveEntry
  rw [Option.filter_eq_some_iff, find_some_iff,
    decide_eq_true_eq, and_assoc]

/- Stores with the same live entries of a key read alike. -/
theorem liveEntry_congr
    {other : MemoryStore}
    (hSame :
      ∀ entry : MemoryEntry, entry.key = key →
        now < entry.expiresAt →
          (entry ∈ s.entries ↔ entry ∈ other.entries)) :
    s.liveEntry key now = other.liveEntry key now := by
  apply Option.ext
  intro entry
  rw [liveEntry_some_iff, liveEntry_some_iff]
  constructor
  · rintro ⟨hMember, hKey, hLive⟩
    exact ⟨(hSame entry hKey hLive).mp hMember, hKey, hLive⟩
  · rintro ⟨hMember, hKey, hLive⟩
    exact ⟨(hSame entry hKey hLive).mpr hMember, hKey, hLive⟩

theorem mem_remove_iff
    {removed entry : MemoryEntry} :
    entry ∈ (s.remove removed).entries ↔
      entry ∈ s.entries ∧ entry.key ≠ removed.key := by
  unfold remove
  rw [Table.mem_deleteWhere_iff, decide_eq_false_iff_not]

/- Removing an expired entry changes no live one. -/
theorem liveEntry_remove_expired
    {expired : MemoryEntry}
    (hMember : expired ∈ s.entries)
    (hExpired : ¬ now < expired.expiresAt) :
    (s.remove expired).liveEntry key now =
      s.liveEntry key now := by
  apply liveEntry_congr
  intro entry _ hLive
  rw [mem_remove_iff]
  constructor
  · exact And.left
  · intro hEntry
    refine ⟨hEntry, ?_⟩
    intro hKey
    apply hExpired
    rw [← s.keysUnique.eq_of_key_eq hEntry hMember hKey]
    exact hLive

theorem liveEntry_remove_of_ne
    {removed : MemoryEntry}
    (hKey : removed.key ≠ key) :
    (s.remove removed).liveEntry key now =
      s.liveEntry key now := by
  apply liveEntry_congr
  intro entry hEntry _
  rw [mem_remove_iff, hEntry]
  exact and_iff_left hKey.symm

theorem liveEntry_getLiveEntry_later
    (hLater : now ≤ later) :
    (s.getLiveEntry other now).1.liveEntry key later =
      s.liveEntry key later := by
  unfold getLiveEntry
  split
  · rfl
  · next entry hFound =>
      have hMember := (find_some_iff.mp hFound).1
      split
      · rfl
      · next hExpired =>
          apply liveEntry_remove_expired hMember
          intro hLive
          exact hExpired (Int.lt_of_le_of_lt hLater hLive)

theorem liveEntry_getLiveEntry :
    (s.getLiveEntry other now).1.liveEntry key now =
      s.liveEntry key now :=
  liveEntry_getLiveEntry_later (Int.le_refl now)

theorem getLiveEntry_snd :
    (s.getLiveEntry other now).2 =
      s.liveEntry other now := by
  unfold getLiveEntry liveEntry
  split
  · next hNone =>
      rw [hNone]
      rfl
  · next entry hFound =>
      rw [hFound]
      split
      · next hLive => simp [Option.filter, hLive]
      · next hExpired => simp [Option.filter, hExpired]

/- Reclaiming removes stored entries, one after another. -/
theorem reclaimExpired_induction
    {holds : MemoryStore → Prop}
    (hRemove :
      ∀ (store : MemoryStore) (entry : MemoryEntry),
        entry ∈ store.entries →
          ¬ now < entry.expiresAt →
            holds store → holds (store.remove entry))
    (hStart : holds s) :
    holds (s.reclaimExpired now) := by
  have hFold :
      ∀ (pending : List MemoryEntry) (store : MemoryStore),
        Table.UniqueBy MemoryEntry.key pending →
          pending ⊆ store.entries →
            holds store →
              holds
                (pending.foldl
                  (fun store entry =>
                    if now < entry.expiresAt then
                      store
                    else
                      store.remove entry)
                  store) := by
    intro pending
    induction pending with
    | nil =>
        intro store _ _ hHolds
        exact hHolds
    | cons entry rest ih =>
        intro store hUnique hPending hHolds
        have hMember := hPending List.mem_cons_self
        have hRest : rest ⊆ store.entries :=
          fun other hOther =>
            hPending (List.mem_cons_of_mem _ hOther)
        rcases List.nodup_cons.mp hUnique with
          ⟨hFresh, hRestUnique⟩
        rw [List.foldl_cons]
        by_cases hLive : now < entry.expiresAt
        · rw [if_pos hLive]
          exact ih store hRestUnique hRest hHolds
        · rw [if_neg hLive]
          apply ih _ hRestUnique
          · intro other hOther
            refine mem_remove_iff.mpr ⟨hRest hOther, ?_⟩
            intro hKey
            exact hFresh (hKey ▸ List.mem_map_of_mem hOther)
          · exact hRemove store entry hMember hLive hHolds
  exact hFold s.entries s s.keysUnique (List.Subset.refl _) hStart

/- What is live then or later is kept. -/
theorem liveEntry_reclaimExpired_later
    (hLater : now ≤ later) :
    (s.reclaimExpired now).liveEntry key later =
      s.liveEntry key later := by
  refine
    @reclaimExpired_induction s now
      (fun store =>
        store.liveEntry key later = s.liveEntry key later)
      ?_ ?_
  · intro store entry hMember hExpired hSame
    rw [liveEntry_remove_expired hMember, hSame]
    intro hLive
    exact hExpired (Int.lt_of_le_of_lt hLater hLive)
  · rfl

theorem mem_put_iff
    {entry : Entry}
    {written : MemoryEntry} :
    written ∈ (s.put entry now).entries ↔
      written =
          { key := entry.key
            payload := entry.payload
            expiresAt := now + entry.lifetime
            sizeBytes := entrySizeBytes entry } ∨
        written ∈ s.entries ∧ written.key ≠ entry.key := by
  unfold put
  rw [List.mem_cons, Table.mem_deleteWhere_iff,
    decide_eq_false_iff_not]

theorem liveEntry_put_later
    {entry : Entry} :
    (s.put entry now).liveEntry entry.key later =
      (some
          { key := entry.key
            payload := entry.payload
            expiresAt := now + entry.lifetime
            sizeBytes := entrySizeBytes entry }).filter
        fun stored : MemoryEntry =>
          later < stored.expiresAt := by
  unfold liveEntry
  congr 1
  exact find_some_iff.mpr ⟨mem_put_iff.mpr (Or.inl rfl), rfl⟩

theorem liveEntry_put_of_ne
    {entry : Entry}
    (hKey : entry.key ≠ key) :
    (s.put entry now).liveEntry key later =
      s.liveEntry key later := by
  apply liveEntry_congr
  intro other hOther _
  rw [mem_put_iff]
  constructor
  · rintro (rfl | ⟨hMember, _⟩)
    · exact absurd hOther hKey
    · exact hMember
  · intro hMember
    rw [hOther]
    exact Or.inr ⟨hMember, hKey.symm⟩

/-
  What a write leaves: its own entry, or all as it was, and
  the other keys as they were.
-/
theorem liveEntry_store_later
    (s : MemoryStore)
    {now later : Time}
    (hLater : now ≤ later)
    (entry : Entry) :
    ((s.store entry now).1.liveEntry entry.key later =
        match (s.store entry now).2 with
        | .error _ => s.liveEntry entry.key later
        | .ok _ =>
            (some
                { key := entry.key
                  payload := entry.payload
                  expiresAt := now + entry.lifetime
                  sizeBytes := entrySizeBytes entry }).filter
              fun stored : MemoryEntry =>
                later < stored.expiresAt) ∧
      ∀ other, entry.key ≠ other →
        (s.store entry now).1.liveEntry other later =
          s.liveEntry other later := by
  unfold store
  split
  · simp only
    split
    · exact
        ⟨liveEntry_reclaimExpired_later hLater,
          fun _ _ => liveEntry_reclaimExpired_later hLater⟩
    · refine ⟨liveEntry_put_later, ?_⟩
      intro other hKey
      rw [liveEntry_put_of_ne hKey,
        liveEntry_reclaimExpired_later hLater]
  · exact
      ⟨liveEntry_put_later,
        fun _ hKey => liveEntry_put_of_ne hKey⟩

theorem liveEntry_store
    (s : MemoryStore)
    (now : Time)
    {entry : Entry}
    (hLifetime : 0 < entry.lifetime) :
    ((s.store entry now).1.liveEntry entry.key now =
        match (s.store entry now).2 with
        | .error _ => s.liveEntry entry.key now
        | .ok _ =>
            some
              { key := entry.key
                payload := entry.payload
                expiresAt := now + entry.lifetime
                sizeBytes := entrySizeBytes entry }) ∧
      ∀ other, entry.key ≠ other →
        (s.store entry now).1.liveEntry other now =
          s.liveEntry other now := by
  rcases s.liveEntry_store_later (Int.le_refl now) entry with
    ⟨hSelf, hOthers⟩
  refine ⟨hSelf.trans ?_, hOthers⟩
  have hLive : now < now + entry.lifetime :=
    Int.lt_add_of_pos_right now hLifetime
  simp only [Option.filter_some, hLive, decide_true, if_true]

theorem liveEntry_delete
    (s : MemoryStore)
    (now : Time)
    (deleted : String) :
    (s.delete false deleted).1.liveEntry deleted now = none ∧
      ∀ other, deleted ≠ other →
        (s.delete false deleted).1.liveEntry other now =
          s.liveEntry other now := by
  unfold delete
  rw [if_neg Bool.false_ne_true]
  split
  · next hNone =>
      refine ⟨?_, fun _ _ => rfl⟩
      unfold liveEntry
      rw [hNone]
      rfl
  · next entry hFound =>
      have hKey := (find_some_iff.mp hFound).2
      constructor
      · rw [Option.eq_none_iff_forall_ne_some]
        intro left hLeft
        rw [liveEntry_some_iff, mem_remove_iff] at hLeft
        exact hLeft.1.2 (hLeft.2.1.trans hKey.symm)
      · intro other hOther
        apply liveEntry_remove_of_ne
        rw [hKey]
        exact hOther

end MemoryStore

end Cache

end Databasus
