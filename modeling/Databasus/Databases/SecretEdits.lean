import Databasus.Databases.UpdateDatabase

/-
  Which secrets survive updates that run at the same time.

  A call writes the secrets that its request leaves out as
  they were when it read them.  So an edit that another call
  commits in between is lost, and only then: a call that
  writes over what it has read keeps every secret that its
  merge is meant to keep.

  Main declarations:
    * `storedSecret`
    * `KeepsLeftOut`, `IsUntouched`
    * `Holds`, `holds_run`
    * `left_out_kept_iff_untouched`
-/

------------------------------------------------------------
-- Secrets in Columns
------------------------------------------------------------

namespace Databasus

namespace Databases

open Crypto

variable {keys : Keys}
variable {text : String}
variable {settings columns : Settings}

/- A secret and its stored form stand for the same. -/
theorem reveal_encryptSecret
    {random : RandomSource}
    {secret stored : Bytes}
    (hOpens : ∀ key, (keys.newGCM key).OpensSealed)
    (hStored :
      keys.encryptSecret random text secret = .ok stored) :
    keys.reveal stored = keys.reveal secret := by
  unfold Keys.encryptSecret at hStored
  cases hMarked : isEncrypted secret with
  | true =>
      rw [encrypt_of_isEncrypted keys.newGCM keys.encryptor
        random hMarked] at hStored
      cases hStored
      rfl
  | false =>
      by_cases hEmpty : secret = []
      · rw [hEmpty, encrypt_nil] at hStored
        cases hStored
        rw [hEmpty]
      · have hPlain : keys.reveal secret = .value secret := by
          unfold Keys.reveal FieldEncryptor.decrypt
          exact if_pos (Or.inr hMarked)
        rcases
          encrypt_of_not_isEncrypted keys.newGCM keys.encryptor
            random hEmpty hMarked with
          ⟨_, hFailed⟩ | ⟨nonce, hNonce, hSealed⟩
        · rw [hFailed] at hStored
          cases hStored
        · rw [hSealed] at hStored
          cases hStored
          rw [hPlain]
          exact
            decrypt_sealedText keys.encryptor
              (hOpens keys.encryptor.key) hNonce secret

/- Steps in a row succeed with what each of them gives. -/
theorem bind_eq_ok_iff
    {α β : Type}
    {result : Except UpdateError α}
    {next : α → Except UpdateError β}
    {value : β} :
    (result >>= next) = .ok value ↔
      ∃ first, result = .ok first ∧ next first = .ok value := by
  constructor
  · intro hBoth
    cases result with
    | error error => cases hBoth
    | ok first => exact ⟨first, rfl, hBoth⟩
  · rintro ⟨first, rfl, hNext⟩
    exact hNext

variable {random : SecretField → RandomSource}

theorem reveal_newSSHTunnelColumns
    {settings columns : SSHTunnelSettings}
    (hOpens : ∀ key, (keys.newGCM key).OpensSealed)
    (hColumns :
      newSSHTunnelColumns keys random settings =
        .ok columns) :
    keys.reveal columns.password =
        keys.reveal settings.password ∧
      keys.reveal columns.privateKey =
          keys.reveal settings.privateKey ∧
        keys.reveal columns.privateKeyPassphrase =
          keys.reveal settings.privateKeyPassphrase := by
  unfold newSSHTunnelColumns at hColumns
  rcases bind_eq_ok_iff.mp hColumns with
    ⟨password, hPassword, hColumns⟩
  rcases bind_eq_ok_iff.mp hColumns with
    ⟨privateKey, hPrivateKey, hColumns⟩
  rcases bind_eq_ok_iff.mp hColumns with
    ⟨passphrase, hPassphrase, hColumns⟩
  cases hColumns
  refine ⟨?_, ?_, ?_⟩
  · exact reveal_encryptSecret hOpens hPassword
  · exact reveal_encryptSecret hOpens hPrivateKey
  · exact reveal_encryptSecret hOpens hPassphrase

/- The row stands for the server's secrets. -/
def StandsForServer
    (keys : Keys)
    (columns settings : ServerSettings) : Prop :=
  keys.reveal columns.password =
      keys.reveal settings.password ∧
    keys.reveal columns.sshTunnel.password =
        keys.reveal settings.sshTunnel.password ∧
      keys.reveal columns.sshTunnel.privateKey =
          keys.reveal settings.sshTunnel.privateKey ∧
        keys.reveal columns.sshTunnel.privateKeyPassphrase =
          keys.reveal settings.sshTunnel.privateKeyPassphrase

theorem standsFor_newServerColumns
    {settings columns : ServerSettings}
    (hOpens : ∀ key, (keys.newGCM key).OpensSealed)
    (hColumns :
      newServerColumns keys random text settings =
        .ok columns) :
    StandsForServer keys columns settings := by
  unfold newServerColumns at hColumns
  rcases bind_eq_ok_iff.mp hColumns with
    ⟨password, hPassword, hColumns⟩
  rcases bind_eq_ok_iff.mp hColumns with
    ⟨sshTunnel, hTunnel, hColumns⟩
  cases hColumns
  exact
    ⟨reveal_encryptSecret hOpens hPassword,
      reveal_newSSHTunnelColumns hOpens hTunnel⟩

theorem standsFor_newPostgresqlColumns
    {settings : ServerSettings}
    {tls : PostgresqlTLSSettings}
    {columns : ServerSettings × PostgresqlTLSSettings}
    (hOpens : ∀ key, (keys.newGCM key).OpensSealed)
    (hColumns :
      newPostgresqlColumns keys random settings tls =
        .ok columns) :
    StandsForServer keys columns.1 settings ∧
      keys.reveal columns.2.clientKey =
        keys.reveal tls.clientKey := by
  unfold newPostgresqlColumns at hColumns
  rcases bind_eq_ok_iff.mp hColumns with
    ⟨password, hPassword, hColumns⟩
  rcases bind_eq_ok_iff.mp hColumns with
    ⟨tlsColumns, hTLS, hColumns⟩
  rcases bind_eq_ok_iff.mp hColumns with
    ⟨sshTunnel, hTunnel, hColumns⟩
  cases hColumns
  unfold newPostgresqlTLSColumns at hTLS
  rcases bind_eq_ok_iff.mp hTLS with
    ⟨clientKey, hClientKey, hTLS⟩
  cases hTLS
  exact
    ⟨⟨reveal_encryptSecret hOpens hPassword,
        reveal_newSSHTunnelColumns hOpens hTunnel⟩,
      reveal_encryptSecret hOpens hClientKey⟩

/- The row of a provider stands for all of its secrets. -/
theorem reveal_toColumns
    (hOpens : ∀ key, (keys.newGCM key).OpensSealed)
    (hColumns :
      settings.toColumns keys random = .ok columns)
    (field : SecretField) :
    keys.reveal (columns.secret field) =
      keys.reveal (settings.secret field) := by
  have hBoth :
      StandsForServer keys columns.server settings.server ∧
        keys.reveal (columns.secret .clientKey) =
          keys.reveal (settings.secret .clientKey) := by
    unfold Settings.toColumns at hColumns
    split at hColumns
    · rcases bind_eq_ok_iff.mp hColumns with
        ⟨written, hWritten, hColumns⟩
      cases hColumns
      exact standsFor_newPostgresqlColumns hOpens hWritten
    · rcases bind_eq_ok_iff.mp hColumns with
        ⟨written, hWritten, hColumns⟩
      cases hColumns
      exact standsFor_newPostgresqlColumns hOpens hWritten
    · rcases bind_eq_ok_iff.mp hColumns with
        ⟨written, hWritten, hColumns⟩
      cases hColumns
      exact ⟨standsFor_newServerColumns hOpens hWritten, rfl⟩
    · rcases bind_eq_ok_iff.mp hColumns with
        ⟨written, hWritten, hColumns⟩
      cases hColumns
      exact ⟨standsFor_newServerColumns hOpens hWritten, rfl⟩
    · rcases bind_eq_ok_iff.mp hColumns with
        ⟨written, hWritten, hColumns⟩
      cases hColumns
      exact ⟨standsFor_newServerColumns hOpens hWritten, rfl⟩
  rcases hBoth with
    ⟨⟨hPassword, hSSHPassword, hPrivateKey, hPassphrase⟩,
      hClientKey⟩
  cases field with
  | password => exact hPassword
  | clientKey => exact hClientKey
  | sshPassword => exact hSSHPassword
  | sshPrivateKey => exact hPrivateKey
  | sshPrivateKeyPassphrase => exact hPassphrase

theorem getType_toColumns
    (hColumns :
      settings.toColumns keys random = .ok columns) :
    columns.getType = settings.getType := by
  unfold Settings.toColumns at hColumns
  split at hColumns <;>
    rcases bind_eq_ok_iff.mp hColumns with
      ⟨_, _, hColumns⟩ <;>
    cases hColumns <;> rfl

/- A load decrypts certificates, and no secret. -/
theorem secret_load
    {columns settings : Settings}
    (hLoaded : columns.load keys = .ok settings)
    (field : SecretField) :
    settings.secret field = columns.secret field := by
  have hTLS :
      ∀ {tls loaded : PostgresqlTLSSettings},
        tls.toSettings keys = .ok loaded →
          loaded.clientKey = tls.clientKey := by
    intro tls loaded hTLS
    unfold PostgresqlTLSSettings.toSettings at hTLS
    rcases bind_eq_ok_iff.mp hTLS with ⟨_, _, hTLS⟩
    rcases bind_eq_ok_iff.mp hTLS with ⟨_, _, hTLS⟩
    cases hTLS
    rfl
  unfold Settings.load at hLoaded
  split at hLoaded
  · rcases bind_eq_ok_iff.mp hLoaded with
      ⟨tls, hSome, hLoaded⟩
    cases hLoaded
    cases field with
    | clientKey => exact hTLS hSome
    | _ => rfl
  · rcases bind_eq_ok_iff.mp hLoaded with
      ⟨tls, hSome, hLoaded⟩
    cases hLoaded
    cases field with
    | clientKey => exact hTLS hSome
    | _ => rfl
  · cases hLoaded
    rfl

theorem server_load
    {columns settings : Settings}
    (hLoaded : columns.load keys = .ok settings) :
    ∀ incoming : Settings,
      settings.server = columns.server ∧
        isAddressChanged incoming settings =
          isAddressChanged incoming columns := by
  intro incoming
  unfold Settings.load at hLoaded
  split at hLoaded
  · rcases bind_eq_ok_iff.mp hLoaded with ⟨_, _, hLoaded⟩
    cases hLoaded
    cases incoming <;> exact ⟨rfl, rfl⟩
  · rcases bind_eq_ok_iff.mp hLoaded with ⟨_, _, hLoaded⟩
    cases hLoaded
    cases incoming <;> exact ⟨rfl, rfl⟩
  · cases hLoaded
    exact ⟨rfl, rfl⟩

/- The stored secret in the place of one that is left out. -/
def leftOutSecret
    (incoming stored : Settings)
    (field : SecretField) : Bytes :=
  if keepsSecret incoming stored field then
    stored.secret field
  else
    []

theorem leftOutSecret_load
    {columns settings : Settings}
    (hLoaded : columns.load keys = .ok settings)
    (incoming : Settings)
    (field : SecretField) :
    leftOutSecret incoming settings field =
      leftOutSecret incoming columns field := by
  rcases server_load hLoaded incoming with
    ⟨hServer, hAddress⟩
  have hKeeps :
      keepsSecret incoming settings field =
        keepsSecret incoming columns field := by
    unfold keepsSecret
    rw [hServer, hAddress]
  unfold leftOutSecret
  rw [hKeeps, secret_load hLoaded]

------------------------------------------------------------
-- Stored Secrets
------------------------------------------------------------

open Foundation

variable {s written : DatabasesState}
variable {found : DatabaseRow}

def typeOf
    (s : DatabasesState)
    (databaseID : Uuid) : Option DatabaseType :=
  (Table.lookup DatabaseRow.id databaseID s.databases).map
    DatabaseRow.type

/- The row of a database in the table of its provider. -/
def storedSettings
    (s : DatabasesState)
    (databaseID : Uuid) : Option Settings :=
  (typeOf s databaseID).bind fun type =>
    (Table.lookup SettingsRow.key (databaseID, type)
      s.settingsRows).map SettingsRow.settings

/- What a stored secret of the database stands for. -/
def storedSecret
    (keys : Keys)
    (s : DatabasesState)
    (databaseID : Uuid)
    (field : SecretField) : Option Crypto.FieldOutcome :=
  (storedSettings s databaseID).map fun settings =>
    keys.reveal (settings.secret field)

theorem getAuthorized_eq_ok
    {authorize : Uuid → Authorization}
    {databaseID : Uuid}
    (hFound :
      getAuthorized s authorize databaseID = .ok found) :
    found.id = databaseID ∧
      typeOf s databaseID = some found.type := by
  unfold getAuthorized at hFound
  cases hLookup :
      Table.lookup DatabaseRow.id databaseID s.databases with
  | none =>
      rw [hLookup] at hFound
      cases hFound
  | some row =>
      rw [hLookup] at hFound
      dsimp only at hFound
      split at hFound
      · cases hFound
        refine ⟨(Table.lookup_some hLookup).2, ?_⟩
        unfold typeOf
        rw [hLookup]
        rfl
      · cases hFound
      · cases hFound

/- What is loaded has the secrets of the stored row. -/
theorem loadOneWithSettings_eq_ok
    {settings : Settings}
    (hType : typeOf s found.id = some found.type)
    (hLoaded :
      loadOneWithSettings keys s found = .ok settings) :
    ∃ columns, storedSettings s found.id = some columns ∧
      columns.load keys = .ok settings := by
  unfold loadOneWithSettings at hLoaded
  cases hLookup :
      Table.lookup SettingsRow.key (found.id, found.type)
        s.settingsRows with
  | none =>
      rw [hLookup] at hLoaded
      cases hLoaded
  | some row =>
      rw [hLookup] at hLoaded
      refine ⟨row.settings, ?_, hLoaded⟩
      unfold storedSettings
      rw [hType, Option.bind_some, hLookup]
      rfl

theorem typeOf_updateName
    (databaseID otherID : Uuid)
    (name : String)
    (databases : List DatabaseRow) :
    (Table.lookup DatabaseRow.id otherID
        (updateName databases databaseID name)).map
          DatabaseRow.type =
      (Table.lookup DatabaseRow.id otherID databases).map
        DatabaseRow.type := by
  have hKeeps :
      ∀ row : DatabaseRow,
        ({ row with name := name }).id = row.id :=
    fun _ => rfl
  unfold updateName
  rw [Table.lookup_updateWhere hKeeps, Option.map_map]
  congr 1
  funext row
  by_cases hSelects : row.id = databaseID
  · simp [hSelects]
  · simp [hSelects]

/- An upserted row is what its key finds from then on. -/
theorem lookup_upsertSettings
    (rows : List SettingsRow)
    (row : SettingsRow) :
    Table.lookup SettingsRow.key row.key
        (upsertSettings rows row) = some row := by
  unfold upsertSettings
  cases hLookup :
      Table.lookup SettingsRow.key row.key rows with
  | some old =>
      rw [if_pos Option.isSome_some, Table.lookup_replaced,
        hLookup]
      rfl
  | none =>
      rw [if_neg Bool.noConfusion]
      unfold Table.lookup at hLookup ⊢
      rw [List.find?_append, hLookup]
      simp

theorem attachNotifiers_eq_ok
    {database : DatabaseRow}
    {notifierIDs : List Uuid}
    {attached : DatabasesState}
    (hAttached :
      attachNotifiers s database notifierIDs =
        .ok attached) :
    attached.databases = s.databases ∧
      attached.settingsRows = s.settingsRows := by
  unfold attachNotifiers at hAttached
  dsimp only at hAttached
  split at hAttached
  · cases hAttached
    exact ⟨rfl, rfl⟩
  · cases hAttached

/-
  A write that commits stores the columns of its settings,
  and changes the type of no database.
-/
theorem writeLocked_eq_ok
    {answers : WriteAnswers}
    {change : DatabaseChange}
    {detected : Settings}
    (hType :
      typeOf s change.databaseID = some detected.getType)
    (hWritten :
      writeLocked keys s answers change detected =
        .ok written) :
    (∃ current, storedSettings s change.databaseID =
        some current) ∧
      (∃ columns,
        detected.toColumns keys answers.random = .ok columns ∧
          storedSettings written change.databaseID =
            some columns) ∧
      ∀ databaseID,
        typeOf written databaseID = typeOf s databaseID := by
  unfold writeLocked at hWritten
  rcases bind_eq_ok_iff.mp hWritten with
    ⟨locked, hLocked, hWritten⟩
  rcases bind_eq_ok_iff.mp hWritten with
    ⟨lockedSettings, hLoaded, hWritten⟩
  rcases bind_eq_ok_iff.mp hWritten with
    ⟨columns, hColumns, hWritten⟩
  rcases bind_eq_ok_iff.mp hWritten with
    ⟨attached, hAttached, hWritten⟩
  rcases getAuthorized_eq_ok hLocked with ⟨hID, hLockedType⟩
  have hSameType : locked.type = detected.getType := by
    rw [hType] at hLockedType
    exact (Option.some.inj hLockedType).symm
  rw [← hID] at hLockedType
  rcases loadOneWithSettings_eq_ok hLockedType hLoaded with
    ⟨current, hCurrent, _⟩
  rcases attachNotifiers_eq_ok hAttached with
    ⟨hDatabases, hRows⟩
  have hAll : attached = written := by
    split at hWritten
    · cases hWritten
    · split at hWritten
      · cases hWritten
      · rcases bind_eq_ok_iff.mp hWritten with
          ⟨_, _, hWritten⟩
        exact Except.ok.inj hWritten
  subst hAll
  have hTypes :
      ∀ databaseID,
        typeOf attached databaseID = typeOf s databaseID := by
    intro databaseID
    unfold typeOf
    rw [hDatabases]
    exact typeOf_updateName locked.id databaseID change.name _
  refine ⟨⟨current, hID ▸ hCurrent⟩,
    ⟨columns, hColumns, ?_⟩, hTypes⟩
  unfold storedSettings
  rw [hTypes, ← hID, hLockedType, Option.bind_some, hRows,
    hSameType, ← getType_toColumns hColumns]
  exact
    congrArg (Option.map SettingsRow.settings)
      (lookup_upsertSettings s.settingsRows
        { databaseID := locked.id, settings := columns })

------------------------------------------------------------
-- Calls in Progress
------------------------------------------------------------

variable {rules : HostRules}
variable {call : Call}

/- What a call holds comes from its request and its read. -/
def Holds
    (s : DatabasesState)
    (call : Call) : Prop :=
  let incoming := call.change.settings
  match call.phase with
  | .authorized found =>
      found.id = call.change.databaseID ∧
        typeOf s call.change.databaseID = some found.type
  | .merged stored merged =>
      typeOf s call.change.databaseID =
          some incoming.getType ∧
        mergeStoredSettings incoming stored = some merged
  | .detected stored detected =>
      typeOf s call.change.databaseID =
          some incoming.getType ∧
        ∃ merged report,
          mergeStoredSettings incoming stored = some merged ∧
            detected = detect report merged
  | _ => True

theorem Holds.of_typeOf_eq
    (hHolds : Holds s call)
    (hTypes :
      ∀ databaseID,
        typeOf written databaseID = typeOf s databaseID) :
    Holds written call := by
  unfold Holds at hHolds ⊢
  rw [hTypes]
  exact hHolds

theorem holds_requested
    (hPhase : call.phase = .requested) :
    Holds s call := by
  unfold Holds
  rw [hPhase]
  trivial

theorem mergeAndValidate_eq_ok
    {storedType : DatabaseType}
    {stored incoming merged : Settings}
    (hMerged :
      mergeAndValidate rules storedType stored incoming =
        .ok merged) :
    storedType = incoming.getType ∧
      mergeStoredSettings incoming stored = some merged := by
  unfold mergeAndValidate at hMerged
  split at hMerged
  · cases hMerged
  · rename_i hType
    refine ⟨(not_not.mp hType).symm, ?_⟩
    split at hMerged
    · cases hMerged
    · rename_i filled hFilled
      split at hMerged
      · cases hMerged
      · cases hMerged
        exact hFilled

theorem connectAndDetect_eq_ok
    {answer : Except String ServerReport}
    {settings detected : Settings}
    (hDetected :
      connectAndDetect keys answer settings = .ok detected) :
    ∃ report, detected = detect report settings := by
  unfold connectAndDetect at hDetected
  rcases bind_eq_ok_iff.mp hDetected with
    ⟨_, _, hDetected⟩
  cases answer with
  | error reason => cases hDetected
  | ok report => exact ⟨report, (Except.ok.inj hDetected).symm⟩

theorem getType_of_detected
    {stored merged incoming : Settings}
    (report : ServerReport)
    (hMerged :
      mergeStoredSettings incoming stored = some merged) :
    (detect report merged).getType = incoming.getType :=
  (getType_detect report merged).trans
    (getType_mergeStoredSettings hMerged)

/- A result goes on or ends the call. -/
theorem ofResult_cases
    {α : Type}
    (result : Except UpdateError α)
    (goOn : α → CallPhase) :
    (∃ value, result = .ok value ∧
        CallPhase.ofResult result goOn = goOn value) ∨
      ∃ error,
        CallPhase.ofResult result goOn = .refused error := by
  cases result with
  | ok value => exact Or.inl ⟨value, rfl, rfl⟩
  | error error => exact Or.inr ⟨error, rfl⟩

theorem holds_refused
    (error : UpdateError) :
    Holds s { call with phase := .refused error } :=
  trivial

/- Every step of a call keeps what it holds. -/
theorem holds_advance
    (keys : Keys)
    (rules : HostRules)
    (hHolds : Holds s call)
    (event : CallEvent) :
    (∀ databaseID,
        typeOf (call.advance keys rules s event).1
            databaseID =
          typeOf s databaseID) ∧
      Holds (call.advance keys rules s event).1
        { call with
          phase := (call.advance keys rules s event).2 } := by
  unfold Call.advance
  split
  · rename_i authorize hPhase
    refine ⟨fun _ => rfl, ?_⟩
    dsimp only
    rcases ofResult_cases (validateName call.change.name) _
      with ⟨_, _, hGoOn⟩ | ⟨error, hEnds⟩
    · rw [hGoOn]
      rcases ofResult_cases
          (getAuthorized s authorize call.change.databaseID)
          CallPhase.authorized with
        ⟨found, hFound, hGoOn⟩ | ⟨error, hEnds⟩
      · rw [hGoOn]
        exact getAuthorized_eq_ok hFound
      · rw [hEnds]
        exact holds_refused error
    · rw [hEnds]
      exact holds_refused error
  · rename_i found hPhase
    refine ⟨fun _ => rfl, ?_⟩
    unfold Holds at hHolds
    rw [hPhase] at hHolds
    unfold readAndMerge
    dsimp only
    rcases ofResult_cases (loadOneWithSettings keys s found) _
      with ⟨stored, _, hGoOn⟩ | ⟨error, hEnds⟩
    · rw [hGoOn]
      rcases ofResult_cases
          (mergeAndValidate rules found.type stored
            call.change.settings)
          fun merged => CallPhase.merged stored merged with
        ⟨merged, hMerged, hGoOn⟩ | ⟨error, hEnds⟩
      · rw [hGoOn]
        rcases mergeAndValidate_eq_ok hMerged with
          ⟨hType, hFilled⟩
        exact ⟨hType ▸ hHolds.2, hFilled⟩
      · rw [hEnds]
        exact holds_refused error
    · rw [hEnds]
      exact holds_refused error
  · rename_i stored merged answer hPhase
    refine ⟨fun _ => rfl, ?_⟩
    unfold Holds at hHolds
    rw [hPhase] at hHolds
    dsimp only
    rcases ofResult_cases
        (connectAndDetect keys answer merged)
        fun detected => CallPhase.detected stored detected with
      ⟨detected, hDetected, hGoOn⟩ | ⟨error, hEnds⟩
    · rw [hGoOn]
      rcases connectAndDetect_eq_ok hDetected with
        ⟨report, hReport⟩
      exact ⟨hHolds.1, merged, report, hHolds.2, hReport⟩
    · rw [hEnds]
      exact holds_refused error
  · rename_i stored detected answers hPhase
    unfold Holds at hHolds
    rw [hPhase] at hHolds
    rcases hHolds with
      ⟨hType, merged, report, hMerged, rfl⟩
    split
    · rename_i after hAfter
      rw [← getType_of_detected report hMerged]
        at hType
      exact ⟨(writeLocked_eq_ok hType hAfter).2.2, trivial⟩
    · exact ⟨fun _ => rfl, trivial⟩
  · exact ⟨fun _ => rfl, hHolds⟩

/- In a run, every call holds what it should. -/
theorem holds_run
    (keys : Keys)
    (rules : HostRules)
    {start : Calls}
    (hFresh :
      ∀ call ∈ start.calls, call.phase = .requested)
    (moves : List (Nat × CallEvent)) :
    ∀ call ∈ (start.run keys rules moves).calls,
      Holds (start.run keys rules moves).state call := by
  induction moves using List.reverseRecOn with
  | nil =>
      intro call hCall
      exact holds_requested (hFresh call hCall)
  | append_singleton moves move ih =>
      unfold Calls.run at ih ⊢
      rw [List.foldl_concat]
      generalize
        moves.foldl (Calls.step keys rules) start = c at ih ⊢
      unfold Calls.step
      cases hMoving : c.calls[move.1]? with
      | none => exact ih
      | some moving =>
          have hAdvance :=
            holds_advance keys rules
              (ih moving (List.mem_of_getElem? hMoving))
              move.2
          intro call hCall
          rcases List.mem_or_eq_of_mem_set hCall with
            hOther | rfl
          · exact (ih call hOther).of_typeOf_eq hAdvance.1
          · exact hAdvance.2

------------------------------------------------------------
-- The Read of a Call
------------------------------------------------------------

variable {start : Calls}
variable {moves : List (Nat × CallEvent)}

/- The call at the index reads the settings next. -/
def IsBeforeRead
    (c : Calls)
    (index : Nat) : Prop :=
  ∃ call found, c.calls[index]? = some call ∧
    call.phase = .authorized found

/- The settings that a call holds are those of its read. -/
def HoldsRead
    (keys : Keys)
    (s : DatabasesState)
    (call : Call) : Prop :=
  match call.phase with
  | .requested => False
  | .authorized _ => False
  | .merged stored _ =>
      ∃ read,
        storedSettings s call.change.databaseID = some read ∧
          read.load keys = .ok stored
  | .detected stored _ =>
      ∃ read,
        storedSettings s call.change.databaseID = some read ∧
          read.load keys = .ok stored
  | _ => True

theorem calls_step
    {c : Calls}
    (move : Nat × CallEvent)
    (index : Nat) :
    (c.step keys rules move).calls[index]? =
      if move.1 = index then
        (c.calls[index]?).map fun call =>
          { call with
            phase :=
              (call.advance keys rules c.state move.2).2 }
      else
        c.calls[index]? := by
  unfold Calls.step
  by_cases hIndex : move.1 = index
  · rw [if_pos hIndex, hIndex]
    cases hCall : c.calls[index]? with
    | none =>
        rw [hCall]
        rfl
    | some call =>
        rw [List.getElem?_set_self
          (List.getElem?_eq_some_iff.mp hCall).1]
        rfl
  · rw [if_neg hIndex]
    cases c.calls[move.1]? with
    | none => rfl
    | some call => exact List.getElem?_set_ne hIndex

theorem run_concat
    (move : Nat × CallEvent) :
    start.run keys rules (moves ++ [move]) =
      (start.run keys rules moves).step keys rules move := by
  unfold Calls.run
  rw [List.foldl_concat]

/- A call goes on with the settings that it has read. -/
theorem HoldsRead.advance
    {read s : DatabasesState}
    (hRead : HoldsRead keys read call)
    (event : CallEvent) :
    HoldsRead keys read
      { call with
        phase := (call.advance keys rules s event).2 } := by
  unfold Call.advance
  split
  · rename_i hPhase
    unfold HoldsRead at hRead
    rw [hPhase] at hRead
    exact hRead.elim
  · rename_i hPhase
    unfold HoldsRead at hRead
    rw [hPhase] at hRead
    exact hRead.elim
  · rename_i stored merged answer hPhase
    unfold HoldsRead at hRead
    rw [hPhase] at hRead
    dsimp only
    rcases ofResult_cases
        (connectAndDetect keys answer merged)
        fun detected => CallPhase.detected stored detected with
      ⟨detected, _, hGoOn⟩ | ⟨error, hEnds⟩
    · rw [hGoOn]
      exact hRead
    · rw [hEnds]
      trivial
  · split <;> trivial
  · exact hRead

/- The read itself, as the call goes on from it. -/
theorem holdsRead_readAndMerge
    {s : DatabasesState}
    (hHolds : Holds s call)
    (hPhase : call.phase = .authorized found) :
    HoldsRead keys s
      { call with
        phase := readAndMerge keys rules s call found } := by
  unfold Holds at hHolds
  rw [hPhase] at hHolds
  rcases hHolds with ⟨hID, hType⟩
  rw [← hID] at hType
  unfold readAndMerge
  rcases ofResult_cases (loadOneWithSettings keys s found) _
    with ⟨stored, hLoaded, hGoOn⟩ | ⟨error, hEnds⟩
  · rw [hGoOn]
    rcases loadOneWithSettings_eq_ok hType hLoaded with
      ⟨read, hRead, hStored⟩
    rcases ofResult_cases
        (mergeAndValidate rules found.type stored
          call.change.settings)
        fun merged => CallPhase.merged stored merged with
      ⟨merged, _, hGoOn⟩ | ⟨error, hEnds⟩
    · rw [hGoOn]
      exact ⟨read, hID ▸ hRead, hStored⟩
    · rw [hEnds]
      trivial
  · rw [hEnds]
    trivial

theorem advance_merge
    {s : DatabasesState}
    (hPhase : call.phase = .authorized found) :
    call.advance keys rules s .merge =
      (s, readAndMerge keys rules s call found) := by
  unfold Call.advance
  rw [hPhase]

/- After its read, a call holds what was stored then. -/
theorem holdsRead_run
    (hFresh :
      ∀ call ∈ start.calls, call.phase = .requested)
    {first : List (Nat × CallEvent)}
    {index : Nat}
    (hBefore :
      IsBeforeRead (start.run keys rules first) index)
    (middle : List (Nat × CallEvent)) :
    ∀ call,
      (start.run keys rules
            (first ++ (index, .merge) :: middle)).calls[index]? =
          some call →
        HoldsRead keys (start.run keys rules first).state
          call := by
  induction middle using List.reverseRecOn with
  | nil =>
      intro call hCall
      rcases hBefore with ⟨reading, found, hReading, hPhase⟩
      rw [run_concat, calls_step, if_pos rfl, hReading]
        at hCall
      cases hCall
      have hHolds :=
        holds_run keys rules hFresh first
          reading (List.mem_of_getElem? hReading)
      dsimp only
      rw [advance_merge hPhase]
      exact holdsRead_readAndMerge hHolds hPhase
  | append_singleton middle move ih =>
      intro call hCall
      rw [← List.cons_append, ← List.append_assoc, run_concat,
        calls_step] at hCall
      split at hCall
      · rcases Option.map_eq_some_iff.mp hCall with
          ⟨moving, hMoving, rfl⟩
        exact (ih moving hMoving).advance move.2
      · exact ih call hCall

/- The settings that a phase holds from the read. -/
def CallPhase.stored : CallPhase → Option Settings
  | .merged stored _ => some stored
  | .detected stored _ => some stored
  | _ => none

/- Settings come to a call by its read alone. -/
theorem stored_advance
    {s : DatabasesState}
    {event : CallEvent}
    (hStored :
      ((call.advance keys rules s event).2.stored).isSome) :
    (event = .merge ∧ ∃ found,
        call.phase = .authorized found) ∨
      call.phase.stored.isSome := by
  unfold Call.advance at hStored
  split at hStored
  · dsimp only at hStored
    rcases ofResult_cases (validateName call.change.name) _
      with ⟨_, _, hGoOn⟩ | ⟨error, hEnds⟩
    · rw [hGoOn] at hStored
      rcases ofResult_cases (getAuthorized s _
          call.change.databaseID) CallPhase.authorized with
        ⟨_, _, hGoOn⟩ | ⟨error, hEnds⟩
      · rw [hGoOn] at hStored
        cases hStored
      · rw [hEnds] at hStored
        cases hStored
    · rw [hEnds] at hStored
      cases hStored
  · rename_i found hPhase
    exact Or.inl ⟨rfl, found, hPhase⟩
  · rename_i hPhase
    rw [hPhase]
    exact Or.inr rfl
  · rename_i hPhase
    rw [hPhase]
    exact Or.inr rfl
  · exact Or.inr hStored

/- A call that has settings to write has read before. -/
theorem exists_read
    (hFresh :
      ∀ call ∈ start.calls, call.phase = .requested)
    {index : Nat}
    {call : Call}
    (hCall :
      (start.run keys rules moves).calls[index]? = some call)
    (hStored : call.phase.stored.isSome) :
    ∃ first middle,
      moves = first ++ (index, .merge) :: middle ∧
        IsBeforeRead (start.run keys rules first) index := by
  induction moves using List.reverseRecOn generalizing call with
  | nil =>
      rw [hFresh call (List.mem_of_getElem? hCall)] at hStored
      cases hStored
  | append_singleton moves move ih =>
      have hEarlier :
          (∃ first middle,
            moves = first ++ (index, .merge) :: middle ∧
              IsBeforeRead (start.run keys rules first)
                index) →
          ∃ first middle,
            moves ++ [move] =
                first ++ (index, .merge) :: middle ∧
              IsBeforeRead (start.run keys rules first)
                index := by
        rintro ⟨first, middle, rfl, hBefore⟩
        exact ⟨first, middle ++ [move], by simp, hBefore⟩
      rw [run_concat, calls_step] at hCall
      split at hCall
      · rename_i hIndex
        rcases Option.map_eq_some_iff.mp hCall with
          ⟨moving, hMoving, rfl⟩
        rcases stored_advance hStored with
          ⟨hMerge, found, hPhase⟩ | hHeld
        · refine
            ⟨moves, [], ?_, moving, found, hMoving, hPhase⟩
          rw [← hIndex, ← hMerge]
        · exact hEarlier (ih hMoving hHeld)
      · exact hEarlier (ih hCall hStored)

------------------------------------------------------------
-- Lost Edits
------------------------------------------------------------

variable {c : Calls}
variable {move : Nat × CallEvent}
variable {field : SecretField}

/- The move is the commit of this call. -/
structure CommitsAt
    (keys : Keys)
    (rules : HostRules)
    (c : Calls)
    (move : Nat × CallEvent)
    (call : Call) : Prop where
  moves : c.calls[move.1]? = some call
  not_before : call.phase ≠ .committed
  after :
    (call.advance keys rules c.state move.2).2 = .committed

/-
  A commit leaves every secret that its request leaves out at
  the value that was committed last.
-/
def KeepsLeftOut
    (keys : Keys)
    (rules : HostRules)
    (c : Calls)
    (move : Nat × CallEvent) : Prop :=
  ∀ call, CommitsAt keys rules c move call →
    ∀ field, call.change.settings.secret field = [] →
      storedSecret keys (c.step keys rules move).state
          call.change.databaseID field =
        storedSecret keys c.state call.change.databaseID field

/-
  The secrets that a committing call leaves out are stored as
  they were at its read.  Those that it drops, at another
  address or for another way to sign in, are not stored.
-/
def IsUntouched
    (keys : Keys)
    (rules : HostRules)
    (start : Calls)
    (before : List (Nat × CallEvent))
    (move : Nat × CallEvent) : Prop :=
  ∀ call,
    CommitsAt keys rules (start.run keys rules before) move
        call →
      ∀ first middle,
        before = first ++ (move.1, .merge) :: middle →
          IsBeforeRead (start.run keys rules first) move.1 →
            ∀ read,
              storedSettings (start.run keys rules first).state
                  call.change.databaseID = some read →
                ∀ field,
                  call.change.settings.secret field = [] →
                    storedSecret keys
                        (start.run keys rules before).state
                        call.change.databaseID field =
                      some
                        (keys.reveal
                          (leftOutSecret call.change.settings
                            read field))

theorem ofResult_ne_committed
    {α : Type}
    {result : Except UpdateError α}
    {goOn : α → CallPhase}
    (hGoOn : ∀ value, goOn value ≠ .committed) :
    CallPhase.ofResult result goOn ≠ .committed := by
  cases result with
  | ok value => exact hGoOn value
  | error error => exact CallPhase.noConfusion

/- Only the write of a call that has connected commits. -/
theorem CommitsAt.phase_eq
    (hCommits : CommitsAt keys rules c move call) :
    ∃ stored detected answers written,
      call.phase = .detected stored detected ∧
        writeLocked keys c.state answers call.change detected =
            .ok written ∧
          (c.step keys rules move).state = written := by
  have hAfter := hCommits.after
  have hStep :
      (c.step keys rules move).state =
        (call.advance keys rules c.state move.2).1 := by
    unfold Calls.step
    rw [hCommits.moves]
  rw [hStep]
  unfold Call.advance at hAfter ⊢
  split at hAfter
  · refine absurd hAfter (ofResult_ne_committed fun _ => ?_)
    exact ofResult_ne_committed fun _ => CallPhase.noConfusion
  · refine absurd hAfter (ofResult_ne_committed fun _ => ?_)
    exact ofResult_ne_committed fun _ => CallPhase.noConfusion
  · exact
      absurd hAfter
        (ofResult_ne_committed fun _ => CallPhase.noConfusion)
  · rename_i stored detected answers hPhase _
    cases hWritten :
        writeLocked keys c.state answers call.change
          detected with
    | error error =>
        rw [hWritten] at hAfter
        cases hAfter
    | ok written =>
        exact
          ⟨stored, detected, answers, written, hPhase, hWritten,
            rfl⟩
  · exact absurd hAfter hCommits.not_before

/-
  At a commit, the secrets that are left out become what the
  call has read of them.
-/
theorem storedSecret_of_commitsAt
    {stored detected : Settings}
    (hOpens : ∀ key, (keys.newGCM key).OpensSealed)
    (hHolds : Holds c.state call)
    (hCommits : CommitsAt keys rules c move call)
    (hPhase : call.phase = .detected stored detected)
    (hLeftOut : call.change.settings.secret field = []) :
    storedSecret keys (c.step keys rules move).state
        call.change.databaseID field =
      some
        (keys.reveal
          (leftOutSecret call.change.settings stored
            field)) := by
  rcases hCommits.phase_eq with
    ⟨_, _, answers, written, hSame, hWritten, hStep⟩
  rw [hPhase] at hSame
  cases hSame
  unfold Holds at hHolds
  rw [hPhase] at hHolds
  rcases hHolds with ⟨hType, merged, report, hMerged, rfl⟩
  rw [← getType_of_detected report hMerged]
    at hType
  rcases writeLocked_eq_ok hType hWritten with
    ⟨_, ⟨columns, hColumns, hStored⟩, _⟩
  rw [hStep]
  unfold storedSecret leftOutSecret
  rw [hStored, Option.map_some,
    reveal_toColumns hOpens hColumns, secret_detect,
    secret_mergeStoredSettings hMerged hLeftOut]

/- What a commit writes of them was stored at the read. -/
theorem storedSecret_of_read
    {first middle : List (Nat × CallEvent)}
    {read : Settings}
    (hOpens : ∀ key, (keys.newGCM key).OpensSealed)
    (hFresh :
      ∀ call ∈ start.calls, call.phase = .requested)
    (hBefore :
      IsBeforeRead (start.run keys rules first) move.1)
    (hRead :
      storedSettings (start.run keys rules first).state
          call.change.databaseID = some read)
    (hCommits :
      CommitsAt keys rules
        (start.run keys rules
          (first ++ (move.1, .merge) :: middle)) move call)
    (hLeftOut : call.change.settings.secret field = []) :
    storedSecret keys
        ((start.run keys rules
            (first ++ (move.1, .merge) :: middle)).step keys
          rules move).state
        call.change.databaseID field =
      some
        (keys.reveal
          (leftOutSecret call.change.settings read
            field)) := by
  have hHolds :=
    holds_run keys rules hFresh _ call
      (List.mem_of_getElem? hCommits.moves)
  have hHeld :=
    holdsRead_run hFresh hBefore middle call hCommits.moves
  rcases hCommits.phase_eq with
    ⟨stored, detected, _, _, hPhase, _, _⟩
  rw [storedSecret_of_commitsAt hOpens hHolds hCommits hPhase
    hLeftOut]
  unfold HoldsRead at hHeld
  rw [hPhase] at hHeld
  rcases hHeld with ⟨columns, hColumns, hLoaded⟩
  rw [hRead] at hColumns
  cases hColumns
  rw [leftOutSecret_load hLoaded]

theorem keepsLeftOut_iff_untouched
    (hOpens : ∀ key, (keys.newGCM key).OpensSealed)
    (hFresh :
      ∀ call ∈ start.calls, call.phase = .requested)
    (before : List (Nat × CallEvent))
    (move : Nat × CallEvent) :
    KeepsLeftOut keys rules (start.run keys rules before)
        move ↔
      IsUntouched keys rules start before move := by
  constructor
  · rintro hKeeps call hCommits first middle rfl hBefore read
      hRead field hLeftOut
    rw [← hKeeps call hCommits field hLeftOut]
    exact
      storedSecret_of_read hOpens hFresh hBefore hRead hCommits
        hLeftOut
  · intro hUntouched call hCommits field hLeftOut
    rcases hCommits.phase_eq with
      ⟨stored, detected, _, _, hPhase, _, _⟩
    have hStored : call.phase.stored.isSome := by
      rw [hPhase]
      rfl
    rcases exists_read hFresh hCommits.moves hStored with
      ⟨first, middle, rfl, hBefore⟩
    have hHeld :=
      holdsRead_run hFresh hBefore middle call hCommits.moves
    unfold HoldsRead at hHeld
    rw [hPhase] at hHeld
    rcases hHeld with ⟨read, hRead, _⟩
    rw [hUntouched call hCommits first middle rfl hBefore read
      hRead field hLeftOut]
    exact
      storedSecret_of_read hOpens hFresh hBefore hRead hCommits
        hLeftOut

/-
  In a run of calls, the commits keep the secrets that their
  requests leave out exactly if none of these is touched
  between a call's read and its commit.
-/
theorem left_out_kept_iff_untouched
    (keys : Keys)
    (rules : HostRules)
    (start : Calls)
    (moves : List (Nat × CallEvent))
    (hOpens : ∀ key, (keys.newGCM key).OpensSealed)
    (hFresh :
      ∀ call ∈ start.calls, call.phase = .requested) :
    (∀ before move after, moves = before ++ move :: after →
        KeepsLeftOut keys rules (start.run keys rules before)
          move) ↔
      ∀ before move after, moves = before ++ move :: after →
        IsUntouched keys rules start before move := by
  constructor
  · intro hKeeps before move after hMoves
    exact
      (keepsLeftOut_iff_untouched hOpens hFresh before
        move).mp (hKeeps before move after hMoves)
  · intro hUntouched before move after hMoves
    exact
      (keepsLeftOut_iff_untouched hOpens hFresh before
        move).mpr (hUntouched before move after hMoves)

def sampleKeys : Keys where
  newGCM := Crypto.maskingGCM
  encryptor := Crypto.sampleEncryptor

def remoteHosts : HostRules where
  isLocalEndpointHost _ := false

/- The stored form of the characters of `old`. -/
def oldPassword : Bytes :=
  Crypto.sealedText (List.replicate 12 9)
    ((Crypto.maskingGCM Crypto.sampleEncryptor.key).seals
      (List.replicate 12 9) [111, 108, 100])

def ordersSettings
    (password : Bytes) : Settings :=
  .mysql
    { version := "8.0"
      host := "db.internal"
      port := 3306
      username := "orders"
      password := password
      sshTunnel :=
        { isEnabled := false
          host := ""
          port := 0
          username := ""
          authType := .unset
          password := []
          privateKey := []
          privateKeyPassphrase := [] }
      database := "orders"
      privileges := [] }

/- One call changes the password to `new`, one the name. -/
def twoEdits : Calls :=
  { state :=
      { databases :=
          [{ id := 1
             workspaceID := 1
             name := "orders"
             type := .mysql }]
        settingsRows :=
          [{ databaseID := 1
             settings := ordersSettings oldPassword }]
        attachments := []
        notifiers := [] }
    calls :=
      [{ change :=
           { databaseID := 1
             name := "orders"
             settings := ordersSettings [110, 101, 119]
             notifierIDs := [] }
         phase := .requested },
        { change :=
            { databaseID := 1
              name := "shop"
              settings := ordersSettings []
              notifierIDs := [] }
          phase := .requested }] }

def readMoves
    (index : Nat) : List (Nat × CallEvent) :=
  [(index, .authorize fun _ => .allowed), (index, .merge)]

def connectMove
    (index : Nat) : Nat × CallEvent :=
  (index,
    .connect
      (.ok
        { version := "8.0"
          effectivePrivileges := ["SELECT"]
          systemIdentifier := ""
          walSegmentSizeBytes := 0 }))

def writeMove
    (index : Nat) : Nat × CallEvent :=
  (index,
    .write
      { authorize := fun _ => .allowed
        random := fun _ => Crypto.fixedRandom
        acceptsBackupType := true
        isAuditRecorded := true })

/- Both read; the password is written, and then the name. -/
def racingMoves : List (Nat × CallEvent) :=
  readMoves 0 ++ readMoves 1 ++
    [connectMove 0, connectMove 1, writeMove 0]

theorem racing_edits_fit_the_rule :
    (∀ before move after,
        racingMoves ++ [writeMove 1] =
            before ++ move :: after →
          KeepsLeftOut sampleKeys remoteHosts
            (twoEdits.run sampleKeys remoteHosts before)
            move) ↔
      ∀ before move after,
        racingMoves ++ [writeMove 1] =
            before ++ move :: after →
          IsUntouched sampleKeys remoteHosts twoEdits before
            move :=
  left_out_kept_iff_untouched sampleKeys remoteHosts twoEdits
    (racingMoves ++ [writeMove 1])
    Crypto.maskingGCM_opensSealed (by decide)

/- The new password is lost to the change of the name. -/
theorem new_password_is_lost :
    let raced :=
      twoEdits.run sampleKeys remoteHosts racingMoves
    storedSecret sampleKeys raced.state 1 .password =
        some (.value [110, 101, 119]) ∧
      storedSecret sampleKeys
          (raced.step sampleKeys remoteHosts
            (writeMove 1)).state 1 .password =
        some (.value [111, 108, 100]) ∧
      ¬ KeepsLeftOut sampleKeys remoteHosts raced
        (writeMove 1) := by
  intro raced
  have hNew :
      storedSecret sampleKeys raced.state 1 .password =
        some (.value [110, 101, 119]) := by
    decide +kernel
  have hOld :
      storedSecret sampleKeys
          (raced.step sampleKeys remoteHosts
            (writeMove 1)).state 1 .password =
        some (.value [111, 108, 100]) := by
    decide +kernel
  refine ⟨hNew, hOld, ?_⟩
  intro hKeeps
  have hMoves :
      (raced.calls[1]?).isSome = true ∧
        ∀ call ∈ raced.calls[1]?,
          call.phase ≠ .committed ∧
            (call.advance sampleKeys remoteHosts raced.state
                (writeMove 1).2).2 = .committed ∧
              call.change.databaseID = 1 ∧
                call.change.settings.secret .password =
                  [] := by
    decide +kernel
  rcases Option.isSome_iff_exists.mp hMoves.1 with
    ⟨call, hCall⟩
  rcases hMoves.2 call hCall with
    ⟨hBefore, hAfter, hDatabase, hLeftOut⟩
  have hKept :=
    hKeeps call ⟨hCall, hBefore, hAfter⟩ .password hLeftOut
  rw [hDatabase, hNew, hOld] at hKept
  cases hKept

end Databases

end Databasus
