import Databasus.Databases.ProviderSettings
import Databasus.Foundation.Table

/-
  The update of a database's settings, step by step.

  A call reads the stored settings, fills the secrets that the
  request leaves out, and connects with the result.  Only then
  it locks the database's row and writes all the settings.
  Other calls may move between any two of these steps.

  Main declarations:
    * `Keys`, `Settings.toColumns`, `Settings.load`
    * `DatabasesState`, `writeLocked`
    * `Call`, `CallEvent`, `Call.advance`
    * `Calls`, `Calls.run`
-/

------------------------------------------------------------
-- Encrypted Columns
------------------------------------------------------------

namespace Databasus

namespace Databases

open Crypto

inductive UpdateError
  | invalidName
  | databaseNotFound
  | forbidden
  | typeChanged
  | settingsOfAnotherType
  | settingsMissing (databaseID : Uuid)
  | invalidSetting (error : InvalidSetting)
  | connectionFailed (reason : String)
  | secretUnreadable (secretName : String) (cause : FieldError)
  | notEncrypted (text : String) (cause : FieldError)
  | panicked
  | notifierNotInWorkspace
  | notPublished
  | notRecorded
deriving DecidableEq, Repr

/- The cipher of the secrets, and the key of the backend. -/
structure Keys where
  newGCM : Bytes → NonceAead
  encryptor : FieldEncryptor

/- What a stored secret stands for. -/
def Keys.reveal
    (keys : Keys)
    (stored : Bytes) : FieldOutcome :=
  keys.encryptor.decrypt keys.newGCM stored

def Keys.encryptSecret
    (keys : Keys)
    (random : RandomSource)
    (text : String)
    (secret : Bytes) : Except UpdateError Bytes :=
  match keys.encryptor.encrypt keys.newGCM random secret with
  | .value stored => .ok stored
  | .failed cause => .error (.notEncrypted text cause)
  | .panicked => .error .panicked

def Keys.decryptSecret
    (keys : Keys)
    (stored : Bytes)
    (secretName : String) : Except UpdateError Bytes :=
  match keys.reveal stored with
  | .value secret => .ok secret
  | .failed cause => .error (.secretUnreadable secretName cause)
  | .panicked => .error .panicked

variable (keys : Keys)
variable (random : SecretField → RandomSource)

def defaultSSHPort : Int := 22

def newSSHTunnelColumns
    (settings : SSHTunnelSettings) :
    Except UpdateError SSHTunnelSettings := do
  let text := "encrypt an SSH tunnel secret"
  let password ←
    keys.encryptSecret (random .sshPassword) text
      settings.password
  let privateKey ←
    keys.encryptSecret (random .sshPrivateKey) text
      settings.privateKey
  let privateKeyPassphrase ←
    keys.encryptSecret (random .sshPrivateKeyPassphrase) text
      settings.privateKeyPassphrase
  pure
    { settings with
      authType :=
        if settings.authType = .unset then
          .password
        else
          settings.authType
      port :=
        if settings.port = 0 then
          defaultSSHPort
        else
          settings.port
      password := password
      privateKey := privateKey
      privateKeyPassphrase := privateKeyPassphrase }

/- The certificates are public, and stored as they are. -/
def newPostgresqlTLSColumns
    (settings : PostgresqlTLSSettings) :
    Except UpdateError PostgresqlTLSSettings := do
  let clientKey ←
    keys.encryptSecret (random .clientKey)
      "encrypt the SSL client key" settings.clientKey
  pure
    { settings with
      sslMode :=
        if settings.sslMode = .unset then
          .disable
        else
          settings.sslMode
      clientKey := clientKey }

/- The columns of a provider without certificates. -/
def newServerColumns
    (text : String)
    (settings : ServerSettings) :
    Except UpdateError ServerSettings := do
  let password ←
    keys.encryptSecret (random .password) text
      settings.password
  let sshTunnel ←
    newSSHTunnelColumns keys random settings.sshTunnel
  pure
    { settings with
      password := password
      sshTunnel := sshTunnel }

/- The columns of a provider with certificates. -/
def newPostgresqlColumns
    (settings : ServerSettings)
    (tls : PostgresqlTLSSettings) :
    Except UpdateError
      (ServerSettings × PostgresqlTLSSettings) := do
  let password ←
    keys.encryptSecret (random .password)
      "encrypt the PostgreSQL password" settings.password
  let tlsColumns ← newPostgresqlTLSColumns keys random tls
  let sshTunnel ←
    newSSHTunnelColumns keys random settings.sshTunnel
  pure
    ({ settings with
        password := password
        sshTunnel := sshTunnel },
      tlsColumns)

/- The row that a provider's repository writes. -/
def Settings.toColumns : Settings → Except UpdateError Settings
  | .postgresqlLogical settings => do
      let columns ←
        newPostgresqlColumns keys random
          settings.toServerSettings settings.tls
      pure <|
        .postgresqlLogical
          { settings with
            toServerSettings := columns.1
            tls := columns.2 }
  | .postgresqlPhysical settings => do
      let columns ←
        newPostgresqlColumns keys random
          settings.toServerSettings settings.tls
      pure <|
        .postgresqlPhysical
          { settings with
            toServerSettings := columns.1
            tls := columns.2 }
  | .mysql settings => do
      let columns ←
        newServerColumns keys random
          "encrypt the MySQL password"
          settings.toServerSettings
      pure <| .mysql { settings with toServerSettings := columns }
  | .mariadb settings => do
      let columns ←
        newServerColumns keys random
          "encrypt the MariaDB password"
          settings.toServerSettings
      pure <|
        .mariadb { settings with toServerSettings := columns }
  | .mongodb settings => do
      let columns ←
        newServerColumns keys random
          "encrypt the MongoDB password"
          settings.toServerSettings
      pure <|
        .mongodb { settings with toServerSettings := columns }

/- Older releases stored the certificates encrypted too. -/
def PostgresqlTLSSettings.toSettings
    (columns : PostgresqlTLSSettings) :
    Except UpdateError PostgresqlTLSSettings := do
  let clientCert ←
    keys.decryptSecret columns.clientCert
      "the SSL client certificate"
  let rootCert ←
    keys.decryptSecret columns.rootCert
      "the SSL root certificate"
  pure
    { columns with
      clientCert := clientCert
      rootCert := rootCert }

/- The settings that a row holds; its secrets stay encrypted. -/
def Settings.load : Settings → Except UpdateError Settings
  | .postgresqlLogical columns => do
      let tls ← columns.tls.toSettings keys
      pure <| .postgresqlLogical { columns with tls := tls }
  | .postgresqlPhysical columns => do
      let tls ← columns.tls.toSettings keys
      pure <| .postgresqlPhysical { columns with tls := tls }
  | columns => .ok columns

def Settings.engineName : Settings → String
  | .postgresqlLogical _ => "PostgreSQL"
  | .postgresqlPhysical _ => "PostgreSQL"
  | .mysql _ => "MySQL"
  | .mariadb _ => "MariaDB"
  | .mongodb _ => "MongoDB"

/- A connection needs its secrets in clear text. -/
def decryptEngineSettings
    (settings : Settings) : Except UpdateError Unit := do
  let _ ←
    keys.decryptSecret settings.server.password
      ("the " ++ settings.engineName ++ " password")
  match settings.tls with
  | none => pure ()
  | some tls =>
      let name := "an SSL certificate or key"
      let _ ← keys.decryptSecret tls.clientCert name
      let _ ← keys.decryptSecret tls.clientKey name
      let _ ← keys.decryptSecret tls.rootCert name
  let tunnel := settings.server.sshTunnel
  if tunnel.isEnabled then
    let _ ←
      keys.decryptSecret tunnel.password
        "the SSH tunnel password"
    let _ ←
      keys.decryptSecret tunnel.privateKey
        "the SSH tunnel private key"
    let _ ←
      keys.decryptSecret tunnel.privateKeyPassphrase
        "the SSH tunnel passphrase"

------------------------------------------------------------
-- Reads and the Locked Write
------------------------------------------------------------

open Crypto Foundation

structure DatabaseRow where
  id : Uuid
  workspaceID : Uuid
  name : String
  type : DatabaseType
deriving DecidableEq, Repr

/- A row of the table of a provider. -/
structure SettingsRow where
  databaseID : Uuid
  settings : Settings
deriving DecidableEq, Repr

structure NotifierRow where
  id : Uuid
  workspaceID : Uuid
deriving DecidableEq, Repr

structure DatabasesState where
  databases : List DatabaseRow
  settingsRows : List SettingsRow
  attachments : List (Uuid × Uuid)
  notifiers : List NotifierRow
deriving DecidableEq, Repr

/- A database has one row, in the table of its type. -/
def SettingsRow.key
    (row : SettingsRow) : Uuid × DatabaseType :=
  (row.databaseID, row.settings.getType)

structure DatabaseChange where
  databaseID : Uuid
  name : String
  settings : Settings
  notifierIDs : List Uuid
deriving DecidableEq, Repr

/- What the workspace answers to the actor. -/
inductive Authorization
  | allowed
  | notFound
  | forbidden
deriving DecidableEq, Repr

def maxDatabaseNameLength : Nat := 255

def validateName
    (name : String) : Except UpdateError Unit :=
  if name.length < 1 ∨ maxDatabaseNameLength < name.length then
    .error .invalidName
  else
    .ok ()

/- A database of another's workspace stays hidden. -/
def getAuthorized
    (s : DatabasesState)
    (authorize : Uuid → Authorization)
    (databaseID : Uuid) : Except UpdateError DatabaseRow :=
  match Table.lookup DatabaseRow.id databaseID s.databases with
  | none => .error .databaseNotFound
  | some found =>
      match authorize found.workspaceID with
      | .allowed => .ok found
      | .notFound => .error .databaseNotFound
      | .forbidden => .error .forbidden

def loadOneWithSettings
    (keys : Keys)
    (s : DatabasesState)
    (found : DatabaseRow) : Except UpdateError Settings :=
  match
    Table.lookup SettingsRow.key (found.id, found.type)
      s.settingsRows
  with
  | none => .error (.settingsMissing found.id)
  | some row => row.settings.load keys

def mergeAndValidate
    (rules : HostRules)
    (storedType : DatabaseType)
    (stored incoming : Settings) :
    Except UpdateError Settings :=
  if incoming.getType ≠ storedType then
    .error .typeChanged
  else
    match mergeStoredSettings incoming stored with
    | none => .error .settingsOfAnotherType
    | some merged =>
        match validate rules merged with
        | .error error => .error (.invalidSetting error)
        | .ok _ => .ok merged

/- Connect, detect and test: what the server answers. -/
def connectAndDetect
    (keys : Keys)
    (answer : Except String ServerReport)
    (settings : Settings) : Except UpdateError Settings := do
  decryptEngineSettings keys settings
  match answer with
  | .error reason => .error (.connectionFailed reason)
  | .ok report => .ok (detect report settings)

def updateName
    (databases : List DatabaseRow)
    (databaseID : Uuid)
    (name : String) : List DatabaseRow :=
  Table.updateWhere (fun row => row.id = databaseID)
    (fun row => { row with name := name }) databases

/- Replace the row of the database, or insert its first. -/
def upsertSettings
    (rows : List SettingsRow)
    (row : SettingsRow) : List SettingsRow :=
  if (Table.lookup SettingsRow.key row.key rows).isSome then
    Table.updateWhere (fun old => old.key = row.key)
      (fun _ => row) rows
  else
    rows ++ [row]

/- Only notifiers of the database's workspace are attached. -/
def attachNotifiers
    (s : DatabasesState)
    (database : DatabaseRow)
    (notifierIDs : List Uuid) :
    Except UpdateError DatabasesState :=
  let unique := notifierIDs.eraseDups
  let isAttachable (id : Uuid) : Bool :=
    s.notifiers.any fun notifier =>
      notifier.id = id &&
        notifier.workspaceID = database.workspaceID
  if unique.all isAttachable then
    .ok
      { s with
        attachments :=
          Table.deleteWhere
              (fun attachment => attachment.1 = database.id)
              s.attachments ++
            unique.map fun id => (database.id, id) }
  else
    .error .notifierNotInWorkspace

/- What other modules answer inside the transaction. -/
structure WriteAnswers where
  authorize : Uuid → Authorization
  random : SecretField → RandomSource
  acceptsBackupType : Bool
  isAuditRecorded : Bool

/-
  The transaction under the lock of the database's row.  No
  other call writes between its statements.
-/
def writeLocked
    (keys : Keys)
    (s : DatabasesState)
    (answers : WriteAnswers)
    (change : DatabaseChange)
    (detected : Settings) :
    Except UpdateError DatabasesState := do
  let locked ←
    getAuthorized s answers.authorize change.databaseID
  let lockedSettings ← loadOneWithSettings keys s locked
  let columns ← detected.toColumns keys answers.random
  let attached ←
    attachNotifiers
      { s with
        databases :=
          updateName s.databases locked.id change.name
        settingsRows :=
          upsertSettings s.settingsRows
            { databaseID := locked.id, settings := columns } }
      locked change.notifierIDs
  if
    physicalBackupType lockedSettings ≠
        physicalBackupType detected ∧
      answers.acceptsBackupType = false
  then
    .error .notPublished
  else if answers.isAuditRecorded = false then
    .error .notRecorded
  else
    let _ ← loadOneWithSettings keys attached locked
    .ok attached

------------------------------------------------------------
-- Calls
------------------------------------------------------------

/- How far a call has come, with what it holds. -/
inductive CallPhase
  | requested
  | authorized (found : DatabaseRow)
  | merged (stored merged : Settings)
  | detected (stored detected : Settings)
  | committed
  | refused (error : UpdateError)
deriving DecidableEq, Repr

structure Call where
  change : DatabaseChange
  phase : CallPhase
deriving DecidableEq, Repr

inductive CallEvent
  | authorize (authorize : Uuid → Authorization)
  | merge
  | connect (answer : Except String ServerReport)
  | write (answers : WriteAnswers)

variable (keys : Keys)
variable (rules : HostRules)

/- Go on with a result, or end with its error. -/
def CallPhase.ofResult
    {α : Type}
    (result : Except UpdateError α)
    (goOn : α → CallPhase) : CallPhase :=
  match result with
  | .ok value => goOn value
  | .error error => .refused error

/- The settings are read and merged at one moment. -/
def readAndMerge
    (s : DatabasesState)
    (call : Call)
    (found : DatabaseRow) : CallPhase :=
  .ofResult (loadOneWithSettings keys s found) fun stored =>
    .ofResult
      (mergeAndValidate rules found.type stored
        call.change.settings)
      fun merged => .merged stored merged

/- The next step of a call; an event out of turn is none. -/
def Call.advance
    (s : DatabasesState)
    (call : Call)
    (event : CallEvent) : DatabasesState × CallPhase :=
  match call.phase, event with
  | .requested, .authorize authorize =>
      (s,
        .ofResult (validateName call.change.name) fun _ =>
          .ofResult
            (getAuthorized s authorize call.change.databaseID)
            .authorized)
  | .authorized found, .merge =>
      (s, readAndMerge keys rules s call found)
  | .merged stored merged, .connect answer =>
      (s,
        .ofResult (connectAndDetect keys answer merged)
          fun detected => .detected stored detected)
  | .detected _ detected, .write answers =>
      match
        writeLocked keys s answers call.change detected
      with
      | .ok written => (written, .committed)
      | .error error => (s, .refused error)
  | phase, _ => (s, phase)

/- Calls that run at the same time. -/
structure Calls where
  state : DatabasesState
  calls : List Call
deriving DecidableEq, Repr

/- The call at an index takes a step. -/
def Calls.step
    (c : Calls)
    (move : Nat × CallEvent) : Calls :=
  match c.calls[move.1]? with
  | none => c
  | some call =>
      let advanced := call.advance keys rules c.state move.2
      { state := advanced.1
        calls :=
          c.calls.set move.1 { call with phase := advanced.2 } }

def Calls.run
    (c : Calls)
    (moves : List (Nat × CallEvent)) : Calls :=
  moves.foldl (Calls.step keys rules) c

end Databases

end Databasus
