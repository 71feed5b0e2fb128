import Databasus.Config.PhysicalConfig
import Databasus.Crypto.FieldEncryptor

/-
  The settings of a user database, one kind for each provider.

  A request leaves out the secrets it does not change.  They
  are filled from the stored settings while the address that
  they are sent to stays the stored one.

  Main declarations:
    * `SSHTunnelSettings`, `PostgresqlTLSSettings`
    * `Settings`, `SecretField`
    * `mergeStoredSettings`, `validate`, `detect`
    * `keepsSecret`
    * `secret_mergeStoredSettings`
-/

------------------------------------------------------------
-- Tunnels and Certificates
------------------------------------------------------------

namespace Databasus

namespace Databases

/- How the backend signs in to the bastion; unset if empty. -/
inductive SSHAuthType
  | unset
  | password
  | privateKey
  | other (text : String)
deriving DecidableEq, Repr

structure SSHTunnelSettings where
  isEnabled : Bool
  host : String
  port : Int
  username : String
  authType : SSHAuthType
  password : Bytes
  privateKey : Bytes
  privateKeyPassphrase : Bytes
deriving DecidableEq, Repr

inductive SslMode
  | unset
  | disable
  | require
  | verifyCA
  | verifyFull
  | other (text : String)
deriving DecidableEq, Repr

structure PostgresqlTLSSettings where
  sslMode : SslMode
  clientCert : Bytes
  clientKey : Bytes
  rootCert : Bytes
deriving DecidableEq, Repr

/- A setting that is refused, and why. -/
structure InvalidSetting where
  field : String
  detail : String
deriving DecidableEq, Repr

def newInvalidSettingError
    (field detail : String) : Except InvalidSetting Unit :=
  .error { field := "settings." ++ field, detail := detail }

def maxPort : Int := 65535

def isPort
    (port : Int) : Bool :=
  0 < port && port ≤ maxPort

/- The secret of the other way to sign in is refused. -/
def validateSSHTunnel
    (settings : SSHTunnelSettings) :
    Except InvalidSetting Unit :=
  if settings.isEnabled = false then
    .ok ()
  else if settings.host = "" then
    newInvalidSettingError "sshTunnel.host" "is required"
  else if isPort settings.port = false then
    newInvalidSettingError "sshTunnel.port"
      "must be between 1 and 65535"
  else if settings.username = "" then
    newInvalidSettingError "sshTunnel.username" "is required"
  else
    match settings.authType with
    | .password =>
        if settings.password = [] then
          newInvalidSettingError "sshTunnel.password"
            "is required"
        else if
          settings.privateKey ≠ [] ∨
            settings.privateKeyPassphrase ≠ []
        then
          newInvalidSettingError "sshTunnel.privateKey"
            "must be empty with password authentication"
        else
          .ok ()
    | .privateKey =>
        if settings.privateKey = [] then
          newInvalidSettingError "sshTunnel.privateKey"
            "is required"
        else if settings.password ≠ [] then
          newInvalidSettingError "sshTunnel.password"
            "must be empty with private key authentication"
        else
          .ok ()
    | _ =>
        newInvalidSettingError "sshTunnel.authType"
          "must be PASSWORD or PRIVATE_KEY"

def validatePostgresqlTLS
    (settings : PostgresqlTLSSettings) :
    Except InvalidSetting Unit :=
  let hasClientCert := !settings.clientCert.isEmpty
  let hasClientKey := !settings.clientKey.isEmpty
  match settings.sslMode with
  | .unset =>
      newInvalidSettingError "sslMode" "invalid SSL mode: "
  | .other text =>
      newInvalidSettingError "sslMode"
        ("invalid SSL mode: " ++ text)
  | mode =>
      if hasClientCert ≠ hasClientKey then
        newInvalidSettingError "sslMode"
          ("client certificate and client key must be " ++
            "provided together")
      else if
        mode = .disable &&
          (hasClientCert || hasClientKey ||
            !settings.rootCert.isEmpty)
      then
        newInvalidSettingError "sslMode"
          ("SSL certificates require SSL to be enabled (set " ++
            "SSL mode to require, verify-ca or verify-full)")
      else
        .ok ()

/- A tunnel that is off connects nowhere. -/
def isSSHTunnelAddressChanged
    (incoming stored : SSHTunnelSettings) : Bool :=
  if incoming.isEnabled ≠ stored.isEnabled then
    true
  else
    incoming.isEnabled &&
      (incoming.host ≠ stored.host ||
        incoming.port ≠ stored.port)

/- The stored secret in the place of one that is left out. -/
def fillSecret
    (isFilled : Bool)
    (incoming stored : Bytes) : Bytes :=
  if incoming = [] ∧ isFilled = true then
    stored
  else
    incoming

/- The way to sign in that a request asks for. -/
def mergedAuthType
    (incoming stored : SSHTunnelSettings) : SSHAuthType :=
  if incoming.authType = .unset then
    stored.authType
  else
    incoming.authType

def mergeStoredSSHTunnel
    (incoming stored : SSHTunnelSettings) :
    SSHTunnelSettings :=
  let isFilled := !isSSHTunnelAddressChanged incoming stored
  let merged :=
    { incoming with
      authType := mergedAuthType incoming stored
      password :=
        fillSecret isFilled incoming.password stored.password
      privateKey :=
        fillSecret isFilled incoming.privateKey
          stored.privateKey
      privateKeyPassphrase :=
        fillSecret isFilled incoming.privateKeyPassphrase
          stored.privateKeyPassphrase }
  match merged.authType with
  | .password =>
      { merged with
        privateKey := []
        privateKeyPassphrase := [] }
  | .privateKey => { merged with password := [] }
  | _ => merged

def mergeStoredPostgresqlTLS
    (incoming stored : PostgresqlTLSSettings)
    (isAddressChanged : Bool) : PostgresqlTLSSettings :=
  { incoming with
    clientKey :=
      fillSecret (!isAddressChanged) incoming.clientKey
        stored.clientKey }

------------------------------------------------------------
-- Providers
------------------------------------------------------------

open Config (PhysicalBackupType)

inductive DatabaseType
  | postgresqlLogical
  | postgresqlPhysical
  | mysql
  | mariadb
  | mongodb
deriving DecidableEq, Repr

/- What the settings of every provider have. -/
structure ServerSettings where
  version : String
  host : String
  port : Int
  username : String
  password : Bytes
  sshTunnel : SSHTunnelSettings
deriving DecidableEq, Repr

structure PostgresqlLogicalSettings extends
    ServerSettings where
  database : String
  tls : PostgresqlTLSSettings
  cpuCount : Int
deriving DecidableEq, Repr

structure PostgresqlPhysicalSettings extends
    ServerSettings where
  tls : PostgresqlTLSSettings
  backupType : PhysicalBackupType
  replicationSlotName : String
  backupSlotName : String
  systemIdentifier : Option String
  walSegmentSizeBytes : Option Int
deriving DecidableEq, Repr

structure MysqlSettings extends ServerSettings where
  database : String
  privileges : List String
deriving DecidableEq, Repr

structure MariadbSettings extends ServerSettings where
  database : String
  privileges : List String
deriving DecidableEq, Repr

structure MongodbSettings extends ServerSettings where
  database : String
  isSrv : Bool
  cpuCount : Int
deriving DecidableEq, Repr

inductive Settings
  | postgresqlLogical (settings : PostgresqlLogicalSettings)
  | postgresqlPhysical (settings : PostgresqlPhysicalSettings)
  | mysql (settings : MysqlSettings)
  | mariadb (settings : MariadbSettings)
  | mongodb (settings : MongodbSettings)
deriving DecidableEq, Repr

namespace Settings

def getType : Settings → DatabaseType
  | .postgresqlLogical _ => .postgresqlLogical
  | .postgresqlPhysical _ => .postgresqlPhysical
  | .mysql _ => .mysql
  | .mariadb _ => .mariadb
  | .mongodb _ => .mongodb

def server : Settings → ServerSettings
  | .postgresqlLogical settings => settings.toServerSettings
  | .postgresqlPhysical settings => settings.toServerSettings
  | .mysql settings => settings.toServerSettings
  | .mariadb settings => settings.toServerSettings
  | .mongodb settings => settings.toServerSettings

def tls : Settings → Option PostgresqlTLSSettings
  | .postgresqlLogical settings => some settings.tls
  | .postgresqlPhysical settings => some settings.tls
  | _ => none

end Settings

/- The settings that are secrets. -/
inductive SecretField
  | password
  | clientKey
  | sshPassword
  | sshPrivateKey
  | sshPrivateKeyPassphrase
deriving DecidableEq, Repr

def Settings.secret
    (settings : Settings) : SecretField → Bytes
  | .password => settings.server.password
  | .clientKey =>
      (settings.tls.map PostgresqlTLSSettings.clientKey).getD
        []
  | .sshPassword => settings.server.sshTunnel.password
  | .sshPrivateKey => settings.server.sshTunnel.privateKey
  | .sshPrivateKeyPassphrase =>
      settings.server.sshTunnel.privateKeyPassphrase

/- Where the server is reached. -/
def isServerAddressChanged
    (incoming stored : ServerSettings) : Bool :=
  incoming.host ≠ stored.host ||
    (incoming.port ≠ stored.port ||
      isSSHTunnelAddressChanged incoming.sshTunnel
        stored.sshTunnel)

def mergeStoredServer
    (incoming stored : ServerSettings)
    (isAddressChanged : Bool) : ServerSettings :=
  { incoming with
    password :=
      fillSecret (!isAddressChanged) incoming.password
        stored.password
    version := stored.version
    sshTunnel :=
      mergeStoredSSHTunnel incoming.sshTunnel
        stored.sshTunnel }

def PostgresqlLogicalSettings.mergeStoredSettings
    (incoming stored : PostgresqlLogicalSettings) :
    PostgresqlLogicalSettings :=
  let isAddressChanged :=
    isServerAddressChanged incoming.toServerSettings
      stored.toServerSettings
  { incoming with
    toServerSettings :=
      mergeStoredServer incoming.toServerSettings
        stored.toServerSettings isAddressChanged
    tls :=
      mergeStoredPostgresqlTLS incoming.tls stored.tls
        isAddressChanged }

/- The provider and the server own the identities. -/
def PostgresqlPhysicalSettings.mergeStoredSettings
    (incoming stored : PostgresqlPhysicalSettings) :
    PostgresqlPhysicalSettings :=
  let isAddressChanged :=
    isServerAddressChanged incoming.toServerSettings
      stored.toServerSettings
  { incoming with
    toServerSettings :=
      mergeStoredServer incoming.toServerSettings
        stored.toServerSettings isAddressChanged
    replicationSlotName := stored.replicationSlotName
    backupSlotName := stored.backupSlotName
    systemIdentifier := stored.systemIdentifier
    walSegmentSizeBytes := stored.walSegmentSizeBytes
    tls :=
      mergeStoredPostgresqlTLS incoming.tls stored.tls
        isAddressChanged }

def MysqlSettings.mergeStoredSettings
    (incoming stored : MysqlSettings) : MysqlSettings :=
  { incoming with
    toServerSettings :=
      mergeStoredServer incoming.toServerSettings
        stored.toServerSettings
        (isServerAddressChanged incoming.toServerSettings
          stored.toServerSettings)
    privileges := stored.privileges }

def MariadbSettings.mergeStoredSettings
    (incoming stored : MariadbSettings) : MariadbSettings :=
  { incoming with
    toServerSettings :=
      mergeStoredServer incoming.toServerSettings
        stored.toServerSettings
        (isServerAddressChanged incoming.toServerSettings
          stored.toServerSettings)
    privileges := stored.privileges }

/- A record that names the hosts is another address. -/
def MongodbSettings.mergeStoredSettings
    (incoming stored : MongodbSettings) : MongodbSettings :=
  { incoming with
    toServerSettings :=
      mergeStoredServer incoming.toServerSettings
        stored.toServerSettings
        (isServerAddressChanged incoming.toServerSettings
            stored.toServerSettings ||
          incoming.isSrv ≠ stored.isSrv) }

/- Settings of two providers are not merged. -/
def mergeStoredSettings :
    Settings → Settings → Option Settings
  | .postgresqlLogical incoming, .postgresqlLogical stored =>
      some
        (.postgresqlLogical
          (incoming.mergeStoredSettings stored))
  | .postgresqlPhysical incoming, .postgresqlPhysical stored =>
      some
        (.postgresqlPhysical
          (incoming.mergeStoredSettings stored))
  | .mysql incoming, .mysql stored =>
      some (.mysql (incoming.mergeStoredSettings stored))
  | .mariadb incoming, .mariadb stored =>
      some (.mariadb (incoming.mergeStoredSettings stored))
  | .mongodb incoming, .mongodb stored =>
      some (.mongodb (incoming.mergeStoredSettings stored))
  | _, _ => none

------------------------------------------------------------
-- Checks and Detection
------------------------------------------------------------

/- Whether one of the hosts is this machine. -/
structure HostRules where
  isLocalEndpointHost : String → Bool

structure EmbeddedTargetSpec where
  host : String
  port : Int
  databaseName : String
  isPhysical : Bool
  isSSHTunnelEnabled : Bool
  sshBastionHost : String
deriving DecidableEq, Repr

def embeddedPostgresPort : Int := 5437

/- A letter as `EqualFold` compares it with one of `a` to `z`. -/
def foldLetter
    (letter : Char) : Char :=
  if letter = 'ſ' then 's' else letter.toLower

/- The internal database is no target, except by a bastion. -/
def validateNotEmbeddedTarget
    (rules : HostRules)
    (spec : EmbeddedTargetSpec) : Except InvalidSetting Unit :=
  if
    spec.isSSHTunnelEnabled &&
      !rules.isLocalEndpointHost spec.sshBastionHost
  then
    .ok ()
  else if rules.isLocalEndpointHost spec.host = false then
    .ok ()
  else if spec.isPhysical then
    if spec.port = embeddedPostgresPort then
      newInvalidSettingError "host"
        ("backing up Databasus internal PostgreSQL cluster " ++
          "is not allowed")
    else
      .ok ()
  else if spec.databaseName.map foldLetter = "databasus" then
    newInvalidSettingError "host"
      ("backing up Databasus internal database is not " ++
        "allowed. To backup Databasus itself, see " ++
        "https://databasus.com/faq#backup-databasus")
  else
    .ok ()

/- The checks that every provider starts with. -/
def validateServer
    (settings : ServerSettings)
    (isPortUnused : Bool)
    (portDetail : String) : Except InvalidSetting Unit :=
  if settings.host = "" then
    newInvalidSettingError "host" "is required"
  else if !isPortUnused && !isPort settings.port then
    newInvalidSettingError "port" portDetail
  else if settings.username = "" then
    newInvalidSettingError "username" "is required"
  else if settings.password = [] then
    newInvalidSettingError "password" "is required"
  else
    .ok ()

def portRange : String := "must be between 1 and 65535"

def PostgresqlLogicalSettings.validate
    (rules : HostRules)
    (settings : PostgresqlLogicalSettings) :
    Except InvalidSetting Unit := do
  validateServer settings.toServerSettings false portRange
  if settings.cpuCount ≤ 0 then
    newInvalidSettingError "cpuCount" "must be greater than 0"
  validatePostgresqlTLS settings.tls
  validateSSHTunnel settings.sshTunnel
  validateNotEmbeddedTarget rules
    { host := settings.host
      port := settings.port
      databaseName := settings.database
      isPhysical := false
      isSSHTunnelEnabled := settings.sshTunnel.isEnabled
      sshBastionHost := settings.sshTunnel.host }

def isValidBackupType : PhysicalBackupType → Bool
  | .other _ => false
  | _ => true

def PostgresqlPhysicalSettings.validate
    (rules : HostRules)
    (settings : PostgresqlPhysicalSettings) :
    Except InvalidSetting Unit := do
  validateServer settings.toServerSettings false portRange
  if isValidBackupType settings.backupType = false then
    newInvalidSettingError "backupType"
      ("must be FULL, FULL_INCREMENTAL or " ++
        "FULL_INCREMENTAL_WAL_STREAM")
  validatePostgresqlTLS settings.tls
  validateSSHTunnel settings.sshTunnel
  validateNotEmbeddedTarget rules
    { host := settings.host
      port := settings.port
      databaseName := ""
      isPhysical := true
      isSSHTunnelEnabled := settings.sshTunnel.isEnabled
      sshBastionHost := settings.sshTunnel.host }

def MysqlSettings.validate
    (settings : MysqlSettings) :
    Except InvalidSetting Unit := do
  validateServer settings.toServerSettings false portRange
  validateSSHTunnel settings.sshTunnel

def MariadbSettings.validate
    (settings : MariadbSettings) :
    Except InvalidSetting Unit := do
  validateServer settings.toServerSettings false portRange
  validateSSHTunnel settings.sshTunnel

/- A tunnel has no port to stand in front of with SRV. -/
def MongodbSettings.validate
    (settings : MongodbSettings) :
    Except InvalidSetting Unit := do
  validateServer settings.toServerSettings settings.isSrv
    (portRange ++ " without SRV")
  if settings.database = "" then
    newInvalidSettingError "database" "is required"
  if settings.cpuCount ≤ 0 then
    newInvalidSettingError "cpuCount" "must be greater than 0"
  if settings.sshTunnel.isEnabled && settings.isSrv then
    newInvalidSettingError "sshTunnel.isEnabled"
      "cannot be used with an SRV connection"
  validateSSHTunnel settings.sshTunnel

def validate
    (rules : HostRules) :
    Settings → Except InvalidSetting Unit
  | .postgresqlLogical settings => settings.validate rules
  | .postgresqlPhysical settings => settings.validate rules
  | .mysql settings => settings.validate
  | .mariadb settings => settings.validate
  | .mongodb settings => settings.validate

/- What a server reports to a connection. -/
structure ServerReport where
  version : String
  effectivePrivileges : List String
  systemIdentifier : String
  walSegmentSizeBytes : Int
deriving DecidableEq, Repr

/- No database is inspected before one is picked. -/
def detect
    (report : ServerReport) : Settings → Settings
  | .postgresqlLogical settings =>
      if settings.database = "" then
        .postgresqlLogical settings
      else
        .postgresqlLogical
          { settings with version := report.version }
  | .postgresqlPhysical settings =>
      .postgresqlPhysical
        { settings with
          version := report.version
          systemIdentifier :=
            some
              (settings.systemIdentifier.getD
                report.systemIdentifier)
          walSegmentSizeBytes :=
            some
              (settings.walSegmentSizeBytes.getD
                report.walSegmentSizeBytes) }
  | .mysql settings =>
      if settings.database = "" then
        .mysql settings
      else
        .mysql
          { settings with
            version := report.version
            privileges := report.effectivePrivileges }
  | .mariadb settings =>
      if settings.database = "" then
        .mariadb settings
      else
        .mariadb
          { settings with
            version := report.version
            privileges := report.effectivePrivileges }
  | .mongodb settings =>
      .mongodb { settings with version := report.version }

/- Only physical databases have a type of backups. -/
def physicalBackupType : Settings → Option PhysicalBackupType
  | .postgresqlPhysical settings => some settings.backupType
  | _ => none

------------------------------------------------------------
-- Secrets
------------------------------------------------------------

variable {incoming stored merged : Settings}

/- What a secret of the server is sent to has another address. -/
def isAddressChanged : Settings → Settings → Bool
  | .mongodb incoming, .mongodb stored =>
      isServerAddressChanged incoming.toServerSettings
          stored.toServerSettings ||
        incoming.isSrv ≠ stored.isSrv
  | incoming, stored =>
      isServerAddressChanged incoming.server stored.server

/- A secret that is left out stays the stored one. -/
def keepsSecret
    (incoming stored : Settings) : SecretField → Bool
  | .password => !isAddressChanged incoming stored
  | .clientKey => !isAddressChanged incoming stored
  | .sshPassword =>
      !isSSHTunnelAddressChanged incoming.server.sshTunnel
          stored.server.sshTunnel &&
        mergedAuthType incoming.server.sshTunnel
            stored.server.sshTunnel ≠ .privateKey
  | .sshPrivateKey =>
      !isSSHTunnelAddressChanged incoming.server.sshTunnel
          stored.server.sshTunnel &&
        mergedAuthType incoming.server.sshTunnel
            stored.server.sshTunnel ≠ .password
  | .sshPrivateKeyPassphrase =>
      !isSSHTunnelAddressChanged incoming.server.sshTunnel
          stored.server.sshTunnel &&
        mergedAuthType incoming.server.sshTunnel
            stored.server.sshTunnel ≠ .password

theorem fillSecret_of_left_out
    (isFilled : Bool)
    (storedSecret : Bytes) :
    fillSecret isFilled [] storedSecret =
      if isFilled then storedSecret else [] := by
  cases isFilled <;> rfl

/- The secrets of a tunnel that a request leaves out. -/
theorem mergeStoredSSHTunnel_secrets
    (incoming stored : SSHTunnelSettings) :
    (incoming.password = [] →
      (mergeStoredSSHTunnel incoming stored).password =
        if
          !isSSHTunnelAddressChanged incoming stored &&
            mergedAuthType incoming stored ≠ .privateKey
        then
          stored.password
        else
          []) ∧
    (incoming.privateKey = [] →
      (mergeStoredSSHTunnel incoming stored).privateKey =
        if
          !isSSHTunnelAddressChanged incoming stored &&
            mergedAuthType incoming stored ≠ .password
        then
          stored.privateKey
        else
          []) ∧
    (incoming.privateKeyPassphrase = [] →
      (mergeStoredSSHTunnel incoming
          stored).privateKeyPassphrase =
        if
          !isSSHTunnelAddressChanged incoming stored &&
            mergedAuthType incoming stored ≠ .password
        then
          stored.privateKeyPassphrase
        else
          []) := by
  unfold mergeStoredSSHTunnel
  dsimp only
  refine ⟨?_, ?_, ?_⟩
  · intro hLeftOut
    cases mergedAuthType incoming stored <;>
      simp [hLeftOut, fillSecret_of_left_out]
  · intro hLeftOut
    cases mergedAuthType incoming stored <;>
      simp [hLeftOut, fillSecret_of_left_out]
  · intro hLeftOut
    cases mergedAuthType incoming stored <;>
      simp [hLeftOut, fillSecret_of_left_out]

/- The secrets of a server that a request leaves out. -/
theorem mergeStoredServer_password
    {incoming stored : ServerSettings}
    (isAddressChanged : Bool)
    (hLeftOut : incoming.password = []) :
    (mergeStoredServer incoming stored
        isAddressChanged).password =
      if !isAddressChanged then stored.password else [] := by
  unfold mergeStoredServer
  dsimp only
  rw [hLeftOut, fillSecret_of_left_out]

theorem mergeStoredPostgresqlTLS_clientKey
    {incoming stored : PostgresqlTLSSettings}
    (isAddressChanged : Bool)
    (hLeftOut : incoming.clientKey = []) :
    (mergeStoredPostgresqlTLS incoming stored
        isAddressChanged).clientKey =
      if !isAddressChanged then stored.clientKey else [] := by
  unfold mergeStoredPostgresqlTLS
  dsimp only
  rw [hLeftOut, fillSecret_of_left_out]

/- Every provider merges what the settings share alike. -/
theorem server_mergeStoredSettings
    (hMerged :
      mergeStoredSettings incoming stored = some merged) :
    merged.server =
      mergeStoredServer incoming.server stored.server
        (isAddressChanged incoming stored) := by
  unfold mergeStoredSettings at hMerged
  split at hMerged <;> cases hMerged <;> rfl

theorem tls_mergeStoredSettings
    (hMerged :
      mergeStoredSettings incoming stored = some merged) :
    (stored.tls = none ∧ merged.tls = none) ∨
      ∃ incomingTLS storedTLS,
        incoming.tls = some incomingTLS ∧
          stored.tls = some storedTLS ∧
            merged.tls =
              some
                (mergeStoredPostgresqlTLS incomingTLS storedTLS
                  (isAddressChanged incoming stored)) := by
  unfold mergeStoredSettings at hMerged
  split at hMerged
  · cases hMerged
    exact Or.inr ⟨_, _, rfl, rfl, rfl⟩
  · cases hMerged
    exact Or.inr ⟨_, _, rfl, rfl, rfl⟩
  · cases hMerged
    exact Or.inl ⟨rfl, rfl⟩
  · cases hMerged
    exact Or.inl ⟨rfl, rfl⟩
  · cases hMerged
    exact Or.inl ⟨rfl, rfl⟩
  · cases hMerged

/- A secret that is left out is the stored one, or none. -/
theorem secret_mergeStoredSettings
    {field : SecretField}
    (hMerged :
      mergeStoredSettings incoming stored = some merged)
    (hLeftOut : incoming.secret field = []) :
    merged.secret field =
      if keepsSecret incoming stored field then
        stored.secret field
      else
        [] := by
  have hServer := server_mergeStoredSettings hMerged
  have hTunnel :=
    mergeStoredSSHTunnel_secrets incoming.server.sshTunnel
      stored.server.sshTunnel
  cases field with
  | password =>
      unfold Settings.secret
      rw [hServer]
      exact mergeStoredServer_password _ hLeftOut
  | clientKey =>
      unfold Settings.secret at hLeftOut ⊢
      rcases tls_mergeStoredSettings hMerged with
        ⟨hStored, hNone⟩ | ⟨_, _, hIncoming, hStored, hTLS⟩
      · rw [hNone, hStored]
        exact (ite_self _).symm
      · rw [hIncoming] at hLeftOut
        rw [hTLS, hStored]
        exact
          mergeStoredPostgresqlTLS_clientKey
            (isAddressChanged incoming stored) hLeftOut
  | sshPassword =>
      unfold Settings.secret
      rw [hServer]
      exact hTunnel.1 hLeftOut
  | sshPrivateKey =>
      unfold Settings.secret
      rw [hServer]
      exact hTunnel.2.1 hLeftOut
  | sshPrivateKeyPassphrase =>
      unfold Settings.secret
      rw [hServer]
      exact hTunnel.2.2 hLeftOut

/- A server's report holds no secret. -/
theorem secret_detect
    (report : ServerReport)
    (settings : Settings)
    (field : SecretField) :
    (detect report settings).secret field =
      settings.secret field := by
  unfold detect
  split
  · split <;> cases field <;> rfl
  · cases field <;> rfl
  · split <;> cases field <;> rfl
  · split <;> cases field <;> rfl
  · cases field <;> rfl

theorem getType_detect
    (report : ServerReport)
    (settings : Settings) :
    (detect report settings).getType = settings.getType := by
  unfold detect
  split
  · split <;> rfl
  · rfl
  · split <;> rfl
  · split <;> rfl
  · rfl

theorem getType_mergeStoredSettings
    (hMerged :
      mergeStoredSettings incoming stored = some merged) :
    merged.getType = incoming.getType := by
  unfold mergeStoredSettings at hMerged
  split at hMerged <;> cases hMerged <;> rfl

end Databases

end Databasus
