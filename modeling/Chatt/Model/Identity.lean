import Chatt.Lib.OrdMap
import Chatt.Model.Ids

/-!
# Accounts, device rosters and the libraries behind them

The validation of rosters and client ids (crates/rpc/src/identity.rs) over what the server
takes from outside this repository: SHA-256 and Ed25519, and the `jsony` encodings that are
hashed or signed.  `Mls` is any such family of functions.
-/

namespace Chatt

open Chatt.Lib

/-! ## The state of the identity provider (crates/mls/src/policy.rs:74-112) -/

structure RosterCheckpoint where
  accountId : AccountId
  revision : ℕ
  digest : Digest
  deriving DecidableEq

structure CertifiedDevice where
  accountId : AccountId
  userId : UserId
  deviceId : DeviceId
  signatureKey : Bytes
  deriving DecidableEq

structure PolicyState where
  accountUsers : OrdMap AccountId UserId
  /-- the certificates of the current rosters -/
  devices : OrdMap Bytes CertifiedDevice
  /-- every credential seen in a signed roster, for the observers of past deliveries -/
  historicalDevices : OrdMap Bytes CertifiedDevice
  historicalRosters : OrdMap (AccountId ×ₗ ℕ) SignedDeviceRoster
  rosters : OrdMap AccountId RosterCheckpoint
  rooms : OrdMap Bytes EncryptedRoomDescriptor
  deriving DecidableEq

def PolicyState.empty : PolicyState where
  accountUsers := OrdMap.empty
  devices := OrdMap.empty
  historicalDevices := OrdMap.empty
  historicalRosters := OrdMap.empty
  rosters := OrdMap.empty
  rooms := OrdMap.empty

/-! ## What comes from outside -/

structure Mls where
  sha256 : Bytes → Digest
  /-- Ed25519: public key, message, signature -/
  verifySignature : ByteArr 32 → Bytes → Bytes → Bool
  encodeCertificateBody : DeviceCertificateBody → Bytes
  encodeRosterBody : DeviceRosterBody → Bytes
  encodeRoster : SignedDeviceRoster → Bytes

/-! ## Identifiers (identity.rs:72-154) -/

/-- The bytes of an ASCII literal. -/
def ascii (text : String) : Bytes := text.toList.map fun c => Fin.ofNat 256 c.toNat

def accountId (mls : Mls) (serverPublicKey : Bytes) (userId : UserId)
    (authorityPublicKey : ByteArr 32) : AccountId :=
  mls.sha256 (ascii "chatt account identity v1" ++ serverPublicKey ++ leBytes 8 userId ++
    authorityPublicKey.val)

def clientIdLabel : Bytes := ascii "chatt mls client id v1"

def maxMlsClientIdBytes : ℕ := 256

def mlsClientId (serverId : Bytes) (account : AccountId) (device : DeviceId) :
    Except String Bytes := do
  reject (serverId.length > u16Max) "server identity is too long for an MLS client id"
  let id := clientIdLabel ++ (leBytes 2 serverId.length).reverse ++ serverId ++
    account.val ++ device.val
  reject (id.length > maxMlsClientIdBytes) "MLS client id is too long"
  return id

/-! ## Certificates and rosters (identity.rs:165-290, 328-366) -/

/-- The characters Rust's `trim` removes. -/
def isWhiteSpace (c : Char) : Bool :=
  c.toNat ∈ [0x20, 0x85, 0xA0, 0x1680, 0x2028, 0x2029, 0x202F, 0x205F, 0x3000] ∨
    (0x09 ≤ c.toNat ∧ c.toNat ≤ 0x0D) ∨ (0x2000 ≤ c.toNat ∧ c.toNat ≤ 0x200A)

def isControl (c : Char) : Bool := c.toNat < 0x20 ∨ (0x7F ≤ c.toNat ∧ c.toNat ≤ 0x9F)

def maxDeviceNameBytes : ℕ := 64

def validateDeviceName (name : String) : Except String Unit :=
  reject (name.toList = [] ∨ name.utf8ByteSize > maxDeviceNameBytes ∨
      name.toList.head?.any isWhiteSpace = true ∨ name.toList.getLast?.any isWhiteSpace = true ∨
      name.toList.any isControl = true)
    "device name must be trimmed, 1-64 bytes, and contain no control characters"

/-- `verify`: the length and the validity of a signature. -/
def verify (mls : Mls) (publicKey : ByteArr 32) (message signature : Bytes) (kind : String) :
    Except String Unit := do
  reject (signature.length ≠ 64) (kind ++ " signature has the wrong length")
  reject (mls.verifySignature publicKey message signature = false)
    (kind ++ " signature is invalid")

def validateDeviceCertificate (mls : Mls) (certificate : SignedDeviceCertificate)
    (serverId : Bytes) (userId : UserId) (account : AccountId) (authorityPublicKey : ByteArr 32) :
    Except String Unit := do
  let body := certificate.body
  reject (body.userId ≠ userId ∨ body.accountId ≠ account ∨
    body.authorityPublicKey ≠ authorityPublicKey)
    "device certificate account context does not match"
  reject (account ≠ accountId mls serverId userId authorityPublicKey)
    "device certificate account id is invalid"
  validateDeviceName body.deviceName
  let clientId ← mlsClientId serverId account body.deviceId
  reject (body.mlsClientId ≠ clientId) "device certificate MLS client id is invalid"
  reject (body.mlsSignaturePublicKey.length ≠ 32) "MLS signature public key has the wrong length"
  verify mls authorityPublicKey
    (ascii "chatt device certificate v1" ++ mls.encodeCertificateBody body)
    certificate.authoritySignature "device certificate"

/-- The loop of `validate_device_roster`, with the certificates it has passed. -/
def validateRosterDevices (mls : Mls) (serverId : Bytes) (body : DeviceRosterBody) :
    List SignedDeviceCertificate → List SignedDeviceCertificate → Except String Unit
  | _, [] => .ok ()
  | passed, certificate :: rest => do
    validateDeviceCertificate mls certificate serverId body.userId body.accountId
      body.authorityPublicKey
    reject (passed.getLast?.any (fun previous =>
      previous.body.deviceId ≥ certificate.body.deviceId) = true)
      "device roster is not uniquely sorted by device id"
    reject (certificate.body.mlsClientId ∈ passed.map (·.body.mlsClientId))
      "device roster contains a duplicate MLS client id"
    reject (certificate.body.mlsSignaturePublicKey ∈ passed.map (·.body.mlsSignaturePublicKey))
      "device roster contains a duplicate MLS signature key"
    validateRosterDevices mls serverId body (passed ++ [certificate]) rest

def maxActiveDevices : ℕ := 16

def validateDeviceRoster (mls : Mls) (roster : SignedDeviceRoster) (serverId : Bytes)
    (userId : UserId) : Except String Unit := do
  let body := roster.body
  reject (body.userId ≠ userId) "device roster user does not match"
  reject (body.accountId ≠ accountId mls serverId userId body.authorityPublicKey)
    "device roster account id is invalid"
  reject (body.revision = 0) "device roster revision is zero"
  reject (body.activeDevices = [] ∨ body.activeDevices.length > maxActiveDevices)
    "device roster has an invalid active device count"
  validateRosterDevices mls serverId body [] body.activeDevices
  verify mls body.authorityPublicKey (ascii "chatt device roster v1" ++ mls.encodeRosterBody body)
    roster.authoritySignature "device roster"

def rosterCheckpoint (mls : Mls) (roster : SignedDeviceRoster) : RosterCheckpoint where
  accountId := roster.body.accountId
  revision := roster.body.revision
  digest := mls.sha256 (mls.encodeRoster roster)

/-! ## Policy

Rosters and the devices they certify (crates/mls/src/policy.rs).  The errors of the provider are
the texts they display. -/

/-! ## Rosters (policy.rs:138-244, 589-640) -/

namespace PolicyState

def historicalRosterCacheHit (state : PolicyState) (roster : SignedDeviceRoster) :
    Except String Bool :=
  match state.historicalRosters.get? (toLex (roster.body.accountId, roster.body.revision)) with
  | some existing =>
    if existing = roster then .ok true
    else .error "invalid device roster: historical device roster revision equivocates"
  | none => .ok false

def indexAccountUser (state : PolicyState) (accountId : AccountId) (userId : UserId) :
    Except String PolicyState :=
  match state.accountUsers.get? accountId with
  | some existing =>
    if existing ≠ userId then
      .error "invalid device roster: account id is already certified for another user"
    else .ok state
  | none => .ok { state with accountUsers := state.accountUsers.insert accountId userId }

/-- Whether the roster is the installed one; a roster that rolls back is an error. -/
def rosterIsCurrent (mls : Mls) (state : PolicyState) (roster : SignedDeviceRoster) :
    Except String Bool := do
  let _ ← state.historicalRosterCacheHit roster
  match state.rosters.get? roster.body.accountId with
  | none => return false
  | some current =>
    if current = rosterCheckpoint mls roster then return true
    else
      reject (roster.body.revision ≤ current.revision)
        "invalid device roster: device roster revision rolls back or equivocates"
      return false

def certifiedDevice (certificate : SignedDeviceCertificate) : CertifiedDevice where
  accountId := certificate.body.accountId
  userId := certificate.body.userId
  deviceId := certificate.body.deviceId
  signatureKey := certificate.body.mlsSignaturePublicKey

/-- The certificates of the roster take the place of those of its account. -/
def certify (devices : OrdMap Bytes CertifiedDevice) (body : DeviceRosterBody) :
    OrdMap Bytes CertifiedDevice :=
  body.activeDevices.foldl
    (fun devices certificate =>
      devices.insert certificate.body.mlsClientId (certifiedDevice certificate))
    (devices.retain fun _ device => device.accountId ≠ body.accountId)

/-- The devices of the roster that no roster had before join the historical ones. -/
def rememberDevices (historical : OrdMap Bytes CertifiedDevice)
    (certificates : List SignedDeviceCertificate) : OrdMap Bytes CertifiedDevice :=
  certificates.foldl
    (fun historical certificate =>
      if historical.contains certificate.body.mlsClientId then historical
      else historical.insert certificate.body.mlsClientId (certifiedDevice certificate))
    historical

/-- `install_roster`.  The source looks twice whether the roster is current, under the read
lock and under the write lock; in between nothing changes. -/
def installRoster (mls : Mls) (serverId : Bytes) (state : PolicyState)
    (roster : SignedDeviceRoster) : Except String PolicyState := do
  let current ← state.rosterIsCurrent mls roster
  if current then return state
  else
    match validateDeviceRoster mls roster serverId roster.body.userId with
    | .error error => .error ("invalid device roster: " ++ error)
    | .ok () =>
      let state ← state.indexAccountUser roster.body.accountId roster.body.userId
      return { state with
        devices := certify state.devices roster.body
        historicalDevices := rememberDevices state.historicalDevices roster.body.activeDevices
        historicalRosters := state.historicalRosters.insert
          (toLex (roster.body.accountId, roster.body.revision)) roster
        rosters := state.rosters.insert roster.body.accountId (rosterCheckpoint mls roster) }

/-- The loop of `install_historical_roster`.  It stops at the first certificate that differs
from the recorded one, with what it has recorded so far. -/
def recordDevices (historical : OrdMap Bytes CertifiedDevice) :
    List SignedDeviceCertificate → OrdMap Bytes CertifiedDevice × Except String Unit
  | [] => (historical, .ok ())
  | certificate :: rest =>
    match historical.get? certificate.body.mlsClientId with
    | some existing =>
      if existing ≠ certifiedDevice certificate then
        (historical, .error "invalid device roster: historical device credential equivocates")
      else recordDevices historical rest
    | none =>
      recordDevices
        (historical.insert certificate.body.mlsClientId (certifiedDevice certificate)) rest

/-- `install_historical_roster`, with the state it leaves when it fails. -/
def installHistoricalRoster (mls : Mls) (serverId : Bytes) (state : PolicyState)
    (roster : SignedDeviceRoster) : PolicyState × Except String Unit :=
  match state.historicalRosterCacheHit roster with
  | .error error => (state, .error error)
  | .ok true => (state, .ok ())
  | .ok false =>
    match validateDeviceRoster mls roster serverId roster.body.userId with
    | .error error => (state, .error ("invalid device roster: " ++ error))
    | .ok () =>
      match state.indexAccountUser roster.body.accountId roster.body.userId with
      | .error error => (state, .error error)
      | .ok state =>
        match recordDevices state.historicalDevices roster.body.activeDevices with
        | (historical, .error error) =>
          ({ state with historicalDevices := historical }, .error error)
        | (historical, .ok ()) =>
          ({ state with
            historicalDevices := historical
            historicalRosters := state.historicalRosters.insert
              (toLex (roster.body.accountId, roster.body.revision)) roster }, .ok ())

/-! ## Clients (policy.rs:271-290, 327-372) -/

def unknownDevice : String := "MLS identity is not an active certified device"

/-- `certificate_for`: the client id of a basic credential and the key that it signs with.  An
observer of past deliveries looks among the historical devices. -/
def certificateFor (state : PolicyState) (observer : Bool) (clientId signatureKey : Bytes) :
    Except String CertifiedDevice := do
  let devices := if observer then state.historicalDevices else state.devices
  let device ← require (devices.get? clientId) unknownDevice
  reject (signatureKey ≠ device.signatureKey)
    "MLS signature key does not match the device certificate"
  return device

def isClientActive (state : PolicyState) (clientId : Bytes) : Bool :=
  state.devices.contains clientId

end PolicyState

end Chatt
