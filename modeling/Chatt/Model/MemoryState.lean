import Chatt.Lib.OrdMap
import Chatt.Model.Ids

/-!
# The state of the MLS delivery store

`MemoryState` is the hot state of `crates/server/src/mls_store.rs`, and `StateDelta` the
record one mutation writes to the log before it is applied.  The `reserved` padding words
of the on-disk keys hold no data and are left out.
-/

namespace Chatt

open Chatt.Lib

/-! ## Persistent records (mls_store.rs:35-98) -/

structure DeviceCredential where
  userId : UserId
  deviceId : DeviceId
  tokenHash : String
  deriving DecidableEq

structure GlobalRecord where
  initializedAccounts : List UserId
  rosters : List (UserId × SignedDeviceRoster)
  keyPackages : List (DeviceId × List Bytes)
  retiredKeyPackages : List Digest
  issuedKeyPackages : List Bytes
  usedKeyPackages : List Bytes
  lastResortKeyPackages : List Bytes
  nextWelcomeDeliveryId : ℕ
  credentials : List DeviceCredential
  deviceOwners : List (DeviceId × UserId)
  deriving DecidableEq

/-- `GlobalRecord::default` with the first Welcome id, as an empty store starts. -/
def GlobalRecord.initial : GlobalRecord where
  initializedAccounts := []
  rosters := []
  keyPackages := []
  retiredKeyPackages := []
  issuedKeyPackages := []
  usedKeyPackages := []
  lastResortKeyPackages := []
  nextWelcomeDeliveryId := 1
  credentials := []
  deviceOwners := []

structure RoomRecord where
  descriptor : EncryptedRoomDescriptor
  publicState : PublicGroupState
  groupInfo : Bytes
  revocationPending : Bool
  headSequence : ℕ
  oldestAvailableSequence : ℕ
  lastEventTimeUnixMs : ℕ
  retentionDays : ℕ
  requiredDevices : List DeviceId
  deriving DecidableEq

structure StoredEvent where
  event : MlsDeliveryEvent
  storedAtUnixMs : ℕ
  payloadLen : ℕ
  deriving DecidableEq

structure StoredWelcome where
  deliveryId : ℕ
  sequence : ℕ
  storedAtUnixMs : ℕ
  bundle : MlsWelcomeBundle
  payloadLen : ℕ
  deriving DecidableEq

structure DeviceCursor where
  highestContiguousSequence : ℕ
  startingSequence : ℕ
  lastAckUnixMs : ℕ
  rejoinRequiredThrough : Option ℕ
  deriving DecidableEq

/-! ## The hot state (mls_store.rs:147-160) -/

structure MemoryState where
  global : GlobalRecord
  rooms : OrdMap RoomId RoomRecord
  events : OrdMap (RoomId ×ₗ ℕ) StoredEvent
  eventIds : OrdMap (RoomId ×ₗ EventId) ℕ
  commitEpochs : OrdMap (RoomId ×ₗ ℕ) ℕ
  deviceCursors : OrdMap (RoomId ×ₗ DeviceId) DeviceCursor
  welcomes : OrdMap ℕ StoredWelcome
  welcomeTargetCounts : OrdMap ℕ ℕ
  deviceWelcomes : OrdSet (DeviceId ×ₗ ℕ)
  welcomeCursors : OrdMap DeviceId ℕ
  retiredPayloadBytes : ℕ
  deriving DecidableEq

/-- The state of a store that has never been written (mls_store.rs:461-467, 2160-2166). -/
def MemoryState.initial : MemoryState where
  global := GlobalRecord.initial
  rooms := OrdMap.empty
  events := OrdMap.empty
  eventIds := OrdMap.empty
  commitEpochs := OrdMap.empty
  deviceCursors := OrdMap.empty
  welcomes := OrdMap.empty
  welcomeTargetCounts := OrdMap.empty
  deviceWelcomes := OrdMap.empty
  welcomeCursors := OrdMap.empty
  retiredPayloadBytes := 0

/-! ## Log records (mls_store.rs:162-231, 269-283) -/

structure WalEvent where
  roomId : RoomId
  storedAtUnixMs : ℕ
  event : MlsDeliveryEvent
  deriving DecidableEq

structure WalCursor where
  roomId : RoomId
  deviceId : DeviceId
  cursor : DeviceCursor
  deriving DecidableEq

structure WalWelcome where
  deliveryId : ℕ
  sequence : ℕ
  storedAtUnixMs : ℕ
  bundle : MlsWelcomeBundle
  deriving DecidableEq

structure EventKey where
  sequence : ℕ
  roomId : RoomId
  deriving DecidableEq

structure CursorKey where
  deviceId : DeviceId
  roomId : RoomId
  deriving DecidableEq

structure DeviceWelcomeCheckpoint where
  deliveryId : ℕ
  deviceId : DeviceId
  deriving DecidableEq

structure WelcomeCursorCheckpoint where
  deliveryId : ℕ
  deviceId : DeviceId
  deriving DecidableEq

structure StateDelta where
  global : Option GlobalRecord := none
  rooms : List RoomRecord := []
  events : List WalEvent := []
  deletedEvents : List EventKey := []
  cursors : List WalCursor := []
  deletedCursors : List CursorKey := []
  welcomes : List WalWelcome := []
  deletedWelcomeTargets : List DeviceWelcomeCheckpoint := []
  welcomeCursors : List WelcomeCursorCheckpoint := []
  deriving DecidableEq

def StateDelta.isEmpty (d : StateDelta) : Bool :=
  d.global.isNone && d.rooms.isEmpty && d.events.isEmpty && d.deletedEvents.isEmpty &&
    d.cursors.isEmpty && d.deletedCursors.isEmpty && d.welcomes.isEmpty &&
    d.deletedWelcomeTargets.isEmpty && d.welcomeCursors.isEmpty

/-! ## Records to evaluate on -/

def sampleDevice (n : Byte) : DeviceId := ByteArr.replicate 16 n

def sampleDescriptor (roomId : RoomId) : EncryptedRoomDescriptor where
  roomId := roomId
  mlsGroupId := []
  creator := ByteArr.replicate 32 0
  memberAccounts := []
  createdAtMs := 0
  protocolVersion := 1

/-- A room of the given device at epoch `epoch`, its log ending at `head`. -/
def sampleRoom (roomId : RoomId) (epoch head : ℕ) (requiredDevices : List DeviceId) :
    RoomRecord where
  descriptor := sampleDescriptor roomId
  publicState :=
    { epoch, groupId := [], treeHash := [], transcriptHash := [], memberClientIds := [],
      snapshot := [] }
  groupInfo := []
  revocationPending := false
  headSequence := head
  oldestAvailableSequence := 1
  lastEventTimeUnixMs := 0
  retentionDays := 1
  requiredDevices := requiredDevices

/-! ## Applying a delta

`applyDelta` and the functions it calls (mls_store.rs:1134-1210, 1256-1297, 1359-1408).
The source mutates the state in place and may stop with an error half way, so the model
returns the state reached beside the result. -/

variable (s : MemoryState)

def removeEventMemory (roomId : RoomId) (sequence : ℕ) : MemoryState :=
  match s.events.get? (toLex (roomId, sequence)) with
  | none => s
  | some stored =>
    let s := { s with
      events := s.events.erase (toLex (roomId, sequence))
      retiredPayloadBytes := saturatingAdd s.retiredPayloadBytes stored.payloadLen }
    match stored.event with
    | .application _ _ eventId _ _ =>
      { s with eventIds := s.eventIds.erase (toLex (roomId, eventId)) }
    | .commit _ parentEpoch _ _ _ =>
      { s with commitEpochs := s.commitEpochs.erase (toLex (roomId, parentEpoch)) }

/-- The bytes an event is accounted with when it is inserted.  The source narrows the
length to `u32` and panics past it; the service bounds it by 224 KiB long before. -/
def MlsDeliveryEvent.payloadLen : MlsDeliveryEvent → ℕ
  | .application _ _ _ _ ciphertext => ciphertext.length
  | .commit _ _ _ _ bytes => bytes.length

def insertEventMemory (roomId : RoomId) (event : MlsDeliveryEvent)
    (storedAtUnixMs : ℕ) : MemoryState :=
  let sequence := event.sequence
  if (s.events.get? (toLex (roomId, sequence))).any
      (fun stored => stored.event = event ∧ stored.storedAtUnixMs = storedAtUnixMs) then s
  else
    let s := removeEventMemory s roomId sequence
    let s := match event with
      | .application _ _ eventId _ _ =>
        { s with eventIds := s.eventIds.insert (toLex (roomId, eventId)) sequence }
      | .commit _ parentEpoch _ _ _ =>
        { s with commitEpochs := s.commitEpochs.insert (toLex (roomId, parentEpoch)) sequence }
    let stored : StoredEvent := { event, storedAtUnixMs, payloadLen := event.payloadLen }
    { s with events := s.events.insert (toLex (roomId, sequence)) stored }

def insertWelcomeMemory (deliveryId : ℕ) (bundle : MlsWelcomeBundle)
    (sequence storedAtUnixMs : ℕ) : MemoryState :=
  if (s.welcomes.get? deliveryId).any
      (fun stored => stored.sequence = sequence ∧ stored.storedAtUnixMs = storedAtUnixMs ∧
        stored.bundle = bundle) then s
  else
    let deviceWelcomes := s.deviceWelcomes.retain fun target _ => (ofLex target).2 ≠ deliveryId
    let retired := match s.welcomes.get? deliveryId with
      | none => s.retiredPayloadBytes
      | some previous => saturatingAdd s.retiredPayloadBytes previous.payloadLen
    let stored : StoredWelcome := { deliveryId, sequence, storedAtUnixMs, bundle, payloadLen :=
      bundle.welcome.length }
    { s with
      welcomes := s.welcomes.insert deliveryId stored
      deviceWelcomes := bundle.deviceIds.foldl
        (fun targets device => targets.insert (toLex (device, deliveryId)) ()) deviceWelcomes
      welcomeTargetCounts :=
        s.welcomeTargetCounts.insert deliveryId (bundle.deviceIds.length % 2 ^ 16)
      retiredPayloadBytes := retired }

/-- One turn of the loop over `deleted_welcome_targets`. -/
def deleteWelcomeTarget (target : DeviceWelcomeCheckpoint) : MemoryState × Except String Unit :=
  let key := toLex (target.deviceId, target.deliveryId)
  if !s.deviceWelcomes.contains key then (s, .ok ())
  else
    let s := { s with deviceWelcomes := s.deviceWelcomes.erase key }
    match s.welcomeTargetCounts.get? target.deliveryId with
    | none => (s, .error "MLS Welcome target count is missing")
    | some count =>
      if count = 1 then
        let s := { s with welcomeTargetCounts := s.welcomeTargetCounts.erase target.deliveryId }
        match s.welcomes.get? target.deliveryId with
        | none => (s, .ok ())
        | some welcome =>
          ({ s with
            welcomes := s.welcomes.erase target.deliveryId
            retiredPayloadBytes := saturatingAdd s.retiredPayloadBytes welcome.payloadLen }, .ok ())
      else
        ({ s with welcomeTargetCounts :=
            s.welcomeTargetCounts.insert target.deliveryId (count - 1) }, .ok ())

def deleteWelcomeTargets (s : MemoryState) :
    List DeviceWelcomeCheckpoint → MemoryState × Except String Unit
  | [] => (s, .ok ())
  | target :: rest =>
    match deleteWelcomeTarget s target with
    | (s, .error error) => (s, .error error)
    | (s, .ok ()) => deleteWelcomeTargets s rest

/-- The two loops of `applyDelta` before the fallible one. -/
def applyDeletions (d : StateDelta) : MemoryState :=
  let s := d.deletedEvents.foldl (fun s key => removeEventMemory s key.roomId key.sequence) s
  let deviceCursors := d.deletedCursors.foldl
    (fun cursors key => cursors.erase (toLex (key.roomId, key.deviceId))) s.deviceCursors
  { s with deviceCursors }

/-- The loops of `applyDelta` after the fallible one. -/
def applyInsertions (d : StateDelta) : MemoryState :=
  let s := d.events.foldl
    (fun s stored => insertEventMemory s stored.roomId stored.event stored.storedAtUnixMs) s
  let s := d.welcomes.foldl
    (fun s stored => insertWelcomeMemory s stored.deliveryId stored.bundle stored.sequence
      stored.storedAtUnixMs) s
  { s with
    rooms := d.rooms.foldl (fun rooms room => rooms.insert room.descriptor.roomId room) s.rooms
    deviceCursors := d.cursors.foldl
      (fun cursors stored =>
        cursors.insert (toLex (stored.roomId, stored.deviceId)) stored.cursor) s.deviceCursors
    welcomeCursors := d.welcomeCursors.foldl
      (fun cursors cursor => cursors.insert cursor.deviceId cursor.deliveryId) s.welcomeCursors
    global := d.global.getD s.global }

def applyDelta (d : StateDelta) : MemoryState × Except String Unit :=
  match deleteWelcomeTargets (applyDeletions s d) d.deletedWelcomeTargets with
  | (s, .error error) => (s, .error error)
  | (s, .ok ()) => (applyInsertions s d, .ok ())

/-! ## Validating the state

`validate_memory` (mls_store.rs:1527-1684), check by check and in the order of the source.
`binary_search` on a list that an earlier check found strictly sorted is membership. -/

/-- The loop over a room's retained events; answers the sequence after the last one. -/
def scanContiguous :
    List ((RoomId ×ₗ ℕ) × StoredEvent) → ℕ → Except String ℕ
  | [], expected => .ok expected
  | (key, stored) :: rest, expected =>
    if (ofLex key).2 ≠ expected ∨ stored.event.sequence ≠ expected then
      .error "persisted MLS delivery sequence is not contiguous"
    else
      match checkedAdd expected 1 with
      | none => .error "persisted MLS delivery sequence is exhausted"
      | some expected => scanContiguous rest expected

variable (s : MemoryState)

/-- The scan of one room; an empty range is not looked up. -/
def scanRoom (room : RoomRecord) : Except String ℕ :=
  let id := room.descriptor.roomId
  if room.oldestAvailableSequence ≤ room.headSequence then
    scanContiguous (s.events.range (toLex (id, room.oldestAvailableSequence))
      (toLex (id, room.headSequence))) room.oldestAvailableSequence
  else .ok room.oldestAvailableSequence

def validateRoom (room : RoomRecord) : Except String Unit := do
  let id := room.descriptor.roomId
  let afterHead ← require (checkedAdd room.headSequence 1)
    "persisted MLS room has exhausted its delivery sequence"
  reject (room.oldestAvailableSequence = 0 ∨ room.oldestAvailableSequence > afterHead ∨
    ¬ room.requiredDevices.IsChain (· < ·))
    "persisted MLS room has an invalid retained range"
  let expected ← scanRoom s room
  reject (expected ≠ afterHead) "persisted MLS delivery head does not match its log"
  room.requiredDevices.forM fun device =>
    reject (s.deviceCursors.contains (toLex (id, device)) = false)
      "persisted MLS required device has no cursor"

def validateEvent (roomId : RoomId) (sequence : ℕ) (stored : StoredEvent) :
    Except String Unit := do
  let room ← require (s.rooms.get? roomId) "persisted MLS event references a missing room"
  reject (sequence < room.oldestAvailableSequence ∨ sequence > room.headSequence ∨
    stored.event.sequence ≠ sequence)
    "persisted MLS event lies outside its room log"
  match stored.event with
  | .application _ _ eventId _ _ =>
    reject (s.eventIds.get? (toLex (roomId, eventId)) ≠ some sequence)
      "persisted MLS application index is inconsistent"
  | .commit _ parentEpoch _ _ _ =>
    reject (s.commitEpochs.get? (toLex (roomId, parentEpoch)) ≠ some sequence)
      "persisted MLS commit index is inconsistent"

def validateCursor (roomId : RoomId) (deviceId : DeviceId)
    (cursor : DeviceCursor) : Except String Unit := do
  let room ← require (s.rooms.get? roomId) "persisted MLS cursor references a missing room"
  reject (deviceId ∉ room.requiredDevices)
    "persisted MLS cursor references a non-required device"
  reject (cursor.startingSequence = 0 ∨ cursor.startingSequence > cursor.highestContiguousSequence ∨
      cursor.highestContiguousSequence > room.headSequence ∨
      cursor.rejoinRequiredThrough.any (fun watermark =>
        watermark < cursor.highestContiguousSequence ∨ watermark > room.headSequence) = true)
    "persisted MLS device cursor is inconsistent"

/-- Whether `sequence` of `roomId` is a retained commit. -/
def isRetainedCommit (roomId : RoomId) (sequence : ℕ) : Bool :=
  (s.events.get? (toLex (roomId, sequence))).any fun stored => stored.event.parentEpoch?.isSome

def validateWelcome (deliveryId : ℕ) (welcome : StoredWelcome) :
    Except String Unit := do
  reject (deliveryId = 0 ∨ deliveryId ≥ s.global.nextWelcomeDeliveryId)
    "persisted MLS Welcome delivery id is inconsistent"
  let room ← require (s.rooms.get? welcome.bundle.descriptor.roomId)
    "persisted MLS Welcome references a missing room"
  reject (welcome.bundle.descriptor ≠ room.descriptor ∨ welcome.sequence = 0 ∨
      welcome.sequence > room.headSequence ∨ welcome.bundle.deviceIds = [] ∨
      welcome.bundle.deviceIds.length > maxMlsWelcomesPerCommit ∨
      ¬ welcome.bundle.deviceIds.Nodup)
    "persisted MLS Welcome metadata is inconsistent"
  let targetCount ← require (s.welcomeTargetCounts.get? deliveryId)
    "persisted MLS Welcome targets are inconsistent"
  reject (targetCount = 0 ∨ targetCount > welcome.bundle.deviceIds.length)
    "persisted MLS Welcome target count is inconsistent"
  reject (welcome.sequence ≥ room.oldestAvailableSequence ∧
    isRetainedCommit s room.descriptor.roomId welcome.sequence = false)
    "persisted MLS Welcome does not reference a retained commit"

/-- The loop that counts the targets of every Welcome. -/
def countTargets (s : MemoryState) :
    List (DeviceId ×ₗ ℕ) → OrdMap ℕ ℕ → Except String (OrdMap ℕ ℕ)
  | [], counts => .ok counts
  | key :: rest, counts =>
    let (deviceId, deliveryId) := ofLex key
    match s.welcomes.get? deliveryId with
    | none => .error "persisted MLS Welcome target references a missing value"
    | some welcome =>
      if deviceId ∉ welcome.bundle.deviceIds then
        .error "persisted MLS Welcome target is inconsistent"
      else
        let count := (counts.get? deliveryId).getD 0
        if count + 1 > u16Max then .error "persisted MLS Welcome target count is too large"
        else countTargets s rest (counts.insert deliveryId (count + 1))

def validateMemory : Except String Unit := do
  reject (s.global.nextWelcomeDeliveryId = 0) "persisted MLS Welcome delivery head is invalid"
  s.rooms.values.forM (validateRoom s)
  s.events.entries.forM fun e => validateEvent s (ofLex e.1).1 (ofLex e.1).2 e.2
  reject (s.events.entries.countP (fun e => e.2.event.eventId?.isSome) ≠ s.eventIds.size ∨
      s.events.entries.countP (fun e => e.2.event.parentEpoch?.isSome) ≠ s.commitEpochs.size)
    "persisted MLS delivery indexes contain orphan entries"
  s.deviceCursors.entries.forM fun e => validateCursor s (ofLex e.1).1 (ofLex e.1).2 e.2
  s.welcomes.entries.forM fun e => validateWelcome s e.1 e.2
  let actualTargetCounts ← countTargets s s.deviceWelcomes.keys OrdMap.empty
  reject (actualTargetCounts ≠ s.welcomeTargetCounts)
    "persisted MLS Welcome target counts are inconsistent"
  reject (s.welcomeCursors.values.any (fun deliveryId =>
      deliveryId = 0 ∨ deliveryId ≥ s.global.nextWelcomeDeliveryId) = true)
    "persisted MLS Welcome cursor is inconsistent"

end Chatt
