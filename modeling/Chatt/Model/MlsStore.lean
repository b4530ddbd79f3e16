import Chatt.Model.MemoryState

/-!
# Operations of the MLS delivery store

The operations of `MlsStore` (mls_store.rs:501-1128).  Each mutating operation first plans
a delta under the read lock and then commits it: the delta is appended to the log and
applied under the write lock.  `planX` is the planning part of the source's `x`, and
`MlsStore.x` the whole operation.  The parameter `io` is what the append answers: `none`
for success, `some error` for a failed append, which leaves the log as it was.
-/

namespace Chatt

open Chatt.Lib

/-- The store: its hot state and the room the last cleanup pass ended with. -/
structure MlsStore where
  state : MemoryState
  cleanupAfterRoom : RoomId
  deriving DecidableEq

/-- `MlsStore::open` on an empty or absent data directory. -/
def MlsStore.initial : MlsStore := { state := MemoryState.initial, cleanupAfterRoom := 0 }

/-- What one append to the log answers. -/
abbrev AppendResult := Option String

def MlsStore.commit (io : AppendResult) (store : MlsStore) (d : StateDelta) :
    MlsStore × Except String Unit :=
  match io with
  | some error => (store, .error error)
  | none =>
    let (state, result) := applyDelta store.state d
    ({ store with state }, result)

/-! ## Checks and reconciliation (mls_store.rs:1216-1357) -/

variable (s : MemoryState)

def welcomeHeadMemory (deviceId : DeviceId) : ℕ :=
  let pending :=
    match (s.deviceWelcomes.range (toLex (deviceId, 0)) (toLex (deviceId, u64Max))).getLast? with
    | none => 0
    | some target => (ofLex target.1).2
  max pending ((s.welcomeCursors.get? deviceId).getD 0)

def ensureEventAvailable (roomId : RoomId) (event : MlsDeliveryEvent) : Except String Unit :=
  if s.events.contains (toLex (roomId, event.sequence)) then
    .error "MLS delivery sequence unexpectedly already exists"
  else
    match event with
    | .application _ _ eventId _ _ =>
      if s.eventIds.contains (toLex (roomId, eventId)) then
        .error "MLS application event id unexpectedly already exists"
      else .ok ()
    | .commit _ parentEpoch _ _ _ =>
      if s.commitEpochs.contains (toLex (roomId, parentEpoch)) then
        .error "MLS commit parent epoch unexpectedly already exists"
      else .ok ()

/-- The devices of `room` that `previous` lacks. -/
def addedDevices (previous : List DeviceId) (room : RoomRecord) : List DeviceId :=
  room.requiredDevices.filter (· ∉ previous)

/-- The devices of `previous` that `room` no longer requires. -/
def removedDevices (previous : List DeviceId) (room : RoomRecord) : List DeviceId :=
  previous.filter (· ∉ room.requiredDevices)

/-- The cursor of a device that joins at `sequence`. -/
def freshCursor (room : RoomRecord) (sequence : ℕ) : DeviceCursor where
  highestContiguousSequence := sequence
  startingSequence := sequence
  lastAckUnixMs := room.lastEventTimeUnixMs
  rejoinRequiredThrough := none

def planCursorReconciliation (roomId : RoomId) (previous : List DeviceId)
    (room : RoomRecord) (sequence : ℕ) (d : StateDelta) : Except String StateDelta :=
  if (addedDevices previous room).any
      (fun added => s.deviceCursors.contains (toLex (roomId, added))) then
    .error "new MLS room member unexpectedly already has a cursor"
  else
    .ok { d with
      deletedCursors := d.deletedCursors ++ (removedDevices previous room).map
        (fun removed => { deviceId := removed, roomId })
      cursors := d.cursors ++ (addedDevices previous room).map
        (fun added => { roomId, deviceId := added, cursor := freshCursor room sequence }) }

def ensureWelcomeAvailable (welcome : Option (ℕ × MlsWelcomeBundle)) : Except String Unit :=
  match welcome with
  | none => .ok ()
  | some (deliveryId, bundle) =>
    if s.welcomes.contains deliveryId then
      .error "MLS Welcome delivery id unexpectedly already exists"
    else if bundle.deviceIds.any
        (fun device => s.deviceWelcomes.contains (toLex (device, deliveryId))) then
      .error "MLS Welcome target unexpectedly already exists"
    else .ok ()

/-! ## Room and commit mutations (mls_store.rs:523-643) -/

/-- The loop of `replace_global_and_rooms` over the replaced rooms. -/
def planReplaceRooms (s : MemoryState) (d : StateDelta) :
    List RoomRecord → Except String StateDelta
  | [] => .ok d
  | room :: rest =>
    let previous := ((s.rooms.get? room.descriptor.roomId).map (·.requiredDevices)).getD []
    match planCursorReconciliation s room.descriptor.roomId previous room room.headSequence d with
    | .error error => .error error
    | .ok d => planReplaceRooms s d rest

def planReplaceGlobalAndRooms (global : GlobalRecord)
    (rooms : List RoomRecord) : Except String StateDelta :=
  planReplaceRooms s { global := some global, rooms } rooms

/-- The delta `create_room` and `append_commit` share: the new room record, its event, the
cursors of the devices that changed, and the Welcome if there is one. -/
def planAppendRoomEvent (global : GlobalRecord) (previous : List DeviceId)
    (room : RoomRecord) (event : MlsDeliveryEvent) (welcome : Option (ℕ × MlsWelcomeBundle)) :
    Except String StateDelta :=
  let roomId := room.descriptor.roomId
  match ensureEventAvailable s roomId event with
  | .error error => .error error
  | .ok () =>
    match ensureWelcomeAvailable s welcome with
    | .error error => .error error
    | .ok () =>
      let d : StateDelta :=
        { global := some global
          rooms := [room]
          events := [{ roomId, storedAtUnixMs := room.lastEventTimeUnixMs, event }] }
      match planCursorReconciliation s roomId previous room room.headSequence d with
      | .error error => .error error
      | .ok d =>
        match welcome with
        | none => .ok d
        | some (deliveryId, bundle) =>
          .ok { d with welcomes := d.welcomes ++ [
            { deliveryId, sequence := room.headSequence,
              storedAtUnixMs := room.lastEventTimeUnixMs, bundle }] }

def planCreateRoom (global : GlobalRecord) (room : RoomRecord)
    (event : MlsDeliveryEvent) (welcome : Option (ℕ × MlsWelcomeBundle)) :
    Except String StateDelta :=
  if s.rooms.contains room.descriptor.roomId then
    .error "encrypted room already exists in MLS storage"
  else planAppendRoomEvent s global [] room event welcome

def planAppendCommit (global : GlobalRecord) (previous room : RoomRecord)
    (event : MlsDeliveryEvent) (welcome : Option (ℕ × MlsWelcomeBundle)) :
    Except String StateDelta :=
  match s.rooms.get? room.descriptor.roomId with
  | none => .error "encrypted room does not exist in MLS storage"
  | some durable =>
    if durable.publicState.epoch ≠ previous.publicState.epoch ∨
      durable.headSequence ≠ previous.headSequence then
      .error "MLS room changed during commit validation"
    else planAppendRoomEvent s global previous.requiredDevices room event welcome

def MlsStore.replaceGlobalAndRooms (io : AppendResult) (store : MlsStore)
    (global : GlobalRecord) (rooms : List RoomRecord) : MlsStore × Except String Unit :=
  match planReplaceGlobalAndRooms store.state global rooms with
  | .error error => (store, .error error)
  | .ok d => store.commit io d

def MlsStore.createRoom (io : AppendResult) (store : MlsStore) (global : GlobalRecord)
    (room : RoomRecord) (event : MlsDeliveryEvent) (welcome : Option (ℕ × MlsWelcomeBundle)) :
    MlsStore × Except String Unit :=
  match planCreateRoom store.state global room event welcome with
  | .error error => (store, .error error)
  | .ok d => store.commit io d

def MlsStore.appendCommit (io : AppendResult) (store : MlsStore) (global : GlobalRecord)
    (previous room : RoomRecord) (event : MlsDeliveryEvent)
    (welcome : Option (ℕ × MlsWelcomeBundle)) : MlsStore × Except String Unit :=
  match planAppendCommit store.state global previous room event welcome with
  | .error error => (store, .error error)
  | .ok d => store.commit io d

def MlsStore.findCommit (store : MlsStore) (roomId : RoomId) (parentEpoch : ℕ)
    (commit : Bytes) : Except String (Option (ℕ × ℕ)) :=
  match store.state.commitEpochs.get? (toLex (roomId, parentEpoch)) with
  | none => .ok none
  | some sequence =>
    match store.state.events.get? (toLex (roomId, sequence)) with
    | none => .error "MLS commit index references a missing event"
    | some stored =>
      match stored.event with
      | .commit _ _ epoch _ bytes =>
        if bytes = commit then .ok (some (sequence, epoch)) else .ok none
      | .application .. => .ok none

/-! ## Application events (mls_store.rs:669-812) -/

inductive AppendApplicationResult where
  | stored (sequence : ℕ) (room : RoomRecord) (event : MlsDeliveryEvent)
  | alreadyStored (sequence : ℕ)
  | conflict
  | staleEpoch (currentEpoch : ℕ)
  | revocationPending
  | rejoinRequired
  deriving DecidableEq

/-- Whether a stored event is the application a client submits again. -/
def isExactRetry (stored : StoredEvent) (eventId : EventId) (epoch : ℕ) (ciphertext : Bytes) :
    Bool :=
  match stored.event with
  | .application _ storedEpoch storedId _ storedCiphertext =>
    storedEpoch = epoch ∧ storedId = eventId ∧ storedCiphertext = ciphertext
  | .commit .. => false

def MlsStore.requiresRejoin (store : MlsStore) (roomId : RoomId) (deviceId : DeviceId) : Bool :=
  (store.state.deviceCursors.get? (toLex (roomId, deviceId))).any
    (fun cursor => cursor.rejoinRequiredThrough.isSome)

def planAppendApplication (roomId : RoomId) (deviceId : DeviceId)
    (expectedEpoch : ℕ) (eventId : EventId) (rosters : List SignedDeviceRoster)
    (ciphertext : Bytes) (nowUnixMs : ℕ) :
    Except String (AppendApplicationResult × Option StateDelta) :=
  match s.eventIds.get? (toLex (roomId, eventId)) with
  | some sequence =>
    match s.events.get? (toLex (roomId, sequence)) with
    | none => .error "MLS event id references a missing event"
    | some stored =>
      if isExactRetry stored eventId expectedEpoch ciphertext then
        .ok (.alreadyStored sequence, none)
      else .ok (.conflict, none)
  | none =>
    if (s.deviceCursors.get? (toLex (roomId, deviceId))).any
        (fun cursor => cursor.rejoinRequiredThrough.isSome) then
      .ok (.rejoinRequired, none)
    else
      match s.rooms.get? roomId with
      | none => .error "encrypted room does not exist"
      | some room =>
        if room.revocationPending then .ok (.revocationPending, none)
        else if room.publicState.epoch ≠ expectedEpoch then
          .ok (.staleEpoch room.publicState.epoch, none)
        else
          match (checkedAdd room.headSequence 1).filter (· < u64Max) with
          | none => .error "MLS delivery sequence is exhausted"
          | some sequence =>
            let storedAt := max nowUnixMs room.lastEventTimeUnixMs
            let event : MlsDeliveryEvent :=
              .application sequence expectedEpoch eventId rosters ciphertext
            let room := { room with headSequence := sequence, lastEventTimeUnixMs := storedAt }
            .ok (.stored sequence room event,
              some { rooms := [room], events := [{ roomId, storedAtUnixMs := storedAt, event }] })

def MlsStore.appendApplication (io : AppendResult) (store : MlsStore) (roomId : RoomId)
    (deviceId : DeviceId) (expectedEpoch : ℕ) (eventId : EventId)
    (rosters : List SignedDeviceRoster) (ciphertext : Bytes) (nowUnixMs : ℕ) :
    MlsStore × Except String AppendApplicationResult :=
  match planAppendApplication store.state roomId deviceId expectedEpoch eventId rosters
      ciphertext nowUnixMs with
  | .error error => (store, .error error)
  | .ok (result, none) => (store, .ok result)
  | .ok (result, some d) =>
    match store.commit io d with
    | (store, .error error) => (store, .error error)
    | (store, .ok ()) => (store, .ok result)

/-- `none` for an unknown id, `some (some sequence)` for an exact retry, and `some none`
where the id belongs to another application. -/
def MlsStore.applicationRetry (store : MlsStore) (roomId : RoomId) (eventId : EventId)
    (epoch : ℕ) (ciphertext : Bytes) : Except String (Option (Option ℕ)) :=
  match store.state.eventIds.get? (toLex (roomId, eventId)) with
  | none => .ok none
  | some sequence =>
    match store.state.events.get? (toLex (roomId, sequence)) with
    | none => .error "MLS event id references a missing event"
    | some stored =>
      if isExactRetry stored eventId epoch ciphertext then .ok (some (some sequence))
      else .ok (some none)

structure EventBatch where
  events : List MlsDeliveryEvent
  oldestAvailableSequence : ℕ
  headSequence : ℕ
  deriving DecidableEq

def MlsStore.events (store : MlsStore) (roomId : RoomId) (after limit : ℕ) :
    Except String EventBatch :=
  match store.state.rooms.get? roomId with
  | none => .error "encrypted room does not exist"
  | some room =>
    let events := match checkedAdd after 1 with
      | some start =>
        ((store.state.events.range (toLex (roomId, max start room.oldestAvailableSequence))
          (toLex (roomId, u64Max))).take limit).map (fun e => e.2.event)
      | none => []
    .ok { events
          oldestAvailableSequence := room.oldestAvailableSequence
          headSequence := room.headSequence }

/-! ## Acknowledgements (mls_store.rs:814-994) -/

def planAcknowledge (roomId : RoomId) (deviceId : DeviceId)
    (sequence nowUnixMs : ℕ) : Except String (Option StateDelta) :=
  match s.rooms.get? roomId with
  | none => .error "encrypted room does not exist"
  | some room =>
    if sequence > room.headSequence then
      .error "MLS acknowledgement is beyond the room head"
    else
      match s.deviceCursors.get? (toLex (roomId, deviceId)) with
      | none => .error "MLS device has no cursor for this room"
      | some cursor =>
        if sequence < cursor.startingSequence then
          .error "MLS acknowledgement predates the device's room membership"
        else if sequence ≤ cursor.highestContiguousSequence then .ok none
        else
          let cursor := { cursor with
            highestContiguousSequence := sequence
            lastAckUnixMs := nowUnixMs
            rejoinRequiredThrough :=
              if cursor.rejoinRequiredThrough.any (fun watermark => sequence > watermark) then none
              else cursor.rejoinRequiredThrough }
          .ok (some { cursors := [{ roomId, deviceId, cursor }] })

def MlsStore.acknowledge (io : AppendResult) (store : MlsStore) (roomId : RoomId)
    (deviceId : DeviceId) (sequence nowUnixMs : ℕ) : MlsStore × Except String Bool :=
  match planAcknowledge store.state roomId deviceId sequence nowUnixMs with
  | .error error => (store, .error error)
  | .ok none => (store, .ok false)
  | .ok (some d) =>
    match store.commit io d with
    | (store, .error error) => (store, .error error)
    | (store, .ok ()) => (store, .ok true)

def planPersistAcknowledgement (roomId : RoomId) (deviceId : DeviceId) : Except String StateDelta :=
  match s.deviceCursors.get? (toLex (roomId, deviceId)) with
  | none => .error "MLS device has no cursor for this room"
  | some cursor => .ok { cursors := [{ roomId, deviceId, cursor }] }

def MlsStore.persistAcknowledgement (io : AppendResult) (store : MlsStore) (roomId : RoomId)
    (deviceId : DeviceId) : MlsStore × Except String Unit :=
  match planPersistAcknowledgement store.state roomId deviceId with
  | .error error => (store, .error error)
  | .ok d => store.commit io d

def MlsStore.welcomes (store : MlsStore) (deviceId : DeviceId) (after : ℕ) :
    Except String (List MlsWelcome) :=
  match checkedAdd after 1 with
  | none => .ok []
  | some start =>
    (store.state.deviceWelcomes.range (toLex (deviceId, start)) (toLex (deviceId, u64Max))).mapM
      fun target =>
        match store.state.welcomes.get? (ofLex target.1).2 with
        | none => .error "MLS Welcome target references a missing value"
        | some stored =>
          .ok { deliveryId := (ofLex target.1).2
                sequence := stored.sequence
                deviceId
                descriptor := stored.bundle.descriptor
                welcome := stored.bundle.welcome }

def planAcknowledgeWelcome (deviceId : DeviceId) (deliveryId : ℕ) :
    Except String (Option StateDelta) :=
  if deliveryId ≤ (s.welcomeCursors.get? deviceId).getD 0 then .ok none
  else if deliveryId > welcomeHeadMemory s deviceId then
    .error "MLS Welcome acknowledgement is beyond the inbox head"
  else .ok (some { welcomeCursors := [{ deliveryId, deviceId }] })

def MlsStore.acknowledgeWelcome (io : AppendResult) (store : MlsStore) (deviceId : DeviceId)
    (deliveryId : ℕ) : MlsStore × Except String Bool :=
  match planAcknowledgeWelcome store.state deviceId deliveryId with
  | .error error => (store, .error error)
  | .ok none => (store, .ok false)
  | .ok (some d) =>
    match store.commit io d with
    | (store, .error error) => (store, .error error)
    | (store, .ok ()) => (store, .ok true)

def planPersistWelcomeAcknowledgement (deviceId : DeviceId) : Except String StateDelta :=
  match s.welcomeCursors.get? deviceId with
  | none => .error "MLS device has no Welcome acknowledgement"
  | some deliveryId => .ok { welcomeCursors := [{ deliveryId, deviceId }] }

def MlsStore.persistWelcomeAcknowledgement (io : AppendResult) (store : MlsStore)
    (deviceId : DeviceId) : MlsStore × Except String Unit :=
  match planPersistWelcomeAcknowledgement store.state deviceId with
  | .error error => (store, .error error)
  | .ok d => store.commit io d

/-! ## Retention (mls_store.rs:996-1045, 1410-1525) -/

structure CleanupReport where
  deletedEvents : ℕ := 0
  laggingDevices : ℕ := 0
  moreWork : Bool := false
  deriving DecidableEq

/-- The window in milliseconds, `u64::from(days).saturating_mul(24 * 60 * 60 * 1000)`. -/
def retentionMs (retentionDays : ℕ) : ℕ := saturatingMul retentionDays (24 * 60 * 60 * 1000)

/-- The loop that reads the required cursors of a room. -/
def requiredCursors (s : MemoryState) (roomId : RoomId) :
    List DeviceId → Except String (List (DeviceId × DeviceCursor))
  | [] => .ok []
  | device :: rest =>
    match s.deviceCursors.get? (toLex (roomId, device)) with
    | none => .error "required MLS device is missing its cursor"
    | some cursor =>
      match requiredCursors s roomId rest with
      | .error error => .error error
      | .ok required => .ok ((device, cursor) :: required)

/-- The sequence every required device has passed; the head when no device is required. -/
def acknowledgedFloor (headSequence : ℕ) (required : List (DeviceId × DeviceCursor)) : ℕ :=
  ((required.map (fun r => r.2.highestContiguousSequence)).min?).getD headSequence

/-- The loop that follows the expired prefix of a room's log. -/
def expiredThrough (cutoff : ℕ) : List ((RoomId ×ₗ ℕ) × StoredEvent) → ℕ → ℕ
  | [], expiry => expiry
  | (_, stored) :: rest, expiry =>
    if stored.storedAtUnixMs ≥ cutoff then expiry
    else expiredThrough cutoff rest stored.event.sequence

/-- The loop that collects the events to delete, from `sequence` on for `count` steps. -/
def planDeleteEvents (s : MemoryState) (roomId : RoomId) :
    ℕ → ℕ → Except String (List EventKey)
  | _, 0 => .ok []
  | sequence, count + 1 =>
    if s.events.contains (toLex (roomId, sequence)) then
      match planDeleteEvents s roomId (sequence + 1) count with
      | .error error => .error error
      | .ok keys => .ok ({ sequence, roomId } :: keys)
    else .error "MLS cleanup found a hole in the delivery log"

/-- The cursors flagged because their device has not passed `expiry`. -/
def planLaggingCursors (roomId : RoomId) (expiry : ℕ)
    (required : List (DeviceId × DeviceCursor)) : List WalCursor :=
  (required.filter (fun r => r.2.highestContiguousSequence < expiry)).map fun r =>
    { roomId, deviceId := r.1, cursor := { r.2 with rejoinRequiredThrough := some expiry } }

def planPruneRoom (roomId : RoomId) (nowUnixMs batchLimit : ℕ) :
    Except String (Option (CleanupReport × StateDelta)) :=
  match s.rooms.get? roomId with
  | none => .ok none
  | some room =>
    if room.oldestAvailableSequence > room.headSequence then .ok none
    else
      match requiredCursors s roomId room.requiredDevices with
      | .error error => .error error
      | .ok required =>
        let safe := acknowledgedFloor room.headSequence required
        let cutoff := nowUnixMs - retentionMs room.retentionDays
        let expiry := expiredThrough cutoff
          (s.events.range (toLex (roomId, room.oldestAvailableSequence))
            (toLex (roomId, room.headSequence))) (room.oldestAvailableSequence - 1)
        let pruneThrough := min (max safe expiry) room.headSequence
        if pruneThrough < room.oldestAvailableSequence then .ok none
        else
          let cursors := if expiry > safe then planLaggingCursors roomId expiry required else []
          let last := min pruneThrough (saturatingAdd room.oldestAvailableSequence batchLimit - 1)
          match planDeleteEvents s roomId room.oldestAvailableSequence
              (last + 1 - room.oldestAvailableSequence) with
          | .error error => .error error
          | .ok deletedEvents =>
            .ok (some
              ({ deletedEvents := deletedEvents.length
                 laggingDevices := cursors.length
                 moreWork := last < pruneThrough },
               { cursors
                 deletedEvents
                 rooms := [{ room with oldestAvailableSequence := saturatingAdd last 1 }] }))

/-- The loop of `plan_cleanup_welcomes`; `targets` holds the removals found so far. -/
def collectWelcomeTargets (s : MemoryState) (nowUnixMs batchLimit : ℕ)
    (targets : List DeviceWelcomeCheckpoint) :
    List (DeviceId ×ₗ ℕ) → Except String (Bool × List DeviceWelcomeCheckpoint)
  | [] => .ok (false, targets)
  | key :: rest =>
    let (deviceId, deliveryId) := ofLex key
    let acknowledged := (s.welcomeCursors.get? deviceId).any (fun cursor => cursor ≥ deliveryId)
    match s.welcomes.get? deliveryId with
    | none => .error "MLS Welcome target references a missing value"
    | some welcome =>
      match s.rooms.get? welcome.bundle.descriptor.roomId with
      | none => .error "MLS Welcome references a missing room"
      | some room =>
        let expired := welcome.storedAtUnixMs < nowUnixMs - retentionMs room.retentionDays
        if acknowledged ∨ expired then
          if targets.length = batchLimit then .ok (true, targets)
          else collectWelcomeTargets s nowUnixMs batchLimit
            (targets ++ [{ deliveryId, deviceId }]) rest
        else collectWelcomeTargets s nowUnixMs batchLimit targets rest

def planCleanupWelcomes (nowUnixMs batchLimit : ℕ) :
    Except String (Bool × List DeviceWelcomeCheckpoint) :=
  collectWelcomeTargets s nowUnixMs batchLimit [] s.deviceWelcomes.keys

/-- The loop of `cleanup` over the room ids: the first room with work. -/
def selectPruneRoom (s : MemoryState) (nowUnixMs batchLimit : ℕ) :
    List RoomId → Except String (Option (RoomId × CleanupReport × StateDelta))
  | [] => .ok none
  | roomId :: rest =>
    match planPruneRoom s roomId nowUnixMs batchLimit with
    | .error error => .error error
    | .ok (some (report, d)) => .ok (some (roomId, report, d))
    | .ok none => selectPruneRoom s nowUnixMs batchLimit rest

/-- The order in which `cleanup` visits the rooms: those after the last pass first. -/
def cleanupOrder (after : RoomId) (roomIds : List RoomId) : List RoomId :=
  roomIds.insertionSort fun a b => toLex (decide (a ≤ after), a) ≤ toLex (decide (b ≤ after), b)

/-- The planning part of `cleanup`: the room it ends with, its report and its delta.  The
room is kept even when planning the Welcome targets then fails. -/
def planCleanup (after : RoomId) (nowUnixMs batchLimit : ℕ) :
    RoomId × Except String (CleanupReport × StateDelta) :=
  match selectPruneRoom s nowUnixMs batchLimit (cleanupOrder after s.rooms.keys) with
  | .error error => (after, .error error)
  | .ok (some (roomId, report, d)) =>
    match planCleanupWelcomes s nowUnixMs batchLimit with
    | .error error => (roomId, .error error)
    | .ok (_, targets) =>
      (roomId, .ok ({ report with moreWork := true }, { d with deletedWelcomeTargets := targets }))
  | .ok none =>
    match planCleanupWelcomes s nowUnixMs batchLimit with
    | .error error => (after, .error error)
    | .ok (moreWork, targets) => (after, .ok ({ moreWork }, { deletedWelcomeTargets := targets }))

def MlsStore.cleanup (io : AppendResult) (store : MlsStore) (nowUnixMs batchLimit : ℕ) :
    MlsStore × Except String CleanupReport :=
  if batchLimit = 0 then (store, .ok {})
  else
    match planCleanup store.state store.cleanupAfterRoom nowUnixMs batchLimit with
    | (after, .error error) => ({ store with cleanupAfterRoom := after }, .error error)
    | (after, .ok (report, d)) =>
      let store := { store with cleanupAfterRoom := after }
      if d.isEmpty then (store, .ok report)
      else
        match store.commit io d with
        | (store, .error error) => (store, .error error)
        | (store, .ok ()) => (store, .ok report)

end Chatt
