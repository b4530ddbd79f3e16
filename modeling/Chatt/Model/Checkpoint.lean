import Chatt.Model.Jsony

/-!
# The checkpoint file

`serialize_checkpoint` and `load_checkpoint` (mls_store.rs:2019-2106, 2156-2329).  Rows of
fixed layout point into one block of payload bytes; the indexes, the target counts and the
byte accounting are not stored but rebuilt while loading.
-/

namespace Chatt

open Chatt.Lib

/-- The bytes of `CHATTMLS`. -/
def snapshotMagic : Bytes := [67, 72, 65, 84, 84, 77, 76, 83]

def snapshotVersion : ℕ := 1

/-! ## Writing (mls_store.rs:2019-2106) -/

/-- The loop that appends the encoding of every element to the payload block and makes a row
of its offset and length.  `none` is the panic on an encoding longer than a `u32`. -/
def layOut {α ρ : Type} (encode : α → Bytes) (row : α → ℕ → ℕ → ρ) :
    List α → Bytes → Option (List ρ × Bytes)
  | [], payloads => some ([], payloads)
  | a :: rest, payloads =>
    let encoded := encode a
    if encoded.length > u32Max then none
    else
      match layOut encode row rest (payloads ++ encoded) with
      | none => none
      | some (rows, block) => some (row a payloads.length encoded.length :: rows, block)

def eventRow (e : (RoomId ×ₗ ℕ) × StoredEvent) (payloadOffset payloadLen : ℕ) :
    EventCheckpoint where
  sequence := (ofLex e.1).2
  storedAtUnixMs := e.2.storedAtUnixMs
  payloadOffset := payloadOffset
  roomId := (ofLex e.1).1
  payloadLen := payloadLen

def welcomeRow (stored : StoredWelcome) (payloadOffset payloadLen : ℕ) : WelcomeCheckpoint where
  deliveryId := stored.deliveryId
  sequence := stored.sequence
  storedAtUnixMs := stored.storedAtUnixMs
  payloadOffset := payloadOffset
  payloadLen := payloadLen

def cursorRow (e : (RoomId ×ₗ DeviceId) × DeviceCursor) : CursorCheckpoint where
  highestContiguousSequence := e.2.highestContiguousSequence
  startingSequence := e.2.startingSequence
  lastAckUnixMs := e.2.lastAckUnixMs
  rejoinRequiredThrough := e.2.rejoinRequiredThrough.getD u64Max
  deviceId := (ofLex e.1).2
  roomId := (ofLex e.1).1

variable (jsony : Jsony)

def serializeEvents :
    List ((RoomId ×ₗ ℕ) × StoredEvent) → Bytes → Option (List EventCheckpoint × Bytes) :=
  layOut (fun e => jsony.event.encode e.2.event) eventRow

def serializeWelcomes : List StoredWelcome → Bytes → Option (List WelcomeCheckpoint × Bytes) :=
  layOut (fun stored => jsony.bundle.encode stored.bundle) welcomeRow

/-- The eight magic bytes and the version in front of a checkpoint body. -/
def snapshotHeader : Bytes := snapshotMagic ++ leBytes 4 snapshotVersion

def serializeCheckpoint (s : MemoryState) : Option Bytes :=
  match serializeEvents jsony s.events.entries [] with
  | none => none
  | some (events, payloads) =>
    match serializeWelcomes jsony s.welcomes.values payloads with
    | none => none
    | some (welcomes, payloads) =>
      let body : Checkpoint :=
        { global := s.global
          rooms := s.rooms.values
          events
          cursors := s.deviceCursors.entries.map cursorRow
          welcomes
          deviceWelcomes := s.deviceWelcomes.keys.map fun target =>
            { deliveryId := (ofLex target).2, deviceId := (ofLex target).1 }
          welcomeCursors := s.welcomeCursors.entries.map fun e =>
            { deliveryId := e.2, deviceId := e.1 }
          payloads }
      some (snapshotHeader ++ jsony.checkpoint.encode body)

/-! ## Loading (mls_store.rs:2156-2329) -/

def payloadSlice (payloads : Bytes) (offset len : ℕ) (kind : String) : Except String Bytes :=
  if offset + len ≤ payloads.length then .ok ((payloads.drop offset).take len)
  else .error ("MLS checkpoint " ++ kind ++ " payload is out of bounds")

def decodePayload {α : Type} (codec : Codec α) (payloads : Bytes) (offset len : ℕ)
    (kind : String) : Except String α :=
  match payloadSlice payloads offset len kind with
  | .error error => .error error
  | .ok bytes =>
    match codec.decode bytes with
    | .error error => .error ("failed to decode MLS checkpoint " ++ kind ++ ": " ++ error)
    | .ok value => .ok value

def loadRooms :
    List RoomRecord → OrdMap RoomId RoomRecord → Except String (OrdMap RoomId RoomRecord) :=
  OrdMap.insertAll (fun room => .ok (room.descriptor.roomId, room))
    "MLS checkpoint contains a duplicate room"

/-- The index entry of one loaded event. -/
def loadIndexes (s : MemoryState) (roomId : RoomId) (event : MlsDeliveryEvent) (sequence : ℕ) :
    Except String MemoryState :=
  match event with
  | .application _ _ eventId _ _ =>
    if s.eventIds.contains (toLex (roomId, eventId)) then
      .error "MLS checkpoint contains a duplicate event id"
    else .ok { s with eventIds := s.eventIds.insert (toLex (roomId, eventId)) sequence }
  | .commit _ parentEpoch _ _ _ =>
    if s.commitEpochs.contains (toLex (roomId, parentEpoch)) then
      .error "MLS checkpoint contains a duplicate commit epoch"
    else .ok { s with commitEpochs := s.commitEpochs.insert (toLex (roomId, parentEpoch)) sequence }

def loadEvents (jsony : Jsony) (payloads : Bytes) :
    List EventCheckpoint → MemoryState → Except String MemoryState
  | [], s => .ok s
  | row :: rest, s =>
    match decodePayload jsony.event payloads row.payloadOffset row.payloadLen "event" with
    | .error error => .error error
    | .ok event =>
      if event.sequence ≠ row.sequence then
        .error "MLS checkpoint event metadata is inconsistent"
      else
        match loadIndexes s row.roomId event row.sequence with
        | .error error => .error error
        | .ok s =>
          if s.events.contains (toLex (row.roomId, row.sequence)) then
            .error "MLS checkpoint contains a duplicate delivery event"
          else
            let stored : StoredEvent := { event, storedAtUnixMs := row.storedAtUnixMs, payloadLen :=
              row.payloadLen }
            loadEvents jsony payloads rest
              { s with events := s.events.insert (toLex (row.roomId, row.sequence)) stored }

def loadCursor (row : CursorCheckpoint) : DeviceCursor where
  highestContiguousSequence := row.highestContiguousSequence
  startingSequence := row.startingSequence
  lastAckUnixMs := row.lastAckUnixMs
  rejoinRequiredThrough :=
    if row.rejoinRequiredThrough ≠ u64Max then some row.rejoinRequiredThrough else none

def loadCursors : List CursorCheckpoint → OrdMap (RoomId ×ₗ DeviceId) DeviceCursor →
    Except String (OrdMap (RoomId ×ₗ DeviceId) DeviceCursor) :=
  OrdMap.insertAll (fun row => .ok (toLex (row.roomId, row.deviceId), loadCursor row))
    "MLS checkpoint contains a duplicate device cursor"

def loadWelcome (payloads : Bytes) (row : WelcomeCheckpoint) : Except String (ℕ × StoredWelcome) :=
  match decodePayload jsony.bundle payloads row.payloadOffset row.payloadLen "Welcome" with
  | .error error => .error error
  | .ok bundle =>
    .ok (row.deliveryId,
      { deliveryId := row.deliveryId
        sequence := row.sequence
        storedAtUnixMs := row.storedAtUnixMs
        bundle
        payloadLen := row.payloadLen })

def loadWelcomes (payloads : Bytes) : List WelcomeCheckpoint →
    OrdMap ℕ StoredWelcome → Except String (OrdMap ℕ StoredWelcome) :=
  OrdMap.insertAll (loadWelcome jsony payloads) "MLS checkpoint contains a duplicate Welcome"

def loadTargets : List DeviceWelcomeCheckpoint → OrdSet (DeviceId ×ₗ ℕ) → OrdMap ℕ ℕ →
    Except String (OrdSet (DeviceId ×ₗ ℕ) × OrdMap ℕ ℕ)
  | [], targets, counts => .ok (targets, counts)
  | row :: rest, targets, counts =>
    if targets.contains (toLex (row.deviceId, row.deliveryId)) then
      .error "MLS checkpoint contains a duplicate Welcome target"
    else
      let count := (counts.get? row.deliveryId).getD 0
      if count + 1 > u16Max then .error "MLS checkpoint Welcome target count is too large"
      else loadTargets rest (targets.insert (toLex (row.deviceId, row.deliveryId)) ())
        (counts.insert row.deliveryId (count + 1))

def loadWelcomeCursors :
    List WelcomeCursorCheckpoint → OrdMap DeviceId ℕ → Except String (OrdMap DeviceId ℕ) :=
  OrdMap.insertAll (fun row => .ok (row.deviceId, row.deliveryId))
    "MLS checkpoint contains a duplicate Welcome cursor"

/-- The state a decoded checkpoint body stands for. -/
def loadBody (body : Checkpoint) : Except String MemoryState := do
  let rooms ← loadRooms body.rooms OrdMap.empty
  let s ← loadEvents jsony body.payloads body.events
    { MemoryState.initial with global := body.global, rooms }
  let deviceCursors ← loadCursors body.cursors OrdMap.empty
  let welcomes ← loadWelcomes jsony body.payloads body.welcomes OrdMap.empty
  let (deviceWelcomes, welcomeTargetCounts) ←
    loadTargets body.deviceWelcomes OrdMap.empty OrdMap.empty
  let welcomeCursors ← loadWelcomeCursors body.welcomeCursors OrdMap.empty
  .ok { s with deviceCursors, welcomes, deviceWelcomes, welcomeTargetCounts, welcomeCursors }

/-- `load_checkpoint` on the content of the file, `none` when there is no file. -/
def loadCheckpoint (file : Option Bytes) : Except String MemoryState :=
  match file with
  | none => .ok MemoryState.initial
  | some bytes =>
    if bytes.length < 12 ∨ bytes.take 8 ≠ snapshotMagic then
      .error "invalid MLS checkpoint header"
    else
      let version := leValue ((bytes.drop 8).take 4)
      if version ≠ snapshotVersion then
        .error ("unsupported MLS checkpoint version " ++ toString version ++ "; expected " ++
          toString snapshotVersion)
      else
        match jsony.checkpoint.decode (bytes.drop 12) with
        | .error error => .error ("failed to decode MLS checkpoint: " ++ error)
        | .ok body => loadBody jsony body

end Chatt
