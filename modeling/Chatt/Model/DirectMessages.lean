import Chatt.Lib.OrdMap
import Chatt.Model.Ids

/-!
# Rooms for direct messages

How the room of a pair of users is created: the event loop hands out an id and queues the room
to the background state writer, which stores it together with the next free id
(crates/server/src/room_store.rs:138-168, 841-903, 1549-1719, 1749-1780;
crates/server/src/room_state.rs:104-165, 263-470, 560-623).  The other writes of the state
writer, the watermarks of message ids, touch other tables and are left out.  A room log is its
id in the name of the file.
-/

namespace Chatt.DirectMessages

open Lib

def firstDynamicRoomId : ℕ := 0x80000000

/-- `u32::checked_add(1)` -/
def checkedSucc (id : ℕ) : Option ℕ := if id + 1 ≤ u32Max then some (id + 1) else none

/-- `u32::saturating_add(1)` -/
def saturatingSucc (id : ℕ) : ℕ := min (id + 1) u32Max

structure DmRoom where
  roomId : RoomId
  userA : UInt64
  userB : UInt64
  createdAtMs : UInt64
  deriving DecidableEq

def DmRoom.pairs (room : DmRoom) (first second : UInt64) : Bool :=
  (room.userA = first && room.userB = second) || (room.userA = second && room.userB = first)

/-- The ids of the configured rooms, which `Config::validate` has checked. -/
structure ConfiguredRooms where
  ids : List RoomId
  nodup : ids.Nodup
  below : ∀ id ∈ ids, id < firstDynamicRoomId
  deriving DecidableEq

/-! ## The state database (room_state.rs:104-165, 575-623) -/

structure StateDb where
  nextRoomId : ℕ
  dmRooms : OrdMap RoomId Bytes
  deriving DecidableEq

/-- `initialize_schema` on a new file. -/
def StateDb.initial : StateDb := ⟨firstDynamicRoomId, OrdMap.empty⟩

def dmRoomBytes : ℕ := 24

def encodeDm (room : DmRoom) : Bytes :=
  putWord room.userA ++ (putWord room.userB ++ putWord room.createdAtMs)

def decodeDm (roomId : RoomId) (bytes : Bytes) : Except String DmRoom :=
  if bytes.length ≠ dmRoomBytes then
    .error ("room " ++ toString roomId ++ " has a corrupt direct-message record length")
  else
    let userA := wordAt UInt64 bytes 0
    let userB := wordAt UInt64 bytes 8
    if userA = userB then
      .error ("room " ++ toString roomId ++ " has identical direct-message participants")
    else .ok { roomId, userA, userB, createdAtMs := wordAt UInt64 bytes 16 }

def StateDb.load (db : StateDb) : Except String (ℕ × List DmRoom) := do
  if db.nextRoomId > u32Max then
    throw ("stored next room id " ++ toString db.nextRoomId ++ " exceeds u32::MAX")
  let rooms ← db.dmRooms.entries.mapM fun entry => decodeDm entry.1 entry.2
  return (db.nextRoomId, rooms)

structure DmInsert where
  room : DmRoom
  nextRoomId : ℕ
  deriving DecidableEq

/-- One insert of a transaction: the room unless it is there, and the next free id. -/
def persistInsert (db : StateDb) (insert : DmInsert) : Except String StateDb := do
  let id := insert.room.roomId
  let dmRooms ← match db.dmRooms.get? id with
    | some bytes => do
      let existing ← decodeDm id bytes
      if existing ≠ insert.room then
        throw ("direct-message room " ++ toString id ++
          " already exists with different participants")
      pure db.dmRooms
    | none => pure (db.dmRooms.insert id (encodeDm insert.room))
  return { dmRooms, nextRoomId := max db.nextRoomId insert.nextRoomId }

def persist (db : StateDb) (inserts : List DmInsert) : Except String StateDb :=
  inserts.foldlM persistInsert db

/-! ## The server -/

structure PendingDm where
  operationId : ℕ
  room : DmRoom
  previousNextRoomId : ℕ
  deriving DecidableEq

inductive OpenDmResult where
  | existing (room : RoomId)
  | pending (operationId : ℕ)
  deriving DecidableEq

inductive StateWriteEvent where
  | dm (operationId : ℕ) (result : Except String Unit)
  | fatal (error : String)
  deriving DecidableEq

/-- A write that was submitted, with the operation that waits for it. -/
structure Submission where
  insert : DmInsert
  operationId : ℕ
  deriving DecidableEq

structure DmCompletion where
  operationId : ℕ
  room : DmRoom
  result : Except String Unit
  deriving DecidableEq

structure Server where
  configured : ConfiguredRooms
  nextRoomId : ℕ
  dmRooms : List DmRoom
  pendingDm : Option PendingDm
  nextDmOperation : ℕ
  /-- the completions of the state writer come as events -/
  asyncWrites : Bool
  /-- the event loop has ended with an error -/
  stopped : Bool
  /-- submitted to the state writer -/
  queued : List Submission
  /-- the state writer has ended with an error -/
  terminalError : Option String
  /-- the write the state writer has received -/
  writing : Option (List Submission)
  events : List StateWriteEvent
  db : StateDb
  /-- the ids in the names of the room logs -/
  logs : List RoomId
  deriving DecidableEq

namespace Server

variable (s : Server)

/-! ## Opening the store (room_store.rs:841-903, 1749-1780) -/

def nextRoomIdAboveExistingLogs (logs : List RoomId) : ℕ :=
  logs.foldl (fun next id =>
    if id ≥ firstDynamicRoomId then max next (saturatingSucc id) else next) firstDynamicRoomId

/-- `RoomStore::try_open_with_tuning` -/
def tryOpen (configured : ConfiguredRooms) (db : StateDb) (logs : List RoomId) :
    Except String Server := do
  let (stored, dmRooms) ← db.load
  let above := dmRooms.foldl (fun next entry => max next (saturatingSucc entry.roomId))
    (max stored firstDynamicRoomId)
  return {
    configured, dmRooms, db, logs
    nextRoomId := max above (nextRoomIdAboveExistingLogs logs)
    pendingDm := none
    nextDmOperation := 1
    asyncWrites := false
    stopped := false
    queued := []
    terminalError := none
    writing := none
    events := [] }

/-! ## The state writer (room_state.rs:263-470, 560-573) -/

/-- How a transaction ends: committed, if need be after the database was opened again, or with
an error of the storage, after which it may still be on disk. -/
inductive WriteOutcome where
  | committed
  | failed (error : String) (landed : Bool)
  deriving DecidableEq

/-- The database after a transaction, and its result. -/
def runWrite (inserts : List DmInsert) : WriteOutcome → StateDb × Except String Unit
  | .committed =>
    match persist s.db inserts with
    | .ok db => (db, .ok ())
    | .error error => (s.db, .error error)
  | .failed error landed =>
    (if landed then (persist s.db inserts).toOption.getD s.db else s.db, .error error)

/-- `StateWriteSubmission::terminate`, with the answers to what was submitted. -/
def terminate (error : String) : Server :=
  { s with
    terminalError := some error
    queued := []
    writing := none
    events := s.events ++ s.queued.map (fun waiter => .dm waiter.operationId (.error error)) ++
      (if s.asyncWrites then [.fatal error] else []) }

/-- The end of the round of the state writer. -/
def finishWrite (write : List Submission) (outcome : WriteOutcome) : Server :=
  let (db, result) := s.runWrite (write.map Submission.insert) outcome
  let s := { s with
    db
    writing := none
    events := s.events ++ write.map fun waiter => .dm waiter.operationId result }
  match result with
  | .ok () => s
  | .error error => s.terminate error

/-- `enable_async_state_writes`: a writer that has ended says so. -/
def enableAsyncStateWrites : Server :=
  if s.asyncWrites then s
  else { s with
    asyncWrites := true
    events := s.events ++ s.terminalError.toList.map .fatal }

/-! ## Requests (room_store.rs:1549-1719) -/

def dmRoomFor (first second : UInt64) : Option RoomId :=
  (s.dmRooms.find? fun dm => dm.pairs first second).map DmRoom.roomId

def writerGone : String := "room state writer thread is gone"

/-- Waits for the state writer, whose outcome is given. -/
def openDm (first second : UInt64) (nowMs : UInt64) (outcome : WriteOutcome) :
    Server × Except String RoomId :=
  if first = second then (s, .error "cannot open a direct message with yourself")
  else
    match s.dmRoomFor first second with
    | some existing => (s, .ok existing)
    | none =>
      match checkedSucc s.nextRoomId with
      | none => (s, .error "no dynamic room ids are available")
      | some next =>
        let room : DmRoom := ⟨s.nextRoomId, first, second, nowMs⟩
        if s.terminalError.isSome then
          (s, .error ("dm room registry write failed: " ++ writerGone))
        else
          let (db, result) := s.runWrite [⟨room, next⟩] outcome
          match result with
          | .error error =>
            (({ s with db } : Server).terminate error,
              .error ("dm room registry write failed: " ++ error))
          | .ok () =>
            ({ s with db, nextRoomId := next, dmRooms := s.dmRooms ++ [room] }, .ok room.roomId)

def beginOpenDm (first second : UInt64) (nowMs : UInt64) (outcome : WriteOutcome) :
    Server × Except String OpenDmResult :=
  if first = second then (s, .error "cannot open a direct message with yourself")
  else
    match s.dmRoomFor first second with
    | some existing => (s, .ok (.existing existing))
    | none =>
      match s.pendingDm with
      | some pending =>
        if pending.room.pairs first second then (s, .ok (.pending pending.operationId))
        else (s, .error "another direct-message room is being persisted; retry shortly")
      | none =>
        if ¬ s.asyncWrites then
          let (s, result) := s.openDm first second nowMs outcome
          (s, result.map .existing)
        else
          match checkedSucc s.nextRoomId with
          | none => (s, .error "no dynamic room ids are available")
          | some next =>
            let room : DmRoom := ⟨s.nextRoomId, first, second, nowMs⟩
            let operationId := s.nextDmOperation
            let nextDmOperation := max ((operationId + 1) % 2 ^ 64) 1
            if s.terminalError.isSome then
              ({ s with nextDmOperation }, .error ("dm room registry write failed: " ++ writerGone))
            else
              ({ s with
                 nextDmOperation
                 nextRoomId := next
                 pendingDm := some ⟨operationId, room, s.nextRoomId⟩
                 queued := s.queued ++ [⟨⟨room, next⟩, operationId⟩] },
                .ok (.pending operationId))

/-- The loop of `drain_dm_completions`.  An error drops the events that were taken. -/
def drainLoop (s : Server) :
    List StateWriteEvent → List DmCompletion → Server × Except String (List DmCompletion)
  | [], completed => (s, .ok completed)
  | .fatal error :: _, _ => (s, .error error)
  | .dm _ result :: replies, completed =>
    match s.pendingDm with
    | none => drainLoop s replies completed
    | some pending =>
      match result with
      | .ok () =>
        drainLoop { s with pendingDm := none, dmRooms := s.dmRooms ++ [pending.room] } replies
          (completed ++ [⟨pending.operationId, pending.room, .ok ()⟩])
      | .error error =>
        ({ s with pendingDm := none, nextRoomId := pending.previousNextRoomId }, .error error)

def drainDmCompletions : Server × Except String (List DmCompletion) :=
  if s.asyncWrites then
    drainLoop { s with events := s.events.drop 16 } (s.events.take 16) []
  else (s, .ok [])

end Server

end Chatt.DirectMessages
