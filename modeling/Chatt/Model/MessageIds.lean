import Chatt.Lib.OrdMap
import Chatt.Lib.Run
import Chatt.Model.Ids

/-!
# Message ids and their watermarks

Allocation of message ids, the queue of watermarks to the background state writer, its
transactions, and what a restart recovers (crates/server/src/room_store.rs:894-903, 1045-1085,
1152-1175; crates/server/src/room_state.rs:222-262, 573-592).  Ids are natural numbers: the source's
`u64` is not exhausted.  `handedOut` records the ids a run has handed out and is read by no
step.
-/

namespace Chatt.MessageIds

open Lib

def messageIdReserve : ℕ := 1024

/-- `u64::next_multiple_of` -/
def nextMultipleOf (value block : ℕ) : ℕ := (value + (block - 1)) / block * block

structure IdState where
  nextIds : OrdMap RoomId ℕ
  watermarks : OrdMap RoomId ℕ
  /-- queued to the writer, one value a room -/
  pending : OrdMap RoomId ℕ
  /-- what the writer has received and not yet committed -/
  writing : Option (OrdMap RoomId ℕ)
  /-- the committed watermarks -/
  stored : OrdMap RoomId ℕ
  /-- the last id in the log of each durable room that has a record -/
  logs : OrdMap RoomId ℕ
  /-- the ids handed out, in order -/
  handedOut : List (RoomId × ℕ)
  deriving DecidableEq

def IdState.initial : IdState where
  nextIds := OrdMap.empty
  watermarks := OrdMap.empty
  pending := OrdMap.empty
  writing := none
  stored := OrdMap.empty
  logs := OrdMap.empty
  handedOut := []

/-- The id the room hands out next. -/
def IdState.nextId (s : IdState) (room : RoomId) : ℕ := (s.nextIds.get? room).getD 1

/-- `StateWriteSubmission::submit_watermark`: a queued value only rises. -/
def submitWatermark (pending : OrdMap RoomId ℕ) (room : RoomId) (next : ℕ) : OrdMap RoomId ℕ :=
  match pending.get? room with
  | some queued => pending.insert room (max queued next)
  | none => pending.insert room next

def allocateMessageId (s : IdState) (room : RoomId) : IdState :=
  let id := s.nextId room
  let nextIds := s.nextIds.insert room (id + 1)
  let watermark := (s.watermarks.get? room).getD 0
  let handedOut := s.handedOut ++ [(room, id)]
  if id + messageIdReserve / 2 ≥ watermark then
    let watermark := nextMultipleOf (id + 1 + messageIdReserve) messageIdReserve
    { s with
      nextIds, handedOut
      watermarks := s.watermarks.insert room watermark
      pending := submitWatermark s.pending room watermark }
  else { s with nextIds, handedOut, watermarks := s.watermarks.insert room watermark }

/-- The watermarks of one transaction. -/
def persist (stored write : OrdMap RoomId ℕ) : OrdMap RoomId ℕ :=
  write.entries.foldl (fun stored e =>
    if e.2 > (stored.get? e.1).getD 0 then stored.insert e.1 e.2 else stored) stored

/-- `RoomStore::open`: the ids resume at the watermarks, those of a durable room also above the
last record of its log. -/
def restart (s : IdState) : IdState :=
  { s with
    nextIds := s.logs.entries.foldl (fun nextIds e =>
      nextIds.insert e.1 (max ((nextIds.get? e.1).getD 1) (e.2 + 1))) s.stored
    watermarks := s.stored
    pending := OrdMap.empty
    writing := none }

inductive IdAction
  | allocate (room : RoomId)
  /-- the writer takes everything that is queued -/
  | receive
  /-- the writer's transaction commits -/
  | commit
  /-- a record with an id of the room reaches the log of a durable room -/
  | logRecord (room : RoomId) (id : ℕ)
  | crash

/-- The step of an action, `none` where it is not possible. -/
def IdState.next (durable : RoomId → Bool) (s : IdState) : IdAction → Option IdState
  | .allocate room => some (allocateMessageId s room)
  | .receive =>
    if s.writing = none ∧ s.pending ≠ OrdMap.empty then
      some { s with writing := some s.pending, pending := OrdMap.empty }
    else none
  | .commit =>
    match s.writing with
    | some write => some { s with writing := none, stored := persist s.stored write }
    | none => none
  | .logRecord room id =>
    if durable room ∧ (room, id) ∈ s.handedOut ∧ (s.logs.get? room).getD 0 < id then
      some { s with logs := s.logs.insert room id }
    else none
  | .crash => some (restart s)

end Chatt.MessageIds
