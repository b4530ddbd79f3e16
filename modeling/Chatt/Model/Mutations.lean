import Chatt.Model.History
import Chatt.Model.RoomHistory

/-!
# Edits and deletions of messages

An edit or a deletion is a record of its own that names the message it changes.  The server
appends it after it has looked the message up among the newest records of the room
(crates/server/src/room_store.rs:1045-1085, 1192-1368; crates/server/src/lib.rs:6952-7150,
7320-7372).  The handlers are modelled from where the session may use the room on: a message
id is handed out, and the message is given to the store.
-/

namespace Chatt.Mutations

open Lib RoomHistory History

variable {utf8 : Utf8Check}

def mutationWindowMessages : ℕ := 256

inductive MutationKind where
  | edit
  | delete
  deriving DecidableEq

inductive MutationDenied where
  | targetMissing
  | mutationRecord
  | wrongSender
  | deleted
  | fileMessage
  deriving DecidableEq

/-- `MessageFlags::deleted` -/
def isDeleted (flags : Byte) : Bool := flags.val &&& History.deleted.val ≠ 0

def MutationKind.flags : MutationKind → Byte
  | .edit => History.edited
  | .delete => History.deleted

def parseMessage (bytes : Bytes) : Except String (HistoryMessageRef utf8) := do
  let (message, left) ← readMessage bytes
  let _ ← finish left
  return message

/-! ## Rooms (room_store.rs:1045-1085, 1152-1175, 1192-1300) -/

/-- What the store has of one room. -/
structure Room where
  retention : Retention
  /-- the ids of the newest records -/
  recentIds : List ℕ
  head : Option ℕ
  nextId : ℕ
  deriving DecidableEq

/-- The last records of a room that is opened. -/
def registerRoom (nextId : ℕ) (retention : Retention) : Room :=
  let history := retention.history.getD []
  let last : Option ℕ := match retention with
    | .durable log => log.history.getLast?.map HistoryRecord.messageId
    | _ => none
  { retention
    recentIds := (history.reverse.take mutationWindowMessages).reverse.map HistoryRecord.messageId
    head := last
    nextId := match last with
      | some last => max nextId (last + 1)
      | none => nextId }

/-- `append_message`: the entry of a message. -/
def recordOf (message : ChatMessage utf8) : HistoryRecord :=
  ⟨message.messageId.toNat, writeMessage message⟩

def pushRecent (recentIds : List ℕ) (id : ℕ) : List ℕ :=
  (if recentIds.length = mutationWindowMessages then recentIds.drop 1 else recentIds) ++ [id]

def Room.tryAppend (queued : Except String Unit) (room : Room) (message : ChatMessage utf8) :
    Except String (Room × ℕ) := do
  let (retention, historyLen) ← room.retention.tryAppend queued (recordOf message)
  let id := message.messageId.toNat
  return ({ room with retention, head := some id, recentIds := pushRecent room.recentIds id },
    historyLen)

/-- The loop of `validate_mutation`, from the newest record on. -/
def scanMutation (utf8 : Utf8Check) (target sender : UInt64) (kind : MutationKind) :
    Bool → List HistoryRecord → Except MutationDenied Unit
  | _, [] => .ok ()
  | deleted, entry :: rest =>
    match @parseMessage utf8 entry.bytes with
    | .error _ => .error .targetMissing
    | .ok { message := record, .. } =>
      let deleted := deleted || (record.target = some target && isDeleted record.flags)
      if record.messageId ≠ target then scanMutation utf8 target sender kind deleted rest
      else if record.target.isSome then .error .mutationRecord
      else if record.sender ≠ sender then .error .wrongSender
      else if deleted then .error .deleted
      else if kind = .edit ∧ record.fileTransferId.isSome then .error .fileMessage
      else .ok ()

def Room.validateMutation (utf8 : Utf8Check) (room : Room) (target sender : UInt64)
    (kind : MutationKind) : Except MutationDenied Unit :=
  if target.toNat ∉ room.recentIds then .error .targetMissing
  else
    match room.retention.history with
    | none => .ok ()
    | some history =>
      scanMutation utf8 target sender kind false (history.reverse.take mutationWindowMessages)

/-! ## Requests (lib.rs:6952-7150, 7320-7372) -/

/-- What a handler knows of a message before it has an id. -/
structure Draft (utf8 : Utf8Check) where
  roomId : UInt32
  sender : UInt64
  senderName : Str utf8
  timestampMs : UInt64
  body : Str utf8
  deriving DecidableEq

inductive Reply (utf8 : Utf8Check) where
  /-- the message is broadcast -/
  | accepted (message : ChatMessage utf8)
  | rejected (message : String)
  deriving DecidableEq

def Reply.message : Reply utf8 → Option (ChatMessage utf8)
  | .accepted message => some message
  | .rejected _ => none

def Draft.message (draft : Draft utf8) (fileTransferId : Option UInt64) (flags : Byte)
    (target : Option UInt64) (id : ℕ) : ChatMessage utf8 where
  messageId := UInt64.ofNat id
  roomId := draft.roomId
  sender := draft.sender
  senderName := draft.senderName
  timestampMs := draft.timestampMs
  body := draft.body
  fileTransferId := fileTransferId
  flags := flags
  target := target

variable (queued : Except String Unit)

/-- `allocate_message_id` and `try_append`. -/
def Room.post (room : Room) (message : ℕ → ChatMessage utf8) : Room × Reply utf8 :=
  let message := message room.nextId
  let room := { room with nextId := room.nextId + 1 }
  match room.tryAppend queued message with
  | .ok (room, _) => (room, .accepted message)
  | .error _ => (room, .rejected "durable history is busy; retry shortly")

def Room.sendChat (room : Room) (draft : Draft utf8) : Room × Reply utf8 :=
  room.post queued (draft.message none 0 none)

/-- The announcement in `start_file_upload`. -/
def Room.announceFile (room : Room) (draft : Draft utf8)
    (fileTransferId : UInt64) : Room × Reply utf8 :=
  room.post queued (draft.message (some fileTransferId) 0 none)

def MutationDenied.text : MutationKind → MutationDenied → String
  | _, .targetMissing => "message is too old or no longer available"
  | .edit, .wrongSender => "you can only edit your own messages"
  | .delete, .wrongSender => "you can only delete your own messages"
  | .edit, .fileMessage => "file messages cannot be edited"
  | _, .mutationRecord => "message mutations cannot be changed"
  | _, .deleted => "message was already deleted"
  | .delete, .fileMessage => "message cannot be deleted"

def Room.mutateChat (room : Room) (draft : Draft utf8)
    (target : UInt64) (kind : MutationKind) : Room × Reply utf8 :=
  match room.validateMutation utf8 target draft.sender kind with
  | .error denied => (room, .rejected (denied.text kind))
  | .ok () => room.post queued (draft.message none kind.flags (some target))

end Chatt.Mutations
