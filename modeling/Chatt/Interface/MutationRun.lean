import Chatt.Analysis.History
import Chatt.Lib.Run
import Chatt.Model.Mutations

/-!
# A room whose messages are edited and deleted

A run of one room: users post, announce files, edit and delete; the log writer and the event
loop work on the log of a durable room in between, the writer may be full, and a log that fails
is given up.  `appended` is every record the room was given, and no step reads it.
-/

namespace Chatt.Mutations

open Lib RoomHistory History

variable {utf8 : Utf8Check}

inductive RoomAction (utf8 : Utf8Check) where
  | chat (draft : Draft utf8) (queued : Except String Unit)
  | file (draft : Draft utf8) (fileTransferId : UInt64) (queued : Except String Unit)
  | mutate (draft : Draft utf8) (target : UInt64) (kind : MutationKind)
      (queued : Except String Unit)
  /-- an id is handed out for a message that is not appended -/
  | allocate
  /-- the log writer writes the next record -/
  | write
  /-- the event loop hears of a write -/
  | drain
  /-- the log of a durable room is given up -/
  | disable

structure RoomRun (utf8 : Utf8Check) where
  room : Room
  appended : List (ChatMessage utf8)
  deriving DecidableEq

namespace RoomRun

/-- The room after a request, with the message it accepted. -/
def answer (s : RoomRun utf8) (result : Room × Reply utf8) : RoomRun utf8 where
  room := result.1
  appended := s.appended ++ result.2.message.toList

/-- The log of a durable room is changed by its writer or by the event loop. -/
def setLog (s : RoomRun utf8) (log : Option DurableLog) : Option (RoomRun utf8) :=
  log.map fun log => { s with room := { s.room with retention := .durable log } }

/-- Once its log is given up a durable room retains messages as a room in memory does. -/
def next (tuning : StoreTuning) (s : RoomRun utf8) : RoomAction utf8 → Option (RoomRun utf8)
  | .chat draft queued => some (s.answer (s.room.sendChat queued draft))
  | .file draft fileTransferId queued =>
    some (s.answer (s.room.announceFile queued draft fileTransferId))
  | .mutate draft target kind queued => some (s.answer (s.room.mutateChat queued draft target kind))
  | .allocate => some { s with room := { s.room with nextId := s.room.nextId + 1 } }
  | .write =>
    match s.room.retention with
    | .durable log => s.setLog (log.write tuning)
    | _ => none
  | .drain =>
    match s.room.retention with
    | .durable log => s.setLog (log.drainLogEvent tuning)
    | _ => none
  | .disable =>
    match s.room.retention with
    | .durable log =>
      some { s with room := { s.room with
        retention := .memory log.history tuning.maxResidentMessages } }
    | _ => none

end RoomRun

/-- Its strings fit the four bytes of their lengths. -/
def Draft.Fits (draft : Draft utf8) : Prop :=
  draft.senderName.val.length < 2 ^ 32 ∧ draft.body.val.length < 2 ^ 32

instance decidableFits (draft : Draft utf8) : Decidable draft.Fits :=
  inferInstanceAs (Decidable (_ ∧ _))

/-- The strings of a request fit, and the ids are not exhausted. -/
def RoomAction.Ok (s : RoomRun utf8) : RoomAction utf8 → Prop
  | .chat draft _ | .file draft _ _ | .mutate draft _ _ _ => draft.Fits ∧ s.room.nextId + 1 < 2 ^ 64
  | .allocate => s.room.nextId + 1 < 2 ^ 64
  | _ => True

instance decidableOk (s : RoomRun utf8) (action : RoomAction utf8) : Decidable (action.Ok s) := by
  cases action <;> dsimp only [RoomAction.Ok] <;> infer_instance

/-! ## What the records say -/

/-- The record deletes the message with the id. -/
def Deletes (record : ChatMessage utf8) (target : UInt64) : Prop :=
  record.target = some target ∧ isDeleted record.flags

/-- The message is one of the newest, is no mutation, belongs to the sender, is not deleted,
and is no file if it is to be edited. -/
def MayMutate (records : List (ChatMessage utf8)) (target sender : UInt64)
    (kind : MutationKind) : Prop :=
  ∃ message ∈ records.rtake mutationWindowMessages,
    message.messageId = target ∧ message.target = none ∧ message.sender = sender ∧
    (∀ later ∈ records, message.messageId < later.messageId → ¬ Deletes later target) ∧
    (kind = .edit → message.fileTransferId = none)

/-- No record changes a message after the record that deletes it. -/
def DeletedForGood (records : List (ChatMessage utf8)) : Prop :=
  ∀ target, ∀ deletion ∈ records, Deletes deletion target →
    ∀ later ∈ records, deletion.messageId < later.messageId → later.target ≠ some target

/-! ## The room a run begins with -/

/-- The window is never trimmed below the records a mutation is looked up in. -/
def Roomy (tuning : StoreTuning) : Retention → Prop
  | .none => False
  | .memory _ limit => mutationWindowMessages ≤ limit
  | .durable _ => mutationWindowMessages ≤ tuning.maxResidentMessages

/-- Records that were appended before: valid messages in the order of their ids, whose
mutations name earlier messages. -/
structure RecordsOk (records : List (ChatMessage utf8)) : Prop where
  valid : ∀ message ∈ records, message.Valid
  ascending : records.Pairwise fun a b => a.messageId < b.messageId
  backward : ∀ message ∈ records, ∀ target, message.target = some target →
    target < message.messageId
  deleted : DeletedForGood records

/-- The window has the newest records, all of them or enough to look a mutation up in. -/
def WindowOf (records : List (ChatMessage utf8)) (history : List HistoryRecord) : Prop :=
  history <:+ records.map recordOf ∧ min mutationWindowMessages records.length ≤ history.length

/-- A room that was just opened, with the records it was opened with. -/
structure RoomRun.Opened (tuning : StoreTuning) (s : RoomRun utf8) : Prop where
  records : RecordsOk s.appended
  roomy : Roomy tuning s.room.retention
  window : ∃ history, s.room.retention.history = some history ∧ WindowOf s.appended history
  registered : ∃ nextId, s.room = registerRoom nextId s.room.retention ∧
    ∀ message ∈ s.appended, message.messageId.toNat < s.room.nextId

end Chatt.Mutations
