import Chatt.Lib.Run
import Chatt.Model.FileUpload

/-!
# Runs of a client that uploads files

The upload queue of the network worker, the file commands on their way to the MLS worker, and the
intents that worker keeps on disk.  A disconnect drops the network worker with its queue, a crash
also what the two workers had in their mailboxes; the intents survive both, and a new session
restores the uploads they describe.  The run records the content keys drawn and the frames sealed.
-/

namespace Chatt.FileTransfer

open Lib

/-- The file commands to the MLS worker. -/
inductive FileCommand
  | queueFile (intent : DurableFileUpload)
  | finishFile (roomId : RoomId) (eventId : EventId)
  | fileUploadReady (roomId : RoomId) (eventId : EventId)
  deriving DecidableEq

/-- An intent on disk, and whether its outbox entry is delivered. -/
structure StoredUpload where
  intent : DurableFileUpload
  delivered : Bool
  deriving DecidableEq

structure UploadClient (zstd : Compressor) where
  userId : Option UserId
  nextFileTransfer : FileTransferId
  throttle : UploadThrottle
  outgoingUploads : List (OutgoingUpload zstd)
  commands : List FileCommand
  readyFileUploads : List (RoomId × EventId)
  /-- `RestoreFile` outputs the network worker has not handled yet -/
  restores : List StoredUpload
  stored : List StoredUpload
  /-- the content keys drawn so far -/
  drawn : List (ByteArr 32)
  /-- the frames sealed so far, latest first -/
  sealCalls : List SealCall

def UploadClient.initial (zstd : Compressor) (rate : ℕ) : UploadClient zstd :=
  { userId := none, nextFileTransfer := 1, throttle := UploadThrottle.new rate,
    outgoingUploads := [], commands := [], readyFileUploads := [], restores := [], stored :=
      [], drawn := [], sealCalls := [] }

inductive UploadAction
  | login (userId : UserId)
  | setRate (rate : ℕ)
  | refill (gained : ℕ)
  | queueFileUpload (roomId : RoomId) (request : UploadRequest)
      (fresh : Option (ByteArr 32 × EventId))
  /-- the MLS worker takes its next command -/
  | runCommand
  /-- the server has stored an announcement -/
  | announcementDelivered (roomId : RoomId) (eventId : EventId)
  /-- the MLS worker is bound to the session and looks for uploads to restore -/
  | restorePendingFileUploads
  /-- the network worker takes the next `RestoreFile`, whose source it prepares again -/
  | restoreFile (request : UploadRequest) (fresh : Option (ByteArr 32 × EventId))
  | cancel (index : ℕ)
  | poll (sourceBudget : ℕ) (answer : Option Bytes)
  | disconnect
  | crash

section

variable {zstd : Compressor} (aead : Aead) (sha256 : Bytes → Digest)

def OutgoingUpload.isFor (upload : OutgoingUpload zstd) (roomId : RoomId) (eventId : EventId) :
    Bool :=
  upload.roomId = roomId && upload.sealing.any fun sealing => sealing.eventId = eventId

/-- `finish_durable_file_upload` -/
def OutgoingUpload.finishCommands (upload : OutgoingUpload zstd) : List FileCommand :=
  (upload.sealing.map fun sealing => FileCommand.finishFile upload.roomId sealing.eventId).toList

variable (c : UploadClient zstd)

def FileCommand.apply : FileCommand → UploadClient zstd
  | .queueFile intent =>
    { c with
      stored := c.stored ++ [⟨intent, false⟩]
      readyFileUploads := (intent.roomId, intent.eventId) :: c.readyFileUploads }
  | .finishFile roomId eventId =>
    { c with
      stored := c.stored.filter fun e => ¬ (e.intent.roomId = roomId ∧ e.intent.eventId = eventId)
      readyFileUploads := c.readyFileUploads.filter fun e => e ≠ (roomId, eventId) }
  | .fileUploadReady roomId eventId =>
    { c with readyFileUploads := (roomId, eventId) :: c.readyFileUploads }

def FileCommand.intent? : FileCommand → Option DurableFileUpload
  | .queueFile intent => some intent
  | .finishFile _ _ | .fileUploadReady _ _ => none

/-- The intents on disk, and on their way there or back. -/
def UploadClient.intents : List DurableFileUpload :=
  c.commands.filterMap FileCommand.intent? ++ c.restores.map StoredUpload.intent ++
    c.stored.map StoredUpload.intent

/-- The upload that an answer of the server acts on: `handle_upload_declined` and
`correlate_upload_accepted` look for its id. -/
def UploadClient.upload? (transferId : FileTransferId) : Option (OutgoingUpload zstd) :=
  c.outgoingUploads.find? fun upload => upload.transferId = transferId

/-- The announcement of an upload in the queue has reached the server. -/
def OutgoingUpload.markDelivered (roomId : RoomId) (eventId : EventId)
    (upload : OutgoingUpload zstd) : OutgoingUpload zstd :=
  if upload.isFor roomId eventId then
    { upload with
      sealing := upload.sealing.map fun sealing => { sealing with announcementDelivered := true } }
  else upload

/-- The network worker ends, and the MLS worker the session with it. -/
def UploadClient.dropSession : UploadClient zstd :=
  { c with
    userId := none
    nextFileTransfer := 1
    throttle := UploadThrottle.new c.throttle.rate
    outgoingUploads := []
    restores := []
    readyFileUploads := [] }

def UploadClient.draw (fresh : Option (ByteArr 32 × EventId)) : UploadClient zstd :=
  { c with drawn := (fresh.map Prod.fst).toList ++ c.drawn }

def nextTransferId (transferId : FileTransferId) : FileTransferId :=
  max ((transferId + 1) % 2 ^ 64) 1

def UploadClient.queueFileUpload (roomId : RoomId)
    (request : UploadRequest) (fresh : Option (ByteArr 32 × EventId)) : UploadClient zstd :=
  let upload := prepareFileUpload sha256 roomId c.nextFileTransfer request fresh
  { c.draw fresh with
    nextFileTransfer := nextTransferId c.nextFileTransfer
    commands := c.commands ++ (upload.intent.map FileCommand.queueFile).toList
    outgoingUploads := c.outgoingUploads ++ [upload] }

/-- The first `RestoreFile` is handled; an error of `restore_mls_file_upload` ends the session. -/
def UploadClient.restoreFile (e : StoredUpload) (rest : List StoredUpload)
    (request : UploadRequest) (fresh : Option (ByteArr 32 × EventId)) : UploadClient zstd :=
  if c.outgoingUploads.any fun upload => upload.isFor e.intent.roomId e.intent.eventId then
    { c with restores := rest }
  else
    match restoreMlsFileUpload e.intent e.delivered
      (prepareFileUpload sha256 e.intent.roomId c.nextFileTransfer request fresh) with
    | none => (c.draw fresh).dropSession
    | some upload =>
      { c.draw fresh with
        restores := rest
        nextFileTransfer := max (nextTransferId c.nextFileTransfer)
          (nextTransferId e.intent.announcement.transferId)
        outgoingUploads := c.outgoingUploads ++ [upload]
        commands := c.commands ++ [.fileUploadReady e.intent.roomId e.intent.eventId] }

/-- The front of the queue is polled. -/
def UploadClient.poll (upload : OutgoingUpload zstd)
    (rest : List (OutgoingUpload zstd)) (sourceBudget : ℕ) (answer : Option Bytes) :
    UploadClient zstd :=
  let polled := pollOneUpload aead ⟨c.userId, c.throttle, sourceBudget, answer⟩ upload
  { c with
    throttle := polled.throttle
    outgoingUploads := polled.upload.toList ++ rest
    commands := c.commands ++ (if polled.upload.isNone then upload.finishCommands else [])
    sealCalls := polled.sealCall.toList ++ c.sealCalls }

def UploadClient.next : UploadAction → Option (UploadClient zstd)
  | .login userId => some { c with userId := some userId }
  | .setRate rate => some { c with throttle := c.throttle.setRate rate }
  | .refill gained => some { c with throttle := c.throttle.refill gained }
  | .queueFileUpload roomId request fresh => some (c.queueFileUpload sha256 roomId request fresh)
  | .runCommand =>
    match c.commands with
    | [] => none
    | command :: rest => some (command.apply { c with commands := rest })
  | .announcementDelivered roomId eventId =>
    some { c with
      stored := c.stored.map fun e =>
        if e.intent.roomId = roomId ∧ e.intent.eventId = eventId then { e with delivered := true }
        else e
      outgoingUploads := c.outgoingUploads.map (OutgoingUpload.markDelivered roomId eventId) }
  | .restorePendingFileUploads =>
    some { c with
      restores := c.restores ++ c.stored.filter fun e =>
        (e.intent.roomId, e.intent.eventId) ∉ c.readyFileUploads }
  | .restoreFile request fresh =>
    match c.restores with
    | [] => none
    | e :: rest => some (c.restoreFile sha256 e rest request fresh)
  | .cancel index =>
    match c.outgoingUploads[index]? with
    | none => none
    | some upload =>
      some { c with
        outgoingUploads := c.outgoingUploads.eraseIdx index
        commands := c.commands ++ upload.finishCommands }
  | .poll sourceBudget answer =>
    match c.outgoingUploads with
    | [] => none
    | upload :: rest => some (c.poll aead upload rest sourceBudget answer)
  | .disconnect => some c.dropSession
  | .crash => some { c.dropSession with commands := [] }

/-- The content keys an action draws have not been drawn before. -/
def FreshKeys : UploadAction → Prop
  | .queueFileUpload _ _ fresh | .restoreFile _ fresh => ∀ e ∈ fresh, e.1 ∉ c.drawn
  | _ => True

/-- An upload is restored only while no frame of it has been sealed. -/
def RestoresUnsealed : UploadAction → Prop
  | .restoreFile _ _ => ∀ e ∈ c.restores.head?, ∀ call ∈ c.sealCalls,
  call.fileKey ≠ e.intent.announcement.fileKey
  | _ => True

/-- A new upload gets an id that no intent has, and the ids of the connection do not run out. -/
def NewIds : UploadAction → Prop
  | .queueFileUpload _ _ _ => c.nextFileTransfer < u64Max ∧
      ∀ intent ∈ c.intents, intent.announcement.transferId ≠ c.nextFileTransfer
  | .restoreFile _ _ => c.nextFileTransfer < u64Max
  | _ => True

instance decidableFreshKeys (c : UploadClient zstd) (a : UploadAction) :
    Decidable (FreshKeys c a) := by
  cases a <;> dsimp only [FreshKeys] <;> infer_instance

instance decidableNewIds (c : UploadClient zstd) (a : UploadAction) : Decidable (NewIds c a) := by
  cases a <;> dsimp only [NewIds] <;> infer_instance

instance decidableRestoresUnsealed (c : UploadClient zstd) (a : UploadAction) :
    Decidable (RestoresUnsealed c a) := by
  cases a <;> dsimp only [RestoresUnsealed] <;> infer_instance

end

end Chatt.FileTransfer
