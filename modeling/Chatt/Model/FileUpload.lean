import Chatt.Model.FileWire

/-!
# The sending side of a file transfer

`OutgoingUpload` and `poll_one_upload` of src/client_net.rs: the source is read in pieces,
compressed or not, cut into chunks by the throttle's budget and, for an encrypted room, sealed
and padded.  The compressor is a parameter, and so is what the operating system answers to a
read of the file.  Local copies, progress reports and image dimensions are left out.
-/

namespace Chatt.FileTransfer

open Lib

def maxQueuedFileBytes : ℕ := 1024 * 1024

def maxFileSourceBytesPerTick : ℕ := 1024 * 1024

def maxCompressedUploadSourceAheadBytes : ℕ := 4 * 1024 * 1024

/-! ## The throttle -/

structure UploadThrottle where
  /-- bytes per second, 0 for no limit -/
  rate : ℕ
  tokens : ℕ
  deriving DecidableEq, Repr

def UploadThrottle.new (rate : ℕ) : UploadThrottle := { rate, tokens := rate }

def UploadThrottle.setRate (throttle : UploadThrottle) (rate : ℕ) : UploadThrottle :=
  { rate, tokens := min throttle.tokens rate }

/-- `refill`, for what the elapsed time gains at the rate. -/
def UploadThrottle.refill (throttle : UploadThrottle) (gained : ℕ) : UploadThrottle :=
  if throttle.rate = 0 then throttle
  else { throttle with tokens := min (saturatingAdd throttle.tokens gained) throttle.rate }

def UploadThrottle.budget (throttle : UploadThrottle) : ℕ :=
  if throttle.rate = 0 then u64Max else throttle.tokens

def UploadThrottle.isLimited (throttle : UploadThrottle) : Bool := throttle.rate ≠ 0

def UploadThrottle.consume (throttle : UploadThrottle) (bytes : ℕ) : UploadThrottle :=
  if throttle.rate = 0 then throttle else { throttle with tokens := throttle.tokens - bytes }

/-! ## The compressor and the body of an upload -/

/-- The zstd encoder: each call returns the encoder and what it wrote, or fails. -/
structure Compressor where
  Encoder : Type
  /-- a new encoder, for the size it is promised -/
  newEncoder : ℕ → Encoder
  feed : Encoder → Bytes → Option (Encoder × Bytes)
  flush : Encoder → Option (Encoder × Bytes)
  finish : Encoder → Option (Encoder × Bytes)

/-- A compressor to run examples with: a 1 stands before each byte, a 0 at the end. -/
def Compressor.sample : Compressor where
  Encoder := Unit
  newEncoder _ := ()
  feed _ raw := some ((), raw.flatMap fun byte => [1, byte])
  flush _ := some ((), [])
  finish _ := some ((), [0])

variable {zstd : Compressor}

inductive UploadBody (zstd : Compressor)
  | identity (pending : Bytes)
  | zstd (encoder : zstd.Encoder) (pending : Bytes)

def UploadBody.encoding : UploadBody zstd → FileContentEncoding
  | .identity _ => .identity
  | .zstd _ _ => .zstd

def UploadBody.pending : UploadBody zstd → Bytes
  | .identity pending => pending
  | .zstd _ pending => pending

def UploadBody.withPending (pending : Bytes) : UploadBody zstd → UploadBody zstd
  | .identity _ => .identity pending
  | .zstd encoder _ => .zstd encoder pending

def UploadBody.feed (raw : Bytes) : UploadBody zstd → Option (UploadBody zstd)
  | .identity pending => some (.identity (pending ++ raw))
  | .zstd encoder pending =>
    (zstd.feed encoder raw).map fun result => .zstd result.1 (pending ++ result.2)

def UploadBody.finish : UploadBody zstd → Option (UploadBody zstd)
  | .identity pending => some (.identity pending)
  | .zstd encoder pending =>
    (zstd.finish encoder).map fun result => .zstd result.1 (pending ++ result.2)

def UploadBody.flush : UploadBody zstd → Option (UploadBody zstd)
  | .identity pending => some (.identity pending)
  | .zstd encoder pending =>
    (zstd.flush encoder).map fun result => .zstd result.1 (pending ++ result.2)

/-! ## An upload -/

structure UploadSeal where
  contentKey : KeyMaterial
  eventId : EventId
  /-- the server has the announcement of this upload -/
  announcementDelivered : Bool
  digest : Digest
  innerEncoding : FileContentEncoding
  /-- the index of the next frame -/
  counter : UInt64
  /-- encoded bytes sealed so far -/
  streamLen : ℕ
  /-- zeros still owed, once the encoder has finished -/
  padRemaining : Option ℕ
  mlsEventId : EventId
  deriving DecidableEq

inductive UploadSource
  | bytes (content : Bytes)
  | file
  deriving DecidableEq

structure OutgoingUpload (zstd : Compressor) where
  transferId : FileTransferId
  roomId : RoomId
  name : Bytes
  size : ℕ
  source : UploadSource
  sourceOffset : ℕ
  sourceReadAhead : ℕ
  wireOffset : ℕ
  /-- what is left of the piece read for the compression probe -/
  sourcePrefix : Bytes
  body : UploadBody zstd
  sourceFinished : Bool
  encoderFinished : Bool
  started : Bool
  sealing : Option UploadSeal

inductive ClientControl
  | uploadFileStart (roomId : RoomId) (transferId : FileTransferId) (name : Bytes) (size : ℕ)
      (encoding : FileContentEncoding) (mlsEventId : Option EventId)
  | uploadFileChunk (transferId : FileTransferId) (offset : ℕ) (data : Bytes)
  | uploadFileComplete (transferId : FileTransferId)
  | uploadFileCancel (transferId : FileTransferId) (reason : String)
  deriving DecidableEq

/-- What one poll of an upload does. -/
structure Polled (zstd : Compressor) where
  /-- the upload as it goes back to the front of the queue, `none` if it is over -/
  upload : Option (OutgoingUpload zstd)
  control : Option ClientControl
  throttle : UploadThrottle
  sourceBudget : ℕ
  /-- the result: whether there was something to do -/
  worked : Bool
  /-- the frame sealed on the way -/
  sealCall : Option SealCall

section

variable (upload : OutgoingUpload zstd)

def compressedUploadSourceReadAheadIsLimited
    (throttle : UploadThrottle) : Bool :=
  throttle.isLimited && upload.body.encoding = .zstd

def uploadSourceReadCapacity (throttle : UploadThrottle) : ℕ :=
  if compressedUploadSourceReadAheadIsLimited upload throttle then
    maxCompressedUploadSourceAheadBytes - upload.sourceReadAhead
  else u64Max

def uploadShouldFlushSourceReadAhead (throttle : UploadThrottle) : Bool :=
  compressedUploadSourceReadAheadIsLimited upload throttle && !upload.sourceFinished &&
    maxCompressedUploadSourceAheadBytes ≤ upload.sourceReadAhead && upload.body.pending.isEmpty

/-- `read_upload_source`, where `answer` is what a read of the open file yields, `none` for an
error. -/
def readUploadSource (limit : ℕ) (answer : Option Bytes) : Option (Bytes × OutgoingUpload zstd) :=
  if upload.sourcePrefix ≠ [] then
    some (upload.sourcePrefix.take limit,
      { upload with sourcePrefix := upload.sourcePrefix.drop limit })
  else
    match upload.source with
    | .bytes content => some ((content.drop upload.sourceOffset).take limit, upload)
    | .file => answer.map fun data => (data.take limit, upload)

def OutgoingUpload.scope (sealing : UploadSeal) (sender : UserId) : FileChunkScope :=
  { roomId := upload.roomId, sender, eventId := sealing.eventId, transferId := upload.transferId,
    totalSize := upload.size, digest := sealing.digest }

/-! ## A poll -/

/-- What a poll of the queue's front reads from around the upload. -/
structure PollEnv where
  userId : Option UserId
  throttle : UploadThrottle
  sourceBudget : ℕ
  /-- the answer to a read of the source file -/
  answer : Option Bytes

end

section

variable (aead : Aead) (env : PollEnv) (upload : OutgoingUpload zstd)

/-- The upload goes back to the queue. -/
def keep (worked : Bool) (upload : OutgoingUpload zstd) : Polled zstd :=
  { upload := some upload, control := none, throttle := env.throttle,
    sourceBudget := env.sourceBudget, worked, sealCall := none }

def cancelOutgoingUpload (reason : String) : Polled zstd :=
  { upload := none, control := some (.uploadFileCancel upload.transferId reason),
    throttle := env.throttle, sourceBudget := env.sourceBudget, worked := true, sealCall := none }

/-- The first poll: a sealed upload waits for its announcement, and advertises a placeholder
name and its size class. -/
def startUpload : Polled zstd :=
  match upload.sealing with
  | some sealing =>
    if sealing.announcementDelivered then
      { keep env true { upload with started := true } with
        control := some (.uploadFileStart upload.roomId upload.transferId (ascii "sealed.bin")
          (padmeLen upload.size) .sealed (some sealing.mlsEventId)) }
    else keep env false upload
  | none =>
    { keep env true { upload with started := true } with
      control := some (.uploadFileStart upload.roomId upload.transferId upload.name upload.size
        upload.body.encoding none) }

def maxPayload : ℕ :=
  match upload.sealing with
  | some _ => maxSealedPayload
  | none => maxFileChunkBytes

/-- The length of the next chunk: what is pending, up to the chunk's and the throttle's limit. -/
def sendLen : ℕ := min (min upload.body.pending.length (maxPayload upload)) env.throttle.budget

/-- A chunk is queued at the upload's wire offset. -/
def queueChunk (data : Bytes) (sealCall : Option SealCall) : Polled zstd :=
  { keep env true { upload with wireOffset := upload.wireOffset + data.length } with
    control := some (.uploadFileChunk upload.transferId upload.wireOffset data), sealCall }

/-- Pending bytes are taken off, sealed and queued. -/
def sendPending : Polled zstd :=
  let data := upload.body.pending.take (sendLen env upload)
  let rest := upload.body.pending.drop (sendLen env upload)
  let throttle := env.throttle.consume (sendLen env upload)
  let sent : OutgoingUpload zstd :=
    { upload with
      body := upload.body.withPending rest
      sourceReadAhead := if rest = [] then 0 else upload.sourceReadAhead }
  match upload.sealing with
  | none => { queueChunk env sent data none with throttle }
  | some sealing =>
    match env.userId with
    | none => cancelOutgoingUpload env upload "not authenticated"
    | some sender =>
      match sealFileChunk aead sealing.contentKey.bytes (upload.scope sealing sender)
        sealing.counter data 0
      with
      | .error _ => cancelOutgoingUpload env upload "sealing failed"
      | .ok (frame, call) =>
        let sealing' :=
          { sealing with
            counter := sealing.counter + 1
            streamLen := sealing.streamLen + data.length }
        { queueChunk env { sent with sealing := some sealing' } frame (some call) with throttle }

def flushSource : Polled zstd :=
  match upload.body.flush with
  | none => cancelOutgoingUpload env upload "compression failed"
  | some body =>
    keep env true
      { upload with
        body
        sourceReadAhead := if body.pending = [] then 0 else upload.sourceReadAhead }

def readLimit : ℕ :=
  min (min (min env.sourceBudget maxFileChunkBytes) (upload.size - upload.sourceOffset))
    (uploadSourceReadCapacity upload env.throttle)

/-- A piece of the source is read and fed to the encoder. -/
def readSource : Polled zstd :=
  match readUploadSource upload (readLimit env upload) env.answer with
  | none => cancelOutgoingUpload env upload "failed to read local file"
  | some (data, upload) =>
    if data = [] then cancelOutgoingUpload env upload "local file ended early"
    else
      match upload.body.feed data with
      | none => cancelOutgoingUpload env upload "compression failed"
      | some body =>
        let fed : OutgoingUpload zstd := { upload with body }
        { keep env true
            { fed with
              sourceReadAhead :=
                if compressedUploadSourceReadAheadIsLimited fed env.throttle then
                  saturatingAdd upload.sourceReadAhead data.length
                else 0
              sourceOffset := upload.sourceOffset + data.length
              sourceFinished := upload.sourceOffset + data.length = upload.size } with
          sourceBudget := env.sourceBudget - data.length }

def finishEncoder : Polled zstd :=
  match upload.body.finish with
  | none => cancelOutgoingUpload env upload "compression failed"
  | some body => keep env true { upload with body, encoderFinished := true }

def completeUpload : Polled zstd :=
  { upload := none, control := some (.uploadFileComplete upload.transferId),
    throttle := env.throttle, sourceBudget := env.sourceBudget, worked := true, sealCall := none }

/-- The zeros that are still owed: computed when they are first asked for. -/
def UploadSeal.owed (sealing : UploadSeal) : ℕ :=
  sealing.padRemaining.getD (padmeLen sealing.streamLen - sealing.streamLen)

/-- The end of an upload whose bytes are all queued: padding frames, then the completion. -/
def padOrComplete : Polled zstd :=
  match upload.sealing with
  | none => completeUpload env upload
  | some sealing =>
    if sealing.owed = 0 then completeUpload env upload
    else
      match env.userId with
      | none => cancelOutgoingUpload env upload "not authenticated"
      | some sender =>
        let padLen := min sealing.owed maxSealedPayload
        match sealFileChunk aead sealing.contentKey.bytes (upload.scope sealing sender)
          sealing.counter []
          padLen with
        | .error _ => cancelOutgoingUpload env upload "sealing failed"
        | .ok (frame, call) =>
          let sealing' :=
            { sealing with
              counter := sealing.counter + 1
              padRemaining := some (sealing.owed - padLen) }
          queueChunk env { upload with sealing := some sealing' } frame (some call)

def pollOneUpload : Polled zstd :=
  if !upload.started then startUpload env upload
  else if upload.body.pending ≠ [] ∧ 0 < env.throttle.budget then sendPending aead env upload
  else if uploadShouldFlushSourceReadAhead upload env.throttle then flushSource env upload
  else if !upload.sourceFinished ∧ 0 < env.sourceBudget ∧
    upload.body.pending.length < maxQueuedFileBytes ∧
      0 < uploadSourceReadCapacity upload env.throttle then
    readSource env upload
  else if upload.sourceFinished ∧ !upload.encoderFinished then finishEncoder env upload
  else if upload.body.pending ≠ [] then keep env false upload
  else if !upload.encoderFinished then keep env false upload
  else padOrComplete aead env upload

end

/-! ## Preparing an upload -/

/-- The sources and the outcome of the compression probe of a request. -/
structure UploadRequest where
  name : Bytes
  /-- the content, as it is when the upload is prepared -/
  content : Bytes
  /-- held in memory, not read from a file -/
  inMemory : Bool
  /-- the piece read for the compression probe, if there was one -/
  probed : ℕ
  /-- the probe decided for compression -/
  compressed : Bool
  deriving DecidableEq

/-- `prepare_file_upload` for a room and, in an encrypted room, the fresh content key and event id
that `prepare_upload_seal` draws. -/
def prepareFileUpload (sha256 : Bytes → Digest) (roomId : RoomId) (transferId : FileTransferId)
    (request : UploadRequest) (fresh : Option (ByteArr 32 × EventId)) : OutgoingUpload zstd :=
  let size := request.content.length
  let body : UploadBody zstd :=
    if request.compressed then .zstd (zstd.newEncoder size) [] else .identity []
  { transferId
    roomId
    name := request.name
    size
    source := if request.inMemory then .bytes request.content else .file
    sourceOffset := 0
    sourceReadAhead := 0
    wireOffset := 0
    sourcePrefix := request.content.take request.probed
    body
    sourceFinished := size = 0
    encoderFinished := false
    started := false
    sealing := fresh.map fun keyAndEvent =>
      { contentKey := { id := 1, bytes := keyAndEvent.1 }
        eventId := keyAndEvent.2
        announcementDelivered := false
        digest := sha256 request.content
        innerEncoding := body.encoding
        counter := 0
        streamLen := 0
        padRemaining := none
        mlsEventId := keyAndEvent.2 } }

/-! ## The durable announcement -/

structure MlsFileAnnouncement where
  transferId : FileTransferId
  name : Bytes
  size : ℕ
  encoding : FileContentEncoding
  fileKey : ByteArr 32
  digest : Digest
  deriving DecidableEq

/-- A stored upload intent with the announcement of its outbox entry. -/
structure DurableFileUpload where
  roomId : RoomId
  eventId : EventId
  announcement : MlsFileAnnouncement
  deriving DecidableEq

/-- `persist_and_submit_file_announcement`: what is stored for a sealed upload. -/
def OutgoingUpload.intent (upload : OutgoingUpload zstd) : Option DurableFileUpload :=
  upload.sealing.map fun sealing =>
    { roomId := upload.roomId
      eventId := sealing.eventId
      announcement :=
        { transferId := upload.transferId
          name := upload.name
          size := upload.size
          encoding := sealing.innerEncoding
          fileKey := sealing.contentKey.bytes
          digest := sealing.digest } }

/-- `restore_mls_file_upload` after its source was prepared again: `none` where the source has
changed, or the room is no longer encrypted. -/
def restoreMlsFileUpload (intent : DurableFileUpload) (delivered : Bool)
    (upload : OutgoingUpload zstd) : Option (OutgoingUpload zstd) :=
  match upload.sealing with
  | none => none
  | some sealing =>
    if upload.size ≠ intent.announcement.size ∨ sealing.digest ≠ intent.announcement.digest ∨
        sealing.innerEncoding ≠ intent.announcement.encoding then none
    else
      some { upload with
        transferId := intent.announcement.transferId
        sealing := some { sealing with
          contentKey := { sealing.contentKey with bytes := intent.announcement.fileKey }
          eventId := intent.eventId
          mlsEventId := intent.eventId
          announcementDelivered := delivered } }

end Chatt.FileTransfer
