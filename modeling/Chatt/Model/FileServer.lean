import Chatt.Lib.Utf8
import Chatt.Model.FileWire

/-!
# The file relay of the server

Uploads as the server keeps and relays them (crates/server/src/lib.rs, `start_file_upload` to
`send_file_canceled`, `queue_shared_control_payload`, `disconnect` and `teardown_session`).
Queueing
a message can find the connection's buffers full, which ends the connection; the teardown of its
session queues messages in turn.  How each attempt to queue ends, and whom a teardown tells of
shares, calls and presence, is given from outside.  A connection is named by its session.
-/

namespace Chatt.FileTransfer

open Lib

/-! ## File names -/

def isSeparator (c : Char) : Bool := c = '/' || c = '\\'

def trimMatches (p : Char → Bool) (text : List Char) : List Char :=
  ((text.dropWhile p).reverse.dropWhile p).reverse

def sanitizeChar (c : Char) : Char :=
  if c.toNat < 128 ∧ c.isAlphanum ∨ c ∈ ['.', '-', '_', ' '] then c else '_'

def sanitizeFileName (name : List Char) : List Char :=
  let trimmed := trimMatches isWhiteSpace (name.reverse.takeWhile fun c => !isSeparator c).reverse
  let out := trimMatches (fun c => c = ' ' || c = '.') (trimmed.map sanitizeChar)
  if out = [] then "file".toList else out

/-- The name up to its last dot, and the rest; a dot at either end does not count. -/
def splitExtension (name : List Char) : List Char × List Char :=
  let after := (name.reverse.takeWhile fun c => c ≠ '.').length
  let index := name.length - after - 1
  if '.' ∈ name ∧ 0 < index ∧ index + 1 < name.length then (name.take index, name.drop index)
  else (name, [])

def numberedName (name : List Char) (index : ℕ) : Bytes :=
  utf8 ((splitExtension name).1 ++ '-' :: Nat.toDigits 10 index ++ (splitExtension name).2)

/-- The requested name, or the first numbered one, that is not reserved.  Among as many numbers as
there are reserved names, and one more, one is free. -/
def reserveUniqueFileName (reserved : List Bytes) (requested : List Char) : Bytes :=
  let requested := sanitizeFileName requested
  if utf8 requested ∉ reserved then utf8 requested
  else
    (((List.range (reserved.length + 1)).map fun i => numberedName requested (i + 1)).find?
      fun candidate => candidate ∉ reserved).getD (utf8 requested)

/-! ## The server -/

structure Session where
  userId : UserId
  receiveFiles : Bool
  fileReceiveLimitBytes : ℕ
  deriving DecidableEq

inductive RoomAccess
  | everyone
  | members (users : List UserId)
  deriving DecidableEq

def RoomAccess.allows (access : RoomAccess) (user : UserId) : Bool :=
  match access with
  | .everyone => true
  | .members users => user ∈ users

structure RelayRoom where
  access : RoomAccess
  /-- the MLS service has a group for the room -/
  mlsEncrypted : Bool
  deriving DecidableEq

structure FileMetadata where
  transferId : FileTransferId
  roomId : RoomId
  sender : UserId
  fileName : Bytes
  originalName : Bytes
  size : ℕ
  encoding : FileContentEncoding
  mlsEventId : Option EventId
  deriving DecidableEq

inductive ServerControl
  | uploadFileAccepted (clientTransferId : FileTransferId) (file : FileMetadata)
  | chat (fileTransferId : FileTransferId)
  | fileOffered (file : FileMetadata) (contents : Bool)
  | fileChunk (transferId : FileTransferId) (offset : ℕ) (data : Bytes)
  | fileComplete (transferId : FileTransferId)
  | fileCanceled (transferId : FileTransferId) (reason : String)
  | uploadDeclined (clientTransferId : FileTransferId) (reason : String)
  | error (message : String)
  /-- a message that is not about files -/
  | notice
  deriving DecidableEq

/-- The kind of a message that carries file names: only such a message can exceed the limit of a
payload, since a chunk, the reason of a cancel and the rest are no longer than a request. -/
def ServerControl.namedKind? : ServerControl → Option String
  | .uploadFileAccepted _ _ => some "upload_file_accepted"
  | .chat _ => some "chat"
  | .fileOffered _ _ => some "file_offered"
  | _ => none

/-- How an attempt to queue a message ends. -/
inductive QueueOutcome
  | queued
  /-- the payload is too long -/
  | exceedsPayload
  /-- the sealed frame is too long -/
  | exceedsFrame
  /-- the buffer of the connection is full -/
  | overflow
  /-- the buffers of the server are full -/
  | serverFull
  deriving DecidableEq

/-- The connection is closed for it. -/
def QueueOutcome.closes : QueueOutcome → Bool
  | .overflow | .serverFull => true
  | _ => false

abbrev UploadKey := SessionId × FileTransferId

structure FileServer where
  fileSizeLimitBytes : ℕ
  rooms : List (RoomId × RelayRoom)
  sessions : List (SessionId × Session)
  nextSession : SessionId
  /-- the sessions whose connection is open -/
  clients : List SessionId
  /-- the sessions whose connection drains and is then closed -/
  closing : List SessionId
  activeUploads : List (UploadKey × ServerUpload)
  reservedFileNames : List Bytes
  nextFileTransfer : FileTransferId
  /-- the messages queued so far, with the session each one goes to -/
  queued : List (SessionId × ServerControl)
  /-- how the next attempts to queue end, by the session each is for -/
  outcomes : List (SessionId → QueueOutcome)
  /-- whom the next teardowns tell of shares, calls and presence -/
  notices : List (List SessionId)

def maxActiveUploadsPerSession : ℕ := 8

/-- The order in which a hash set or map is iterated. -/
structure IterationOrder where
  iter : FileServer → List ℕ → List ℕ
  perm : ∀ s l, (iter s l).Perm l

namespace FileServer

section

variable (s : FileServer)

/-- `live_token_for_session` -/
def isLive (session : SessionId) : Bool :=
  (s.sessions.lookup session).isSome && s.clients.contains session

def upload? (key : UploadKey) : Option ServerUpload := s.activeUploads.lookup key

/-- How the next attempt to queue ends if it is for the session. -/
def outcome (session : SessionId) : QueueOutcome := (s.outcomes.headD fun _ => .queued) session

/-- `active_uploads.get_mut(&key)`, and a change to what it finds. -/
def modifyUpload (key : UploadKey) (f : ServerUpload → ServerUpload) : FileServer :=
  { s with
    activeUploads := s.activeUploads.map fun entry =>
      if entry.1 = key then (entry.1, f entry.2) else entry }

/-- An upload leaves `active_uploads`, and its name `reserved_file_names`. -/
def removeUpload (key : UploadKey) (upload : ServerUpload) : FileServer :=
  { s with
    activeUploads := s.activeUploads.filter fun entry => entry.1 ≠ key
    reservedFileNames := s.reservedFileNames.erase upload.fileName }

/-! ### Queueing and its consequences -/

/-- A function that queues a message. -/
abbrev Queue := FileServer → SessionId → ServerControl → FileServer × Except String Unit

end

section

variable (order : IterationOrder) (queue : Queue) (s : FileServer)

def sendControlToTokens (sessions : List SessionId) (control : ServerControl) : FileServer :=
  sessions.foldl (fun s session => (queue s session control).1) s

def sendFileCanceled (upload : ServerUpload) (reason : String) : FileServer :=
  (order.iter s upload.recipients).foldl
    (fun s recipient =>
      if s.isLive recipient then
        (queue s recipient (.fileCanceled upload.serverTransferId reason)).1
      else s) s

def cancelFileUpload (session : SessionId) (clientTransferId : FileTransferId)
    (reason : String) : FileServer :=
  match s.upload? (session, clientTransferId) with
  | none => s
  | some upload =>
    sendFileCanceled order queue (s.removeUpload (session, clientTransferId) upload) upload reason

def cancelUploadsForSession (session : SessionId) (reason : String) : FileServer :=
  let keys := (s.activeUploads.map Prod.fst).filterMap fun key =>
    if key.1 = session then some key.2 else none
  (order.iter s keys).foldl
    (fun s transferId => cancelFileUpload order queue s session transferId reason) s

def teardownSession (session : SessionId) (reason : String) : FileServer :=
  let s := cancelUploadsForSession order queue s session reason
  let s := sendControlToTokens queue { s with notices := s.notices.tail }
    (s.notices.headD []) .notice
  { s with sessions := s.sessions.filter fun entry => entry.1 ≠ session }

def disconnectWith (session : SessionId) : FileServer :=
  if session ∈ s.clients then
    teardownSession order queue { s with clients := s.clients.filter fun other => other ≠ session }
      session "sender disconnected"
  else s

/-- `queue_shared_control_payload` with as many nested disconnects as `depth` allows.  Each one
closes a connection, so the number of connections is enough. -/
def queueWith : ℕ → Queue
  | 0, s, _, _ => (s, .error "unknown client token")
  | depth + 1, s, session, control =>
    let popped := { s with outcomes := s.outcomes.tail }
    match s.outcome session, control.namedKind? with
    | .exceedsPayload, some kind => (popped, .error (kind ++ " exceeds control payload limit"))
    | outcome, kind? =>
      if session ∉ s.clients then (s, .error "unknown client token")
      else
        match outcome, kind? with
        | .exceedsFrame, some kind => (popped, .error (kind ++ " exceeds frame limit"))
        | .overflow, _ =>
          (disconnectWith order (queueWith depth) popped session,
            .error "control write buffer overflow")
        | .serverFull, _ =>
          (disconnectWith order (queueWith depth) popped session,
            .error "server control queue is full")
        | _, _ => ({ popped with queued := popped.queued ++ [(session, control)] }, .ok ())

/-! ### The requests -/

def notifyUploadDeclined (key : UploadKey) (reason : String) : FileServer :=
  match s.upload? key with
  | none => s
  | some upload =>
    if upload.recipients ≠ [] ∨ upload.declinedNotified then s
    else if !s.isLive key.1 then s
    else
      (queue s key.1 (.uploadDeclined key.2 reason)).1.modifyUpload key fun upload =>
        { upload with declinedNotified := true }

structure UploadStart where
  roomId : RoomId
  clientTransferId : FileTransferId
  name : List Char
  originalSize : ℕ
  encoding : FileContentEncoding
  mlsEventId : Option EventId
  /-- the room's log takes the announcement -/
  appended : Bool
  deriving DecidableEq

def sessionAcceptsFile (session : Session) (originalSize : ℕ) : Bool :=
  session.receiveFiles && originalSize ≤ session.fileReceiveLimitBytes

def mlsEncrypted (s : FileServer) (roomId : RoomId) : Bool :=
  ((s.rooms.lookup roomId).map RelayRoom.mlsEncrypted).getD false

def roomAllows (session : SessionId) (roomId : RoomId) : Bool :=
  match s.sessions.lookup session, s.rooms.lookup roomId with
  | some session, some room => room.access.allows session.userId
  | _, _ => false

/-- The checks of `start_file_upload` up to the access to the room; the sender of the file. -/
def checkStart (session : SessionId) (request : UploadStart) :
    Except String UserId := do
  reject (s.fileSizeLimitBytes < request.originalSize) "file exceeds server maximum length"
  let encryptedRoom := ((s.rooms.lookup request.roomId).map fun room =>
    decide (room.access ≠ .everyone)).getD false
  reject (encryptedRoom ∧ ¬ s.mlsEncrypted request.roomId)
    "encrypted room file transfer is waiting for MLS setup"
  reject (request.mlsEventId.isSome ≠ decide (request.encoding = .sealed))
    "sealed metadata does not match the upload encoding"
  reject (decide (request.encoding = .sealed) ≠ s.mlsEncrypted request.roomId)
    (if request.encoding = .sealed then "sealed uploads require an initialized MLS room"
      else "MLS room uploads require end-to-end encryption")
  reject (s.upload? (session, request.clientTransferId)).isSome "file transfer id is already active"
  reject (maxActiveUploadsPerSession ≤ (s.activeUploads.filter fun entry =>
    entry.1.1 = session).length)
    "too many concurrent file uploads"
  let sender ← require (s.sessions.lookup session) "unknown session"
  return sender.userId

/-- The sessions that may enter the room. -/
def memberIds (roomId : RoomId) : List SessionId :=
  match s.rooms.lookup roomId with
  | none => []
  | some room =>
    order.iter s ((s.sessions.filter fun entry => room.access.allows entry.2.userId).map Prod.fst)

/-- The members but the uploader. -/
def transferMembers (session : SessionId) (request : UploadStart) : List SessionId :=
  (memberIds order s request.roomId).filter fun member => member ≠ session

def startRecipients (session : SessionId) (request : UploadStart) : List SessionId :=
  (transferMembers order s session request).filter fun member =>
    ((s.sessions.lookup member).map fun session =>
      sessionAcceptsFile session request.originalSize).getD false

def metadataOf (sender : UserId) (request : UploadStart) : FileMetadata :=
  { transferId := s.nextFileTransfer
    roomId := request.roomId
    sender
    fileName := reserveUniqueFileName s.reservedFileNames (sanitizeFileName request.name)
    originalName := utf8 (sanitizeFileName request.name)
    size := request.originalSize
    encoding := request.encoding
    mlsEventId := request.mlsEventId }

/-- The upload is registered, under a name that is reserved for it. -/
def register (session : SessionId) (request : UploadStart) (file : FileMetadata) : FileServer :=
  { s with
    reservedFileNames := file.fileName :: s.reservedFileNames
    nextFileTransfer := max ((s.nextFileTransfer + 1) % 2 ^ 64) 1
    activeUploads := ((session, request.clientTransferId), {
      serverTransferId := file.transferId
      roomId := request.roomId
      encoding := request.encoding
      originalSize := request.originalSize
      wireReceived := 0
      fileName := file.fileName
      recipients := startRecipients order s session request
      declinedNotified := false }) :: s.activeUploads }

/-- One round of the loop that offers the file: the recipients are those who are to get it. -/
def offerTo (file : FileMetadata) (state : FileServer × List SessionId) (member : SessionId) :
    FileServer × List SessionId :=
  let (s, recipients) := state
  if !s.isLive member then (s, recipients)
  else
    let contents := member ∈ recipients
    let s := (queue s member (.fileOffered file contents)).1
    (s, if contents ∧ !s.isLive member then recipients.erase member else recipients)

def offerFile (file : FileMetadata) (members recipients : List SessionId) :
    FileServer × List SessionId :=
  members.foldl (offerTo queue file) (s, recipients.filter s.isLive)

/-- What follows the registration: the uploader is told, and the announcement stored and sent.  The
result is there if the upload ends here. -/
def announceUpload (session : SessionId) (request : UploadStart)
    (file : FileMetadata) : FileServer × Option (Except String Unit) :=
  let (s, accepted) := queue s session (.uploadFileAccepted request.clientTransferId file)
  if !accepted.isOk ∨ !s.isLive session then
    (cancelFileUpload order queue s session request.clientTransferId
      "uploading session disconnected", some accepted)
  else if s.mlsEncrypted request.roomId then (s, none)
  else if !request.appended then
    (cancelFileUpload order queue s session request.clientTransferId
      "durable history is busy; retry shortly", some (.ok ()))
  else
    let s := sendControlToTokens queue s
      ((memberIds order s request.roomId).filter s.clients.contains) (.chat file.transferId)
    (s, if s.isLive session then none else some (.ok ()))

/-- The end of `start_file_upload`: the offers, and the recipients that remain. -/
def offerUpload (session : SessionId) (request : UploadStart) (file : FileMetadata)
    (members recipients : List SessionId) : FileServer :=
  let (s, recipients) := offerFile queue s file members recipients
  let key := (session, request.clientTransferId)
  let s := s.modifyUpload key fun upload => { upload with recipients }
  if members = [] then s else notifyUploadDeclined queue s key "recipient declined"

def startFileUpload (session : SessionId) (request : UploadStart) :
    FileServer × Except String Unit :=
  match checkStart s session request with
  | .error e => (s, .error e)
  | .ok sender =>
    if !s.roomAllows session request.roomId then
      (if s.isLive session then (queue s session (.error "room not found")).1 else s, .ok ())
    else if !s.isLive session then (s, .error "uploading session disconnected")
    else if session ∈ s.closing then (s, .error "uploading session is closing")
    else
      let file := metadataOf s sender request
      match announceUpload order queue (register order s session request file) session request file
      with
      | (s', some result) => (s', result)
      | (s', none) =>
        (offerUpload queue s' session request file (transferMembers order s session request)
          (startRecipients order s session request), .ok ())

/-- One round of the loop that relays a chunk; the recipients that are found disconnected are kept
aside. -/
def relayTo (control : ServerControl) (state : FileServer × List SessionId)
    (recipient : SessionId) : FileServer × List SessionId :=
  let (s, disconnected) := state
  if !s.isLive recipient then (s, disconnected ++ [recipient])
  else
    let s := (queue s recipient control).1
    (s, if s.isLive recipient then disconnected else disconnected ++ [recipient])

def relayChunk (control : ServerControl) (recipients : List SessionId) :
    FileServer × List SessionId :=
  recipients.foldl (relayTo queue control) (s, [])

def receiveFileChunk (session : SessionId) (clientTransferId : FileTransferId)
    (offset : ℕ) (data : Bytes) : FileServer × Except String Unit :=
  let key := (session, clientTransferId)
  if maxFileChunkBytes < data.length then (s, .error "file chunk exceeds maximum length")
  else
    match s.upload? key with
    | none => (s, .error "unknown file transfer")
    | some upload =>
      match upload.receiveChunk offset data with
      | .error e => (s, .error e)
      | .ok received =>
        let s := s.modifyUpload key fun _ => received
        if upload.recipients = [] then
          (notifyUploadDeclined queue s key "recipient declined", .ok ())
        else
          let (s, disconnected) :=
            relayChunk queue s (.fileChunk upload.serverTransferId offset data)
              (order.iter s upload.recipients)
          let s := s.modifyUpload key fun upload =>
            { upload with recipients := upload.recipients.filter fun r => r ∉ disconnected }
          (notifyUploadDeclined queue s key "recipient declined", .ok ())

def completeFileUpload (session : SessionId) (clientTransferId : FileTransferId) :
    FileServer × Except String Unit :=
  let key := (session, clientTransferId)
  match s.upload? key with
  | none => (s, .error "unknown file transfer")
  | some upload =>
    let s := s.removeUpload key upload
    if !uploadCompletionIsValid upload.encoding upload.originalSize upload.wireReceived then
      (sendFileCanceled order queue s upload "upload ended before all bytes arrived",
        .error "file upload ended before all bytes arrived")
    else
      (sendControlToTokens queue s ((order.iter s upload.recipients).filter s.isLive)
        (.fileComplete upload.serverTransferId), .ok ())

def skipFileDownload (session : SessionId) (serverTransferId : FileTransferId) : FileServer :=
  match s.activeUploads.find? fun entry => entry.2.serverTransferId = serverTransferId with
  | none => s
  | some (key, upload) =>
    if session ∈ upload.recipients then
      notifyUploadDeclined queue
        (s.modifyUpload key fun upload =>
          { upload with recipients := upload.recipients.erase session }) key "recipient declined"
    else s

inductive FileRequest
  | start (request : UploadStart)
  | chunk (clientTransferId : FileTransferId) (offset : ℕ) (data : Bytes)
  | complete (clientTransferId : FileTransferId)
  | cancel (clientTransferId : FileTransferId) (reason : String)
  | skip (serverTransferId : FileTransferId)
  deriving DecidableEq

/-- `handle_control` for the requests about files. -/
def handleControl (session : SessionId) :
    FileRequest → FileServer × Except String Unit
  | .start request => startFileUpload order queue s session request
  | .chunk clientTransferId offset data =>
    receiveFileChunk order queue s session clientTransferId offset data
  | .complete clientTransferId => completeFileUpload order queue s session clientTransferId
  | .cancel clientTransferId reason =>
    (cancelFileUpload order queue s session clientTransferId reason, .ok ())
  | .skip serverTransferId => (skipFileDownload queue s session serverTransferId, .ok ())

end

/-- `queue_shared_control_payload` in a state with no more connections than this one. -/
def queueOf (order : IterationOrder) (s : FileServer) : Queue := queueWith order s.clients.length

end FileServer

end Chatt.FileTransfer
