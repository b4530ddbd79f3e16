import Chatt.Lib.Run
import Chatt.Model.FileServer

/-!
# Runs of the file relay

Sessions come and go, rooms change, other messages are queued, and sessions make requests.  Every
input comes with the outcomes of the attempts to queue that it leads to.  What a session is owed is
stated over all the messages that were queued for it.
-/

namespace Chatt.FileTransfer

open Lib

/-! ## Runs -/

inductive FileServerAction
  /-- a login, with the preferences of the session -/
  | connect (session : Session)
  | disconnect (session : SessionId)
  /-- `begin_graceful_close` -/
  | beginClose (session : SessionId)
  | updateRoom (roomId : RoomId) (room : RelayRoom)
  /-- a message about something else -/
  | notify (session : SessionId)
  | request (session : SessionId) (request : FileServer.FileRequest)
  deriving DecidableEq

/-- The download an action skips. -/
def FileServerAction.skips : FileServerAction → List (SessionId × FileTransferId)
  | .request session (.skip transferId) => [(session, transferId)]
  | _ => []

structure FileServerInput where
  action : FileServerAction
  outcomes : List (SessionId → QueueOutcome)
  notices : List (List SessionId)

structure FileServerRun where
  server : FileServer
  /-- the sessions that skipped a transfer -/
  skipped : List (SessionId × FileTransferId)

namespace FileServer

/-- A request is handled; an error closes the connection. -/
def handle (order : IterationOrder) (s : FileServer) (session : SessionId) (request : FileRequest) :
    FileServer :=
  let queue := s.queueOf order
  match handleControl order queue s session request with
  | (s, .ok ()) => s
  | (s, .error _) => disconnectWith order queue s session

def next (order : IterationOrder) (s : FileServer) : FileServerAction → Option FileServer
  | .connect session =>
    some { s with
      sessions := (s.nextSession, session) :: s.sessions
      clients := s.nextSession :: s.clients
      nextSession := s.nextSession + 1 }
  | .disconnect session => some (disconnectWith order (s.queueOf order) s session)
  | .beginClose session => some { s with closing := session :: s.closing }
  | .updateRoom roomId room => some { s with rooms := (roomId, room) :: s.rooms }
  | .notify session => some (s.queueOf order s session .notice).1
  | .request session request =>
    if s.isLive session then some (s.handle order session request) else none

/-- A server that has just started. -/
def initial (fileSizeLimitBytes : ℕ) : FileServer :=
  { fileSizeLimitBytes
    rooms := []
    sessions := []
    nextSession := 1
    clients := []
    closing := []
    activeUploads := []
    reservedFileNames := []
    nextFileTransfer := 1
    queued := []
    outcomes := []
    notices := [] }

/-- No attempt to queue a message for the session finds a full buffer. -/
def Spares (s : FileServer) (session : SessionId) : Prop :=
  ∀ outcome ∈ s.outcomes, (outcome session).closes = false

/-- While a session starts an upload or sends a chunk, no attempt to queue a message for it finds a
full buffer; and the 64-bit counters do not run over. -/
def KeepsUploader (s : FileServer) : FileServerAction → Prop
  | .request session (.start _) => s.nextFileTransfer < u64Max ∧ s.Spares session
  | .request session (.chunk _ offset data) =>
    offset + data.length ≤ u64Max ∧ s.Spares session
  | _ => True

instance decidableSpares (s : FileServer) (session : SessionId) : Decidable (s.Spares session) :=
  inferInstanceAs (Decidable (∀ outcome ∈ s.outcomes, _))

instance decidableKeepsUploader (s : FileServer) (action : FileServerAction) :
    Decidable (s.KeepsUploader action) := by
  unfold KeepsUploader
  split <;> infer_instance

end FileServer

/-- The server as it takes an input. -/
def FileServerRun.taking (run : FileServerRun) (input : FileServerInput) : FileServer :=
  { run.server with outcomes := input.outcomes, notices := input.notices }

def FileServerRun.next (order : IterationOrder) (run : FileServerRun) (input : FileServerInput) :
    Option FileServerRun :=
  ((run.taking input).next order input.action).map fun server =>
    { server, skipped := input.action.skips ++ run.skipped }

def FileServerRun.initial (fileSizeLimitBytes : ℕ) : FileServerRun :=
  { server := FileServer.initial fileSizeLimitBytes, skipped := [] }

/-- The inputs that keep the uploader. -/
def FileServerRun.Keeps (run : FileServerRun) (input : FileServerInput) : Prop :=
  (run.taking input).KeepsUploader input.action

instance (run : FileServerRun) (input : FileServerInput) : Decidable (run.Keeps input) :=
  FileServer.decidableKeepsUploader _ _

/-! ## What a session gets -/

/-- The transfer a message to a recipient is about. -/
def ServerControl.transfer? : ServerControl → Option FileTransferId
  | .fileOffered file _ => some file.transferId
  | .fileChunk transferId _ _ => some transferId
  | .fileComplete transferId => some transferId
  | .fileCanceled transferId _ => some transferId
  | _ => none

/-- The messages queued for a session about a transfer. -/
def FileServer.received (s : FileServer) (session : SessionId) (transferId : FileTransferId) :
    List ServerControl :=
  (s.queued.filter fun entry => entry.1 = session ∧ entry.2.transfer? = some transferId).map
    Prod.snd

/-- Chunks of a transfer at contiguous offsets from 0 to the given one. -/
inductive ChunksTo (transferId : FileTransferId) : List ServerControl → ℕ → Prop
  | nil : ChunksTo transferId [] 0
  | snoc {chunks : List ServerControl} {stop : ℕ} (data : Bytes) :
      ChunksTo transferId chunks stop →
      ChunksTo transferId (chunks ++ [.fileChunk transferId stop data]) (stop + data.length)

/-- The message ends a transfer. -/
inductive ServerControl.Ends (transferId : FileTransferId) : ServerControl → Prop
  | complete : Ends transferId (.fileComplete transferId)
  | canceled (reason : String) : Ends transferId (.fileCanceled transferId reason)

/-- A session that was offered the contents of a file gets its chunks and at most one end.  As long
as it is connected and has not skipped the transfer, it has its end exactly if the upload is not
active any more, and else all the chunks that were received. -/
def FileServerRun.Serves (run : FileServerRun) : Prop :=
  ∀ session transferId file, .fileOffered file true ∈ run.server.received session transferId →
    ∃ chunks stop ends, run.server.received session transferId = .fileOffered file true ::
    chunks ++ ends ∧
      ChunksTo transferId chunks stop ∧
      (ends = [] ∨ ∃ last, ends = [last] ∧ last.Ends transferId) ∧
      (run.server.isLive session → (session, transferId) ∉ run.skipped →
        (ends = [] → ∃ entry ∈ run.server.activeUploads, entry.2.serverTransferId = transferId ∧
          session ∈ entry.2.recipients ∧ entry.2.wireReceived = stop) ∧
        (ends ≠ [] → ∀ entry ∈ run.server.activeUploads, entry.2.serverTransferId ≠ transferId))

/-- The reserved names are those of the active uploads, one each. -/
def FileServer.NamesReserved (s : FileServer) : Prop :=
  s.reservedFileNames.Perm (s.activeUploads.map fun entry => entry.2.fileName) ∧
    s.reservedFileNames.Nodup

end Chatt.FileTransfer
