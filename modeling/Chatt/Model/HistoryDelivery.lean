import Chatt.Lib.OrdMap
import Chatt.Lib.Run
import Chatt.Model.RoomHistory

/-!
# Requests for history

The server's side of `FetchHistory` (crates/server/src/lib.rs:190-196, 5542-5577, 6037-6313,
8432-8500): requests that passed the check of room access, the queue to the reader thread, its
replies, and the deliveries that advance under the budget of the event loop.  What a send does
is left open, and so is the encoder of a planned chunk.  `owners`, `sent` and `failed` record
the requests of a run, the chunks queued for each and the requests with a failed send; no step
reads them, except that a request takes its number from `owners`.
-/

namespace Chatt.RoomHistory

open Lib

abbrev Token := ℕ

def historyChunkTargetBytes : ℕ := 192 * 1024

def maxPendingDiskHistoryFetches : ℕ := 8

def maxPendingHistoryFetches : ℕ := 32

def historyDeliveryBudgetBytes : ℕ := 384 * 1024

def historyDeliveryBudgetChunks : ℕ := 4

/-- `REQUEST_QUEUE_CAPACITY` -/
def requestQueueCapacity : ℕ := 32

/-! ## One delivery -/

inductive HistoryDeliverySource where
  | resident (plan : HistoryFetchPlan) (nextChunk : ℕ)
  | encoded (payloads : List HistoryChunk)
  deriving DecidableEq

/-- What the loop does with a delivery it has taken from the queue. -/
inductive Advance where
  | finished
  /-- a chunk to send, and the delivery after it -/
  | payload (chunk : HistoryChunk) (source : HistoryDeliverySource)
  /-- the rest of the page is no longer in memory: the bound and the limit it is asked for with -/
  | trimmed (before : Option ℕ) (limit : ℕ)

namespace HistoryDeliverySource

def advance (encode : HistoryFetchPlan → ℕ → Except HistoryChunkError HistoryChunk)
    (roomId : RoomId) : HistoryDeliverySource → Advance
  | resident plan nextChunk =>
    if nextChunk ≥ plan.chunks.length then .finished
    else
      match encode plan nextChunk with
      | .ok chunk => .payload chunk (resident plan (nextChunk + 1))
      | .error .trimmed => .trimmed (plan.resumeAfter nextChunk).1 (plan.resumeAfter nextChunk).2
      | .error (.failed _) =>
        .payload (emptyChunk roomId plan.before) (resident plan plan.chunks.length)
  | encoded [] => .finished
  | encoded (chunk :: payloads) => .payload chunk (encoded payloads)

/-- The delivery whose last chunk went over the budget. -/
def pushBack (chunk : HistoryChunk) : HistoryDeliverySource → HistoryDeliverySource
  | resident plan nextChunk => resident plan (nextChunk - 1)
  | encoded payloads => encoded (chunk :: payloads)

def exhausted : HistoryDeliverySource → Bool
  | resident plan nextChunk => nextChunk ≥ plan.chunks.length
  | encoded payloads => payloads.isEmpty

end HistoryDeliverySource

/-! ## The server -/

structure Session where
  tcpToken : Token
  pendingDiskHistoryFetches : ℕ
  deriving DecidableEq

structure HistoryDelivery where
  request : ℕ
  sessionId : SessionId
  token : Token
  roomId : RoomId
  source : HistoryDeliverySource
  deriving DecidableEq

/-- A request in the hands of the reader thread. -/
structure ReadJob where
  request : ℕ
  read : HistoryReadRequest
  deriving DecidableEq

structure HistoryReadReply where
  request : ℕ
  sessionId : SessionId
  roomId : RoomId
  payloads : List HistoryChunk
  deriving DecidableEq

structure Server where
  rooms : RoomId → Retention
  sessions : OrdMap SessionId Session
  /-- the connections, with their sessions -/
  clients : OrdMap Token SessionId
  nextSession : SessionId
  nextToken : Token
  readerQueue : List ReadJob
  /-- the request the reader thread is working on -/
  reading : Option ReadJob
  replies : List HistoryReadReply
  deliveries : List HistoryDelivery
  pendingHistoryFetches : ℕ
  /-- the connection of each request -/
  owners : List Token
  sent : List (ℕ × HistoryChunk)
  failed : List ℕ

/-- What `queue_control_payload_to_token` does with a chunk for a connection. -/
inductive SendOutcome where
  | queued
  | refused
  /-- the connection is dropped for backpressure -/
  | dropped

abbrev Send := Server → Token → HistoryChunk → SendOutcome

abbrev Encode := Retention → HistoryFetchPlan → ℕ → Except HistoryChunkError HistoryChunk

namespace Server

def initial : Server where
  rooms _ := .none
  sessions := OrdMap.empty
  clients := OrdMap.empty
  nextSession := 1
  nextToken := 0
  readerQueue := []
  reading := none
  replies := []
  deliveries := []
  pendingHistoryFetches := 0
  owners := []
  sent := []
  failed := []

/-- A connection that has authenticated. -/
def connect (s : Server) : Server :=
  { s with
    sessions := s.sessions.insert s.nextSession ⟨s.nextToken, 0⟩
    clients := s.clients.insert s.nextToken s.nextSession
    nextSession := s.nextSession + 1
    nextToken := s.nextToken + 1 }

def disconnect (s : Server) (token : Token) : Server :=
  match s.clients.get? token with
  | none => s
  | some sessionId =>
    { s with clients := s.clients.erase token, sessions := s.sessions.erase sessionId }

def liveTokenForSession (s : Server) (sessionId : SessionId) : Option Token :=
  match s.sessions.get? sessionId with
  | none => none
  | some session =>
    if s.clients.contains session.tcpToken then some session.tcpToken else none

/-- Queues a chunk of the request; the answer says whether it was queued. -/
def queueChunk (send : Send) (s : Server) (token : Token) (request : ℕ) (chunk : HistoryChunk) :
    Server × Bool :=
  if s.clients.contains token then
    match send s token chunk with
    | .queued => ({ s with sent := s.sent ++ [(request, chunk)] }, true)
    | .refused => ({ s with failed := request :: s.failed }, false)
    | .dropped => ({ s.disconnect token with failed := request :: s.failed }, false)
  else ({ s with failed := request :: s.failed }, false)

def sendEmptyHistoryChunk (send : Send) (s : Server) (token : Token) (request : ℕ)
    (roomId : RoomId) (before : Option ℕ) : Server :=
  (s.queueChunk send token request (emptyChunk roomId before)).1

/-- One more request of the session is pending. -/
def addPending (s : Server) (sessionId : SessionId) : Server :=
  { s with
    sessions := match s.sessions.get? sessionId with
      | some session => s.sessions.insert sessionId
          { session with pendingDiskHistoryFetches := session.pendingDiskHistoryFetches + 1 }
      | none => s.sessions
    pendingHistoryFetches := s.pendingHistoryFetches + 1 }

def finishHistoryDelivery (s : Server) (sessionId : SessionId) : Server :=
  { s with
    sessions := match s.sessions.get? sessionId with
      | some session => s.sessions.insert sessionId
          { session with pendingDiskHistoryFetches := session.pendingDiskHistoryFetches - 1 }
      | none => s.sessions
    pendingHistoryFetches := s.pendingHistoryFetches - 1 }

def enqueueDiskHistoryFetch (send : Send) (s : Server) (request : ℕ) (sessionId : SessionId)
    (token : Token) (roomId : RoomId) (read : HistoryReadRequest) : Server :=
  match s.sessions.get? sessionId with
  | none => s
  | some session =>
    if session.pendingDiskHistoryFetches ≥ maxPendingDiskHistoryFetches then
      s.sendEmptyHistoryChunk send token request roomId read.before
    else if s.readerQueue.length ≥ requestQueueCapacity then
      s.sendEmptyHistoryChunk send token request roomId read.before
    else
      { s.addPending sessionId with readerQueue := s.readerQueue ++ [⟨request, read⟩] }

/-- `fetch_history` of a request that passed the check of room access. -/
def fetchHistory (send : Send) (s : Server) (sessionId : SessionId) (roomId : RoomId)
    (before : Option ℕ) (limit : ℕ) : Server :=
  match s.liveTokenForSession sessionId with
  | none => s
  | some token =>
    let request := s.owners.length
    let s := { s with owners := s.owners ++ [token] }
    if (s.sessions.get? sessionId).any fun session =>
      session.pendingDiskHistoryFetches ≥ maxPendingDiskHistoryFetches then
      s.sendEmptyHistoryChunk send token request roomId before
    else if s.pendingHistoryFetches ≥ maxPendingHistoryFetches then
      s.sendEmptyHistoryChunk send token request roomId before
    else
      let room := s.rooms roomId
      let plan := room.historyFetchPlanBefore roomId before limit historyChunkTargetBytes
      let disk := if plan.messageCount = 0 then
          room.diskFetchRequest sessionId roomId before limit historyChunkTargetBytes
        else none
      match disk with
      | some read => s.enqueueDiskHistoryFetch send request sessionId token roomId read
      | none =>
        { s.addPending sessionId with
          deliveries := s.deliveries ++ [⟨request, sessionId, token, roomId, .resident plan 0⟩] }

/-- The rest of a page is asked for again, from disk. -/
def refetch (send : Send) (s : Server) (delivery : HistoryDelivery)
    (before : Option ℕ) (limit : ℕ) : Server :=
  match (s.rooms delivery.roomId).diskFetchRequest delivery.sessionId delivery.roomId before limit
      historyChunkTargetBytes with
  | some read =>
    s.enqueueDiskHistoryFetch send delivery.request delivery.sessionId delivery.token
      delivery.roomId read
  | none => s.sendEmptyHistoryChunk send delivery.token delivery.request delivery.roomId before

/-- A chunk is sent, and its delivery goes to the end of the queue or is finished. -/
def deliver (send : Send) (s : Server) (delivery : HistoryDelivery) (chunk : HistoryChunk)
    (source : HistoryDeliverySource) : Server :=
  match s.queueChunk send delivery.token delivery.request chunk with
  | (s, queued) =>
    if queued = false ∨ source.exhausted then s.finishHistoryDelivery delivery.sessionId
    else { s with deliveries := s.deliveries ++ [{ delivery with source }] }

/-- The loop of `process_history_deliveries`, with the bytes and the chunks it has sent. -/
def processLoop (encode : Encode) (send : Send) : ℕ → ℕ → ℕ → Server → Server
  | 0, _, _, s => s
  | fuel + 1, bytes, chunks, s =>
    if chunks < historyDeliveryBudgetChunks then
      match s.deliveries with
      | [] => s
      | delivery :: deliveries =>
        let s := { s with deliveries }
        if s.clients.contains delivery.token then
          match delivery.source.advance (encode (s.rooms delivery.roomId)) delivery.roomId with
          | .finished =>
            processLoop encode send fuel bytes chunks
              (s.finishHistoryDelivery delivery.sessionId)
          | .trimmed before limit =>
            processLoop encode send fuel bytes chunks
              ((s.finishHistoryDelivery delivery.sessionId).refetch send delivery before limit)
          | .payload chunk source =>
            if chunks > 0 ∧ bytes + chunk.size > historyDeliveryBudgetBytes then
              { s with
                deliveries := { delivery with source := source.pushBack chunk } :: deliveries }
            else if bytes + chunk.size ≥ historyDeliveryBudgetBytes then
              s.deliver send delivery chunk source
            else
              processLoop encode send fuel (bytes + chunk.size) (chunks + 1)
                (s.deliver send delivery chunk source)
        else
          processLoop encode send fuel bytes chunks
            (s.finishHistoryDelivery delivery.sessionId)
    else s

/-- Every round of the loop takes a delivery from the queue for good or sends a chunk, so these
are all of them. -/
def processHistoryDeliveries (encode : Encode) (send : Send) (s : Server) : Server :=
  processLoop encode send (s.deliveries.length + historyDeliveryBudgetChunks) 0 0 s

/-- The loop of `drain_history_replies`. -/
def acceptReply (s : Server) (reply : HistoryReadReply) : Server :=
  match s.liveTokenForSession reply.sessionId with
  | none => s.finishHistoryDelivery reply.sessionId
  | some token =>
    { s with deliveries := s.deliveries ++
        [⟨reply.request, reply.sessionId, token, reply.roomId, .encoded reply.payloads⟩] }

def drainHistoryReplies (encode : Encode) (send : Send) (s : Server) : Server :=
  let replies := s.replies.take 16
  (replies.foldl acceptReply { s with replies := s.replies.drop 16 }).processHistoryDeliveries
    encode send

end Server

/-! ## Runs -/

inductive HistoryAction where
  | connect
  | disconnect (token : Token)
  /-- messages are appended, written and trimmed -/
  | rooms (rooms : RoomId → Retention)
  | fetch (send : Send) (sessionId : SessionId) (roomId : RoomId) (before : Option ℕ)
      (limit : ℕ)
  /-- the reader thread takes a request -/
  | take
  /-- the reader thread has read the page; the sources are what it found in the files -/
  | reply (sources : List Source)
  | drainReplies (send : Send)
  | process (send : Send)

def Server.next (encode : Encode) (s : Server) : HistoryAction → Option Server
  | .connect => some s.connect
  | .disconnect token => some (s.disconnect token)
  | .rooms rooms => some { s with rooms }
  | .fetch send sessionId roomId before limit =>
    some (s.fetchHistory send sessionId roomId before limit)
  | .take =>
    match s.reading, s.readerQueue with
    | none, job :: queue => some { s with reading := some job, readerQueue := queue }
    | _, _ => none
  | .reply sources =>
    match s.reading with
    | some job =>
      some { s with
        reading := none
        replies := s.replies ++
          [⟨job.request, job.read.sessionId, job.read.roomId, execute { job.read with sources }⟩] }
    | none => none
  | .drainReplies send => some (s.drainHistoryReplies encode send)
  | .process send => some (s.processHistoryDeliveries encode send)

end Chatt.RoomHistory
