import Chatt.Model.HistoryDelivery

/-!
# A client that pages through a durable room

The client asks for messages before the oldest id it has, one request at a time, until a page
says that it begins at the start.  Between any two steps of a request the room may append
messages, its log writer may write them, and the event loop may hear of the writes and trim the
window.  The server may turn a request away, and the reader thread may not take one.
-/

namespace Chatt.RoomHistory

open Lib

/-! ## What a room retains -/

/-- The records on disk that the event loop knows of. -/
def DurableLog.durable (log : DurableLog) : List HistoryRecord :=
  log.segments.flatMap Segment.records ++ log.active

/-- The records on disk, and those in memory that are not on disk yet. -/
def DurableLog.retained (log : DurableLog) : List HistoryRecord :=
  log.durable ++ log.history.filter fun record => record ∉ log.durable

/-- A room as it is opened: its records are spread over segments and the active log in the
order of their ids, and the window holds the last of them. -/
structure DurableLog.Opened (log : DurableLog) : Prop where
  ascending : log.durable.Pairwise fun a b => a.messageId < b.messageId
  bounded : ∀ record ∈ log.durable, record.messageId < u64Max
  segments : ∀ segment ∈ log.segments, segment.records.head?.map HistoryRecord.messageId =
    some segment.firstId
  window : log.history <:+ log.durable
  idle : log.writes = [] ∧ log.events = [] ∧ log.pendingLogWrites = 0
  written : log.written = log.active

/-! ## The client and its request -/

structure Page where
  /-- the messages of the page, oldest first -/
  records : List HistoryRecord
  atStart : Bool
  complete : Bool
  /-- the page was ended by a chunk that says nothing of the history -/
  refused : Bool
  deriving DecidableEq

inductive Phase where
  | idle
  | reading (request : HistoryReadRequest)
  | delivering (source : HistoryDeliverySource)
  deriving DecidableEq

structure Paging where
  log : DurableLog
  phase : Phase
  /-- the last page first -/
  pages : List Page
  /-- what the room retained at the first request -/
  base : Option (List HistoryRecord)
  deriving DecidableEq

namespace Paging

/-- Every message received, oldest first. -/
def received (s : Paging) : List HistoryRecord := s.pages.flatMap Page.records

/-- The bound of the next request. -/
def before (s : Paging) : Option ℕ := s.received.head?.map HistoryRecord.messageId

def reachedStart (s : Paging) : Bool := s.pages.any Page.atStart

/-- The client takes a chunk of the page it has asked for.  Chunks come newest first. -/
def receive (chunk : HistoryChunk) (refused : Bool) : List Page → List Page
  | [] => []
  | page :: pages =>
    { records := chunk.records ++ page.records
      atStart := chunk.atStart
      complete := chunk.complete
      refused } :: pages

/-- The request ends with the empty chunk. -/
def refuse (roomId : RoomId) (s : Paging) : Paging :=
  { s with phase := .idle, pages := receive (emptyChunk roomId s.before) true s.pages }

/-- The client begins a page. -/
def newPage (s : Paging) : Paging :=
  { s with
    pages := ⟨[], false, false, false⟩ :: s.pages
    base := s.base.or (some s.log.retained) }

/-- A page is asked for: the plan is made, or the reader is asked for it. -/
def fetch (roomId : RoomId) (s : Paging) (limit : ℕ) (readerTakes : Bool) : Paging :=
  let s := s.newPage
  let room := Retention.durable s.log
  let plan := room.historyFetchPlanBefore roomId s.before limit historyChunkTargetBytes
  let disk := if plan.messageCount = 0 then
      room.diskFetchRequest 0 roomId s.before limit historyChunkTargetBytes
    else none
  match disk with
  | some request =>
    if readerTakes then { s with phase := .reading request } else s.refuse roomId
  | none => { s with phase := .delivering (.resident plan 0) }

/-- The delivery of the page advances. -/
def deliver (roomId : RoomId) (s : Paging) (source : HistoryDeliverySource)
    (readerTakes : Bool) : Paging :=
  let room := Retention.durable s.log
  match source.advance room.encodeHistoryChunk roomId with
  | .finished => { s with phase := .idle }
  | .payload chunk source =>
    { s with
      phase := if source.exhausted then .idle else .delivering source
      pages := receive chunk false s.pages }
  | .trimmed before limit =>
    match room.diskFetchRequest 0 roomId before limit historyChunkTargetBytes with
    | some request =>
      if readerTakes then { s with phase := .reading request } else s.refuse roomId
    | none => s.refuse roomId

end Paging

inductive PagingAction where
  | append (record : HistoryRecord)
  | write
  | drain
  /-- a page of at most `limit` messages is asked for -/
  | fetch (limit : ℕ) (readerTakes : Bool)
  /-- a page is asked for and turned away -/
  | turnAway
  | read
  | deliver (readerTakes : Bool)

def Paging.next (tuning : StoreTuning) (roomId : RoomId) (s : Paging) :
    PagingAction → Option Paging
  | .append record => some { s with log := s.log.append record }
  | .write => (s.log.write tuning).map fun log => { s with log }
  | .drain => (s.log.drainLogEvent tuning).map fun log => { s with log }
  | .fetch limit readerTakes =>
    match s.phase with
    | .idle => some (s.fetch roomId limit readerTakes)
    | _ => none
  | .turnAway =>
    match s.phase with
    | .idle => some (s.newPage.refuse roomId)
    | _ => none
  | .read =>
    match s.phase with
    | .reading request => some { s with phase := .delivering (.encoded (execute request)) }
    | _ => none
  | .deliver readerTakes =>
    match s.phase with
    | .delivering source => some (s.deliver roomId source readerTakes)
    | _ => none

/-- New messages have new ids and fit a log record; the client asks for at least one message of
a room that has one, and stops at the start. -/
def Paging.Allowed (s : Paging) : PagingAction → Prop
  | .append record =>
    (∀ other ∈ s.log.retained, other.messageId < record.messageId) ∧
    record.messageId < u64Max ∧ record.bytes.length ≤ maxLogRecordBytes
  | .fetch limit _ => 1 ≤ limit ∧ s.reachedStart = false ∧ s.log.retained ≠ []
  | .turnAway => s.reachedStart = false
  | _ => True

instance Paging.decidableAllowed (s : Paging) (action : PagingAction) :
    Decidable (s.Allowed action) := by
  cases action <;> dsimp only [Paging.Allowed] <;> infer_instance

/-! ## A client that keeps asking -/

/-- The next step of the client and of the page it has asked for.  At the start it stops. -/
def Paging.advance (roomId : RoomId) (limits : ℕ → ℕ) (s : Paging) : Paging :=
  if s.reachedStart then s else
  match s.phase with
  | .idle => s.fetch roomId (limits s.pages.length) true
  | .reading request => { s with phase := .delivering (.encoded (execute request)) }
  | .delivering source => s.deliver roomId source true

/-- The steps that the room takes by itself. -/
def PagingAction.OfRoom : PagingAction → Prop
  | .append _ | .write | .drain => True
  | _ => False

/-- The client asks for pages of `limits 0`, `limits 1`, … messages.  Its steps come again and
again, and the room's steps come between them in any way. -/
structure FairRun (tuning : StoreTuning) (roomId : RoomId) (limits : ℕ → ℕ)
    (trace : ℕ → Paging) : Prop where
  step : ∀ n, trace (n + 1) = (trace n).advance roomId limits ∨
    ∃ action : PagingAction, action.OfRoom ∧ (trace n).Allowed action ∧
      (trace n).next tuning roomId action = some (trace (n + 1))
  fair : ∀ n, ∃ m ≥ n, trace (m + 1) = (trace m).advance roomId limits

end Chatt.RoomHistory
