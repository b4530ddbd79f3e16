import Chatt.Model.Ids

/-!
# The history of a room

What a room retains in memory and on disk, the plan of a history page, and the background
reader (crates/server/src/room_store.rs:440-770, 991-1040, 1192-1300, 1394-1547;
crates/server/src/history_reader.rs).  A record is its message id and its bytes.  A file is the
list of its records: a source reads back as the records that were written to it, or not at
all.  The active log of a room is known to the event loop up to the last write it has heard
of, and `valid_bytes` is the length of that part.  A chunk is what `write_chunk_header` and the
records after it encode.
-/

namespace Chatt.RoomHistory

abbrev SessionId := ℕ

structure HistoryRecord where
  messageId : ℕ
  bytes : Bytes
  deriving DecidableEq

def chunkHeaderBytes : ℕ := 4 + 4 + 1 + 2 + 8

def maxChunkMessages : ℕ := u16Max

def maxLogRecordBytes : ℕ := 128 * 1024

structure HistoryChunk where
  roomId : RoomId
  before : Option ℕ
  atStart : Bool
  complete : Bool
  records : List HistoryRecord
  deriving DecidableEq

/-- The length of the encoded chunk. -/
def HistoryChunk.size (chunk : HistoryChunk) : ℕ :=
  chunkHeaderBytes + (chunk.records.map fun record => record.bytes.length).sum

inductive HistoryChunkError where
  | trimmed
  | failed (error : String)
  deriving DecidableEq

/-! ## Plans (room_store.rs:477-535) -/

structure HistoryChunkSpec where
  firstId : Option ℕ
  count : ℕ
  recordsBytes : ℕ
  atStart : Bool
  complete : Bool
  deriving DecidableEq

structure HistoryFetchPlan where
  roomId : RoomId
  before : Option ℕ
  chunks : List HistoryChunkSpec
  messageCount : ℕ
  atStart : Bool
  deriving DecidableEq

/-- The bound and the limit that ask for the part of the page that is still owed. -/
def HistoryFetchPlan.resumeAfter (plan : HistoryFetchPlan) (nextChunk : ℕ) : Option ℕ × ℕ :=
  let delivered : Option ℕ :=
    match nextChunk with
    | 0 => none
    | delivered + 1 => plan.chunks[delivered]?.bind HistoryChunkSpec.firstId
  (delivered.or plan.before, ((plan.chunks.drop nextChunk).map HistoryChunkSpec.count).sum)

/-! ## Records in memory (room_store.rs:538-770) -/

variable (entries : List HistoryRecord)

/-- `partition_point` on entries in the order of their ids. -/
def partitionPoint (bound : ℕ) : ℕ :=
  (entries.takeWhile fun entry => entry.messageId < bound).length

def trimToLimit (limit : ℕ) (entries : List HistoryRecord) : List HistoryRecord :=
  entries.drop (entries.length - limit)

/-- The loop of `chunk_specs`: `current` is the range it is filling, of `bytes` bytes. -/
def chunkRanges (targetBytes : ℕ) (current : List HistoryRecord) (bytes : ℕ) :
    List HistoryRecord → List (List HistoryRecord)
  | [] => [current]
  | entry :: rest =>
    if (0 < current.length ∧ bytes + entry.bytes.length > targetBytes) ∨
      current.length = maxChunkMessages then
      current :: chunkRanges targetBytes [entry] (chunkHeaderBytes + entry.bytes.length) rest
    else chunkRanges targetBytes (current ++ [entry]) (bytes + entry.bytes.length) rest

/-- The chunks of the ranges, which are in the order they are sent in. -/
def specsOf (atStart : Bool) : List (List HistoryRecord) → List HistoryChunkSpec
  | [] => []
  | range :: rest =>
    { firstId := range.head?.map HistoryRecord.messageId
      count := range.length
      recordsBytes := (range.map fun record => record.bytes.length).sum
      atStart := rest.isEmpty && atStart
      complete := rest.isEmpty } :: specsOf atStart rest

def emptySpec (atStart : Bool) : HistoryChunkSpec := ⟨none, 0, 0, atStart, true⟩

def chunkSpecs (atStart : Bool) (targetBytes : ℕ) : List HistoryChunkSpec :=
  if entries = [] then [emptySpec atStart]
  else specsOf atStart
    (chunkRanges (max targetBytes chunkHeaderBytes) [] chunkHeaderBytes entries).reverse

/-- The number of entries in front of the bound. -/
def pageEnd : Option ℕ → ℕ
  | some before => partitionPoint entries before
  | none => entries.length

def historyChunksBefore (roomId : RoomId)
    (before : Option ℕ) (limit targetBytes : ℕ) (hasOlderOnDisk : Bool) :
    HistoryFetchPlan :=
  let last := pageEnd entries before
  let start := last - limit
  let selected := (entries.take last).drop start
  let atStart := start = 0 && !hasOlderOnDisk
  { roomId, before
    chunks := chunkSpecs selected atStart targetBytes
    messageCount := selected.length
    atStart }

/-- The header with the records after it. -/
def writeChunk (roomId : RoomId) (before : Option ℕ) (spec : HistoryChunkSpec)
    (records : List HistoryRecord) : Except HistoryChunkError HistoryChunk :=
  if records.length ≤ u16Max then
    .ok { roomId, before, atStart := spec.atStart, complete := spec.complete, records }
  else .error (.failed "history chunk has too many messages")

def encodeChunk (roomId : RoomId) (before : Option ℕ)
    (spec : HistoryChunkSpec) : Except HistoryChunkError HistoryChunk :=
  match spec.firstId with
  | none => writeChunk roomId before spec []
  | some firstId =>
    let start := partitionPoint entries firstId
    if entries.length < start + spec.count then .error .trimmed
    else
      let chunkEntries := (entries.drop start).take spec.count
      if chunkEntries.head?.map HistoryRecord.messageId ≠ some firstId then .error .trimmed
      else writeChunk roomId before spec chunkEntries

def chunkPayloads (roomId : RoomId) (before : Option ℕ)
    (atStart : Bool) (targetBytes : ℕ) : Except HistoryChunkError (List HistoryChunk) :=
  (chunkSpecs entries atStart targetBytes).mapM (encodeChunk entries roomId before)

/-! ## Retention (room_store.rs:207-330, 430-475, 991-1040, 1192-1300) -/

structure StoreTuning where
  maxActiveLogBytes : ℕ
  maxResidentMessages : ℕ

/-- A rotated log: the id in its name, and its records. -/
structure Segment where
  firstId : ℕ
  records : List HistoryRecord
  deriving DecidableEq

/-- A completion of the log writer: the active log after the write, and the segment it was
rotated into. -/
structure RoomLogEvent where
  active : List HistoryRecord
  rotated : Option Segment
  deriving DecidableEq

/-- A durable room: what the event loop knows of it, and what its log writer has.  The active
log is open. -/
structure DurableLog where
  history : List HistoryRecord
  active : List HistoryRecord
  segments : List Segment
  pendingLogWrites : ℕ
  /-- queued to the writer -/
  writes : List HistoryRecord
  /-- the active log as the writer left it -/
  written : List HistoryRecord
  /-- completions the event loop has not heard of -/
  events : List RoomLogEvent
  deriving DecidableEq

inductive Retention where
  | none
  | memory (history : List HistoryRecord) (limit : ℕ)
  | durable (log : DurableLog)
  deriving DecidableEq

/-- The bytes of a log: a length in four bytes and the record, for each record. -/
def logBytes (records : List HistoryRecord) : ℕ :=
  (records.map fun record => 4 + record.bytes.length).sum

def activeFirstId (active : List HistoryRecord) : Option ℕ :=
  active.head?.map HistoryRecord.messageId

namespace DurableLog

/-- `try_append` of a durable room whose writer takes the record. -/
def append (log : DurableLog) (record : HistoryRecord) : DurableLog :=
  { log with
    history := log.history ++ [record]
    writes := log.writes ++ [record]
    pendingLogWrites := log.pendingLogWrites + 1 }

/-- One round of `room_log_worker`.  A record above the cap is not written. -/
def write (tuning : StoreTuning) (log : DurableLog) : Option DurableLog :=
  match log.writes with
  | [] => none
  | record :: writes =>
    let written := if record.bytes.length > maxLogRecordBytes then log.written
      else log.written ++ [record]
    match activeFirstId written with
    | some firstId =>
      if logBytes written > tuning.maxActiveLogBytes then
        some { log with
          writes
          written := []
          events := log.events ++ [⟨[], some ⟨firstId, written⟩⟩] }
      else some { log with writes, written, events := log.events ++ [⟨written, none⟩] }
    | none => some { log with writes, written, events := log.events ++ [⟨written, none⟩] }

/-- One completion in `drain_log_events`.  The window is trimmed once nothing is pending. -/
def drainLogEvent (tuning : StoreTuning) (log : DurableLog) : Option DurableLog :=
  match log.events with
  | [] => none
  | event :: events =>
    let pending := log.pendingLogWrites - 1
    some { log with
      events
      pendingLogWrites := pending
      active := event.active
      segments := log.segments ++ event.rotated.toList
      history := if pending = 0 then trimToLimit tuning.maxResidentMessages log.history
        else log.history }

def oldestDurableId (log : DurableLog) : Option ℕ :=
  (log.segments.head?.map Segment.firstId).or (activeFirstId log.active)

end DurableLog

namespace Retention

def history : Retention → Option (List HistoryRecord)
  | .none => .none
  | .memory history _ => some history
  | .durable log => some log.history

/-- `try_append`: the room after it and the messages it retains in memory.  `queued` is the
answer of the log writer. -/
def tryAppend (queued : Except String Unit) (retention : Retention) (record : HistoryRecord) :
    Except String (Retention × ℕ) :=
  match retention with
  | .none => .ok (.none, 0)
  | .memory history limit =>
    let history := trimToLimit limit (history ++ [record])
    .ok (.memory history limit, history.length)
  | .durable log =>
    match queued with
    | .error error => .error ("durable history writer is " ++ error ++ "; retry shortly")
    | .ok () => .ok (.durable (log.append record), (log.append record).history.length)

def oldestDurableId : Retention → Option ℕ
  | .durable log => log.oldestDurableId
  | _ => .none

def hasUnresidentHistory (retention : Retention) : Bool :=
  match retention.oldestDurableId with
  | .none => false
  | some oldestDurable =>
    match retention.history.bind fun history => history.head?.map HistoryRecord.messageId with
    | some oldestResident => oldestDurable < oldestResident
    | .none => true

/-- The records in memory, if there are any. -/
def resident (retention : Retention) : Option (List HistoryRecord) :=
  retention.history.filter fun history => !history.isEmpty

/-! ## Pages from memory (room_store.rs:1394-1440, 1514-1547) -/

def historyFetchPlanBefore (retention : Retention) (roomId : RoomId) (before : Option ℕ)
    (limit targetBytes : ℕ) : HistoryFetchPlan :=
  let plan := match retention.resident with
    | some history =>
      historyChunksBefore history roomId before limit targetBytes retention.hasUnresidentHistory
    | .none => { roomId, before, chunks := [emptySpec false], messageCount := 0, atStart := false }
  if plan.messageCount = 0 then
    let atStart : Bool := match retention.oldestDurableId with
      | some oldestDurable => oldestDurable ≥ before.getD u64Max
      | .none => true
    { plan with atStart, chunks := plan.chunks.map fun spec => { spec with atStart } }
  else plan

def encodeHistoryChunk (retention : Retention) (plan : HistoryFetchPlan) (chunkIndex : ℕ) :
    Except HistoryChunkError HistoryChunk :=
  match plan.chunks[chunkIndex]? with
  | .none => .error (.failed "history chunk index is out of range")
  | some spec =>
    match spec.firstId with
    | .none => writeChunk plan.roomId plan.before spec []
    | some _ =>
      match retention.resident with
      | .none => .error .trimmed
      | some history => encodeChunk history plan.roomId plan.before spec

end Retention

/-! ## Pages from disk (room_store.rs:1445-1512, history_reader.rs:30-218) -/

/-- A file to read: its records in order, `none` if it cannot be read or is corrupt. -/
structure Source where
  records : Option (List HistoryRecord)
  deriving DecidableEq

structure HistoryReadRequest where
  sessionId : SessionId
  roomId : RoomId
  before : Option ℕ
  limit : ℕ
  targetBytes : ℕ
  oldestDurableId : ℕ
  /-- from the newest to the oldest -/
  sources : List Source
  deriving DecidableEq

def Retention.diskFetchRequest (retention : Retention) (sessionId : SessionId) (roomId : RoomId)
    (before : Option ℕ) (limit targetBytes : ℕ) : Option HistoryReadRequest :=
  match retention with
  | .none => .none
  | .memory _ _ => .none
  | .durable log =>
    match log.oldestDurableId with
    | .none => .none
    | some oldestDurableId =>
      let bound := before.getD u64Max
      if oldestDurableId ≥ bound then .none
      else
        let active : List Source :=
          if (activeFirstId log.active).any fun first => first < bound then [⟨some log.active⟩]
          else []
        let segments := log.segments.reverse.filter fun segment => segment.firstId < bound
        some { sessionId, roomId, before, limit, targetBytes, oldestDurableId
               sources := active ++ segments.map fun segment => ⟨some segment.records⟩ }

/-- The records of an intact source below the bound: they form the first part of it. -/
def scanRecordsBefore (before : ℕ) (records : List HistoryRecord) : List HistoryRecord :=
  records.takeWhile fun record => record.messageId < before

/-- The loop of `select_records`: the runs it gathers, from the newest on.  `total` counts the
records of the runs before it. -/
def selectRuns (before : ℕ) (limit : ℕ) (total : ℕ) :
    List Source → List (List HistoryRecord)
  | [] => []
  | source :: rest =>
    if total ≥ limit then []
    else
      match source.records with
      | none => []
      | some records =>
        let run := scanRecordsBefore before records
        trimToLimit limit run :: selectRuns before limit (total + run.length) rest

def selectRecords (request : HistoryReadRequest) : List HistoryRecord :=
  let runs := selectRuns (request.before.getD u64Max) request.limit 0 request.sources
  trimToLimit request.limit runs.reverse.flatten

/-- The chunk that ends a request that cannot be served. -/
def emptyChunk (roomId : RoomId) (before : Option ℕ) : HistoryChunk :=
  { roomId, before, atStart := false, complete := true, records := [] }

/-- The payloads of the reply. -/
def execute (request : HistoryReadRequest) : List HistoryChunk :=
  let selected := selectRecords request
  let atStart : Bool := selected.head?.map HistoryRecord.messageId = some request.oldestDurableId
  match chunkPayloads selected request.roomId request.before atStart request.targetBytes with
  | .ok payloads => payloads
  | .error _ => [emptyChunk request.roomId request.before]

end Chatt.RoomHistory
