import Chatt.Model.StoreOp
import Chatt.Lib.Frames
import Chatt.Model.Checkpoint

/-!
# The store and its data directory

The store with its three files, at the granularity of its system calls: the worker plans,
appends, syncs and applies (mls_store.rs:1118-1128, 1735-1774), seals the log
(mls_store.rs:1830-1879) and compacts (mls_store.rs:1078-1092, 1780-1828), while the
snapshot thread clones the state, writes a checkpoint and retires the sealed log
(mls_store.rs:411-437).  The process may crash between any two of these steps, and again
while it reopens.  Renames and syncs are atomic; of what is not synced any part may survive.

Of the failures of a system call the model has the failed append that is rolled back and the
failed snapshot.
-/

namespace Chatt

open Chatt.Lib

/-! ## The log

The format of the log file, its replay, and the part of `Persistence::open` that reads the
data directory (mls_store.rs:1686-1731, 1881-1962).  A file is its bytes; `none` is a file
that does not exist. -/

/-- The bytes of `CHATTWAL`. -/
def walMagic : Bytes := [67, 72, 65, 84, 84, 87, 65, 76]

def walVersion : ℕ := 1

def walHeader : Bytes := walMagic ++ leBytes 4 walVersion

def walHeaderBytes : ℕ := 12

def walChecksum (bytes : Bytes) : ℕ :=
  bytes.foldl (fun hash byte => (hash ^^^ byte.val) * 0x100000001b3 % 2 ^ 64) 0xcbf29ce484222325

variable (jsony : Jsony)

/-- The frame `append` writes for a delta. -/
def walFrame (d : StateDelta) : Bytes := frame walChecksum (jsony.delta.encode d)

/-! ## Replay (mls_store.rs:1881-1962) -/

def walPath : String := "mls-state.wal"

def sealedWalPath : String := "mls-state.wal.sealed"

/-- The loop body of `replay_wal` on one record. -/
def replayRecord (path : String) (s : MemoryState) (body : Bytes) : Except String MemoryState :=
  match jsony.delta.decode body with
  | .error error => .error ("failed to decode " ++ path ++ ": " ++ error)
  | .ok d =>
    match applyDelta s d with
    | (_, .error error) => .error error
    | (s, .ok ()) => .ok s

/-- What a replayed file leaves: the state, the file after its repair, and the two counts
`replay_wal` returns. -/
structure Replayed where
  state : MemoryState
  file : Option Bytes
  validBytes : ℕ
  records : ℕ

/-- `replay_wal`.  A file shorter than a header is emptied and a torn record at the end is cut
off. -/
def replayWal (path : String) (file : Option Bytes) (s : MemoryState) : Except String Replayed :=
  match file with
  | none => .ok { state := s, file := none, validBytes := 0, records := 0 }
  | some bytes =>
    if bytes.length < walHeaderBytes then
      .ok { state := s, file := some [], validBytes := 0, records := 0 }
    else if bytes.take 8 ≠ walMagic then .error "invalid MLS WAL header"
    else
      let version := leValue ((bytes.drop 8).take 4)
      if version ≠ walVersion then
        .error ("unsupported MLS WAL version " ++ toString version ++ "; expected " ++
          toString walVersion)
      else
        match scan walChecksum (path ++ " contains a corrupt MLS WAL record")
            (replayRecord jsony path) bytes.length (bytes.drop walHeaderBytes) s with
        | .error error => .error error
        | .ok (s, valid, records) =>
          .ok { state := s
                file := some (bytes.take (walHeaderBytes + valid))
                validBytes := walHeaderBytes + valid
                records }

/-! ## Appending (mls_store.rs:1709-1721, 1735-1774) -/

/-- The open log and the count of its bytes. -/
structure OpenWal where
  bytes : Bytes
  walBytes : ℕ

def OpenWal.created : OpenWal := { bytes := walHeader, walBytes := walHeaderBytes }

/-- The log as `open` leaves it after the replay. -/
def Replayed.openWal (replayed : Replayed) : OpenWal :=
  if replayed.validBytes = 0 then
    { bytes := replayed.file.getD [] ++ walHeader, walBytes := walHeaderBytes }
  else { bytes := replayed.file.getD [], walBytes := replayed.validBytes }

/-- `append` to a log that is not poisoned.  A `failure` of the write or the sync has the number of
bytes that were written and the error; the log is rolled back.  A file has fewer than 2⁶⁴ bytes, so
their count does not saturate. -/
def OpenWal.append (jsony : Jsony) (path : String) (wal : OpenWal) (d : StateDelta)
    (failure : Option (ℕ × String)) : OpenWal × Except String Unit :=
  if u32Max < (jsony.delta.encode d).length then
    (wal, .error "MLS WAL record exceeds the binary format limit")
  else
    match failure with
    | none =>
      ({ bytes := wal.bytes ++ walFrame jsony d
         walBytes := wal.walBytes + (walFrame jsony d).length }, .ok ())
    | some (written, error) =>
      ({ wal with bytes := (wal.bytes ++ (walFrame jsony d).take written).take wal.walBytes },
        .error ("failed to append " ++ path ++ ": " ++ error))

/-- The appends of a run: the log after them and the deltas of those that returned. -/
def OpenWal.appendAll (jsony : Jsony) (path : String) (wal : OpenWal) :
    List (StateDelta × Option (ℕ × String)) → OpenWal × List StateDelta
  | [] => (wal, [])
  | (d, failure) :: calls =>
    match wal.append jsony path d failure with
    | (wal, .error _) => wal.appendAll jsony path calls
    | (wal, .ok ()) =>
      let (wal, ds) := wal.appendAll jsony path calls
      (wal, d :: ds)

/-! ## Opening the data directory (mls_store.rs:448-481, 1686-1731) -/

/-- The three files of the data directory. -/
structure Files where
  checkpoint : Option Bytes
  sealedWal : Option Bytes
  wal : Option Bytes
  deriving DecidableEq

/-- `load_checkpoint` and the replay of the sealed log, which may repair it. -/
def recoverSealed (files : Files) : Except String (Replayed × Files) :=
  match loadCheckpoint jsony files.checkpoint with
  | .error error => .error error
  | .ok s =>
    match replayWal jsony sealedWalPath files.sealedWal s with
    | .error error => .error error
    | .ok replayed => .ok (replayed, { files with sealedWal := replayed.file })

/-- The same and the replay of the active log, which may repair it. -/
def recoverWal (files : Files) : Except String (Replayed × Files) :=
  match recoverSealed jsony files with
  | .error error => .error error
  | .ok (sealedPart, files) =>
    match replayWal jsony walPath files.wal sealedPart.state with
    | .error error => .error error
    | .ok replayed =>
      .ok ({ replayed with records := sealedPart.records + replayed.records },
        { files with wal := replayed.file })

structure Opened where
  state : MemoryState
  files : Files
  walBytes : ℕ
  records : ℕ
  deriving DecidableEq

/-- The whole of it: the state is validated, and a log without a header gets one. -/
def openFiles (files : Files) : Except String Opened :=
  match recoverWal jsony files with
  | .error error => .error error
  | .ok (replayed, files) =>
    match validateMemory replayed.state with
    | .error error => .error error
    | .ok () =>
      if replayed.validBytes = 0 then
        .ok { state := replayed.state
              files := { files with wal := some (files.wal.getD [] ++ walHeader) }
              walBytes := walHeaderBytes
              records := replayed.records }
      else
        .ok { state := replayed.state
              files
              walBytes := replayed.validBytes
              records := replayed.records }

/-! ## Files -/

/-- A log file: its bytes, how many of them are synced, and, while a truncation is not synced,
the bytes before it with the number of those that were. -/
structure LogFile where
  bytes : Bytes
  synced : ℕ
  previous : Option (Bytes × ℕ) := none
  deriving DecidableEq

/-- A file that is synced as it is. -/
def LogFile.ofBytes (bytes : Bytes) : LogFile := { bytes, synced := bytes.length }

def LogFile.write (file : LogFile) (bytes : Bytes) : LogFile :=
  { file with bytes := file.bytes ++ bytes }

def LogFile.sync (file : LogFile) : LogFile := { bytes := file.bytes, synced := file.bytes.length }

/-- `set_len` and a sync. -/
def LogFile.truncate (file : LogFile) (length : ℕ) : LogFile := .ofBytes (file.bytes.take length)

/-- `truncate(true)` and the two writes of the header. -/
def LogFile.reset (file : LogFile) : LogFile :=
  { bytes := walHeader, synced := 0, previous := some (file.bytes, file.synced) }

/-- How many bytes survive a crash, and whether of the file before its truncation. -/
structure Cut where
  beforeTruncation : Bool
  length : ℕ
  deriving DecidableEq

/-- What a crash leaves of a file; `none` where the cut would lose synced bytes. -/
def LogFile.survive (file : LogFile) (cut : Cut) : Option Bytes :=
  if cut.beforeTruncation then
    match file.previous with
    | some (bytes, synced) => if synced ≤ cut.length then some (bytes.take cut.length) else none
    | none => none
  else if file.synced ≤ cut.length then some (file.bytes.take cut.length) else none

structure Disk where
  checkpoint : Option Bytes
  sealedWal : Option LogFile
  wal : Option LogFile
  deriving DecidableEq

def Disk.empty : Disk := { checkpoint := none, sealedWal := none, wal := none }

/-- The files as a reader sees them. -/
def Disk.files (disk : Disk) : Files where
  checkpoint := disk.checkpoint
  sealedWal := disk.sealedWal.map LogFile.bytes
  wal := disk.wal.map LogFile.bytes

/-- Files that are synced as they are. -/
def Disk.ofFiles (files : Files) : Disk where
  checkpoint := files.checkpoint
  sealedWal := files.sealedWal.map LogFile.ofBytes
  wal := files.wal.map LogFile.ofBytes

/-- What a crash leaves of a file that may not exist. -/
def surviveFile (file : Option LogFile) (cut : Cut) : Option (Option Bytes) :=
  match file with
  | none => some none
  | some file => (file.survive cut).map some

def Disk.survive (disk : Disk) (sealedCut walCut : Cut) : Option Files :=
  match surviveFile disk.sealedWal sealedCut, surviveFile disk.wal walCut with
  | some sealedWal, some wal => some { checkpoint := disk.checkpoint, sealedWal, wal }
  | _, _ => none

/-! ## The process -/

/-- Where the worker stands. -/
inductive WorkerAt where
  | idle
  /-- the frame of the delta is written -/
  | written (d : StateDelta) (durable : Bool)
  /-- the append has returned and the delta is not applied yet -/
  | appended (d : StateDelta)
  /-- the log is renamed to the sealed log -/
  | rotating
  /-- the header of the new log is written -/
  | rotated
  /-- `compact` waits for the snapshot thread -/
  | flushing
  /-- `compact` has written its checkpoint -/
  | resetting
  /-- the log is truncated and its header written -/
  | reset
  deriving DecidableEq

/-- Where the snapshot thread stands, with the counter of the state it has cloned. -/
inductive SnapshotAt where
  | idle
  | taken (bytes : Bytes) (retiredPayloadBytes : ℕ)
  | written (retiredPayloadBytes : ℕ)
  deriving DecidableEq

structure Process where
  store : MlsStore
  walBytes : ℕ
  recordsSinceCheckpoint : ℕ
  worker : WorkerAt
  snapshot : SnapshotAt
  deriving DecidableEq

/-- The data directory, the process if there is one, and the deltas that were appended
durably, which no file holds as such. -/
structure Storage where
  disk : Disk
  process : Option Process
  log : List StateDelta
  deriving DecidableEq

/-- An empty data directory. -/
def Storage.initial : Storage := { disk := Disk.empty, process := none, log := [] }

/-- The `durable` argument each operation passes to `commit`. -/
def StoreOp.durable : StoreOp → Bool
  | .acknowledge .. | .persistAcknowledgement .. | .acknowledgeWelcome ..
  | .persistWelcomeAcknowledgement .. => false
  | _ => true

inductive StorageAction where
  /-- an operation of the worker, up to the write of its frame -/
  | plan (op : StoreOp)
  /-- `sync_data` of a durable append -/
  | sync
  /-- the append fails and the log is truncated to its length before it -/
  | failAppend
  | apply
  /-- `acknowledge` on the read handle, which has no log -/
  | acknowledge (roomId : RoomId) (deviceId : DeviceId) (sequence nowUnixMs : ℕ)
  /-- `acknowledge_welcome` on the read handle -/
  | acknowledgeWelcome (deviceId : DeviceId) (deliveryId : ℕ)
  /-- the rename of `seal`, which `checkpoint_if_needed` calls past its thresholds -/
  | sealWal
  | createWal
  | finishSeal
  | startSnapshot
  | writeSnapshot
  | retireSealed
  | failSnapshot
  /-- `compact`, up to the request to the snapshot thread -/
  | compact
  | failFlush
  | writeCompaction
  | resetWal
  | finishCompaction
  /-- the process ends, with what survives of the two logs -/
  | crash (sealedCut walCut : Cut)
  /-- a start that ends after the repair of the sealed log -/
  | interruptSealed
  /-- a start that ends after the repair of both logs, with some bytes of a new header -/
  | interruptWal (written : ℕ)
  | openStore
  deriving DecidableEq

/-! ## Steps -/

def Process.planned (jsony : Jsony) (disk : Disk) (p : Process) (op : StoreOp) : Disk × Process :=
  let planned := op.plan p.store
  let p := { p with store := { p.store with cleanupAfterRoom := planned.1 } }
  match planned.2 with
  | .ok (some d) =>
    -- a record past `u32::MAX` bytes is refused before anything is written
    if u32Max < (jsony.delta.encode d).length then (disk, p)
    else
      ({ disk with wal := disk.wal.map (·.write (walFrame jsony d)) },
        { p with worker := .written d op.durable })
  | .ok none => (disk, p)
  | .error _ => (disk, p)

/-- The counters after an append.  A file has fewer than 2⁶⁴ bytes, so the first of them does
not saturate. -/
def Process.counted (jsony : Jsony) (p : Process) (d : StateDelta) : Process :=
  { p with
    walBytes := p.walBytes + (walFrame jsony d).length
    recordsSinceCheckpoint := saturatingAdd p.recordsSinceCheckpoint 1 }

def Process.applied (p : Process) (d : StateDelta) : Process :=
  { p with store := (p.store.commit none d).1, worker := .idle }

/-- An operation on the read handle, which only changes the hot state. -/
def Process.readHandle (p : Process) (op : StoreOp) : Process :=
  match (op.plan p.store).2 with
  | .ok (some d) => { p with store := (p.store.commit none d).1 }
  | .ok none => p
  | .error _ => p

/-- `reset_fragmentation_accounting` and the last lines of `snapshot_and_retire`. -/
def MlsStore.retire (store : MlsStore) (retired : ℕ) : MlsStore :=
  { store with state := { store.state with retiredPayloadBytes :=
    store.state.retiredPayloadBytes - retired } }

/-- A frame that was written and not synced counts where all of it has survived. -/
def Process.survived (p : Process) (disk : Disk) (files : Files) : List StateDelta :=
  match p.worker with
  | .written d true => if files.wal = disk.files.wal then [d] else []
  | _ => []

def Process.next (jsony : Jsony) (disk : Disk) (p : Process) (log : List StateDelta) :
    StorageAction → Option Storage
  | .plan op =>
    if p.worker ≠ .idle then none
    else
      let (disk, p) := p.planned jsony disk op
      some { disk, process := some p, log }
  | .sync =>
    match p.worker with
    | .written d true =>
      some { disk := { disk with wal := disk.wal.map LogFile.sync }
             process := some { p.counted jsony d with worker := .appended d }
             log := log ++ [d] }
    | _ => none
  | .failAppend =>
    match p.worker with
    | .written _ _ =>
      some { disk := { disk with wal := disk.wal.map (·.truncate p.walBytes) }
             process := some { p with worker := .idle }
             log }
    | _ => none
  | .apply =>
    match p.worker with
    | .written d false => some { disk, process := some ((p.counted jsony d).applied d), log }
    | .appended d => some { disk, process := some (p.applied d), log }
    | _ => none
  | .acknowledge roomId deviceId sequence nowUnixMs =>
    match p.worker with
    | .idle | .flushing =>
      some { disk
             process := some (p.readHandle (.acknowledge roomId deviceId sequence nowUnixMs))
             log }
    | _ => none
  | .acknowledgeWelcome deviceId deliveryId =>
    match p.worker with
    | .idle | .flushing =>
      some { disk, process := some (p.readHandle (.acknowledgeWelcome deviceId deliveryId)), log }
    | _ => none
  | .sealWal =>
    if p.worker ≠ .idle then none
    else if disk.sealedWal.isSome then some { disk, process := some p, log }
    else
      some { disk := { disk with sealedWal := disk.wal, wal := none }
             process := some { p with worker := .rotating }
             log }
  | .createWal =>
    if p.worker ≠ .rotating then none
    else
      some { disk := { disk with wal := some { bytes := walHeader, synced := 0 } }
             process := some { p with worker := .rotated }
             log }
  | .finishSeal =>
    if p.worker ≠ .rotated then none
    else
      some { disk := { disk with wal := disk.wal.map LogFile.sync }
             process := some { p with
               worker := .idle, walBytes := walHeaderBytes, recordsSinceCheckpoint := 0 }
             log }
  | .startSnapshot =>
    if p.snapshot ≠ .idle ∨ disk.sealedWal.isNone then none
    else
      match serializeCheckpoint jsony p.store.state with
      | none => none
      | some bytes =>
        some { disk
               process := some { p with
                 snapshot := .taken bytes p.store.state.retiredPayloadBytes }
               log }
  | .writeSnapshot =>
    match p.snapshot with
    | .taken bytes retired =>
      some { disk := { disk with checkpoint := some bytes }
             process := some { p with snapshot := .written retired }
             log }
    | _ => none
  | .retireSealed =>
    match p.snapshot with
    | .written retired =>
      some { disk := { disk with sealedWal := none }
             process := some { p with snapshot := .idle, store := p.store.retire retired }
             log }
    | _ => none
  | .failSnapshot => some { disk, process := some { p with snapshot := .idle }, log }
  | .compact =>
    if p.worker ≠ .idle then none
    else some { disk, process := some { p with worker := .flushing }, log }
  | .failFlush =>
    if p.worker ≠ .flushing then none
    else some { disk, process := some { p with worker := .idle }, log }
  | .writeCompaction =>
    -- the flush has returned: the snapshot thread is idle and has retired a sealed log
    if p.worker ≠ .flushing ∨ p.snapshot ≠ .idle ∨ disk.sealedWal.isSome then none
    else
      match serializeCheckpoint jsony p.store.state with
      | none => none
      | some bytes =>
        some { disk := { disk with checkpoint := some bytes }
               process := some { p with worker := .resetting }
               log }
  | .resetWal =>
    if p.worker ≠ .resetting then none
    else
      some { disk := { disk with wal := disk.wal.map LogFile.reset }
             process := some { p with worker := .reset }
             log }
  | .finishCompaction =>
    if p.worker ≠ .reset then none
    else
      some { disk := { disk with wal := disk.wal.map LogFile.sync }
             process := some { p with
               worker := .idle
               walBytes := walHeaderBytes
               recordsSinceCheckpoint := 0
               store := p.store.retire p.store.state.retiredPayloadBytes }
             log }
  | .crash sealedCut walCut =>
    match disk.survive sealedCut walCut with
    | none => none
    | some files =>
      some { disk := Disk.ofFiles files, process := none, log := log ++ p.survived disk files }
  | .interruptSealed => none
  | .interruptWal _ => none
  | .openStore => none

/-- The steps of a process that starts. -/
def Storage.start (jsony : Jsony) (x : Storage) : StorageAction → Option Storage
  | .interruptSealed =>
    match recoverSealed jsony x.disk.files with
    | .error _ => none
    | .ok (_, files) => some { x with disk := Disk.ofFiles files }
  | .interruptWal written =>
    match recoverWal jsony x.disk.files with
    | .error _ => none
    | .ok (replayed, files) =>
      let files := if replayed.validBytes = 0 then
          { files with wal := some (files.wal.getD [] ++ walHeader.take written) }
        else files
      some { x with disk := Disk.ofFiles files }
  | .openStore =>
    match openFiles jsony x.disk.files with
    | .error _ => none
    | .ok opened =>
      some { disk := Disk.ofFiles opened.files
             process := some { store := { state := opened.state, cleanupAfterRoom := 0 }
                               walBytes := opened.walBytes
                               recordsSinceCheckpoint := opened.records
                               worker := .idle
                               snapshot := .idle }
             log := x.log }
  | _ => none

def Storage.next (jsony : Jsony) (x : Storage) (a : StorageAction) : Option Storage :=
  match x.process with
  | some p => p.next jsony x.disk x.log a
  | none => x.start jsony a

end Chatt
