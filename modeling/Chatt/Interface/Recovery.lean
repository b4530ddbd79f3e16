import Chatt.Model.Storage
import Chatt.Interface.StoreStep

/-!
# What reopening the store promises

A reopened store loads a checkpoint, which may be younger than the first records of the log it then
applies; `SameDelivery` and `CursorsAcked` say what has to come back all the same.  `Recovers` is
the promise for a data
directory without a process.  It rests on a condition on the operations of the run: while a record
is in one of the logs, the event ids it stores are not stored again.
-/

namespace Chatt

open Chatt.Lib

/-! ## What has to come back -/

/-- What a stored event says, without its byte accounting. -/
def StoredEvent.content (stored : StoredEvent) : MlsDeliveryEvent × ℕ :=
  (stored.event, stored.storedAtUnixMs)

/-- What a stored Welcome says, without its byte accounting. -/
def StoredWelcome.content (stored : StoredWelcome) : ℕ × ℕ × ℕ × MlsWelcomeBundle :=
  (stored.deliveryId, stored.sequence, stored.storedAtUnixMs, stored.bundle)

def MemoryState.event? (s : MemoryState) (r : RoomId) (q : ℕ) : Option (MlsDeliveryEvent × ℕ) :=
  (s.events.get? (toLex (r, q))).map StoredEvent.content

def MemoryState.welcome? (s : MemoryState) (deliveryId : ℕ) :
    Option (ℕ × ℕ × ℕ × MlsWelcomeBundle) :=
  (s.welcomes.get? deliveryId).map StoredWelcome.content

/-- The two states agree on everything but the cursors and the byte accounting. -/
structure SameDelivery (s t : MemoryState) : Prop where
  global : t.global = s.global
  rooms : t.rooms = s.rooms
  events : ∀ r q, t.event? r q = s.event? r q
  eventIds : t.eventIds = s.eventIds
  commitEpochs : t.commitEpochs = s.commitEpochs
  welcomes : ∀ deliveryId, t.welcome? deliveryId = s.welcome? deliveryId
  targets : t.deviceWelcomes = s.deviceWelcomes
  counts : t.welcomeTargetCounts = s.welcomeTargetCounts

/-- The cursor that `acknowledge` writes (mls_store.rs:838-849). -/
def DeviceCursor.acknowledged (c : DeviceCursor) (sequence nowUnixMs : ℕ) : DeviceCursor :=
  { c with
    highestContiguousSequence := sequence
    lastAckUnixMs := nowUnixMs
    rejoinRequiredThrough :=
      if c.rejoinRequiredThrough.any (fun watermark => sequence > watermark) then none
      else c.rejoinRequiredThrough }

/-- `c'` is `c` after any number of acknowledgements, each of a later sequence. -/
def DeviceCursor.Acked : DeviceCursor → DeviceCursor → Prop :=
  Relation.ReflTransGen fun c c' => ∃ sequence nowUnixMs,
    c.highestContiguousSequence < sequence ∧ c' = c.acknowledged sequence nowUnixMs

/-- The cursors of `t` are those of `s`, moved on by acknowledgements at most.  There are the same
device cursors; a Welcome cursor may also be the first of its device. -/
structure CursorsAcked (s t : MemoryState) : Prop where
  device : ∀ k, Option.Rel DeviceCursor.Acked (s.deviceCursors.get? k) (t.deviceCursors.get? k)
  welcome : ∀ device, ∀ deliveryId ∈ s.welcomeCursors.get? device,
    ∃ deliveryId' ∈ t.welcomeCursors.get? device, deliveryId ≤ deliveryId'

/-! ## Histories and what of them is logged -/

/-- The delta of an acknowledgement: it writes cursors and nothing else. -/
def StateDelta.AckOnly (d : StateDelta) : Prop :=
  d = { cursors := d.cursors, welcomeCursors := d.welcomeCursors }

instance (d : StateDelta) : Decidable d.AckOnly :=
  inferInstanceAs (Decidable (d = { cursors := d.cursors, welcomeCursors := d.welcomeCursors }))

/-- The state after a list of deltas. -/
def applyAll (s : MemoryState) (ds : List StateDelta) : MemoryState :=
  ds.foldl (fun s d => (applyDelta s d).1) s

/-- Every delta is admissible when its turn comes. -/
def Admitted (s : MemoryState) : List StateDelta → Prop
  | [] => True
  | d :: rest => Admissible s d ∧ Admitted (applyDelta s d).1 rest

/-- The log holds the deltas of the history in order; only acknowledgements may be missing. -/
inductive Logged : List StateDelta → List StateDelta → Prop
  | nil : Logged [] []
  | keep {log history d} : Logged log history → Logged (d :: log) (d :: history)
  | drop {log history d} : d.AckOnly → Logged log history → Logged log (d :: history)

/-- The records of a log, applied in order. -/
def replayAll (s : MemoryState) : List StateDelta → Except String MemoryState
  | [] => .ok s
  | d :: rest =>
    match applyDelta s d with
    | (_, .error error) => .error error
    | (s, .ok ()) => replayAll s rest

/-- The labels, by room, of the events a delta stores. -/
def StateDelta.labels {α : Type} (label : MlsDeliveryEvent → Option α) (d : StateDelta) :
    List (RoomId × α) :=
  d.events.filterMap fun e => (label e.event).map fun a => (e.roomId, a)

def logLabels {α : Type} (label : MlsDeliveryEvent → Option α) (ds : List StateDelta) :
    List (RoomId × α) :=
  ds.flatMap (StateDelta.labels label)

/-! ## The records of the logs -/

def collectRecord (jsony : Jsony) (records : List StateDelta) (body : Bytes) :
    Except String (List StateDelta) :=
  match jsony.delta.decode body with
  | .error error => .error error
  | .ok d => .ok (records ++ [d])

/-- The deltas of the complete records of a log file. -/
def walRecords (jsony : Jsony) (bytes : Bytes) : List StateDelta :=
  match scan walChecksum "corrupt" (collectRecord jsony) bytes.length
      (bytes.drop walHeaderBytes) [] with
  | .error _ => []
  | .ok (records, _, _) => records

def Files.records (jsony : Jsony) (files : Files) : List StateDelta :=
  walRecords jsony (files.sealedWal.getD []) ++ walRecords jsony (files.wal.getD [])

/-! ## Runs -/

/-- Operations come with the arguments the service keeps to. -/
def Storage.Issued (x : Storage) : StorageAction → Prop
  | .plan op => ∀ p ∈ x.process, op.Issued p.store.state
  | _ => True

instance decidableStorageIssued (x : Storage) (a : StorageAction) : Decidable (x.Issued a) := by
  cases a <;> dsimp only [Storage.Issued] <;> infer_instance

/-- The ids of the events an operation is about to store. -/
def Process.newIds (p : Process) (op : StoreOp) : List (RoomId × EventId) :=
  match (op.plan p.store).2 with
  | .ok (some d) => d.labels MlsDeliveryEvent.eventId?
  | .ok none => []
  | .error _ => []

/-- An application event gets an id, within its room, that no record of a log stores. -/
def Storage.FreshIds (jsony : Jsony) (x : Storage) : StorageAction → Prop
  | .plan op => ∀ p ∈ x.process, ∀ id ∈ p.newIds op,
  id ∉ logLabels MlsDeliveryEvent.eventId? (x.disk.files.records jsony)
  | _ => True

instance decidableFreshIds (jsony : Jsony) (x : Storage) (a : StorageAction) :
    Decidable (x.FreshIds jsony a) := by
  cases a with
  | plan op => exact inferInstanceAs (Decidable (∀ p ∈ x.process, ∀ id ∈ p.newIds op, _))
  | _ => exact inferInstanceAs (Decidable True)

/-! ## The promise -/

/-- The state that applying every durably appended delta once, in order, leads to. -/
def Storage.expected (x : Storage) : MemoryState := applyAll MemoryState.initial x.log

/-- Opening the data directory succeeds, the state is valid and has the expected deliveries, and
its cursors are the expected ones, moved on by acknowledgements at most. -/
def Storage.Recovers (jsony : Jsony) (x : Storage) : Prop :=
  ∃ opened, openFiles jsony x.disk.files = .ok opened ∧
    validateMemory opened.state = .ok () ∧ SameDelivery x.expected opened.state ∧
    CursorsAcked x.expected opened.state

end Chatt
