import Chatt.Model.MlsStore

/-!
# The operations of the store as data

One constructor for each mutating operation of `MlsStore`, with the arguments its caller
chooses.  `StoreOp.plan` is the part of the operation under the read lock: the room the
cleanup pass ends with, and the delta to commit, if there is one.
-/

namespace Chatt

open Chatt.Lib

inductive StoreOp where
  | createRoom (global : GlobalRecord) (room : RoomRecord) (event : MlsDeliveryEvent)
      (welcome : Option (ℕ × MlsWelcomeBundle))
  | appendCommit (global : GlobalRecord) (previous room : RoomRecord) (event : MlsDeliveryEvent)
      (welcome : Option (ℕ × MlsWelcomeBundle))
  | appendApplication (roomId : RoomId) (deviceId : DeviceId) (expectedEpoch : ℕ)
      (eventId : EventId) (rosters : List SignedDeviceRoster) (ciphertext : Bytes)
      (nowUnixMs : ℕ)
  | replaceGlobalAndRooms (global : GlobalRecord) (rooms : List RoomRecord)
  | acknowledge (roomId : RoomId) (deviceId : DeviceId) (sequence nowUnixMs : ℕ)
  | persistAcknowledgement (roomId : RoomId) (deviceId : DeviceId)
  | acknowledgeWelcome (deviceId : DeviceId) (deliveryId : ℕ)
  | persistWelcomeAcknowledgement (deviceId : DeviceId)
  | cleanup (nowUnixMs batchLimit : ℕ)
  deriving DecidableEq

/-- The planning part of `cleanup` with its two early exits. -/
def MlsStore.planCleanup (store : MlsStore) (nowUnixMs batchLimit : ℕ) :
    RoomId × Except String (Option StateDelta) :=
  if batchLimit = 0 then (store.cleanupAfterRoom, .ok none)
  else
    match Chatt.planCleanup store.state store.cleanupAfterRoom nowUnixMs batchLimit with
    | (after, .error error) => (after, .error error)
    | (after, .ok (_, d)) => (after, .ok (if d.isEmpty then none else some d))

def StoreOp.plan (store : MlsStore) : StoreOp → RoomId × Except String (Option StateDelta)
  | .createRoom global room event welcome =>
    (store.cleanupAfterRoom, (planCreateRoom store.state global room event welcome).map some)
  | .appendCommit global previous room event welcome =>
    (store.cleanupAfterRoom,
      (planAppendCommit store.state global previous room event welcome).map some)
  | .appendApplication roomId deviceId expectedEpoch eventId rosters ciphertext nowUnixMs =>
    (store.cleanupAfterRoom,
      (planAppendApplication store.state roomId deviceId expectedEpoch eventId rosters ciphertext
      nowUnixMs).map Prod.snd)
  | .replaceGlobalAndRooms global rooms =>
    (store.cleanupAfterRoom, (planReplaceGlobalAndRooms store.state global rooms).map some)
  | .acknowledge roomId deviceId sequence nowUnixMs =>
    (store.cleanupAfterRoom, planAcknowledge store.state roomId deviceId sequence nowUnixMs)
  | .persistAcknowledgement roomId deviceId =>
    (store.cleanupAfterRoom, (planPersistAcknowledgement store.state roomId deviceId).map some)
  | .acknowledgeWelcome deviceId deliveryId =>
    (store.cleanupAfterRoom, planAcknowledgeWelcome store.state deviceId deliveryId)
  | .persistWelcomeAcknowledgement deviceId =>
    (store.cleanupAfterRoom, (planPersistWelcomeAcknowledgement store.state deviceId).map some)
  | .cleanup nowUnixMs batchLimit => store.planCleanup nowUnixMs batchLimit

/-- The whole operation on one thread. -/
def StoreOp.run (io : AppendResult) (store : MlsStore) : StoreOp → MlsStore
  | .createRoom global room event welcome => (store.createRoom io global room event welcome).1
  | .appendCommit global previous room event welcome =>
    (store.appendCommit io global previous room event welcome).1
  | .appendApplication roomId deviceId expectedEpoch eventId rosters ciphertext nowUnixMs =>
    (store.appendApplication io roomId deviceId expectedEpoch eventId rosters
      ciphertext nowUnixMs).1
  | .replaceGlobalAndRooms global rooms => (store.replaceGlobalAndRooms io global rooms).1
  | .acknowledge roomId deviceId sequence nowUnixMs =>
    (store.acknowledge io roomId deviceId sequence nowUnixMs).1
  | .persistAcknowledgement roomId deviceId => (store.persistAcknowledgement io roomId deviceId).1
  | .acknowledgeWelcome deviceId deliveryId => (store.acknowledgeWelcome io deviceId deliveryId).1
  | .persistWelcomeAcknowledgement deviceId => (store.persistWelcomeAcknowledgement io deviceId).1
  | .cleanup nowUnixMs batchLimit => (store.cleanup io nowUnixMs batchLimit).1

/-! ## Two threads on one store

The worker owns the store; the network loop acknowledges through a read handle on the same state.
Both plan a delta under the read lock and apply it under the write lock (mls_store.rs:814-893,
996-1128), and each has at most one planned delta at a time. -/

/-- A delta between its planning and its application, with the state the plan has read. -/
structure Planned where
  op : StoreOp
  base : MemoryState
  delta : StateDelta
  deriving DecidableEq

structure Shared where
  store : MlsStore
  network : Option Planned
  worker : Option Planned
  deriving DecidableEq

def Shared.initial : Shared := { store := MlsStore.initial, network := none, worker := none }

inductive Action where
  /-- `acknowledge` on the read handle, up to the end of its read lock -/
  | planAcknowledge (roomId : RoomId) (deviceId : DeviceId) (sequence nowUnixMs : ℕ)
  /-- `acknowledge_welcome` on the read handle, up to the end of its read lock -/
  | planAcknowledgeWelcome (deviceId : DeviceId) (deliveryId : ℕ)
  /-- the write lock of the network loop's operation -/
  | applyNetwork
  /-- an operation of the worker, up to the end of its read lock -/
  | planWorker (op : StoreOp)
  /-- the append to the log and the write lock of the worker's operation -/
  | applyWorker
  /-- the append fails and the worker's operation ends there -/
  | failWorker
  deriving DecidableEq

def Shared.planNetwork (x : Shared) (op : StoreOp) : Option Shared :=
  match x.network with
  | some _ => none
  | none =>
    match (op.plan x.store).2 with
    | .ok (some delta) => some { x with network := some { op, base := x.store.state, delta } }
    | .ok none => some x
    | .error _ => some x

def Shared.planWorker (x : Shared) (op : StoreOp) : Option Shared :=
  match x.worker with
  | some _ => none
  | none =>
    let planned := op.plan x.store
    let y := { x with store := { x.store with cleanupAfterRoom := planned.1 } }
    match planned.2 with
    | .ok (some delta) => some { y with worker := some { op, base := x.store.state, delta } }
    | .ok none => some y
    | .error _ => some y

/-- The state after one action; `none` where the action is not possible. -/
def Shared.next (x : Shared) : Action → Option Shared
  | .planAcknowledge roomId deviceId sequence nowUnixMs =>
  x.planNetwork (.acknowledge roomId deviceId sequence nowUnixMs)
  | .planAcknowledgeWelcome deviceId deliveryId =>
    x.planNetwork (.acknowledgeWelcome deviceId deliveryId)
  | .applyNetwork =>
    x.network.map fun p => { x with network := none, store := (x.store.commit none p.delta).1 }
  | .planWorker op => x.planWorker op
  | .applyWorker =>
    x.worker.map fun p => { x with worker := none, store := (x.store.commit none p.delta).1 }
  | .failWorker => x.worker.map fun _ => { x with worker := none }

/-- The planned delta an action applies. -/
def Shared.applied (x : Shared) : Action → Option Planned
  | .applyNetwork => x.network
  | .applyWorker => x.worker
  | _ => none

end Chatt
