import Chatt.Interface.StoreInvariant
import Chatt.Model.StoreOp

/-!
# What one store operation writes

`Legal s d` lists the deltas the operations of the store plan on a state `s`: an appended
room event, a pruning pass, a replacement of the global record and rooms, and the two kinds
of acknowledgement.  Each constructor states everything later proofs use of the operation
that plans it.  `Advances s t` is how the state may evolve: rooms never move backwards, a
removed event or Welcome never comes back.
-/

namespace Chatt

open Chatt.Lib

/-! ## Appending an event to a room -/

/-- The new room record and event fit what the store holds of the room, `base`; `none` for a
room that does not exist yet. -/
structure AppendOk (s : MemoryState) (base : Option RoomRecord) (room : RoomRecord)
    (event : MlsDeliveryEvent) : Prop where
  base_eq : s.rooms.get? room.descriptor.roomId = base
  required_sorted : room.requiredDevices.Pairwise (· < ·)
  head_eq : room.headSequence = (base.map RoomRecord.headSequence).getD 0 + 1
  head_lt : room.headSequence < u64Max
  oldest_eq : room.oldestAvailableSequence = (base.map RoomRecord.oldestAvailableSequence).getD 1
  descriptor_eq : ∀ previous, base = some previous → room.descriptor = previous.descriptor
  sequence_eq : event.sequence = room.headSequence
  id_free : ∀ i, event.eventId? = some i →
    s.eventIds.get? (toLex (room.descriptor.roomId, i)) = none
  epoch_free : ∀ e, event.parentEpoch? = some e →
    s.commitEpochs.get? (toLex (room.descriptor.roomId, e)) = none
  epoch_step : ∀ e, event.parentEpoch? = some e → e < room.publicState.epoch ∧
    ∀ previous, base = some previous → e = previous.publicState.epoch
  epoch_same : event.parentEpoch? = none → ∃ previous, base = some previous ∧
    room.publicState = previous.publicState

/-- A Welcome is issued under the next delivery id, with the commit that adds its devices. -/
def WelcomeIssued (s : MemoryState) (global : Option GlobalRecord) (room : RoomRecord)
    (event : MlsDeliveryEvent) : Option (ℕ × MlsWelcomeBundle) → Prop
  | none => ∀ g, global = some g → g.nextWelcomeDeliveryId = s.global.nextWelcomeDeliveryId
  | some (deliveryId, bundle) => deliveryId = s.global.nextWelcomeDeliveryId ∧
      (∃ g, global = some g ∧ g.nextWelcomeDeliveryId = s.global.nextWelcomeDeliveryId + 1) ∧
      BundleOk bundle ∧ bundle.descriptor = room.descriptor ∧ event.parentEpoch?.isSome

instance (bundle : MlsWelcomeBundle) : Decidable (BundleOk bundle) :=
  decidable_of_iff _ (bundleOk_iff _).symm

instance (s : MemoryState) (global : Option GlobalRecord) (room : RoomRecord)
    (event : MlsDeliveryEvent) (welcome : Option (ℕ × MlsWelcomeBundle)) :
    Decidable (WelcomeIssued s global room event welcome) := by
  cases welcome <;> dsimp only [WelcomeIssued] <;> infer_instance

/-- The required devices before the operation. -/
def requiredOf (base : Option RoomRecord) : List DeviceId :=
  (base.map RoomRecord.requiredDevices).getD []

/-- The delta of `create_room`, `append_commit` and `append_application`. -/
def appendDelta (global : Option GlobalRecord) (base : Option RoomRecord) (room : RoomRecord)
    (event : MlsDeliveryEvent) (storedAt : ℕ) (welcome : Option (ℕ × MlsWelcomeBundle)) :
    StateDelta where
  global := global
  rooms := [room]
  events := [{ roomId := room.descriptor.roomId, storedAtUnixMs := storedAt, event }]
  deletedCursors := (removedDevices (requiredOf base) room).map fun removed =>
    { deviceId := removed, roomId := room.descriptor.roomId }
  cursors := (addedDevices (requiredOf base) room).map fun added =>
    { roomId := room.descriptor.roomId, deviceId := added
      cursor := freshCursor room room.headSequence }
  welcomes := welcome.toList.map fun w =>
    { deliveryId := w.1, sequence := room.headSequence, storedAtUnixMs := storedAt
      bundle := w.2 }

/-! ## Pruning a room -/

/-- A pruning pass of room `r` up to the sequence `last`, which flags the devices of
`lagging` up to `expiry`. -/
structure PruneOk (s : MemoryState) (r : RoomId) (room : RoomRecord) (last expiry : ℕ)
    (lagging : List (DeviceId × DeviceCursor)) : Prop where
  room_eq : s.rooms.get? r = some room
  oldest_le : room.oldestAvailableSequence ≤ last
  last_le : last ≤ room.headSequence
  lagging_cursor : ∀ p ∈ lagging, s.deviceCursors.get? (toLex (r, p.1)) = some p.2 ∧
    p.1 ∈ room.requiredDevices ∧ p.2.highestContiguousSequence < expiry
  lagging_nodup : (lagging.map Prod.fst).Nodup
  expiry_le : lagging ≠ [] → last ≤ expiry ∧ expiry ≤ room.headSequence
  covered : ∀ device ∈ room.requiredDevices, ∀ c,
    s.deviceCursors.get? (toLex (r, device)) = some c →
    last ≤ c.highestContiguousSequence ∨ (device, c) ∈ lagging

def pruneDelta (r : RoomId) (room : RoomRecord) (last expiry : ℕ)
    (lagging : List (DeviceId × DeviceCursor)) (targets : List DeviceWelcomeCheckpoint) :
    StateDelta where
  rooms := [{ room with oldestAvailableSequence := last + 1 }]
  deletedEvents := (List.range' room.oldestAvailableSequence
    (last + 1 - room.oldestAvailableSequence)).map fun sequence => { sequence, roomId := r }
  cursors := lagging.map fun p => { roomId := r, deviceId := p.1, cursor :=
    { p.2 with rejoinRequiredThrough := some expiry } }
  deletedWelcomeTargets := targets

/-- The Welcome targets a cleanup deletes are there. -/
def TargetsPresent (s : MemoryState) (targets : List DeviceWelcomeCheckpoint) : Prop :=
  ∀ t ∈ targets, s.deviceWelcomes.get? (toLex (t.deviceId, t.deliveryId)) = some ()

/-! ## Replacing rooms -/

/-- A replaced room keeps its log and may only lose required devices. -/
@[mk_iff] structure ReplaceOk (previous room : RoomRecord) : Prop where
  descriptor_eq : room.descriptor = previous.descriptor
  head_eq : room.headSequence = previous.headSequence
  oldest_eq : room.oldestAvailableSequence = previous.oldestAvailableSequence
  state_eq : room.publicState = previous.publicState
  required_sublist : room.requiredDevices.Sublist previous.requiredDevices

instance (previous room : RoomRecord) : Decidable (ReplaceOk previous room) :=
  decidable_of_iff _ (replaceOk_iff _ _).symm

/-- The cursors of the devices a replaced room no longer requires. -/
def droppedCursors (s : MemoryState) (room : RoomRecord) : List CursorKey :=
  (removedDevices (requiredOf (s.rooms.get? room.descriptor.roomId)) room).map fun removed =>
    { deviceId := removed, roomId := room.descriptor.roomId }

/-! ## Acknowledging -/

/-- `c'` is the cursor `c` after an acknowledgement in a room with the given head; a flag
goes exactly when the acknowledgement passes its watermark. -/
structure AckOf (head : ℕ) (c c' : DeviceCursor) : Prop where
  start_eq : c'.startingSequence = c.startingSequence
  highest_le : c.highestContiguousSequence ≤ c'.highestContiguousSequence
  le_head : c'.highestContiguousSequence ≤ head
  rejoin_eq : c'.rejoinRequiredThrough = if c.rejoinRequiredThrough.any (fun w =>
    c'.highestContiguousSequence > w) then none
    else c.rejoinRequiredThrough

/-! ## The deltas of the store -/

inductive Legal (s : MemoryState) : StateDelta → Prop
  | append {global base room event storedAt welcome} (h : AppendOk s base room event)
      (hw : WelcomeIssued s global room event welcome) :
      Legal s (appendDelta global base room event storedAt welcome)
  | prune {r room last expiry lagging targets} (h : PruneOk s r room last expiry lagging)
      (ht : TargetsPresent s targets) :
      Legal s (pruneDelta r room last expiry lagging targets)
  | dropTargets {targets} (ht : TargetsPresent s targets) :
      Legal s { deletedWelcomeTargets := targets }
  | replace {g rooms} (hnext : g.nextWelcomeDeliveryId = s.global.nextWelcomeDeliveryId)
      (hrooms : ∀ room ∈ rooms, ∃ previous, s.rooms.get? room.descriptor.roomId = some previous ∧
        ReplaceOk previous room)
      (hnodup : (rooms.map fun room => room.descriptor.roomId).Nodup) :
      Legal s { global := some g, rooms, deletedCursors := rooms.flatMap (droppedCursors s) }
  | acknowledge {r room device c c'} (hroom : s.rooms.get? r = some room)
      (hc : s.deviceCursors.get? (toLex (r, device)) = some c)
      (hack : AckOf room.headSequence c c') :
      Legal s { cursors := [{ roomId := r, deviceId := device, cursor := c' }] }
  | acknowledgeWelcome {device deliveryId} (hpos : 0 < deliveryId)
      (hlt : deliveryId < s.global.nextWelcomeDeliveryId) :
      Legal s { welcomeCursors := [{ deliveryId, deviceId := device }] }

/-! ## What the invariant rests on

A delta is admissible when applying it keeps the invariant.  Unlike `Legal` this does not
compare the cursors it writes with those it replaces, so that it is also true of the records
of a log that is replayed over a state with other cursors. -/

/-- What of a pruning pass the invariant rests on. -/
structure PruneFits (s : MemoryState) (r : RoomId) (room : RoomRecord) (last expiry : ℕ)
    (lagging : List (DeviceId × DeviceCursor)) : Prop where
  room_eq : s.rooms.get? r = some room
  oldest_le : room.oldestAvailableSequence ≤ last
  last_le : last ≤ room.headSequence
  lagging_nodup : (lagging.map Prod.fst).Nodup
  flagged_ok : ∀ p ∈ lagging, p.1 ∈ room.requiredDevices ∧
    CursorOk room.headSequence { p.2 with rejoinRequiredThrough := some expiry }

inductive Admissible (s : MemoryState) : StateDelta → Prop
  | append {global base room event storedAt welcome} (h : AppendOk s base room event)
      (hw : WelcomeIssued s global room event welcome) :
      Admissible s (appendDelta global base room event storedAt welcome)
  | prune {r room last expiry lagging targets} (h : PruneFits s r room last expiry lagging)
      (ht : TargetsPresent s targets) :
      Admissible s (pruneDelta r room last expiry lagging targets)
  | dropTargets {targets} (ht : TargetsPresent s targets) :
      Admissible s { deletedWelcomeTargets := targets }
  | replace {g rooms} (hnext : g.nextWelcomeDeliveryId = s.global.nextWelcomeDeliveryId)
      (hrooms : ∀ room ∈ rooms, ∃ previous, s.rooms.get? room.descriptor.roomId = some previous ∧
        ReplaceOk previous room)
      (hnodup : (rooms.map fun room => room.descriptor.roomId).Nodup) :
      Admissible s { global := some g, rooms, deletedCursors := rooms.flatMap (droppedCursors s) }
  | acknowledge {r room device c} (hroom : s.rooms.get? r = some room)
      (hdevice : device ∈ room.requiredDevices) (hok : CursorOk room.headSequence c) :
      Admissible s { cursors := [{ roomId := r, deviceId := device, cursor := c }] }
  | acknowledgeWelcome {device deliveryId} (hpos : 0 < deliveryId)
      (hlt : deliveryId < s.global.nextWelcomeDeliveryId) :
      Admissible s { welcomeCursors := [{ deliveryId, deviceId := device }] }

/-! ## What the service hands to the store

The store takes room records, events and delivery ids from its caller.  These are the
relations to the stored state that `MlsService` keeps when it calls the store. -/

/-- The arguments of `create_room`. -/
@[mk_iff] structure CreateIssued (s : MemoryState) (global : GlobalRecord) (room : RoomRecord)
    (event : MlsDeliveryEvent) (welcome : Option (ℕ × MlsWelcomeBundle)) : Prop where
  required_sorted : room.requiredDevices.Pairwise (· < ·)
  head_eq : room.headSequence = 1
  oldest_eq : room.oldestAvailableSequence = 1
  sequence_eq : event.sequence = 1
  epoch_lt : ∃ e, event.parentEpoch? = some e ∧ e < room.publicState.epoch
  welcome_issued : WelcomeIssued s (some global) room event welcome

/-- The arguments of `append_commit`. -/
@[mk_iff] structure CommitIssued (s : MemoryState) (global : GlobalRecord)
      (previous room : RoomRecord)
    (event : MlsDeliveryEvent) (welcome : Option (ℕ × MlsWelcomeBundle)) : Prop where
  previous_eq : s.rooms.get? room.descriptor.roomId = some previous
  required_sorted : room.requiredDevices.Pairwise (· < ·)
  head_eq : room.headSequence = previous.headSequence + 1
  head_lt : room.headSequence < u64Max
  oldest_eq : room.oldestAvailableSequence = previous.oldestAvailableSequence
  descriptor_eq : room.descriptor = previous.descriptor
  sequence_eq : event.sequence = room.headSequence
  epoch_eq : event.parentEpoch? = some previous.publicState.epoch
  epoch_lt : previous.publicState.epoch < room.publicState.epoch
  welcome_issued : WelcomeIssued s (some global) room event welcome

/-- The arguments of `replace_global_and_rooms`. -/
@[mk_iff] structure ReplaceIssued (s : MemoryState) (global : GlobalRecord)
      (rooms : List RoomRecord) :
    Prop where
  next_eq : global.nextWelcomeDeliveryId = s.global.nextWelcomeDeliveryId
  rooms_ok : ∀ room ∈ rooms, ∃ previous, s.rooms.get? room.descriptor.roomId = some previous ∧
    ReplaceOk previous room
  rooms_nodup : (rooms.map fun room => room.descriptor.roomId).Nodup

instance (s : MemoryState) (global : GlobalRecord) (room : RoomRecord)
    (event : MlsDeliveryEvent) (welcome : Option (ℕ × MlsWelcomeBundle)) :
    Decidable (CreateIssued s global room event welcome) :=
  decidable_of_iff _ (createIssued_iff _ _ _ _ _).symm

instance (s : MemoryState) (global : GlobalRecord) (previous room : RoomRecord)
    (event : MlsDeliveryEvent) (welcome : Option (ℕ × MlsWelcomeBundle)) :
    Decidable (CommitIssued s global previous room event welcome) :=
  decidable_of_iff _ (commitIssued_iff _ _ _ _ _ _).symm

instance (s : MemoryState) (global : GlobalRecord) (rooms : List RoomRecord) :
    Decidable (ReplaceIssued s global rooms) :=
  decidable_of_iff _ (replaceIssued_iff _ _ _).symm

/-- An operation comes with the arguments its caller keeps to. -/
def StoreOp.Issued (s : MemoryState) : StoreOp → Prop
  | .createRoom global room event welcome => CreateIssued s global room event welcome
  | .appendCommit global previous room event welcome =>
    CommitIssued s global previous room event welcome
  | .replaceGlobalAndRooms global rooms => ReplaceIssued s global rooms
  | _ => True

instance (s : MemoryState) (op : StoreOp) : Decidable (op.Issued s) := by
  cases op <;> dsimp only [StoreOp.Issued] <;> infer_instance

/-! ## How the state may evolve -/

/-- A room record that does not move backwards. -/
structure RoomAdvances (room room' : RoomRecord) : Prop where
  descriptor_eq : room'.descriptor = room.descriptor
  head_le : room.headSequence ≤ room'.headSequence
  oldest_le : room.oldestAvailableSequence ≤ room'.oldestAvailableSequence
  epoch_le : room.publicState.epoch ≤ room'.publicState.epoch

/-- `t` is reached from `s`: every room of `s` is there and has not moved backwards, events
only go with the retained range and are never replaced, and no Welcome comes back. -/
structure Advances (s t : MemoryState) : Prop where
  room : ∀ {r room}, s.rooms.get? r = some room → ∃ room', t.rooms.get? r = some room' ∧
    RoomAdvances room room'
  event_kept : ∀ {r room room' q stored}, s.rooms.get? r = some room →
    t.rooms.get? r = some room' → room'.oldestAvailableSequence ≤ q →
    s.events.get? (toLex (r, q)) = some stored →
    t.events.get? (toLex (r, q)) = some stored
  event_old : ∀ {r room q stored}, s.rooms.get? r = some room → q ≤ room.headSequence →
    t.events.get? (toLex (r, q)) = some stored → s.events.get? (toLex (r, q)) = some stored
  next_le : s.global.nextWelcomeDeliveryId ≤ t.global.nextWelcomeDeliveryId
  target_old : ∀ {device deliveryId}, deliveryId < s.global.nextWelcomeDeliveryId →
    t.deviceWelcomes.get? (toLex (device, deliveryId)) = some () →
    s.deviceWelcomes.get? (toLex (device, deliveryId)) = some ()
  welcome_old : ∀ {deliveryId w}, deliveryId < s.global.nextWelcomeDeliveryId →
    t.welcomes.get? deliveryId = some w → s.welcomes.get? deliveryId = some w

/-! ## What a device cursor promises -/

/-- No event between the cursor and the retained range is missing without a flag. -/
def NoGap (oldest : ℕ) (c : DeviceCursor) : Prop :=
  match c.rejoinRequiredThrough with
  | none => oldest ≤ c.highestContiguousSequence + 1
  | some watermark => oldest - 1 ≤ watermark

/-- No silent loss: every required device of every room is up to date or flagged. -/
def NoLoss (s : MemoryState) : Prop :=
  ∀ r room device, s.rooms.get? r = some room → device ∈ room.requiredDevices →
    ∃ c, s.deviceCursors.get? (toLex (r, device)) = some c ∧ NoGap room.oldestAvailableSequence c

/-- How one step treats the cursors.  `acked r device q` says that the step is an
acknowledgement of sequence `q` by `device` in room `r`. -/
structure CursorStep (acked : RoomId → DeviceId → ℕ → Prop) (s t : MemoryState) : Prop where
  removed : ∀ {r device c}, s.deviceCursors.get? (toLex (r, device)) = some c →
    t.deviceCursors.get? (toLex (r, device)) = none →
    ∃ room, t.rooms.get? r = some room ∧ device ∉ room.requiredDevices
  joined : ∀ {r device c'}, s.deviceCursors.get? (toLex (r, device)) = none →
    t.deviceCursors.get? (toLex (r, device)) = some c' →
    (∀ room, s.rooms.get? r = some room → device ∉ room.requiredDevices) ∧
    ∃ room, t.rooms.get? r = some room ∧ device ∈ room.requiredDevices
  monotone : ∀ {r device c c'}, s.deviceCursors.get? (toLex (r, device)) = some c →
    t.deviceCursors.get? (toLex (r, device)) = some c' →
    c.highestContiguousSequence ≤ c'.highestContiguousSequence
  flag : ∀ {r device c c' watermark}, s.deviceCursors.get? (toLex (r, device)) = some c →
    t.deviceCursors.get? (toLex (r, device)) = some c' →
    c.rejoinRequiredThrough = some watermark → c'.rejoinRequiredThrough = none →
    ∃ q, watermark < q ∧ acked r device q

/-- The device of room `r` a delta acknowledges for, with its new cursor. -/
def AcksWith (d : StateDelta) (r : RoomId) (device : DeviceId) (c : DeviceCursor) : Prop :=
  d = { cursors := [{ roomId := r, deviceId := device, cursor := c }] }

end Chatt
