import Chatt.Model.MemoryState

/-!
# The invariant of the store

What `validateMemory` checks, said declaratively: the log of every room is exactly the
range from its oldest to its head sequence, both indexes are the inverse of the events,
cursors exist exactly for the required devices and lie inside the log, and the Welcome
inbox counts its own targets.  `validateMemory_eq_ok_iff` connects the two for states whose
rooms and Welcomes are stored under their own ids, which `applyDelta` never breaks.
-/

namespace Chatt

open Chatt.Lib OrdMap

/-! ## Rooms and their logs -/

structure RoomOk (r : RoomId) (room : RoomRecord) : Prop where
  key : room.descriptor.roomId = r
  oldest_pos : 0 < room.oldestAvailableSequence
  oldest_le : room.oldestAvailableSequence ≤ room.headSequence + 1
  head_lt : room.headSequence < u64Max
  required_sorted : room.requiredDevices.Pairwise (· < ·)

/-- The index is exactly the inverse of the labelled events. -/
def IndexOf {α : Type} [LinearOrder α] (events : OrdMap (RoomId ×ₗ ℕ) StoredEvent)
    (label : MlsDeliveryEvent → Option α) (index : OrdMap (RoomId ×ₗ α) ℕ) : Prop :=
  ∀ r a q, index.get? (toLex (r, a)) = some q ↔ ∃ stored, events.get? (toLex (r, q)) = some stored ∧
    label stored.event = some a

structure LogInv (s : MemoryState) : Prop where
  room_ok : ∀ {r room}, s.rooms.get? r = some room → RoomOk r room
  event_of_room : ∀ {r room q}, s.rooms.get? r = some room → room.oldestAvailableSequence ≤ q →
    q ≤ room.headSequence →
    ∃ stored, s.events.get? (toLex (r, q)) = some stored
  room_of_event : ∀ {r q stored}, s.events.get? (toLex (r, q)) = some stored →
    ∃ room, s.rooms.get? r = some room ∧ room.oldestAvailableSequence ≤ q ∧ q ≤ room.headSequence ∧
    stored.event.sequence = q
  event_ids : IndexOf s.events MlsDeliveryEvent.eventId? s.eventIds
  commit_epochs : IndexOf s.events MlsDeliveryEvent.parentEpoch? s.commitEpochs

/-! ## Cursors -/

/-- A cursor of a room whose log ends at `head`. -/
structure CursorOk (head : ℕ) (c : DeviceCursor) : Prop where
  start_pos : 0 < c.startingSequence
  start_le : c.startingSequence ≤ c.highestContiguousSequence
  highest_le : c.highestContiguousSequence ≤ head
  rejoin_ok : ∀ w, c.rejoinRequiredThrough = some w → c.highestContiguousSequence ≤ w ∧ w ≤ head

structure CursorInv (s : MemoryState) : Prop where
  cursor_of_required : ∀ {r room device}, s.rooms.get? r = some room →
    device ∈ room.requiredDevices → ∃ c, s.deviceCursors.get? (toLex (r, device)) = some c
  cursor_ok : ∀ {r device c}, s.deviceCursors.get? (toLex (r, device)) = some c →
    ∃ room, s.rooms.get? r = some room ∧ device ∈ room.requiredDevices ∧
    CursorOk room.headSequence c

/-! ## Welcomes -/

/-- The number of devices a Welcome still waits for. -/
def targetCount (targets : OrdSet (DeviceId ×ₗ ℕ)) (deliveryId : ℕ) : ℕ :=
  (targets.keySet.filter (fun t => (ofLex t).2 = deliveryId)).card

/-- The inbox: targets belong to a stored Welcome, and the counts count them. -/
structure InboxOk (s : MemoryState) : Prop where
  welcome_of_target : ∀ {device deliveryId}, s.deviceWelcomes.get? (toLex (device, deliveryId)) =
    some () →
    ∃ w, s.welcomes.get? deliveryId = some w ∧ device ∈ w.bundle.deviceIds
  target_of_welcome : ∀ {deliveryId w}, s.welcomes.get? deliveryId = some w →
    ∃ device, s.deviceWelcomes.get? (toLex (device, deliveryId)) = some ()
  counts : ∀ deliveryId, s.welcomeTargetCounts.get? deliveryId =
    if targetCount s.deviceWelcomes deliveryId = 0 then none
    else some (targetCount s.deviceWelcomes deliveryId)

@[mk_iff] structure BundleOk (bundle : MlsWelcomeBundle) : Prop where
  devices_ne : bundle.deviceIds ≠ []
  devices_le : bundle.deviceIds.length ≤ maxMlsWelcomesPerCommit
  devices_nodup : bundle.deviceIds.Nodup

structure WelcomeOk (s : MemoryState) (deliveryId : ℕ) (w : StoredWelcome) : Prop where
  key : w.deliveryId = deliveryId
  id_pos : 0 < deliveryId
  id_lt : deliveryId < s.global.nextWelcomeDeliveryId
  bundle_ok : BundleOk w.bundle
  sequence_pos : 0 < w.sequence
  room : ∃ room, s.rooms.get? w.bundle.descriptor.roomId = some room ∧
    w.bundle.descriptor = room.descriptor ∧ w.sequence ≤ room.headSequence ∧
    (room.oldestAvailableSequence ≤ w.sequence →
    isRetainedCommit s room.descriptor.roomId w.sequence = true)

structure WelcomeInv (s : MemoryState) : Prop where
  next_pos : 0 < s.global.nextWelcomeDeliveryId
  inbox : InboxOk s
  welcome_ok : ∀ {deliveryId w}, s.welcomes.get? deliveryId = some w → WelcomeOk s deliveryId w
  cursor_ok : ∀ {device deliveryId}, s.welcomeCursors.get? device = some deliveryId →
    0 < deliveryId ∧ deliveryId < s.global.nextWelcomeDeliveryId

/-- The invariant of the store's hot state. -/
structure StoreInv (s : MemoryState) : Prop where
  log : LogInv s
  cursors : CursorInv s
  welcomes : WelcomeInv s

/-- Rooms and Welcomes are stored under their own ids. -/
structure Keyed (s : MemoryState) : Prop where
  room : ∀ {r room}, s.rooms.get? r = some room → room.descriptor.roomId = r
  welcome : ∀ {deliveryId w}, s.welcomes.get? deliveryId = some w → w.deliveryId = deliveryId

lemma StoreInv.keyed {s : MemoryState} (h : StoreInv s) : Keyed s :=
  ⟨fun hr => (h.log.room_ok hr).key, fun hw => (h.welcomes.welcome_ok hw).key⟩

instance (s : MemoryState) : Decidable (Keyed s) :=
  decidable_of_iff ((∀ e ∈ s.rooms.entries, e.2.descriptor.roomId = e.1) ∧
    ∀ e ∈ s.welcomes.entries, e.2.deliveryId = e.1)
    ⟨fun h => ⟨fun hr => h.1 _ (mem_entries.mpr hr), fun hw => h.2 _ (mem_entries.mpr hw)⟩,
      fun h => ⟨fun _ he => h.room (mem_entries.mp he), fun _ he => h.welcome (mem_entries.mp he)⟩⟩

end Chatt
