import Chatt.Interface.StoreStep
import Chatt.Analysis.DeltaEffect

/-!
# Admissible deltas keep the invariant

`Admissible.storeInv`: applying an admissible delta to a state of the invariant gives a state
of the invariant, and `Admissible.advances`: the state has only advanced.  The proofs go
component by component: the log, the cursors, the Welcomes.  Legal deltas are admissible.
-/

namespace Chatt

open Chatt.Lib List OrdMap Option

/-! ## The log -/

variable {room previous : RoomRecord} {base : Option RoomRecord} {event : MlsDeliveryEvent}
  {s t : MemoryState}

/-- Appending moves the head of a stored room by one and leaves its oldest event. -/
lemma AppendOk.range_eq (h : AppendOk s base room event)
      (hprevious : s.rooms.get? room.descriptor.roomId = some previous) :
    room.headSequence = previous.headSequence + 1 ∧
    room.oldestAvailableSequence = previous.oldestAvailableSequence := by
  obtain rfl : base = some previous := h.base_eq.symm.trans hprevious
  exact ⟨h.head_eq, h.oldest_eq⟩

/-- After an append the room has at least one event. -/
lemma AppendOk.oldest_le (h : AppendOk s base room event) (hinv : LogInv s) :
    0 < room.oldestAvailableSequence ∧ room.oldestAvailableSequence ≤ room.headSequence := by
  cases base with
  | none =>
    obtain ⟨hhead, holdest⟩ := And.intro h.head_eq h.oldest_eq
    simp only [map_none, getD_none] at hhead holdest
    omega
  | some previous =>
    obtain ⟨hhead, holdest⟩ := h.range_eq h.base_eq
    have hok := hinv.room_ok h.base_eq
    have hpos := hok.oldest_pos
    have hle := hok.oldest_le
    omega

/-- The sequence after the head is free. -/
lemma AppendOk.fresh (h : AppendOk s base room event) (hinv : LogInv s) :
    s.events.get? (toLex (room.descriptor.roomId, event.sequence)) = none := by
  rw [eq_none_iff_forall_ne_some]
  intro stored hstored
  obtain ⟨previous, hroom, -, hle, -⟩ := hinv.room_of_event hstored
  have hhead := (h.range_eq hroom).1
  have hseq := h.sequence_eq
  omega

/-- A room record after the operation: the given one under its id, the old ones elsewhere. -/
def RoomSet (s t : MemoryState) (room : RoomRecord) : Prop :=
  ∀ r, t.rooms.get? r = if r = room.descriptor.roomId then some room else s.rooms.get? r

/-- A room of the new state is the one that was set, or an old one. -/
lemma RoomSet.cases (h : RoomSet s t room) {r : RoomId} {room' : RoomRecord}
      (hroom : t.rooms.get? r = some room') :
    (r = room.descriptor.roomId ∧ room' = room) ∨
    (r ≠ room.descriptor.roomId ∧ s.rooms.get? r = some room') := by
  rw [h r] at hroom
  split_ifs at hroom with hr
  · exact Or.inl ⟨hr, (some.inj hroom).symm⟩
  · exact Or.inr ⟨hr, hroom⟩

/-- A new event at the head keeps the log invariant. -/
lemma LogInv.append {storedAt payloadLen : ℕ} (hinv : LogInv s) (h : AppendOk s base room event)
      (hrooms : RoomSet s t room)
    (hevents : t.events = s.events.insert (toLex (room.descriptor.roomId, event.sequence))
      ⟨event, storedAt, payloadLen⟩)
    (hids : t.eventIds = insertLabel s.eventIds room.descriptor.roomId event.sequence
      event.eventId?)
    (hepochs : t.commitEpochs = insertLabel s.commitEpochs room.descriptor.roomId event.sequence
      event.parentEpoch?) : LogInv t := by
  have hfresh := h.fresh hinv
  obtain ⟨hpos, hle⟩ := h.oldest_le hinv
  have hseq := h.sequence_eq
  have hget : ∀ r q, t.events.get? (toLex (r, q)) = if r = room.descriptor.roomId ∧
      q = event.sequence then some ⟨event, storedAt, payloadLen⟩
      else s.events.get? (toLex (r, q)) := by
    intro r q
    rw [hevents, get?_insert]
    simp only [toLex_inj, Prod.mk.injEq]
  refine ⟨?_, ?_, ?_, ?_, ?_⟩
  · intro r room' hroom
    rcases hrooms.cases hroom with ⟨rfl, rfl⟩ | ⟨-, hold⟩
    · exact ⟨rfl, hpos, hle.trans (Nat.le_succ _), h.head_lt, h.required_sorted⟩
    · exact hinv.room_ok hold
  · intro r room' q hroom hlo hhi
    rw [hget]
    rcases hrooms.cases hroom with ⟨rfl, rfl⟩ | ⟨hne, hold⟩
    · by_cases hq : q = event.sequence
      · exact ⟨_, if_pos ⟨rfl, hq⟩⟩
      rw [if_neg fun hc => hq hc.2]
      cases base with
      | none =>
        have hhead : room'.headSequence = 1 := h.head_eq
        omega
      | some previous =>
        obtain ⟨hhead, holdest⟩ := h.range_eq h.base_eq
        exact hinv.event_of_room h.base_eq (by omega) (by omega)
    · rw [if_neg fun hc => hne hc.1]
      exact hinv.event_of_room hold hlo hhi
  · intro r q stored hstored
    rw [hget] at hstored
    split_ifs at hstored with hkey
    · obtain ⟨rfl, rfl⟩ := hkey
      cases hstored
      exact ⟨room, by rw [hrooms, if_pos rfl], by omega, by omega, rfl⟩
    · obtain ⟨room', hroom', hlo, hhi, hsequence⟩ := hinv.room_of_event hstored
      by_cases hr : r = room.descriptor.roomId
      · subst hr
        obtain ⟨hhead, holdest⟩ := h.range_eq hroom'
        exact ⟨room, by rw [hrooms, if_pos rfl], by omega, by omega, hsequence⟩
      · exact ⟨room', by rw [hrooms, if_neg hr]; exact hroom', hlo, hhi, hsequence⟩
  · rw [hevents, hids]
    exact hinv.event_ids.insert hfresh h.id_free
  · rw [hevents, hepochs]
    exact hinv.commit_epochs.insert hfresh h.epoch_free

/-- Dropping the events up to `last` keeps the log invariant. -/
lemma LogInv.prune {r : RoomId} {last : ℕ} (hinv : LogInv s) (hroom : s.rooms.get? r = some room)
      (hlo : room.oldestAvailableSequence ≤ last)
    (hhi : last ≤ room.headSequence)
    (hrooms : RoomSet s t { room with oldestAvailableSequence := last + 1 })
    (hevents : ∀ r' q, t.events.get? (toLex (r', q)) = if r' = r ∧
      room.oldestAvailableSequence ≤ q ∧ q ≤ last then none else s.events.get? (toLex (r', q)))
    (hids : IndexOf t.events MlsDeliveryEvent.eventId? t.eventIds)
    (hepochs : IndexOf t.events MlsDeliveryEvent.parentEpoch? t.commitEpochs) : LogInv t := by
  have hok := hinv.room_ok hroom
  have hkey : room.descriptor.roomId = r := hok.key
  refine ⟨?_, ?_, ?_, hids, hepochs⟩
  · intro r' room' hroom'
    rcases hrooms.cases hroom' with ⟨rfl, rfl⟩ | ⟨-, hold⟩
    · exact ⟨rfl, by simp, by simp only; omega, hok.head_lt, hok.required_sorted⟩
    · exact hinv.room_ok hold
  · intro r' room' q hroom' hlo' hhi'
    rw [hevents]
    rcases hrooms.cases hroom' with ⟨rfl, rfl⟩ | ⟨hne, hold⟩
    · simp only at hlo' hhi'
      rw [if_neg (by omega)]
      exact hinv.event_of_room (hkey ▸ hroom) (by omega) hhi'
    · rw [if_neg fun hc => hne (hc.1.trans hkey.symm)]
      exact hinv.event_of_room hold hlo' hhi'
  · intro r' q stored hstored
    rw [hevents] at hstored
    split_ifs at hstored with hgone
    obtain ⟨room', hroom', hlo', hhi', hseq⟩ := hinv.room_of_event hstored
    by_cases hr : r' = r
    · subst hr
      rw [hroom, some.injEq] at hroom'
      subst hroom'
      refine ⟨{ room with oldestAvailableSequence := last + 1 }, by rw [hrooms, if_pos hkey.symm],
        ?_, hhi', hseq⟩
      simp only
      by_contra hlt
      exact hgone ⟨rfl, hlo', by omega⟩
    · exact ⟨room', by rw [hrooms, if_neg fun hc => hr (hc.trans hkey)]; exact hroom',
        hlo', hhi', hseq⟩

/-- A change of rooms that keeps their ranges keeps the log. -/
lemma LogInv.sameRanges (hinv : LogInv s) (hlog : SameLog s t)
    (hold : ∀ {r room'}, t.rooms.get? r = some room' → ∃ room, s.rooms.get? r = some room ∧
      room'.descriptor = room.descriptor ∧ room'.headSequence = room.headSequence ∧
      room'.oldestAvailableSequence = room.oldestAvailableSequence ∧
      room'.requiredDevices.Sublist room.requiredDevices)
    (hnew : ∀ {r room}, s.rooms.get? r = some room → ∃ room', t.rooms.get? r = some room' ∧
      room'.headSequence = room.headSequence ∧
      room'.oldestAvailableSequence = room.oldestAvailableSequence) : LogInv t := by
  obtain ⟨hevents, hids, hepochs⟩ := hlog
  refine ⟨?_, ?_, ?_, ?_, ?_⟩
  · intro r room' hroom'
    obtain ⟨room, hroom, hdesc, hhead, holdest, hsub⟩ := hold hroom'
    have hok := hinv.room_ok hroom
    refine ⟨hdesc ▸ hok.key, holdest ▸ hok.oldest_pos, ?_, hhead ▸ hok.head_lt,
      hok.required_sorted.sublist hsub⟩
    rw [holdest, hhead]
    exact hok.oldest_le
  · intro r room' q hroom' hlo hhi
    obtain ⟨room, hroom, -, hhead, holdest, -⟩ := hold hroom'
    rw [hevents]
    exact hinv.event_of_room hroom (by omega) (by omega)
  · intro r q stored hstored
    rw [hevents] at hstored
    obtain ⟨room, hroom, hlo, hhi, hseq⟩ := hinv.room_of_event hstored
    obtain ⟨room', hroom', hhead, holdest⟩ := hnew hroom
    exact ⟨room', hroom', by omega, by omega, hseq⟩
  · rw [hevents, hids]
    exact hinv.event_ids
  · rw [hevents, hepochs]
    exact hinv.commit_epochs

/-- A room advances to itself. -/
lemma RoomAdvances.refl (room : RoomRecord) : RoomAdvances room room :=
  ⟨rfl, le_rfl, le_rfl, le_rfl⟩

/-- Advances of a room compose. -/
lemma RoomAdvances.trans {a b c : RoomRecord} (h : RoomAdvances a b) (h' : RoomAdvances b c) :
    RoomAdvances a c :=
  ⟨h'.descriptor_eq.trans h.descriptor_eq, h.head_le.trans h'.head_le,
    h.oldest_le.trans h'.oldest_le, h.epoch_le.trans h'.epoch_le⟩

/-- A state advances to itself. -/
lemma Advances.refl (s : MemoryState) : Advances s s where
  room hroom := ⟨_, hroom, RoomAdvances.refl _⟩
  event_kept _ _ _ h := h
  event_old _ _ h := h
  next_le := le_rfl
  target_old _ h := h
  welcome_old _ h := h

/-- Advances of a state compose. -/
lemma Advances.trans {s t u : MemoryState} (h : Advances s t) (h' : Advances t u) :
    Advances s u where
  room hroom := by
    obtain ⟨room', hroom', hadv⟩ := h.room hroom
    obtain ⟨room'', hroom'', hadv'⟩ := h'.room hroom'
    exact ⟨room'', hroom'', hadv.trans hadv'⟩
  event_kept := by
    intro r room room'' q stored hroom hroom'' hlo hstored
    obtain ⟨room', hroom', -⟩ := h.room hroom
    obtain ⟨room₂, hroom₂, hadv⟩ := h'.room hroom'
    rw [hroom'', some.injEq] at hroom₂
    subst hroom₂
    have hle := hadv.oldest_le
    exact h'.event_kept hroom' hroom'' hlo (h.event_kept hroom hroom' (by omega) hstored)
  event_old := by
    intro r room q stored hroom hhi hstored
    obtain ⟨room', hroom', hadv⟩ := h.room hroom
    have hle := hadv.head_le
    exact h.event_old hroom hhi (h'.event_old hroom' (by omega) hstored)
  next_le := h.next_le.trans h'.next_le
  target_old hlt hget := h.target_old hlt (h'.target_old (hlt.trans_le h.next_le) hget)
  welcome_old hlt hget := h.welcome_old hlt (h'.welcome_old (hlt.trans_le h.next_le) hget)

/-- What advances keeps its Welcomes well formed. -/
lemma WelcomeOk.advances {deliveryId : ℕ} {w : StoredWelcome} (h : WelcomeOk s deliveryId w)
    (hadv : Advances s t) : WelcomeOk t deliveryId w := by
  obtain ⟨room, hroom, hdesc, hhead, hcommit⟩ := h.room
  obtain ⟨room', hroom', hstep⟩ := hadv.room hroom
  have hlt := h.id_lt
  have hnext := hadv.next_le
  refine ⟨h.key, h.id_pos, by omega, h.bundle_ok, h.sequence_pos, room', hroom', ?_, ?_, ?_⟩
  · rw [hstep.descriptor_eq, hdesc]
  · have := hstep.head_le
    omega
  intro hlo
  have hle := hstep.oldest_le
  have hretained := hcommit (by omega)
  rw [isRetainedCommit, Option.any_eq_true] at hretained
  obtain ⟨stored, hstored, hpar⟩ := hretained
  rw [← hdesc] at hstored
  rw [isRetainedCommit, Option.any_eq_true, hstep.descriptor_eq, ← hdesc]
  exact ⟨stored, hadv.event_kept hroom hroom' hlo hstored, hpar⟩

/-- A cursor stays valid when the head of its room moves on. -/
lemma CursorOk.mono {head head' : ℕ} {c : DeviceCursor} (h : CursorOk head c) (hle : head ≤ head') :
    CursorOk head' c := by
  refine ⟨h.start_pos, h.start_le, h.highest_le.trans hle, ?_⟩
  intro w hw
  have := h.rejoin_ok w hw
  omega

/-! ## Appending -/

section Append

variable {global : Option GlobalRecord} {storedAt : ℕ} {welcome : Option (ℕ × MlsWelcomeBundle)}

/-- A delta with one room sets that room and no other. -/
lemma roomSet_of_applied {d : StateDelta} (ht : DeltaApplied s d t) (hd : d.rooms = [room]) :
    RoomSet s t room := by
  intro r
  rw [ht.rooms, hd, lastWrite_singleton]
  by_cases hr : r = room.descriptor.roomId
  · have hkey : roomKey room = r := hr.symm
    rw [if_pos hr, if_pos hkey]
    rfl
  · have hkey : roomKey room ≠ r := Ne.symm hr
    rw [if_neg hr, if_neg hkey]
    rfl

/-- The log after an append. -/
lemma log_of_append (hinv : LogInv s) (h : AppendOk s base room event)
      (ht : DeltaApplied s (appendDelta global base room event storedAt welcome) t) :
    SameLog { s with
      events := s.events.insert (toLex (room.descriptor.roomId, event.sequence))
        ⟨event, storedAt, event.payloadLen⟩
      eventIds := insertLabel s.eventIds room.descriptor.roomId event.sequence event.eventId?
      commitEpochs := insertLabel s.commitEpochs room.descriptor.roomId event.sequence
        event.parentEpoch? } t := by
  have hlog := ht.log
  unfold logAfter appendDelta at hlog
  simp only [foldl_nil, foldl_cons] at hlog
  rw [insertEventMemory_of_fresh storedAt (h.fresh hinv)] at hlog
  exact hlog

/-- The inbox after an append: a Welcome takes the next delivery id. -/
lemma inbox_of_append (hinv : WelcomeInv s) (hw : WelcomeIssued s global room event welcome)
    (ht : DeltaApplied s (appendDelta global base room event storedAt welcome) t) :
    match welcome with
    | none => SameInbox s t ∧ t.global.nextWelcomeDeliveryId = s.global.nextWelcomeDeliveryId
    | some (deliveryId, bundle) =>
      (∃ u, WelcomeStored s deliveryId bundle room.headSequence storedAt u ∧ SameInbox u t) ∧
        t.global.nextWelcomeDeliveryId = s.global.nextWelcomeDeliveryId + 1 := by
  have hinbox := ht.inbox
  have hglobal := ht.global
  unfold inboxAfter appendDelta at hinbox
  cases welcome with
  | none =>
    refine ⟨hinbox, ?_⟩
    rw [hglobal, appendDelta]
    cases hg : global with
    | none => rfl
    | some g => exact hw g hg
  | some w =>
    obtain ⟨deliveryId, bundle⟩ := w
    obtain ⟨rfl, ⟨g, rfl, hg⟩, hbundle, -, -⟩ := hw
    have hfree : s.welcomes.get? s.global.nextWelcomeDeliveryId = none := by
      rw [eq_none_iff_forall_ne_some]
      intro w hget
      exact lt_irrefl _ (hinv.welcome_ok hget).id_lt
    refine ⟨⟨_, hinv.inbox.storeWelcome _ _ hbundle (by rw [hfree]; rfl), hinbox⟩, ?_⟩
    rw [hglobal, appendDelta]
    exact hg

/-- The keys of the devices of one room. -/
lemma mem_map_toLex {r r' : RoomId} {device : DeviceId} {devices : List DeviceId} :
    toLex (r, device) ∈ devices.map (fun d => toLex (r', d)) ↔ r = r' ∧ device ∈ devices := by
  rw [List.mem_map]
  constructor
  · rintro ⟨d, hd, hkey⟩
    obtain ⟨rfl, rfl⟩ := Prod.mk.inj (toLex.injective hkey)
    exact ⟨rfl, hd⟩
  · rintro ⟨rfl, hd⟩
    exact ⟨device, hd, rfl⟩

/-- The cursors after an append: fresh ones for the devices that joined, none for those that
left. -/
lemma cursors_of_append
      (ht : DeltaApplied s (appendDelta global base room event storedAt welcome) t) (r : RoomId)
    (device : DeviceId) :
    t.deviceCursors.get? (toLex (r, device)) =
      if r = room.descriptor.roomId ∧
      device ∈ addedDevices (requiredOf base) room then some (freshCursor room room.headSequence)
      else if r = room.descriptor.roomId ∧ device ∈ removedDevices (requiredOf base) room then none
      else s.deviceCursors.get? (toLex (r, device)) := by
  have hwrite : ∀ k, OrdMap.lastWrite WalCursor.key WalCursor.cursor
      (appendDelta global base room event storedAt welcome).cursors k =
      if k ∈ (addedDevices (requiredOf base) room).map (fun d => toLex (room.descriptor.roomId, d))
      then some (freshCursor room room.headSequence) else none := by
    intro k
    split_ifs with hmem
    · obtain ⟨d, hd, rfl⟩ := mem_map.mp hmem
      cases hlast : OrdMap.lastWrite WalCursor.key WalCursor.cursor
          (appendDelta global base room event storedAt welcome).cursors
          (toLex (room.descriptor.roomId, d)) with
      | none =>
        have hnone := lastWrite_eq_none.mp hlast
          { roomId := room.descriptor.roomId, deviceId := d
            cursor := freshCursor room room.headSequence } (mem_map.mpr ⟨d, hd, rfl⟩)
        exact absurd rfl hnone
      | some v =>
        obtain ⟨a, ha, -, rfl⟩ := lastWrite_eq_some hlast
        obtain ⟨d', -, rfl⟩ := mem_map.mp ha
        rfl
    · rw [lastWrite_eq_none]
      intro a ha hkey
      obtain ⟨d, hd, rfl⟩ := mem_map.mp ha
      exact hmem (mem_map.mpr ⟨d, hd, hkey⟩)
  have herase : OrdMap.touches CursorKey.key
      (appendDelta global base room event storedAt welcome).deletedCursors (toLex (r, device)) =
        true ↔
      r = room.descriptor.roomId ∧ device ∈ removedDevices (requiredOf base) room := by
    rw [touches_iff, ← List.mem_map, appendDelta, List.map_map]
    exact mem_map_toLex
  rw [ht.cursors, hwrite]
  simp only [mem_map_toLex, herase]
  split_ifs <;> rfl

variable {device : DeviceId}

/-- The added devices are the required ones that were not required before. -/
lemma mem_addedDevices {previous : List DeviceId} :
    device ∈ addedDevices previous room ↔ device ∈ room.requiredDevices ∧ device ∉ previous := by
  simp [addedDevices]

/-- The removed devices were required before and are not any more. -/
lemma mem_removedDevices {previous : List DeviceId} :
    device ∈ removedDevices previous room ↔ device ∈ previous ∧ device ∉ room.requiredDevices := by
  simp [removedDevices]

/-- Before its creation a room requires no device. -/
lemma mem_requiredOf :
    device ∈ requiredOf base ↔ ∃ previous, base = some previous ∧
    device ∈ previous.requiredDevices := by
  cases base <;> simp [requiredOf]

/-- A stored room advances by an append. -/
lemma AppendOk.roomAdvances (h : AppendOk s base room event)
    (hprevious : s.rooms.get? room.descriptor.roomId = some previous) :
    RoomAdvances previous room := by
  have hbase : base = some previous := h.base_eq.symm.trans hprevious
  obtain ⟨hhead, holdest⟩ := h.range_eq hprevious
  refine ⟨h.descriptor_eq _ hbase, by omega, by omega, ?_⟩
  cases hev : event.parentEpoch? with
  | none =>
    obtain ⟨previous', hprevious', hstate⟩ := h.epoch_same hev
    rw [hbase, some.injEq] at hprevious'
    rw [hstate, hprevious']
  | some e =>
    obtain ⟨hlt, heq⟩ := h.epoch_step e hev
    have := heq previous hbase
    omega

section

variable (ht : DeltaApplied s (appendDelta global base room event storedAt welcome) t)

include ht

/-- An append keeps the cursor invariant: added devices start at the new head. -/
lemma cursorInv_of_append (hinv : CursorInv s) (h : AppendOk s base room event) : CursorInv t := by
  have hrooms : RoomSet s t room := roomSet_of_applied ht rfl
  have hhead := h.head_eq
  have hcursors := cursors_of_append ht
  refine ⟨?_, ?_⟩
  · intro r room' device hroom hdevice
    rw [hcursors]
    rcases hrooms.cases hroom with ⟨rfl, rfl⟩ | ⟨hne, hold⟩
    · by_cases hprev : device ∈ requiredOf base
      · obtain ⟨previous, hbase, hreq⟩ := mem_requiredOf.mp hprev
        rw [if_neg (by rw [mem_addedDevices]; tauto), if_neg (by rw [mem_removedDevices]; tauto)]
        exact hinv.cursor_of_required (h.base_eq.trans hbase) hreq
      · exact ⟨_, if_pos ⟨rfl, mem_addedDevices.mpr ⟨hdevice, hprev⟩⟩⟩
    · rw [if_neg fun hc => hne hc.1, if_neg fun hc => hne hc.1]
      exact hinv.cursor_of_required hold hdevice
  · intro r device c hc
    rw [hcursors] at hc
    split_ifs at hc with hadded hremoved
    · obtain ⟨rfl, hmem⟩ := hadded
      cases hc
      refine ⟨room, by rw [hrooms, if_pos rfl], (mem_addedDevices.mp hmem).1, ?_⟩
      exact ⟨by simp only [freshCursor]; omega, le_rfl, le_rfl, by simp [freshCursor]⟩
    · obtain ⟨room', hroom', hdevice, hok⟩ := hinv.cursor_ok hc
      by_cases hr : r = room.descriptor.roomId
      · subst hr
        have hbase : base = some room' := h.base_eq.symm.trans hroom'
        have hmem : device ∈ room.requiredDevices := by
          by_contra hnot
          exact hremoved ⟨rfl, mem_removedDevices.mpr ⟨mem_requiredOf.mpr ⟨room', hbase, hdevice⟩,
            hnot⟩⟩
        exact ⟨room, by rw [hrooms, if_pos rfl], hmem, hok.mono (h.roomAdvances hroom').head_le⟩
      · exact ⟨room', by rw [hrooms, if_neg hr]; exact hroom', hdevice, hok⟩

/-- The state advances by an append. -/
lemma advances_of_append (hinv : StoreInv s) (h : AppendOk s base room event)
    (hw : WelcomeIssued s global room event welcome) : Advances s t := by
  have hrooms : RoomSet s t room := roomSet_of_applied ht rfl
  have hlog := log_of_append hinv.log h ht
  have hinbox := inbox_of_append hinv.welcomes hw ht
  have hfresh := h.fresh hinv.log
  have hseq := h.sequence_eq
  refine ⟨?_, ?_, ?_, ?_, ?_, ?_⟩
  · intro r previous hprevious
    by_cases hr : r = room.descriptor.roomId
    · subst hr
      exact ⟨room, by rw [hrooms, if_pos rfl], h.roomAdvances hprevious⟩
    · exact ⟨previous, by rw [hrooms, if_neg hr]; exact hprevious, RoomAdvances.refl _⟩
  · intro r _ room' q stored _ _ _ hstored
    rw [hlog.events, get?_insert_ne]
    · exact hstored
    · intro heq
      rw [heq, hfresh] at hstored
      cases hstored
  · intro r previous q stored hprevious hle hstored
    rw [hlog.events, get?_insert] at hstored
    split_ifs at hstored with hkey
    · obtain ⟨rfl, rfl⟩ := Prod.mk.inj (toLex.injective hkey)
      have hhead := (h.range_eq hprevious).1
      omega
    · exact hstored
  · cases welcome with
    | none => exact hinbox.2.ge
    | some w => exact hinbox.2.ge.trans' (Nat.le_succ _)
  · intro device deliveryId hlt hget
    cases welcome with
    | none => rwa [hinbox.1.targets] at hget
    | some w =>
      obtain ⟨⟨u, hstored, hsame⟩, -⟩ := hinbox
      rw [hsame.targets, hstored.targets, if_neg (by have := hw.1; omega)] at hget
      exact hget
  · intro deliveryId w hlt hget
    cases welcome with
    | none => rwa [hinbox.1.welcomes] at hget
    | some v =>
      obtain ⟨⟨u, hstored, hsame⟩, -⟩ := hinbox
      rw [hsame.welcomes, hstored.welcomes, if_neg (by have := hw.1; omega)] at hget
      exact hget

/-- An append keeps the Welcome invariant, with a new Welcome or without. -/
lemma welcomeInv_of_append (hinv : StoreInv s) (h : AppendOk s base room event)
    (hw : WelcomeIssued s global room event welcome) : WelcomeInv t := by
  have hadv := advances_of_append ht hinv h hw
  have hinbox := inbox_of_append hinv.welcomes hw ht
  have hlog := log_of_append hinv.log h ht
  have hrooms : RoomSet s t room := roomSet_of_applied ht rfl
  have hnext := hadv.next_le
  refine ⟨lt_of_lt_of_le hinv.welcomes.next_pos hnext, ?_, ?_, ?_⟩
  · cases welcome with
    | none => exact hinbox.1.inboxOk hinv.welcomes.inbox
    | some w =>
      obtain ⟨⟨u, hstored, hsame⟩, -⟩ := hinbox
      exact hsame.inboxOk hstored.inbox
  · intro deliveryId w hget
    cases welcome with
    | none =>
      rw [hinbox.1.welcomes] at hget
      exact (hinv.welcomes.welcome_ok hget).advances hadv
    | some v =>
      obtain ⟨⟨u, hstored, hsame⟩, hnextEq⟩ := hinbox
      rw [hsame.welcomes, hstored.welcomes] at hget
      split_ifs at hget with hid
      · -- The new Welcome goes with the commit at the new head.
        subst hid
        cases hget
        obtain ⟨hidEq, -, hbundle, hdesc, hcommit⟩ := hw
        have hpos := hinv.welcomes.next_pos
        have hhead := h.head_eq
        have hroom : t.rooms.get? room.descriptor.roomId = some room := by rw [hrooms, if_pos rfl]
        refine ⟨rfl, by omega, by omega, hbundle, by simp only; omega, room,
          by rw [hdesc]; exact hroom, hdesc, le_rfl, fun _ => ?_⟩
        rw [isRetainedCommit, hlog.events, ← h.sequence_eq, get?_insert_self]
        exact hcommit
      · exact (hinv.welcomes.welcome_ok hget).advances hadv
  · intro device deliveryId hget
    rw [ht.welcomeCursors] at hget
    have := hinv.welcomes.cursor_ok (by simpa [appendDelta] using hget)
    omega

/-- An append keeps the store invariant. -/
lemma storeInv_of_append (hinv : StoreInv s) (h : AppendOk s base room event)
    (hw : WelcomeIssued s global room event welcome) : StoreInv t := by
  have hlog := log_of_append hinv.log h ht
  exact ⟨hinv.log.append h (roomSet_of_applied ht rfl) hlog.events hlog.eventIds hlog.commitEpochs,
    cursorInv_of_append ht hinv.cursors h, welcomeInv_of_append ht hinv h hw⟩

end

end Append

/-- Removing events in a loop erases their keys. -/
lemma foldl_remove_events (keys : List EventKey) (s : MemoryState) :
    (keys.foldl (fun s key => removeEventMemory s key.roomId key.sequence) s).events =
      keys.foldl (fun m key => m.erase (toLex (key.roomId, key.sequence))) s.events := by
  rw [← foldl_hom MemoryState.events]
  exact fun _ _ => (removeEventMemory_events _ _ _).symm

/-- Removing events in a loop keeps both indexes exact. -/
lemma foldl_remove_index (keys : List EventKey) {s : MemoryState}
      (hids : IndexOf s.events MlsDeliveryEvent.eventId? s.eventIds)
    (hepochs : IndexOf s.events MlsDeliveryEvent.parentEpoch? s.commitEpochs) :
    let t := keys.foldl (fun s key => removeEventMemory s key.roomId key.sequence) s
    IndexOf t.events MlsDeliveryEvent.eventId? t.eventIds ∧
      IndexOf t.events MlsDeliveryEvent.parentEpoch? t.commitEpochs := by
  refine foldlRecOn (motive := fun t : MemoryState => IndexOf t.events _ t.eventIds ∧
    IndexOf t.events _ t.commitEpochs) keys _ ⟨hids, hepochs⟩ ?_
  rintro s ⟨hids, hepochs⟩ key -
  simp only [removeEventMemory_events, removeEventMemory_indexes]
  exact ⟨hids.remove _ _, hepochs.remove _ _⟩

/-! ## Deltas without a Welcome -/

section NoWelcome

variable {d : StateDelta}

/-- A delta that stores no Welcome can only make the inbox smaller. -/
lemma inbox_of_noWelcome (hinv : InboxOk s) (ht : DeltaApplied s d t) (hd : d.welcomes = []) :
    InboxOk t ∧ (∀ device id, t.deviceWelcomes.get? (toLex (device, id)) = some () →
      s.deviceWelcomes.get? (toLex (device, id)) = some ()) ∧
      ∀ id w, t.welcomes.get? id = some w → s.welcomes.get? id = some w := by
  have hinbox := ht.inbox
  rw [inboxAfter, hd, foldl_nil] at hinbox
  obtain ⟨-, hdeleted⟩ := hinv.deleteTargets d.deletedWelcomeTargets
  refine ⟨hinbox.inboxOk hdeleted.inbox, ?_, ?_⟩
  · intro device id hget
    rw [hinbox.targets, hdeleted.targets] at hget
    split_ifs at hget
    exact hget
  · intro id w hget
    rw [hinbox.welcomes] at hget
    exact hdeleted.welcomes hget

/-- A delta without a new Welcome keeps the Welcome invariant. -/
lemma welcomeInv_of_noWelcome (hinv : WelcomeInv s) (ht : DeltaApplied s d t) (hd : d.welcomes = [])
      (hadv : Advances s t)
    (hcursors : ∀ c ∈ d.welcomeCursors, 0 < c.deliveryId ∧
      c.deliveryId < t.global.nextWelcomeDeliveryId) : WelcomeInv t := by
  obtain ⟨hinbox, -, hwelcomes⟩ := inbox_of_noWelcome hinv.inbox ht hd
  refine ⟨lt_of_lt_of_le hinv.next_pos hadv.next_le, hinbox, ?_, ?_⟩
  · intro id w hget
    exact (hinv.welcome_ok (hwelcomes id w hget)).advances hadv
  intro device id hget
  rw [ht.welcomeCursors, or_eq_some_iff] at hget
  rcases hget with hget | ⟨-, hget⟩
  · obtain ⟨c, hc, -, rfl⟩ := lastWrite_eq_some hget
    exact hcursors c hc
  · have := hinv.cursor_ok hget
    have := hadv.next_le
    omega

end NoWelcome

/-! ## Pruning -/

section Prune

variable {r : RoomId} {last expiry : ℕ} {lagging : List (DeviceId × DeviceCursor)}
  {targets : List DeviceWelcomeCheckpoint}

section

variable (ht : DeltaApplied s (pruneDelta r room last expiry lagging targets) t)

include ht

/-- Pruning sets the oldest event of its room. -/
lemma roomSet_of_prune : RoomSet s t { room with oldestAvailableSequence := last + 1 } :=
  roomSet_of_applied ht rfl

/-- Pruning removes the events up to `last` and no other. -/
lemma events_of_prune (r' : RoomId) (q : ℕ) :
    t.events.get? (toLex (r', q)) = if r' = r ∧ room.oldestAvailableSequence ≤ q ∧
    q ≤ last then none
      else s.events.get? (toLex (r', q)) := by
  have hlog := ht.log.events
  unfold logAfter at hlog
  rw [hlog]
  simp only [pruneDelta, foldl_nil]
  rw [foldl_remove_events, get?_foldl_erase (fun key : EventKey =>
    toLex (key.roomId, key.sequence))]
  have hiff : OrdMap.touches (fun key : EventKey => toLex (key.roomId, key.sequence))
      ((List.range' room.oldestAvailableSequence (last + 1 - room.oldestAvailableSequence)).map
        fun sequence => ⟨sequence, r⟩)
      (toLex (r', q)) = true ↔ r' = r ∧ room.oldestAvailableSequence ≤ q ∧ q ≤ last := by
    rw [touches_iff]
    constructor
    · rintro ⟨key, hkey, heq⟩
      obtain ⟨q', hq', rfl⟩ := mem_map.mp hkey
      obtain ⟨rfl, rfl⟩ := Prod.mk.inj (toLex.injective heq)
      rw [mem_range'_1] at hq'
      have hle : q' ≤ last := by omega
      exact ⟨rfl, hq'.1, hle⟩
    · rintro ⟨rfl, hlo, hhi⟩
      refine ⟨_, mem_map.mpr ⟨q, ?_, rfl⟩, rfl⟩
      rw [mem_range'_1]
      omega
  simp only [hiff]

/-- Pruning keeps both indexes exact. -/
lemma index_of_prune (hinv : LogInv s) :
    IndexOf t.events MlsDeliveryEvent.eventId? t.eventIds ∧
    IndexOf t.events MlsDeliveryEvent.parentEpoch? t.commitEpochs := by
  have hlog := ht.log
  have hindex := foldl_remove_index (pruneDelta r room last expiry lagging targets).deletedEvents
    hinv.event_ids hinv.commit_epochs
  rw [hlog.events, hlog.eventIds, hlog.commitEpochs]
  exact hindex

/-- The cursors after a pruning pass: those of the lagging devices are flagged. -/
lemma cursors_of_prune (h : PruneFits s r room last expiry lagging) (r' : RoomId)
      (device : DeviceId) :
    (∃ c, r' = r ∧ (device, c) ∈ lagging ∧ t.deviceCursors.get? (toLex (r', device)) =
      some { c with rejoinRequiredThrough := some expiry }) ∨
      ((∀ c, r' = r → (device, c) ∉ lagging) ∧
        t.deviceCursors.get? (toLex (r', device)) = s.deviceCursors.get? (toLex (r', device))) := by
  have hcursors := ht.cursors (toLex (r', device))
  have hdeleted : (pruneDelta r room last expiry lagging targets).deletedCursors = [] := rfl
  rw [hdeleted, touches_nil, if_neg (by simp)] at hcursors
  by_cases hmem : ∃ c, r' = r ∧ (device, c) ∈ lagging
  · obtain ⟨c, rfl, hc⟩ := hmem
    refine Or.inl ⟨c, rfl, hc, ?_⟩
    rw [hcursors]
    have hkeys :
        ((pruneDelta r' room last expiry lagging targets).cursors.map WalCursor.key).Nodup := by
      have hmap : (pruneDelta r' room last expiry lagging targets).cursors.map WalCursor.key =
          (lagging.map Prod.fst).map (fun d => toLex (r', d)) := by
        simp [pruneDelta, WalCursor.key, Function.comp_def]
      rw [hmap]
      refine h.lagging_nodup.map ?_
      intro a b hab
      exact (Prod.mk.inj (toLex.injective hab)).2
    have hwrite := lastWrite_of_nodup WalCursor.cursor hkeys
      (mem_map.mpr ⟨(device, c), hc, rfl⟩)
    exact congrArg (fun o => Option.or o _) hwrite
  · refine Or.inr ⟨fun c hr hc => hmem ⟨c, hr, hc⟩, ?_⟩
    have hnone : OrdMap.lastWrite WalCursor.key WalCursor.cursor
        (pruneDelta r room last expiry lagging targets).cursors (toLex (r', device)) = none := by
      rw [lastWrite_eq_none]
      intro a ha hkey
      obtain ⟨p, hp, rfl⟩ := mem_map.mp ha
      obtain ⟨hr, hd⟩ := Prod.mk.inj (toLex.injective hkey)
      exact hmem ⟨p.2, hr.symm, hd ▸ hp⟩
    rw [hcursors, hnone, none_or]

/-- Every room stays, with the required devices and the head it had. -/
lemma rooms_of_prune (hinv : StoreInv s) (h : PruneFits s r room last expiry lagging) {r' : RoomId}
      (hprevious : s.rooms.get? r' = some previous) :
    ∃ room', t.rooms.get? r' = some room' ∧ RoomAdvances previous room' ∧
    room'.requiredDevices = previous.requiredDevices ∧
      room'.headSequence = previous.headSequence := by
  have hkey : room.descriptor.roomId = r := (hinv.log.room_ok h.room_eq).key
  have hpruned := roomSet_of_prune ht r'
  by_cases hr : r' = r
  · subst hr
    cases h.room_eq.symm.trans hprevious
    have hle := h.oldest_le
    rw [if_pos hkey.symm] at hpruned
    exact ⟨_, hpruned, ⟨rfl, le_rfl, by simp only; omega, le_rfl⟩, rfl, rfl⟩
  · rw [if_neg fun hc => hr (hc.trans hkey)] at hpruned
    exact ⟨previous, hpruned.trans hprevious, RoomAdvances.refl _, rfl, rfl⟩

/-- The state advances by pruning. -/
lemma advances_of_prune (hinv : StoreInv s) (h : PruneFits s r room last expiry lagging) :
    Advances s t := by
  have hrooms := roomSet_of_prune ht
  have hevents := events_of_prune ht
  have hkey : room.descriptor.roomId = r := (hinv.log.room_ok h.room_eq).key
  obtain ⟨-, htargets, hwelcomes⟩ := inbox_of_noWelcome hinv.welcomes.inbox ht rfl
  refine ⟨?_, ?_, ?_, le_of_eq (by rw [ht.global]; rfl), ?_, ?_⟩
  · intro r' previous hprevious
    obtain ⟨room', hroom', hadv, -⟩ := rooms_of_prune ht hinv h hprevious
    exact ⟨room', hroom', hadv⟩
  · intro r' _ room' q stored _ hroom' hlo hstored
    rw [hevents, if_neg]
    · exact hstored
    · rintro ⟨rfl, -, hq⟩
      rw [hrooms, if_pos hkey.symm, some.injEq] at hroom'
      subst hroom'
      simp only at hlo
      omega
  · intro r' previous q stored _ _ hstored
    rw [hevents] at hstored
    split_ifs at hstored
    exact hstored
  · intro device id _ hget
    exact htargets device id hget
  · intro id w _ hget
    exact hwelcomes id w hget

/-- Pruning keeps the cursor invariant: it only flags lagging devices. -/
lemma cursorInv_of_prune (hinv : StoreInv s) (h : PruneFits s r room last expiry lagging) :
    CursorInv t := by
  have hrooms := roomSet_of_prune ht
  have hkey : room.descriptor.roomId = r := (hinv.log.room_ok h.room_eq).key
  have hback : ∀ {r' room'}, t.rooms.get? r' = some room' →
      ∃ previous, s.rooms.get? r' = some previous ∧
      room'.requiredDevices = previous.requiredDevices ∧
      room'.headSequence = previous.headSequence := by
    intro r' room' hroom'
    rcases hrooms.cases hroom' with ⟨rfl, rfl⟩ | ⟨-, hold⟩
    · exact ⟨room, hkey.symm ▸ h.room_eq, rfl, rfl⟩
    · exact ⟨room', hold, rfl, rfl⟩
  refine ⟨?_, ?_⟩
  · intro r' room' device hroom' hdevice
    obtain ⟨previous, hprevious, hreq, -⟩ := hback hroom'
    rcases cursors_of_prune ht h r' device with ⟨c, -, -, hc⟩ | ⟨-, hsame⟩
    · exact ⟨_, hc⟩
    · rw [hsame]
      exact hinv.cursors.cursor_of_required hprevious (hreq ▸ hdevice)
  · intro r' device c' hc'
    rcases cursors_of_prune ht h r' device with ⟨c, rfl, hmem, hc⟩ | ⟨-, hsame⟩
    · rw [hc, some.injEq] at hc'
      subst hc'
      obtain ⟨hdevice, hok⟩ := h.flagged_ok _ hmem
      obtain ⟨room', hroom', -, hreq, hhead⟩ := rooms_of_prune ht hinv h h.room_eq
      exact ⟨room', hroom', hreq ▸ hdevice, hhead ▸ hok⟩
    · rw [hsame] at hc'
      obtain ⟨previous, hprevious, hdevice, hok⟩ := hinv.cursors.cursor_ok hc'
      obtain ⟨room', hroom', -, hreq, hhead⟩ := rooms_of_prune ht hinv h hprevious
      exact ⟨room', hroom', hreq ▸ hdevice, hhead ▸ hok⟩

/-- Pruning keeps the store invariant. -/
lemma storeInv_of_prune (hinv : StoreInv s) (h : PruneFits s r room last expiry lagging) :
    StoreInv t := by
  obtain ⟨hids, hepochs⟩ := index_of_prune ht hinv.log
  refine ⟨hinv.log.prune h.room_eq h.oldest_le h.last_le (roomSet_of_prune ht) (events_of_prune ht)
    hids hepochs, cursorInv_of_prune ht hinv h, ?_⟩
  exact welcomeInv_of_noWelcome hinv.welcomes ht rfl (advances_of_prune ht hinv h)
    (by simp [pruneDelta])

end

end Prune

/-! ## Deltas that leave the log alone -/

section Quiet

variable {d : StateDelta}

/-- A delta without events leaves the log alone. -/
lemma sameLog_of_noEvents (ht : DeltaApplied s d t) (hd : d.events = [])
    (hd' : d.deletedEvents = []) : SameLog s t := by
  have hlog := ht.log
  rw [logAfter, hd, hd', foldl_nil, foldl_nil] at hlog
  exact hlog

/-- The state advances by a delta that leaves the log alone. -/
lemma advances_of_sameLog (hinv : StoreInv s) (ht : DeltaApplied s d t) (hlog : SameLog s t)
      (hw : d.welcomes = [])
    (hnext : t.global.nextWelcomeDeliveryId = s.global.nextWelcomeDeliveryId)
    (hrooms : ∀ {r room}, s.rooms.get? r = some room → ∃ room', t.rooms.get? r = some room' ∧
      RoomAdvances room room') : Advances s t := by
  obtain ⟨-, htargets, hwelcomes⟩ := inbox_of_noWelcome hinv.welcomes.inbox ht hw
  refine ⟨hrooms, ?_, ?_, hnext.ge, ?_, ?_⟩
  · intro r _ room' q stored _ _ _ hstored
    rw [hlog.events]
    exact hstored
  · intro r room q stored _ _ hstored
    rw [hlog.events] at hstored
    exact hstored
  · intro device id _ hget
    exact htargets device id hget
  · intro id w _ hget
    exact hwelcomes id w hget

/-- Deltas that leave rooms and log alone. -/
lemma advances_of_sameRooms (hinv : StoreInv s) (ht : DeltaApplied s d t) (hd : d.events = [])
      (hd' : d.deletedEvents = [])
    (hrooms : d.rooms = []) (hglobal : d.global = none) (hw : d.welcomes = []) : Advances s t := by
  refine advances_of_sameLog hinv ht (sameLog_of_noEvents ht hd hd') hw
    (by rw [ht.global, hglobal]; rfl) ?_
  intro r room hroom
  exact ⟨room, by rw [ht.rooms, hrooms]; exact hroom, RoomAdvances.refl _⟩

/-- A delta without rooms leaves the rooms alone. -/
lemma rooms_of_noRooms (ht : DeltaApplied s d t) (hrooms : d.rooms = []) : t.rooms = s.rooms := by
  refine ext_get? fun r => ?_
  rw [ht.rooms, hrooms]
  rfl

/-- The log invariant depends on the log and the rooms only. -/
lemma LogInv.sameRooms (hinv : LogInv s) (hlog : SameLog s t) (hrooms : t.rooms = s.rooms) :
    LogInv t := by
  refine hinv.sameRanges hlog ?_ ?_
  · intro r room hroom
    rw [hrooms] at hroom
    exact ⟨room, hroom, rfl, rfl, rfl, List.Sublist.refl _⟩
  · intro r room hroom
    exact ⟨room, by rw [hrooms]; exact hroom, rfl, rfl⟩

end Quiet

/-! ## Acknowledging -/

section Acknowledge

variable {r : RoomId} {device : DeviceId} {c c' : DeviceCursor}

/-- An acknowledged cursor is valid. -/
lemma AckOf.cursorOk {head : ℕ} (h : AckOf head c c') (hok : CursorOk head c) :
    CursorOk head c' := by
  have hstart := h.start_eq
  have hle := h.highest_le
  have hstartLe := hok.start_le
  refine ⟨hstart ▸ hok.start_pos, by omega, h.le_head, ?_⟩
  intro w hw
  have hrejoin := h.rejoin_eq
  rw [hw] at hrejoin
  split_ifs at hrejoin with hany
  rw [← hrejoin, any_some, decide_eq_true_eq] at hany
  exact ⟨by omega, (hok.rejoin_ok w hrejoin.symm).2⟩

/-- An acknowledgement sets one cursor and no other. -/
lemma cursors_of_acknowledge
      (ht : DeltaApplied s { cursors := [{ roomId := r, deviceId := device, cursor := c' }] } t)
    (k : RoomId ×ₗ DeviceId) :
    t.deviceCursors.get? k = if toLex (r, device) = k then some c' else s.deviceCursors.get? k := by
  rw [ht.cursors, lastWrite_singleton, touches_nil, if_neg Bool.false_ne_true]
  by_cases hk : toLex (r, device) = k
  · have hkey : WalCursor.key { roomId := r, deviceId := device, cursor := c' } = k := hk
    rw [if_pos hk, if_pos hkey]
    rfl
  · have hkey : WalCursor.key { roomId := r, deviceId := device, cursor := c' } ≠ k := hk
    rw [if_neg hk, if_neg hkey]
    rfl

/-- An acknowledgement keeps the store invariant. -/
lemma storeInv_of_acknowledge (hinv : StoreInv s) (hroom : s.rooms.get? r = some room)
      (hdevice : device ∈ room.requiredDevices)
    (hok : CursorOk room.headSequence c')
    (ht : DeltaApplied s { cursors := [{ roomId := r, deviceId := device, cursor := c' }] } t) :
    StoreInv t := by
  have hcursors := cursors_of_acknowledge ht
  have hrooms : t.rooms = s.rooms := rooms_of_noRooms ht rfl
  have hadv := advances_of_sameRooms hinv ht rfl rfl rfl rfl rfl
  refine ⟨hinv.log.sameRooms (sameLog_of_noEvents ht rfl rfl) hrooms, ⟨?_, ?_⟩,
    welcomeInv_of_noWelcome hinv.welcomes ht rfl hadv (by simp)⟩
  · intro r' room' device' hroom' hdevice'
    rw [hrooms] at hroom'
    rw [hcursors]
    split_ifs
    · exact ⟨_, rfl⟩
    · exact hinv.cursors.cursor_of_required hroom' hdevice'
  · intro r' device' c'' hget
    rw [hcursors] at hget
    rw [hrooms]
    split_ifs at hget with hkey
    · obtain ⟨rfl, rfl⟩ := Prod.mk.inj (toLex.injective hkey)
      cases hget
      exact ⟨room, hroom, hdevice, hok⟩
    · exact hinv.cursors.cursor_ok hget

end Acknowledge

/-! ## Replacing rooms -/

section Replace

variable {g : GlobalRecord} {rooms : List RoomRecord}

/-- The rooms after a replacement. -/
lemma rooms_of_replace (hrooms : ∀ room ∈ rooms, ∃ previous,
      s.rooms.get? room.descriptor.roomId = some previous ∧ ReplaceOk previous room)
    (ht : DeltaApplied s
      { global := some g, rooms, deletedCursors := rooms.flatMap (droppedCursors s) } t) :
    (∀ {r room'}, t.rooms.get? r = some room' → ∃ previous, s.rooms.get? r = some previous ∧
      ReplaceOk previous room' ∧ (room' ∈ rooms ∨ room' = previous)) ∧
    ∀ {r previous}, s.rooms.get? r = some previous → ∃ room', t.rooms.get? r = some room' ∧
    ReplaceOk previous room' := by
  have hkeep : ∀ previous : RoomRecord, ReplaceOk previous previous := fun _ =>
      ⟨rfl, rfl, rfl, rfl, List.Sublist.refl _⟩
  constructor
  · intro r room' hroom'
    rw [ht.rooms, or_eq_some_iff] at hroom'
    rcases hroom' with hwrite | ⟨-, hold⟩
    · obtain ⟨room, hmem, hkey, rfl⟩ := lastWrite_eq_some hwrite
      obtain ⟨previous, hprevious, hok⟩ := hrooms room hmem
      have hr : room.descriptor.roomId = r := hkey
      exact ⟨previous, hr ▸ hprevious, hok, Or.inl hmem⟩
    · exact ⟨room', hold, hkeep room', Or.inr rfl⟩
  · intro r previous hprevious
    rw [ht.rooms]
    cases hwrite : OrdMap.lastWrite roomKey id rooms r with
    | none => exact ⟨previous, by rw [hprevious]; rfl, hkeep previous⟩
    | some room =>
      obtain ⟨room, hmem, hkey, rfl⟩ := lastWrite_eq_some hwrite
      obtain ⟨previous', hprevious', hok⟩ := hrooms room hmem
      have hr : room.descriptor.roomId = r := hkey
      rw [hr, hprevious, some.injEq] at hprevious'
      subst hprevious'
      exact ⟨room, rfl, hok⟩

/-- The cursors after a replacement: those of the devices a room lost are gone. -/
lemma cursors_of_replace
      (ht : DeltaApplied s
      { global := some g, rooms, deletedCursors := rooms.flatMap (droppedCursors s) } t) (r :
    RoomId) (device : DeviceId) :
    ((∃ room ∈ rooms, room.descriptor.roomId = r ∧
      device ∈ removedDevices (requiredOf (s.rooms.get? r)) room) ∧
    t.deviceCursors.get? (toLex (r, device)) = none) ∨
    ((∀ room ∈ rooms, room.descriptor.roomId = r →
      device ∉ removedDevices (requiredOf (s.rooms.get? r)) room) ∧
      t.deviceCursors.get? (toLex (r, device)) = s.deviceCursors.get? (toLex (r, device))) := by
  have hcursors := ht.cursors (toLex (r, device))
  have htouch : OrdMap.touches CursorKey.key (rooms.flatMap (droppedCursors s))
      (toLex (r, device)) = true ↔ ∃ room ∈ rooms, room.descriptor.roomId = r ∧
        device ∈ removedDevices (requiredOf (s.rooms.get? r)) room := by
    rw [touches_iff]
    constructor
    · rintro ⟨key, hkey, heq⟩
      obtain ⟨room, hmem, hdropped⟩ := mem_flatMap.mp hkey
      obtain ⟨d, hd, rfl⟩ := mem_map.mp hdropped
      obtain ⟨hr, rfl⟩ := Prod.mk.inj (toLex.injective heq)
      subst hr
      exact ⟨room, hmem, rfl, hd⟩
    · rintro ⟨room, hmem, rfl, hd⟩
      exact ⟨_, mem_flatMap.mpr ⟨room, hmem, mem_map.mpr ⟨device, hd, rfl⟩⟩, rfl⟩
  by_cases htouched : OrdMap.touches CursorKey.key (rooms.flatMap (droppedCursors s))
      (toLex (r, device)) = true
  · rw [if_pos htouched] at hcursors
    exact Or.inl ⟨htouch.mp htouched, hcursors⟩
  · rw [if_neg htouched] at hcursors
    refine Or.inr ⟨?_, hcursors⟩
    intro room hmem hr hremoved
    exact htouched (htouch.mpr ⟨room, hmem, hr, hremoved⟩)

/-- Replacing rooms keeps the cursor invariant: dropped devices lose their cursors. -/
lemma cursorInv_of_replace (hinv : CursorInv s)
      (hrooms : ∀ room ∈ rooms, ∃ previous, s.rooms.get? room.descriptor.roomId = some previous ∧
      ReplaceOk previous room)
    (hnodup : (rooms.map fun room => room.descriptor.roomId).Nodup)
    (ht : DeltaApplied s
      { global := some g, rooms, deletedCursors := rooms.flatMap (droppedCursors s) } t)
    (hkeyed : ∀ {r room}, s.rooms.get? r = some room → room.descriptor.roomId = r) :
    CursorInv t := by
  obtain ⟨hback, hforth⟩ := rooms_of_replace hrooms ht
  refine ⟨?_, ?_⟩
  · intro r room' device hroom' hdevice
    obtain ⟨previous, hprevious, hok, hmem⟩ := hback hroom'
    rcases cursors_of_replace ht r device with ⟨⟨room, hin, hr, hremoved⟩, -⟩ | ⟨-, hsame⟩
    · -- The dropped device belongs to the one record of this room, which still requires it.
      have hroom : room = room' := by
        rcases hmem with hmem | rfl
        · refine inj_on_of_nodup_map hnodup hin hmem ?_
          rw [hr, hok.descriptor_eq, hkeyed hprevious]
        have hwrite : OrdMap.lastWrite roomKey id rooms (roomKey room) = some room :=
          lastWrite_of_nodup id hnodup hin
        have hkey : r = roomKey room := hr.symm
        rw [ht.rooms, hkey, hwrite] at hroom'
        exact some.inj hroom'
      subst hroom
      exact absurd hdevice (mem_removedDevices.mp hremoved).2
    · rw [hsame]
      exact hinv.cursor_of_required hprevious (hok.required_sublist.subset hdevice)
  · intro r device c hc
    rcases cursors_of_replace ht r device with ⟨-, hnone⟩ | ⟨hnot, hsame⟩
    · rw [hnone] at hc
      cases hc
    rw [hsame] at hc
    obtain ⟨previous, hprevious, hdevice, hok⟩ := hinv.cursor_ok hc
    obtain ⟨room', hroom', hreplace⟩ := hforth hprevious
    refine ⟨room', hroom', ?_, hreplace.head_eq ▸ hok⟩
    obtain ⟨previous', hprevious', -, hmem⟩ := hback hroom'
    rw [hprevious, some.injEq] at hprevious'
    subst hprevious'
    rcases hmem with hmem | rfl
    · by_contra hgone
      have hr : room'.descriptor.roomId = r := by
        rw [hreplace.descriptor_eq]
        exact hkeyed hprevious
      refine hnot room' hmem hr (mem_removedDevices.mpr ⟨?_, hgone⟩)
      exact mem_requiredOf.mpr ⟨previous, hprevious, hdevice⟩
    · exact hdevice

end Replace

/-- A replaced room advances. -/
lemma ReplaceOk.roomAdvances {room : RoomRecord} (h : ReplaceOk previous room) :
    RoomAdvances previous room :=
  ⟨h.descriptor_eq, h.head_eq.ge, h.oldest_eq.ge, (congrArg PublicGroupState.epoch h.state_eq).ge⟩

variable {d : StateDelta}

/-- The state advances by every admissible delta. -/
lemma Admissible.advances (hinv : StoreInv s) (h : Admissible s d) (ht : DeltaApplied s d t) :
    Advances s t := by
  cases h with
  | append h hw => exact advances_of_append ht hinv h hw
  | prune h _ => exact advances_of_prune ht hinv h
  | dropTargets _ => exact advances_of_sameRooms hinv ht rfl rfl rfl rfl rfl
  | replace hnext hrooms _ =>
    refine advances_of_sameLog hinv ht (sameLog_of_noEvents ht rfl rfl) rfl
      (by rw [ht.global]; exact hnext) ?_
    intro r previous hprevious
    obtain ⟨room', hroom', hok⟩ := (rooms_of_replace hrooms ht).2 hprevious
    exact ⟨room', hroom', hok.roomAdvances⟩
  | acknowledge _ _ _ | acknowledgeWelcome _ _ =>
    exact advances_of_sameRooms hinv ht rfl rfl rfl rfl rfl

/-- A delta without cursors leaves the cursors alone. -/
lemma cursors_of_noCursors (ht : DeltaApplied s d t) (hd : d.cursors = [])
    (hd' : d.deletedCursors = []) : t.deviceCursors = s.deviceCursors := by
  refine ext_get? fun k => ?_
  rw [ht.cursors, hd, hd', touches_nil, if_neg Bool.false_ne_true]
  rfl

/-- The cursor invariant depends on the rooms and the cursors only. -/
lemma CursorInv.same (h : CursorInv s) (hrooms : t.rooms = s.rooms)
    (hcursors : t.deviceCursors = s.deviceCursors) : CursorInv t := by
  refine ⟨?_, ?_⟩
  · rw [hrooms, hcursors]
    exact h.cursor_of_required
  · rw [hrooms, hcursors]
    exact h.cursor_ok

/-- An admissible delta keeps the invariant. -/
lemma Admissible.storeInv (hinv : StoreInv s) (h : Admissible s d) (ht : DeltaApplied s d t) :
    StoreInv t := by
  have hadv := h.advances hinv ht
  cases h with
  | append h hw => exact storeInv_of_append ht hinv h hw
  | prune h _ => exact storeInv_of_prune ht hinv h
  | dropTargets _ =>
    have hrooms := rooms_of_noRooms ht rfl
    exact ⟨hinv.log.sameRooms (sameLog_of_noEvents ht rfl rfl) hrooms,
      hinv.cursors.same hrooms (cursors_of_noCursors ht rfl rfl),
      welcomeInv_of_noWelcome hinv.welcomes ht rfl hadv (by simp)⟩
  | replace hnext hrooms hnodup =>
    obtain ⟨hback, hforth⟩ := rooms_of_replace hrooms ht
    refine ⟨hinv.log.sameRanges (sameLog_of_noEvents ht rfl rfl) ?_ ?_,
      cursorInv_of_replace hinv.cursors hrooms hnodup ht fun hr => (hinv.log.room_ok hr).key,
      welcomeInv_of_noWelcome hinv.welcomes ht rfl hadv (by simp)⟩
    · intro r room' hroom'
      obtain ⟨previous, hprevious, hok, -⟩ := hback hroom'
      exact ⟨previous, hprevious, hok.descriptor_eq, hok.head_eq, hok.oldest_eq,
        hok.required_sublist⟩
    · intro r previous hprevious
      obtain ⟨room', hroom', hok⟩ := hforth hprevious
      exact ⟨room', hroom', hok.head_eq, hok.oldest_eq⟩
  | acknowledge hroom hdevice hok => exact storeInv_of_acknowledge hinv hroom hdevice hok ht
  | acknowledgeWelcome hpos hlt =>
    have hrooms := rooms_of_noRooms ht rfl
    have hnext := hadv.next_le
    refine ⟨hinv.log.sameRooms (sameLog_of_noEvents ht rfl rfl) hrooms,
      hinv.cursors.same hrooms (cursors_of_noCursors ht rfl rfl),
      welcomeInv_of_noWelcome hinv.welcomes ht rfl hadv ?_⟩
    intro cursor hcursor
    rw [mem_singleton] at hcursor
    subst hcursor
    exact ⟨hpos, lt_of_lt_of_le hlt hnext⟩

/-- Every delta applies to a state with the invariant. -/
lemma StoreInv.applied (h : StoreInv s) (d : StateDelta) : DeltaApplied s d (applyDelta s d).1 :=
  (h.welcomes.inbox.deltaApplied d).2

/-- An admissible delta keeps the store invariant. -/
lemma Admissible.applyDelta_inv (h : Admissible s d) (hinv : StoreInv s) :
    StoreInv (applyDelta s d).1 :=
  h.storeInv hinv (hinv.applied d)

/-- What a plan prunes fits the cursors. -/
lemma PruneOk.fits {r : RoomId} {last expiry : ℕ} {lagging : List (DeviceId × DeviceCursor)}
    (h : PruneOk s r room last expiry lagging) (hinv : CursorInv s) :
    PruneFits s r room last expiry lagging := by
  refine ⟨h.room_eq, h.oldest_le, h.last_le, h.lagging_nodup, ?_⟩
  intro p hp
  obtain ⟨hcursor, hdevice, hlag⟩ := h.lagging_cursor p hp
  obtain ⟨room', hroom', -, hok⟩ := hinv.cursor_ok hcursor
  rw [h.room_eq, some.injEq] at hroom'
  subst hroom'
  refine ⟨hdevice, hok.start_pos, hok.start_le, hok.highest_le, ?_⟩
  intro w hw
  cases hw
  exact ⟨hlag.le, (h.expiry_le (ne_nil_of_mem hp)).2⟩

/-- A planned delta is admissible. -/
lemma Legal.admissible (hinv : CursorInv s) (h : Legal s d) : Admissible s d := by
  cases h with
  | append h hw => exact Admissible.append h hw
  | prune h ht => exact Admissible.prune (h.fits hinv) ht
  | dropTargets ht => exact Admissible.dropTargets ht
  | replace hnext hrooms hnodup => exact Admissible.replace hnext hrooms hnodup
  | acknowledge hroom hc hack =>
    obtain ⟨room', hroom', hdevice, hok⟩ := hinv.cursor_ok hc
    rw [hroom, some.injEq] at hroom'
    subst hroom'
    exact Admissible.acknowledge hroom hdevice (hack.cursorOk hok)
  | acknowledgeWelcome hpos hlt => exact Admissible.acknowledgeWelcome hpos hlt

/-- The state advances by every planned delta. -/
lemma Legal.advances (hinv : StoreInv s) (h : Legal s d) (ht : DeltaApplied s d t) : Advances s t :=
  (h.admissible hinv.cursors).advances hinv ht

/-- A planned delta keeps the store invariant. -/
lemma Legal.storeInv (hinv : StoreInv s) (h : Legal s d) (ht : DeltaApplied s d t) : StoreInv t :=
  (h.admissible hinv.cursors).storeInv hinv ht

end Chatt
