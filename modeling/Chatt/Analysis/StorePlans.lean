import Chatt.Analysis.StoreStep

/-!
# The store plans legal deltas

One lemma for each planning function of the store: the delta it answers is `Legal` for the
state it was planned on.
-/

namespace Chatt

open Chatt.Lib List OrdMap Option

variable {s : MemoryState}
variable {roomId : RoomId} {d : StateDelta} {nowUnixMs : ℕ}
variable {report : CleanupReport} {deviceId : DeviceId} {global : GlobalRecord}
  {event : MlsDeliveryEvent} {welcome : Option (ℕ × MlsWelcomeBundle)} {room : RoomRecord}
  {batchLimit : ℕ}

/-- Reconciling deletes the cursors of removed devices and adds those of new ones. -/
lemma planCursorReconciliation_eq_ok {previous : List DeviceId} {sequence : ℕ} {d' : StateDelta}
    (h : planCursorReconciliation s roomId previous room sequence d = .ok d') : d' = { d with
      deletedCursors := d.deletedCursors ++ (removedDevices previous room).map
        (fun removed => { deviceId := removed, roomId })
      cursors := d.cursors ++ (addedDevices previous room).map
        (fun added => { roomId, deviceId := added, cursor := freshCursor room sequence }) } := by
  unfold planCursorReconciliation at h
  split_ifs at h
  exact (Except.ok.inj h).symm

/-- The event id and the epoch of a new event are free. -/
lemma ensureEventAvailable_eq_ok (h : ensureEventAvailable s roomId event = .ok ()) :
    (∀ i, event.eventId? = some i → s.eventIds.get? (toLex (roomId, i)) = none) ∧
      ∀ e, event.parentEpoch? = some e → s.commitEpochs.get? (toLex (roomId, e)) = none := by
  unfold ensureEventAvailable at h
  split_ifs at h
  cases event with
  | application sequence epoch eventId rosters ciphertext =>
    simp only at h
    split_ifs at h with hid
    rw [Bool.not_eq_true, contains_eq_false_iff] at hid
    refine ⟨?_, fun e he => (by cases he)⟩
    intro i hi
    cases hi
    exact hid
  | commit sequence parentEpoch epoch rosters bytes =>
    simp only at h
    split_ifs at h with hepoch
    rw [Bool.not_eq_true, contains_eq_false_iff] at hepoch
    refine ⟨fun i hi => (by cases hi), ?_⟩
    intro e he
    cases he
    exact hepoch

/-- An accepted event is planned as one append, under a free id and epoch. -/
lemma planAppendRoomEvent_eq_ok (base : Option RoomRecord)
      (h : planAppendRoomEvent s global (requiredOf base) room event welcome = .ok d) :
    d = appendDelta (some global) base room event room.lastEventTimeUnixMs welcome ∧
      (∀ i, event.eventId? = some i → s.eventIds.get? (toLex (room.descriptor.roomId, i)) = none) ∧
      ∀ e, event.parentEpoch? = some e →
      s.commitEpochs.get? (toLex (room.descriptor.roomId, e)) = none := by
  unfold planAppendRoomEvent at h
  simp only at h
  split at h
  · cases h
  next hevent =>
  split at h
  · cases h
  split at h
  · cases h
  next d' hplan =>
  have hd' := planCursorReconciliation_eq_ok hplan
  refine ⟨?_, ensureEventAvailable_eq_ok hevent⟩
  cases welcome with
  | none | some w =>
    rw [← Except.ok.inj h, hd']
    rfl

/-- `create_room` plans a legal delta. -/
lemma planCreateRoom_legal (h : planCreateRoom s global room event welcome = .ok d)
    (hissued : CreateIssued s global room event welcome) : Legal s d := by
  unfold planCreateRoom at h
  split_ifs at h with hroom
  rw [Bool.not_eq_true, contains_eq_false_iff] at hroom
  obtain ⟨rfl, hid, hepoch⟩ := planAppendRoomEvent_eq_ok none h
  obtain ⟨e, he, hlt⟩ := hissued.epoch_lt
  refine Legal.append ⟨hroom, hissued.required_sorted, hissued.head_eq, ?_, hissued.oldest_eq,
    by simp, hissued.sequence_eq.trans hissued.head_eq.symm, hid, hepoch, ?_, ?_⟩
    hissued.welcome_issued
  · rw [hissued.head_eq]
    decide
  · intro e' he'
    rw [he, some.injEq] at he'
    exact ⟨he' ▸ hlt, by simp⟩
  · intro hnone
    rw [he] at hnone
    cases hnone

/-- `append_commit` plans a legal delta. -/
lemma planAppendCommit_legal {previous : RoomRecord}
      (h : planAppendCommit s global previous room event welcome = .ok d)
    (hissued : CommitIssued s global previous room event welcome) : Legal s d := by
  unfold planAppendCommit at h
  rw [hissued.previous_eq] at h
  simp only at h
  rw [if_neg (by simp)] at h
  obtain ⟨rfl, hid, hepoch⟩ := planAppendRoomEvent_eq_ok (some previous) h
  refine Legal.append ⟨hissued.previous_eq, hissued.required_sorted, hissued.head_eq,
    hissued.head_lt, hissued.oldest_eq, ?_, hissued.sequence_eq, hid, hepoch, ?_, ?_⟩
    hissued.welcome_issued
  · intro previous' hprevious'
    cases hprevious'
    exact hissued.descriptor_eq
  · intro e he
    rw [hissued.epoch_eq, some.injEq] at he
    subst he
    refine ⟨hissued.epoch_lt, ?_⟩
    intro previous' hprevious'
    cases hprevious'
    rfl
  · intro hnone
    rw [hissued.epoch_eq] at hnone
    cases hnone

/-- An unchanged room removes no device. -/
lemma removedDevices_self (room : RoomRecord) : removedDevices room.requiredDevices room = [] := by
  simp [removedDevices]

/-- An unchanged room adds no device. -/
lemma addedDevices_self (room : RoomRecord) : addedDevices room.requiredDevices room = [] := by
  simp [addedDevices]

/-- What a stored application event is: the delta, and the facts the answer reports. -/
structure ApplicationPlanned (s : MemoryState) (roomId : RoomId) (deviceId : DeviceId)
    (expectedEpoch : ℕ) (eventId : EventId) (rosters : List SignedDeviceRoster)
    (ciphertext : Bytes) (nowUnixMs : ℕ) (previous : RoomRecord)
    (result : AppendApplicationResult) (d : StateDelta) : Prop where
  room_eq : s.rooms.get? roomId = some previous
  id_free : s.eventIds.get? (toLex (roomId, eventId)) = none
  not_pending : previous.revocationPending = false
  epoch_eq : previous.publicState.epoch = expectedEpoch
  no_rejoin : (s.deviceCursors.get? (toLex (roomId, deviceId))).any
    (fun cursor => cursor.rejoinRequiredThrough.isSome) = false
  head_lt : previous.headSequence + 1 < u64Max
  result_eq : result = .stored (previous.headSequence + 1)
    { previous with
      headSequence := previous.headSequence + 1
      lastEventTimeUnixMs := max nowUnixMs previous.lastEventTimeUnixMs }
    (.application (previous.headSequence + 1) expectedEpoch eventId rosters ciphertext)
  delta_eq : d =
    { rooms := [{ previous with
        headSequence := previous.headSequence + 1
        lastEventTimeUnixMs := max nowUnixMs previous.lastEventTimeUnixMs }]
      events := [{ roomId, storedAtUnixMs := max nowUnixMs previous.lastEventTimeUnixMs
                   event := .application (previous.headSequence + 1) expectedEpoch eventId
                     rosters ciphertext }] }

variable {rosters : List SignedDeviceRoster} {result : AppendApplicationResult}

/-- An application event that is stored was checked and planned as one append. -/
lemma planAppendApplication_eq_stored {expectedEpoch : ℕ} {eventId : EventId} {ciphertext : Bytes}
    (h : planAppendApplication s roomId deviceId expectedEpoch eventId rosters ciphertext
      nowUnixMs = .ok (result, some d)) :
    ∃ previous, ApplicationPlanned s roomId deviceId expectedEpoch eventId rosters ciphertext
      nowUnixMs previous result d := by
  unfold planAppendApplication at h
  split at h
  · split at h
    · cases h
    · split_ifs at h <;> cases h
  next hid =>
  split_ifs at h with hrejoin
  · cases h
  split at h
  · cases h
  next previous hroom =>
  split_ifs at h with hpending hepoch
  · cases h
  · cases h
  split at h
  · cases h
  next sequence hseq =>
  rw [filter_eq_some_iff, checkedAdd_eq_some, decide_eq_true_eq] at hseq
  obtain ⟨⟨rfl, -⟩, hlt⟩ := hseq
  cases h
  exact ⟨previous, hroom, hid, by simpa using hpending, not_not.mp hepoch, by simpa using hrejoin,
    hlt, rfl, rfl⟩

/-- `append_application` plans a legal delta. -/
lemma ApplicationPlanned.legal {expectedEpoch : ℕ} {eventId : EventId} {ciphertext : Bytes}
      {previous : RoomRecord}
    (h : ApplicationPlanned s roomId deviceId expectedEpoch eventId rosters ciphertext nowUnixMs
      previous result d) (hinv : LogInv s) : Legal s d := by
  have hok := hinv.room_ok h.room_eq
  obtain ⟨rfl⟩ := hok.key
  -- The required devices do not change, so the reconciliation is empty.
  obtain ⟨room, hroom⟩ : ∃ room, room = { previous with
    headSequence := previous.headSequence + 1
    lastEventTimeUnixMs := max nowUnixMs previous.lastEventTimeUnixMs } := ⟨_, rfl⟩
  have hrequired : previous.requiredDevices = room.requiredDevices := by rw [hroom]
  have hdelta : d = appendDelta none (some previous) room
      (.application (previous.headSequence + 1) expectedEpoch eventId rosters ciphertext)
      (max nowUnixMs previous.lastEventTimeUnixMs) none := by
    rw [h.delta_eq, ← hroom]
    simp only [appendDelta, requiredOf, map_some, getD_some, hrequired, removedDevices_self,
      addedDevices_self, map_nil, toList_none]
    rw [hroom]
  rw [hdelta, hroom]
  refine Legal.append ⟨h.room_eq, hok.required_sorted, rfl, h.head_lt, rfl, ?_, rfl, ?_, ?_, ?_, ?_⟩
    (by intro g hg; cases hg)
  · intro previous' hprevious'
    cases hprevious'
    rfl
  · intro i hi
    cases hi
    exact h.id_free
  · intro e he
    cases he
  · intro e he
    cases he
  · intro _
    exact ⟨previous, rfl, rfl⟩

/-- The loop over the rooms collects them and the cursors they drop. -/
lemma planReplaceRooms_eq_ok {rooms : List RoomRecord} {d' : StateDelta}
      (h : planReplaceRooms s d rooms = .ok d')
    (hrooms : ∀ room ∈ rooms, ∃ previous, s.rooms.get? room.descriptor.roomId = some previous ∧
      ReplaceOk previous room) :
    d' = { d with deletedCursors := d.deletedCursors ++ rooms.flatMap (droppedCursors s) } := by
  induction rooms generalizing d with
  | nil =>
    cases h
    simp
  | cons room rest ih =>
    obtain ⟨previous, hprevious, hok⟩ := hrooms room mem_cons_self
    unfold planReplaceRooms at h
    simp only at h
    split at h
    · cases h
    rename_i planned hplan
    have hadded : addedDevices previous.requiredDevices room = [] := by
      rw [eq_nil_iff_forall_not_mem]
      intro device hdevice
      obtain ⟨hin, hnot⟩ := mem_addedDevices.mp hdevice
      exact hnot (hok.required_sublist.subset hin)
    have hplanned := planCursorReconciliation_eq_ok hplan
    rw [hprevious, map_some, getD_some, hadded, map_nil, append_nil] at hplanned
    rw [ih h fun room' hroom' => hrooms room' (mem_cons_of_mem _ hroom'), hplanned,
      flatMap_cons, append_assoc]
    simp only [droppedCursors, hprevious, requiredOf, map_some, getD_some]

/-- `replace_global_and_rooms` plans a legal delta. -/
lemma planReplaceGlobalAndRooms_legal {rooms : List RoomRecord}
      (h : planReplaceGlobalAndRooms s global rooms = .ok d)
    (hissued : ReplaceIssued s global rooms) : Legal s d := by
  rw [planReplaceRooms_eq_ok h hissued.rooms_ok]
  exact Legal.replace hissued.next_eq hissued.rooms_ok hissued.rooms_nodup

/-- What an accepted acknowledgement writes. -/
structure AckPlanned (s : MemoryState) (roomId : RoomId) (deviceId : DeviceId)
    (sequence nowUnixMs : ℕ) (room : RoomRecord) (c : DeviceCursor) (d : StateDelta) : Prop where
  room_eq : s.rooms.get? roomId = some room
  cursor_eq : s.deviceCursors.get? (toLex (roomId, deviceId)) = some c
  le_head : sequence ≤ room.headSequence
  highest_lt : c.highestContiguousSequence < sequence
  delta_eq : d = { cursors := [{ roomId, deviceId, cursor :=
    { c with
      highestContiguousSequence := sequence
      lastAckUnixMs := nowUnixMs
      rejoinRequiredThrough :=
        if c.rejoinRequiredThrough.any (fun watermark => sequence > watermark) then none
        else c.rejoinRequiredThrough } }] }

/-- An accepted acknowledgement moves one cursor on. -/
lemma planAcknowledge_eq_some {sequence : ℕ}
      (h : planAcknowledge s roomId deviceId sequence nowUnixMs = .ok (some d)) :
    ∃ room c, AckPlanned s roomId deviceId sequence nowUnixMs room c d := by
  unfold planAcknowledge at h
  split at h
  · cases h
  next room hroom =>
  split_ifs at h with hhead
  split at h
  · cases h
  next c hcursor =>
  rcases ite_eq_iff.mp h with ⟨-, h⟩ | ⟨-, h⟩
  · cases h
  rcases ite_eq_iff.mp h with ⟨-, h⟩ | ⟨hhigh, h⟩
  · cases h
  · cases h
    exact ⟨room, c, hroom, hcursor, Nat.not_lt.mp hhead, Nat.not_le.mp hhigh, rfl⟩

/-- `acknowledge` plans a legal delta. -/
lemma AckPlanned.legal {sequence : ℕ} {c : DeviceCursor}
    (h : AckPlanned s roomId deviceId sequence nowUnixMs room c d) : Legal s d := by
  rw [h.delta_eq]
  exact Legal.acknowledge h.room_eq h.cursor_eq ⟨rfl, h.highest_lt.le, h.le_head, rfl⟩

/-- Persisting a valid cursor is an acknowledgement that changes nothing. -/
lemma AckOf.refl {head : ℕ} {c : DeviceCursor} (h : CursorOk head c) : AckOf head c c := by
  refine ⟨rfl, le_rfl, h.highest_le, ?_⟩
  split_ifs with hany
  · rw [Option.any_eq_true] at hany
    obtain ⟨w, hw, hlt⟩ := hany
    have := (h.rejoin_ok w hw).1
    rw [decide_eq_true_eq] at hlt
    omega
  · rfl

/-- `persist_acknowledgement` plans a legal delta. -/
lemma planPersistAcknowledgement_legal (h : planPersistAcknowledgement s roomId deviceId = .ok d)
    (hinv : CursorInv s) : Legal s d := by
  unfold planPersistAcknowledgement at h
  split at h
  · cases h
  next c hcursor =>
  cases h
  obtain ⟨room, hroom, -, hok⟩ := hinv.cursor_ok hcursor
  exact Legal.acknowledge hroom hcursor (AckOf.refl hok)

/-- The inbox head of a device is a target it still has, or its cursor. -/
lemma welcomeHeadMemory_cases (s : MemoryState) (device : DeviceId) :
    welcomeHeadMemory s device = (s.welcomeCursors.get? device).getD 0 ∨
    s.deviceWelcomes.get? (toLex (device, welcomeHeadMemory s device)) = some () := by
  unfold welcomeHeadMemory
  cases hlast : (s.deviceWelcomes.range (toLex (device, 0)) (toLex (device, u64Max))).getLast? with
  | none => exact Or.inl (Nat.zero_max _)
  | some target =>
    obtain ⟨k, ⟨⟩⟩ := target
    obtain ⟨⟨device', id⟩, rfl⟩ := toLex.surjective k
    have hmem := mem_of_getLast? hlast
    obtain ⟨rfl, -, -, hget⟩ := mem_row.mp hmem
    simp only [ofLex_toLex]
    rcases le_total id ((s.welcomeCursors.get? device').getD 0) with hle | hle
    · exact Or.inl (max_eq_right hle)
    · exact Or.inr (by rw [max_eq_left hle]; exact hget)

/-- An accepted Welcome acknowledgement is of an id that was handed out. -/
lemma planAcknowledgeWelcome_eq_some {device : DeviceId} {deliveryId : ℕ}
      (h : planAcknowledgeWelcome s device deliveryId = .ok (some d)) (hinv : WelcomeInv s) :
    d = { welcomeCursors := [{ deliveryId, deviceId := device }] } ∧ 0 < deliveryId ∧
    deliveryId < s.global.nextWelcomeDeliveryId := by
  unfold planAcknowledgeWelcome at h
  split_ifs at h with hold hhead
  · cases h
  simp only [Except.ok.injEq, some.injEq] at h
  refine ⟨h.symm, by omega, ?_⟩
  rcases welcomeHeadMemory_cases s device with heq | htarget
  · omega
  · obtain ⟨w, hw, -⟩ := hinv.inbox.welcome_of_target htarget
    have := (hinv.welcome_ok hw).id_lt
    omega

/-- `persist_welcome_acknowledgement` plans a legal delta. -/
lemma planPersistWelcomeAcknowledgement_legal {device : DeviceId}
    (h : planPersistWelcomeAcknowledgement s device = .ok d) (hinv : WelcomeInv s) : Legal s d := by
  unfold planPersistWelcomeAcknowledgement at h
  split at h
  · cases h
  next deliveryId hcursor =>
  cases h
  obtain ⟨hpos, hlt⟩ := hinv.cursor_ok hcursor
  exact Legal.acknowledgeWelcome hpos hlt

/-! ## Cleaning up -/

variable {required : List (DeviceId × DeviceCursor)}

/-- The cursors that pruning reads are those of the required devices. -/
lemma requiredCursors_eq_ok {devices : List DeviceId}
    (h : requiredCursors s roomId devices = .ok required) : required.map Prod.fst = devices ∧
      ∀ p ∈ required, s.deviceCursors.get? (toLex (roomId, p.1)) = some p.2 := by
  induction devices generalizing required with
  | nil =>
    cases h
    simp
  | cons device rest ih =>
    unfold requiredCursors at h
    split at h
    · cases h
    next c hcursor =>
    split at h
    · cases h
    next tail hrest =>
    cases h
    obtain ⟨hfst, hget⟩ := ih hrest
    refine ⟨by rw [map_cons, hfst], ?_⟩
    simp only [mem_cons, forall_eq_or_imp]
    exact ⟨hcursor, hget⟩

/-- The floor is below every required cursor. -/
lemma acknowledgedFloor_le {head : ℕ} {p : DeviceId × DeviceCursor} (hp : p ∈ required) :
    acknowledgedFloor head required ≤ p.2.highestContiguousSequence := by
  have hmem : p.2.highestContiguousSequence ∈ required.map (fun r =>
      r.2.highestContiguousSequence) := mem_map.mpr ⟨p, hp, rfl⟩
  unfold acknowledgedFloor
  cases hmin : (required.map (fun r => r.2.highestContiguousSequence)).min? with
  | none =>
    rw [min?_eq_none_iff] at hmin
    rw [hmin] at hmem
    cases hmem
  | some floor => exact (min?_eq_some_iff.mp hmin).2 _ hmem

/-- The expired prefix ends where it started or at one of the scanned events. -/
lemma expiredThrough_cases (cutoff : ℕ) (l : List ((RoomId ×ₗ ℕ) × StoredEvent)) (start : ℕ) :
    expiredThrough cutoff l start = start ∨ ∃ e ∈ l,
    expiredThrough cutoff l start = e.2.event.sequence := by
  induction l generalizing start with
  | nil => exact Or.inl rfl
  | cons e rest ih =>
    obtain ⟨k, stored⟩ := e
    unfold expiredThrough
    split_ifs
    · exact Or.inl rfl
    · rcases ih stored.event.sequence with heq | ⟨e, he, heq⟩
      · exact Or.inr ⟨_, mem_cons_self, heq⟩
      · exact Or.inr ⟨e, mem_cons_of_mem _ he, heq⟩

/-- The keys to delete are consecutive. -/
lemma planDeleteEvents_eq_ok {sequence count : ℕ} {keys : List EventKey}
      (h : planDeleteEvents s roomId sequence count = .ok keys) :
    keys = (List.range' sequence count).map fun sequence => { sequence, roomId } := by
  induction count generalizing sequence keys with
  | zero =>
    cases h
    rfl
  | succ count ih =>
    unfold planDeleteEvents at h
    split_ifs at h
    split at h
    · cases h
    next tail hrest =>
      cases h
      rw [ih hrest, range'_succ, map_cons]

/-- A room that is pruned is pruned within its bounds. -/
lemma planPruneRoom_eq_some (h : planPruneRoom s roomId nowUnixMs batchLimit =
      .ok (some (report, d))) (hinv : LogInv s) (hbatch : 0 < batchLimit) :
    ∃ room last expiry lagging, PruneOk s roomId room last expiry lagging ∧
    d = pruneDelta roomId room last expiry lagging [] := by
  unfold planPruneRoom at h
  split at h
  · cases h
  next room hroom =>
  have hok := hinv.room_ok hroom
  have hheadLt := hok.head_lt
  split_ifs at h with hempty
  · cases h
  split at h
  · cases h
  next required hrequired =>
  obtain ⟨hfst, hcursor⟩ := requiredCursors_eq_ok hrequired
  simp only at h
  generalize hsafe : acknowledgedFloor room.headSequence required = safe at h
  generalize hexpiry : expiredThrough (nowUnixMs - retentionMs room.retentionDays)
    (s.events.range (toLex (roomId, room.oldestAvailableSequence))
      (toLex (roomId, room.headSequence))) (room.oldestAvailableSequence - 1) = expiry at h
  generalize hthrough : min (max safe expiry) room.headSequence = pruneThrough at h
  rcases ite_eq_iff.mp h with ⟨-, h⟩ | ⟨hnothing, h⟩
  · cases h
  generalize hlast : min pruneThrough
    (saturatingAdd room.oldestAvailableSequence batchLimit - 1) = last at h
  split at h
  · cases h
  next keys hdelete =>
  simp only [Except.ok.injEq, some.injEq, Prod.mk.injEq] at h
  obtain ⟨-, hd⟩ := h
  have hkeys := planDeleteEvents_eq_ok hdelete
  have hexpiryLe : expiry ≤ room.headSequence := by
    rcases expiredThrough_cases (nowUnixMs - retentionMs room.retentionDays)
        (s.events.range (toLex (roomId, room.oldestAvailableSequence))
          (toLex (roomId, room.headSequence)))
        (room.oldestAvailableSequence - 1) with heq | ⟨⟨k, stored⟩, he, heq⟩
    · omega
    · obtain ⟨rfl, -, hle, hget⟩ := mem_row.mp he
      obtain ⟨-, -, -, -, hseq⟩ := hinv.room_of_event hget
      simp only at heq
      omega
  have hsat : room.oldestAvailableSequence < saturatingAdd room.oldestAvailableSequence
      batchLimit := lt_saturatingAdd (by omega) hbatch
  have hlo : room.oldestAvailableSequence ≤ last := by omega
  have hhi : last ≤ room.headSequence := by omega
  have hnext : saturatingAdd last 1 = last + 1 := saturatingAdd_of_le (by omega)
  have hfloor : ∀ p ∈ required, safe ≤ p.2.highestContiguousSequence := by
    intro p hp
    rw [← hsafe]
    exact acknowledgedFloor_le hp
  have hnodup : (required.map Prod.fst).Nodup := by
    rw [hfst]
    exact hok.required_sorted.imp fun hlt => ne_of_lt hlt
  refine ⟨room, last, expiry, if expiry > safe then required.filter (fun r =>
    r.2.highestContiguousSequence < expiry) else [], ⟨hroom, hlo, hhi, ?_, ?_, ?_, ?_⟩, ?_⟩
  · intro p hp
    split_ifs at hp with hlate
    · obtain ⟨hmem, hlag⟩ := mem_filter.mp hp
      refine ⟨hcursor p hmem, ?_, by simpa using hlag⟩
      rw [← hfst]
      exact mem_map.mpr ⟨p, hmem, rfl⟩
    · cases hp
  · split_ifs
    · exact hnodup.sublist (filter_sublist.map _)
    · exact nodup_nil
  · intro hne
    split_ifs at hne with hlate
    · exact ⟨by omega, hexpiryLe⟩
    · exact absurd rfl hne
  · intro device hdevice c hc
    rw [← hfst] at hdevice
    obtain ⟨p, hp, rfl⟩ := mem_map.mp hdevice
    rw [hcursor p hp, some.injEq] at hc
    subst hc
    have hsafeLe := hfloor p hp
    split_ifs with hlate
    · by_cases hlag : p.2.highestContiguousSequence < expiry
      · exact Or.inr (mem_filter.mpr ⟨hp, by simpa using hlag⟩)
      · exact Or.inl (by omega)
    · exact Or.inl (by omega)
  · rw [← hd, hkeys, hnext, pruneDelta]
    split_ifs
    · rfl
    · rfl

/-- The selected room is one with something to prune. -/
lemma selectPruneRoom_eq_some {roomIds : List RoomId}
      (h : selectPruneRoom s nowUnixMs batchLimit roomIds = .ok (some (roomId, report, d))) :
    planPruneRoom s roomId nowUnixMs batchLimit = .ok (some (report, d)) := by
  induction roomIds with
  | nil => cases h
  | cons r rest ih =>
    unfold selectPruneRoom at h
    split at h
    · cases h
    next hplan =>
      cases h
      exact hplan
    · exact ih h

/-- The loop over the targets collects targets that are there. -/
lemma collectWelcomeTargets_present {acc targets : List DeviceWelcomeCheckpoint}
      {keys : List (DeviceId ×ₗ ℕ)} {more : Bool}
    (h : collectWelcomeTargets s nowUnixMs batchLimit acc keys = .ok (more, targets))
    (hacc : TargetsPresent s acc)
    (hkeys : ∀ k ∈ keys, s.deviceWelcomes.get? k = some ()) : TargetsPresent s targets := by
  induction keys generalizing acc with
  | nil =>
    simp only [collectWelcomeTargets, Except.ok.injEq, Prod.mk.injEq] at h
    rw [← h.2]
    exact hacc
  | cons k rest ih =>
    have hrest : ∀ k ∈ rest, s.deviceWelcomes.get? k = some () := fun k hk =>
        hkeys k (mem_cons_of_mem _ hk)
    unfold collectWelcomeTargets at h
    simp only at h
    split at h
    · cases h
    split at h
    · cases h
    rcases ite_eq_iff.mp h with ⟨-, h⟩ | ⟨-, h⟩
    · rcases ite_eq_iff.mp h with ⟨-, h⟩ | ⟨-, h⟩
      · simp only [Except.ok.injEq, Prod.mk.injEq] at h
        rw [← h.2]
        exact hacc
      · refine ih h ?_ hrest
        intro t ht
        rcases mem_append.mp ht with ht | ht
        · exact hacc t ht
        · rw [mem_singleton] at ht
          subst ht
          exact hkeys _ mem_cons_self
    · exact ih h hacc hrest

/-- The targets a cleanup deletes are there. -/
lemma planCleanupWelcomes_present {targets : List DeviceWelcomeCheckpoint} {more : Bool}
    (h : planCleanupWelcomes s nowUnixMs batchLimit = .ok (more, targets)) :
    TargetsPresent s targets := by
  refine collectWelcomeTargets_present h ?_ ?_
  · intro t ht
    cases ht
  · intro k hk
    obtain ⟨_, hget⟩ := mem_keys.mp hk
    exact hget

/-- A cleanup deletes targets, and prunes one room or none. -/
lemma planCleanup_eq_ok {after room : RoomId}
      (h : planCleanup s after nowUnixMs batchLimit = (room, .ok (report, d)))
    (hinv : LogInv s) (hbatch : 0 < batchLimit) : ∃ targets, TargetsPresent s targets ∧
      (d = { deletedWelcomeTargets := targets } ∨
        ∃ r pruned last expiry lagging, PruneOk s r pruned last expiry lagging ∧
        d = pruneDelta r pruned last expiry lagging targets) := by
  unfold planCleanup at h
  split at h
  · cases h
  next roomId report' d' hselect =>
    split at h
    · cases h
    next more targets hwelcomes =>
    cases h
    obtain ⟨pruned, last, expiry, lagging, hok, rfl⟩ :=
      planPruneRoom_eq_some (selectPruneRoom_eq_some hselect) hinv hbatch
    exact ⟨targets, planCleanupWelcomes_present hwelcomes,
      .inr ⟨_, pruned, last, expiry, lagging, hok, rfl⟩⟩
  · split at h
    · cases h
    next more targets hwelcomes =>
      cases h
      exact ⟨targets, planCleanupWelcomes_present hwelcomes, .inl rfl⟩

/-- `cleanup` plans a legal delta. -/
lemma planCleanup_legal {after room : RoomId}
      (h : planCleanup s after nowUnixMs batchLimit = (room, .ok (report, d)))
    (hinv : LogInv s) (hbatch : 0 < batchLimit) : Legal s d := by
  obtain ⟨targets, htargets, rfl | ⟨r, pruned, last, expiry, lagging, hok, rfl⟩⟩ :=
    planCleanup_eq_ok h hinv hbatch
  · exact Legal.dropTargets htargets
  · exact Legal.prune hok htargets

/-- A cleanup that is committed had a batch limit and something to delete. -/
lemma MlsStore.planCleanup_eq_some {store : MlsStore} {after : RoomId}
      (h : store.planCleanup nowUnixMs batchLimit = (after, .ok (some d))) :
    0 < batchLimit ∧
    ∃ report, Chatt.planCleanup store.state store.cleanupAfterRoom nowUnixMs batchLimit =
      (after, .ok (report, d)) := by
  unfold MlsStore.planCleanup at h
  split_ifs at h with hbatch
  · simp at h
  refine ⟨Nat.pos_of_ne_zero hbatch, ?_⟩
  split at h
  · simp at h
  rename_i after' report d' hplan
  split_ifs at h with hempty
  · simp at h
  · obtain ⟨rfl, rfl⟩ := h
    exact ⟨report, hplan⟩

/-- An operation that always plans a delta planned this one. -/
lemma map_some_eq_ok {x : Except String StateDelta} (h : x.map some = .ok (some d)) :
    x = .ok d := by
  cases x with
  | error e => cases h
  | ok d' =>
    cases h
    rfl

/-- An operation that also answers a result planned this delta with some result. -/
lemma map_snd_eq_ok {x : Except String (AppendApplicationResult × Option StateDelta)}
    (h : x.map Prod.snd = .ok (some d)) : ∃ result, x = .ok (result, some d) := by
  cases x with
  | error e => cases h
  | ok p =>
    obtain ⟨result, o⟩ := p
    cases h
    exact ⟨result, rfl⟩

/-- What the operations plan is legal. -/
lemma StoreOp.plan_legal {store : MlsStore} {op : StoreOp} (h : (op.plan store).2 = .ok (some d))
    (hinv : StoreInv store.state) (hissued : op.Issued store.state) : Legal store.state d := by
  cases op with
  | createRoom global room event welcome => exact planCreateRoom_legal (map_some_eq_ok h) hissued
  | appendCommit global previous room event welcome =>
    exact planAppendCommit_legal (map_some_eq_ok h) hissued
  | appendApplication roomId deviceId expectedEpoch eventId rosters ciphertext nowUnixMs =>
    obtain ⟨result, hplan⟩ := map_snd_eq_ok h
    obtain ⟨previous, hplanned⟩ := planAppendApplication_eq_stored hplan
    exact hplanned.legal hinv.log
  | replaceGlobalAndRooms global rooms =>
    exact planReplaceGlobalAndRooms_legal (map_some_eq_ok h) hissued
  | acknowledge roomId deviceId sequence nowUnixMs =>
    obtain ⟨room, c, hplanned⟩ := planAcknowledge_eq_some h
    exact hplanned.legal
  | persistAcknowledgement roomId deviceId =>
    exact planPersistAcknowledgement_legal (map_some_eq_ok h) hinv.cursors
  | acknowledgeWelcome deviceId deliveryId =>
    obtain ⟨rfl, hpos, hlt⟩ := planAcknowledgeWelcome_eq_some h hinv.welcomes
    exact Legal.acknowledgeWelcome hpos hlt
  | persistWelcomeAcknowledgement deviceId =>
    exact planPersistWelcomeAcknowledgement_legal (map_some_eq_ok h) hinv.welcomes
  | cleanup nowUnixMs batchLimit =>
    obtain ⟨hbatch, report, hplan⟩ := MlsStore.planCleanup_eq_some (Prod.ext rfl h)
    exact planCleanup_legal hplan hinv.log hbatch

end Chatt
