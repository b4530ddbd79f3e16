import Chatt.Analysis.ReplayLog

/-!
# Replaying a log over a later state

The records of a log are applied to a checkpoint that already holds the first of them.  The
proof follows the replay record by record: `Replaying d c x` relates the state `x` of the
replay to the state `d` the record was first applied to and to the checkpoint `c`.  Where the
first application reaches the checkpoint, the replay has the checkpoint's deliveries
(`Replaying.finish`); from there on the two run in step (`replay_in_step`).
-/

namespace Chatt

open Chatt.Lib List OrdMap Option

variable {ds log : List StateDelta}
variable {room : RoomRecord}

/-! ## Rooms, the global record and the cursors -/

structure RestReplay (d c x : MemoryState) : Prop where
  global : x.global = c.global ∨ x.global = d.global
  rooms : ∀ r, x.rooms.get? r = c.rooms.get? r ∨ x.rooms.get? r = d.rooms.get? r
  present : ∀ k, (x.deviceCursors.get? k).isSome = (c.deviceCursors.get? k).isSome ∨
    (x.deviceCursors.get? k).isSome = (d.deviceCursors.get? k).isSome
  cursor_ok : ∀ {r device cursor}, x.deviceCursors.get? (toLex (r, device)) = some cursor →
    ∃ room, c.rooms.get? r = some room ∧ CursorOk room.headSequence cursor
  welcome_ok : ∀ {device id}, x.welcomeCursors.get? device = some id → 0 < id ∧
    id < c.global.nextWelcomeDeliveryId

variable {δ : StateDelta} {r : RoomId} {q : ℕ}

/-- What is written is the same in both; what is not written stays where it was. -/
lemma RestReplay.apply {d d' c x x' : MemoryState} (h : RestReplay d c x) (hd : DeltaApplied d δ d')
      (hx : DeltaApplied x δ x')
    (hcursors : ∀ w ∈ δ.cursors, ∃ room, c.rooms.get? w.roomId = some room ∧
      CursorOk room.headSequence w.cursor)
    (hwelcomes : ∀ w ∈ δ.welcomeCursors, 0 < w.deliveryId ∧
      w.deliveryId < c.global.nextWelcomeDeliveryId) :
    RestReplay d' c x' where
  global := by
    rw [hd.global, hx.global]
    cases δ.global with
    | none => exact h.global
    | some g => exact Or.inr rfl
  rooms := by
    intro r
    rw [hd.rooms, hx.rooms]
    cases OrdMap.lastWrite roomKey id δ.rooms r with
    | none => exact h.rooms r
    | some room => exact Or.inr rfl
  present := by
    intro k
    rw [hd.cursors, hx.cursors]
    cases OrdMap.lastWrite WalCursor.key WalCursor.cursor δ.cursors k with
    | some cursor => exact Or.inr rfl
    | none =>
      split_ifs
      · exact Or.inr rfl
      · exact h.present k
  cursor_ok := by
    intro r device cursor hget
    rw [hx.cursors, or_eq_some_iff] at hget
    rcases hget with hwrite | ⟨-, hold⟩
    · obtain ⟨w, hw, hkey, rfl⟩ := lastWrite_eq_some hwrite
      obtain ⟨rfl, rfl⟩ := Prod.mk.inj (toLex.injective hkey)
      exact hcursors w hw
    · split_ifs at hold
      exact h.cursor_ok hold
  welcome_ok := by
    intro device id hget
    rw [hx.welcomeCursors, or_eq_some_iff] at hget
    rcases hget with hwrite | ⟨-, hold⟩
    · obtain ⟨w, hw, -, rfl⟩ := lastWrite_eq_some hwrite
      exact hwelcomes w hw
    · exact h.welcome_ok hold

/-! ## What an admissible delta writes -/

section Writes

variable {s t : MemoryState} {δ : StateDelta}

lemma Admissible.cursors_ok (h : Admissible s δ) (hinv : StoreInv s) (ht : DeltaApplied s δ t) :
    ∀ w ∈ δ.cursors, ∃ room, t.rooms.get? w.roomId = some room ∧
    CursorOk room.headSequence w.cursor := by
  intro w hw
  cases h with
  | @append global base room event storedAt welcome happend _ =>
    have hrooms : RoomSet s t room := roomSet_of_applied ht rfl
    have hhead := happend.head_eq
    obtain ⟨device, -, rfl⟩ := mem_map.mp hw
    refine ⟨room, by rw [hrooms, if_pos rfl], ?_, le_rfl, le_rfl, ?_⟩
    · show 0 < room.headSequence
      omega
    · simp [freshCursor]
  | @prune r room last expiry lagging targets hprune _ =>
    have hkey := (hinv.log.room_ok hprune.room_eq).key
    obtain ⟨p, hp, rfl⟩ := mem_map.mp hw
    have hroom : t.rooms.get? r = some { room with oldestAvailableSequence := last + 1 } := by
      rw [roomSet_of_prune ht, if_pos hkey.symm]
    exact ⟨_, hroom, (hprune.flagged_ok p hp).2⟩
  | dropTargets _ | replace _ _ _ => cases hw
  | @acknowledge r room device c hroom _ hok =>
    rw [mem_singleton] at hw
    subst hw
    exact ⟨room, by rw [rooms_of_noRooms ht rfl]; exact hroom, hok⟩
  | acknowledgeWelcome _ _ => cases hw

lemma Admissible.welcomeCursors_ok (h : Admissible s δ) (hadv : Advances s t) :
    ∀ w ∈ δ.welcomeCursors, 0 < w.deliveryId ∧ w.deliveryId < t.global.nextWelcomeDeliveryId := by
  intro w hw
  cases h with
  | append _ _ | prune _ _ | dropTargets _ | replace _ _ _ | acknowledge _ _ _ => cases hw
  | acknowledgeWelcome hpos hlt =>
    rw [mem_singleton] at hw
    subst hw
    exact ⟨hpos, lt_of_lt_of_le hlt hadv.next_le⟩

/-- An event after the delta was there before, or the delta stores it. -/
lemma Admissible.event_source (h : Admissible s δ) (hinv : LogInv s) (ht : DeltaApplied s δ t)
      {stored : StoredEvent}
    (hget : t.events.get? (toLex (r, q)) = some stored) :
    s.events.get? (toLex (r, q)) = some stored ∨ ∃ e ∈ δ.events, e.roomId = r ∧
    e.event = stored.event := by
  have hquiet : δ.events = [] → δ.deletedEvents = [] →
      s.events.get? (toLex (r, q)) = some stored := by
    intro hevents hdeleted
    rw [← (sameLog_of_noEvents ht hevents hdeleted).events]
    exact hget
  cases h with
  | @append global base room event storedAt welcome happend _ =>
    rw [(log_of_append hinv happend ht).events, get?_insert] at hget
    split_ifs at hget with hkey
    · obtain ⟨rfl, rfl⟩ := Prod.mk.inj (toLex.injective hkey)
      cases hget
      exact Or.inr ⟨_, mem_cons_self, rfl, rfl⟩
    · exact Or.inl hget
  | prune _ _ =>
    rw [events_of_prune ht] at hget
    split_ifs at hget
    exact Or.inl hget
  | dropTargets _ | replace _ _ _ | acknowledge _ _ _ | acknowledgeWelcome _ _ =>
    exact Or.inl (hquiet rfl rfl)

end Writes

/-! ## The log through one record -/

variable {α : Type}

lemma labels_append {global : Option GlobalRecord} {base : Option RoomRecord}
      {event : MlsDeliveryEvent}
    {storedAt : ℕ} {welcome : Option (ℕ × MlsWelcomeBundle)} (label : MlsDeliveryEvent → Option α) :
    (appendDelta global base room event storedAt welcome).labels label =
      ((label event).map fun a => (room.descriptor.roomId, a)).toList := by
  unfold StateDelta.labels appendDelta
  cases hlabel : label event <;> simp [hlabel]

section LogStep

variable {α : Type} [LinearOrder α] {ix : EventIndex α} {labels : List (RoomId × α)}
  {d d' c x x' : MemoryState} {δ : StateDelta}

lemma LogReplay.append {global : Option GlobalRecord} {base : Option RoomRecord}
      {event : MlsDeliveryEvent} {storedAt : ℕ}
    {welcome : Option (ℕ × MlsWelcomeBundle)} (h : LogReplay ix labels d c x) (hinv : LogInv d)
    (happend : AppendOk d base room event)
    (hd : DeltaApplied d (appendDelta global base room event storedAt welcome) d')
    (hx : DeltaApplied x (appendDelta global base room event storedAt welcome) x')
    (hinv' : LogInv d') (hadv : Advances d' c)
    (hstable : ∀ a q, ix.label event = some a →
      (ix.index c).get? (toLex (room.descriptor.roomId, a)) = some q →
      (ix.index d').get? (toLex (room.descriptor.roomId, a)) = some q) :
    LogReplay ix (labels ++ (appendDelta global base room event storedAt welcome).labels ix.label)
      d' c x' := by
  have hrooms : RoomSet d d' room := roomSet_of_applied hd rfl
  have hroom : d'.rooms.get? room.descriptor.roomId = some room := by rw [hrooms, if_pos rfl]
  have hstored : d'.events.get? (toLex (room.descriptor.roomId, event.sequence)) =
      some ⟨event, storedAt, event.payloadLen⟩ := by
    rw [(log_of_append hinv happend hd).events]
    exact get?_insert_self _ _ _
  refine h.insert (event?_eq_none.mpr (happend.fresh hinv)) ?_ ?_ hd.log hx.log
  · intro e he
    obtain ⟨stored, hget, rfl⟩ := event?_eq_some.mp he
    have hold := hadv.event_old hroom happend.sequence_eq.le hget
    rw [hstored, some.injEq] at hold
    rw [← hold]
    rfl
  · intro a ha q hq
    have hentry := (ix.indexOf hinv' _ a event.sequence).mpr ⟨_, hstored, ha⟩
    rw [hstable a q ha hq, some.injEq] at hentry
    exact hentry

lemma LogReplay.prune {r : RoomId} {last expiry : ℕ} {lagging : List (DeviceId × DeviceCursor)}
      {targets : List DeviceWelcomeCheckpoint}
    (h : LogReplay ix labels d c x) (hinv : LogInv d)
    (hprune : PruneFits d r room last expiry lagging)
    (hd : DeltaApplied d (pruneDelta r room last expiry lagging targets) d')
    (hx : DeltaApplied x (pruneDelta r room last expiry lagging targets) x')
    (hinv' : LogInv d') (hadv : Advances d' c) (hc : LogInv c)
    (hstable : ∀ r a q, (r, a) ∈ labels → (ix.index c).get? (toLex (r, a)) = some q →
      (ix.index d').get? (toLex (r, a)) = some q) : LogReplay ix labels d' c x' := by
  have hkey : room.descriptor.roomId = r := (hinv.room_ok hprune.room_eq).key
  have hevents := events_of_prune hd
  have hkeys : ∀ k ∈ (pruneDelta r room last expiry lagging targets).deletedEvents,
      k.roomId = r ∧ room.oldestAvailableSequence ≤ k.sequence ∧ k.sequence ≤ last := by
    intro k hk
    obtain ⟨q, hq, rfl⟩ := mem_map.mp hk
    rw [mem_range'_1] at hq
    have hle : q ≤ last := by omega
    exact ⟨rfl, hq.1, hle⟩
  refine LogReplay.same (h.removeAll _ ?_ ?_) hd.log hx.log
  · -- The checkpoint's retained range starts after the pruned events.
    intro k hk
    obtain ⟨rfl, -, hle⟩ := hkeys k hk
    have hroom : d'.rooms.get? k.roomId = some { room with oldestAvailableSequence :=
        last + 1 } := by
      rw [roomSet_of_prune hd, if_pos hkey.symm]
    obtain ⟨room', hroom', hroomAdv⟩ := hadv.room hroom
    have holdest := hroomAdv.oldest_le
    rw [event?_eq_none, eq_none_iff_forall_ne_some]
    intro stored hstored
    obtain ⟨room'', hroom'', hlo, -, -⟩ := hc.room_of_event hstored
    rw [hroom', some.injEq] at hroom''
    subst hroom''
    simp only at holdest
    omega
  · intro k hk e he a ha hmem
    obtain ⟨rfl, hlo, hle⟩ := hkeys k hk
    obtain ⟨stored, hstored, rfl⟩ := event?_eq_some.mp he
    rw [eq_none_iff_forall_ne_some]
    intro q hq
    -- The label would still point into the log after the pass, to an event that was there
    -- before it: to the pruned one.
    obtain ⟨stored', hstored', ha'⟩ := (ix.indexOf hinv' _ a q).mp (hstable _ a q hmem hq)
    rw [hevents] at hstored'
    split_ifs at hstored' with hpruned
    have hfirst := (ix.indexOf hinv _ a k.sequence).mpr ⟨stored, hstored, ha⟩
    rw [(ix.indexOf hinv _ a q).mpr ⟨stored', hstored', ha'⟩, some.injEq] at hfirst
    subst hfirst
    exact hpruned ⟨rfl, hlo, hle⟩

/-- One record, replayed. -/
lemma LogReplay.apply (h : LogReplay ix labels d c x) (hinv : StoreInv d) (hadm : Admissible d δ)
    (hd : DeltaApplied d δ d') (hx : DeltaApplied x δ x') (hadv : Advances d' c) (hc : StoreInv c)
    (hstable : ∀ r a q, (r, a) ∈ labels ++ δ.labels ix.label →
      (ix.index c).get? (toLex (r, a)) = some q →
      (ix.index d').get? (toLex (r, a)) = some q) :
      LogReplay ix (labels ++ δ.labels ix.label) d' c x' := by
  have hinv' := hadm.storeInv hinv hd
  have hquiet : δ.events = [] → δ.deletedEvents = [] →
      LogReplay ix (labels ++ δ.labels ix.label) d' c x' := by
    intro hevents hdeleted
    have hlabels : δ.labels ix.label = [] := by
      unfold StateDelta.labels
      rw [hevents, filterMap_nil]
    rw [hlabels, append_nil]
    exact h.same (sameLog_of_noEvents hd hevents hdeleted)
      (sameLog_of_noEvents hx hevents hdeleted)
  cases hadm with
  | append happend _ =>
    refine h.append hinv.log happend hd hx hinv'.log hadv ?_
    intro a q ha hq
    refine hstable _ a q (mem_append_right _ ?_) hq
    rw [labels_append, ha]
    simp
  | prune hprune _ =>
    have hlabels := h.prune hinv.log hprune hd hx hinv'.log hadv hc.log
      fun r a q hmem hq => hstable r a q (mem_append_left _ hmem) hq
    show LogReplay ix (labels ++ []) d' c x'
    rw [append_nil]
    exact hlabels
  | dropTargets _ | replace _ _ _ | acknowledge _ _ _ | acknowledgeWelcome _ _ =>
    exact hquiet rfl rfl

end LogStep

/-! ## The inbox through one record -/

lemma InboxReplay.apply {d d' c x x' : MemoryState} (h : InboxReplay d c x) (hinv : StoreInv d)
      (hadm : Admissible d δ)
    (hd : DeltaApplied d δ d') (hx : DeltaApplied x δ x') (hadv : Advances d' c) :
    InboxReplay d' c x' := by
  have hfirst := hadm.advances hinv hd
  -- A deleted target was there, so its id is old and it cannot come back.
  have hdelete : ∀ targets, δ.deletedWelcomeTargets = targets → δ.welcomes = [] →
      TargetsPresent d targets → InboxReplay d' c x' := by
    intro targets htargets hwelcomes hpresent
    have hdi : SameInbox (deleteWelcomeTargets d targets).1 d' := by
      have := hd.inbox
      rwa [inboxAfter, hwelcomes, htargets] at this
    have hxi : SameInbox (deleteWelcomeTargets x targets).1 x' := by
      have := hx.inbox
      rwa [inboxAfter, hwelcomes, htargets] at this
    have hgone : ∀ t ∈ targets, c.deviceWelcomes.get? (toLex (t.deviceId, t.deliveryId)) = none :=
      by
      intro t ht
      obtain ⟨w, hw, -⟩ := hinv.welcomes.inbox.welcome_of_target (hpresent t ht)
      have hid := lt_of_lt_of_le (hinv.welcomes.welcome_ok hw).id_lt hfirst.next_le
      rw [eq_none_iff_forall_ne_some]
      rintro ⟨⟩ hget
      have hold := hadv.target_old hid hget
      rw [hdi.targets, (hinv.welcomes.inbox.deleteTargets targets).2.targets, if_pos ht] at hold
      cases hold
    exact (h.deleteTargets hinv.welcomes.inbox targets hgone).same hdi hxi
  cases hadm with
  | @append global base room event storedAt welcome happend hw =>
    cases welcome with
    | none => exact h.same hd.inbox hx.inbox
    | some w =>
      obtain ⟨id, bundle⟩ := w
      obtain ⟨rfl, ⟨g, hg, hnext⟩, hbundle, -, -⟩ := hw
      have hnext' : d'.global.nextWelcomeDeliveryId = d.global.nextWelcomeDeliveryId + 1 := by
        rw [hd.global]
        rw [hg]
        exact hnext
      have hfree : d.welcome? d.global.nextWelcomeDeliveryId = none := by
        rw [welcome?_eq_none, eq_none_iff_forall_ne_some]
        intro w hget
        exact absurd (hinv.welcomes.welcome_ok hget).id_lt (lt_irrefl _)
      have hdi : SameInbox (insertWelcomeMemory d d.global.nextWelcomeDeliveryId bundle
          room.headSequence storedAt) d' := hd.inbox
      have hxi : SameInbox (insertWelcomeMemory x d.global.nextWelcomeDeliveryId bundle
          room.headSequence storedAt) x' := hx.inbox
      have hstored : WelcomeStored d d.global.nextWelcomeDeliveryId bundle room.headSequence
          storedAt (insertWelcomeMemory d d.global.nextWelcomeDeliveryId bundle room.headSequence
            storedAt) := by
        apply hinv.welcomes.inbox.storeWelcome room.headSequence storedAt hbundle
        rw [welcome?_eq_none.mp hfree]
        rfl
      refine InboxReplay.same (h.storeWelcome hinv.welcomes.inbox hbundle hfree ?_) hdi hxi
      intro content hcontent
      obtain ⟨w, hget, rfl⟩ := welcome?_eq_some.mp hcontent
      have hold := hadv.welcome_old (by omega) hget
      rw [hdi.welcomes, hstored.welcomes, if_pos rfl, some.injEq] at hold
      rw [← hold]
      rfl
  | prune _ ht | dropTargets ht => exact hdelete _ rfl rfl ht
  | replace _ _ _ | acknowledge _ _ _ | acknowledgeWelcome _ _ => exact h.same hd.inbox hx.inbox

/-! ## One record -/

structure Replaying (ids : List (RoomId × EventId)) (epochs : List (RoomId × ℕ))
    (d c x : MemoryState) : Prop where
  ids : LogReplay eventIdIndex ids d c x
  epochs : LogReplay commitEpochIndex epochs d c x
  inbox : InboxReplay d c x
  rest : RestReplay d c x

/-- The labels stored so far point in the checkpoint where they point after this record. -/
def LabelsStable {α : Type} [LinearOrder α] (ix : EventIndex α) (labels : List (RoomId × α))
    (d c : MemoryState) : Prop :=
  ∀ r a q, (r, a) ∈ labels → (ix.index c).get? (toLex (r, a)) = some q →
    (ix.index d).get? (toLex (r, a)) = some q

section Record

variable {ids : List (RoomId × EventId)} {epochs : List (RoomId × ℕ)} {d c x : MemoryState}
  {δ : StateDelta}

/-- A record of the log is replayed. -/
lemma Replaying.keep (h : Replaying ids epochs d c x) (hinv : StoreInv d) (hadm : Admissible d δ)
      (hadv : Advances (applyDelta d δ).1 c)
    (hc : StoreInv c)
    (hids : LabelsStable eventIdIndex (ids ++ δ.labels MlsDeliveryEvent.eventId?)
      (applyDelta d δ).1 c)
    (hepochs : LabelsStable commitEpochIndex (epochs ++ δ.labels MlsDeliveryEvent.parentEpoch?)
      (applyDelta d δ).1 c) :
    (applyDelta x δ).2 = .ok () ∧ Replaying (ids ++ δ.labels MlsDeliveryEvent.eventId?)
    (epochs ++ δ.labels MlsDeliveryEvent.parentEpoch?) (applyDelta d δ).1 c
      (applyDelta x δ).1 := by
  have hd := hinv.applied δ
  obtain ⟨hok, hx⟩ := h.inbox.inbox.deltaApplied δ
  refine ⟨hok, h.ids.apply hinv hadm hd hx hadv hc hids,
    h.epochs.apply hinv hadm hd hx hadv hc hepochs, h.inbox.apply hinv hadm hd hx hadv,
    h.rest.apply hd hx ?_ ?_⟩
  · intro w hw
    obtain ⟨room, hroom, hcursor⟩ := hadm.cursors_ok hinv hd w hw
    obtain ⟨room', hroom', hroomAdv⟩ := hadv.room hroom
    exact ⟨room', hroom', hcursor.mono hroomAdv.head_le⟩
  · intro w hw
    have hwelcome := hadm.welcomeCursors_ok (hadm.advances hinv hd) w hw
    exact ⟨hwelcome.1, lt_of_lt_of_le hwelcome.2 hadv.next_le⟩

/-- What an acknowledgement leaves alone. -/
lemma AckOnly.applied {s t : MemoryState} (hack : δ.AckOnly) (ht : DeltaApplied s δ t) :
    t.global = s.global ∧ t.rooms = s.rooms ∧ SameLog s t ∧ SameInbox s t := by
  rw [hack] at ht
  exact ⟨ht.global, rooms_of_noRooms ht rfl, sameLog_of_noEvents ht rfl rfl, ht.inbox⟩

lemma AckOnly.labels {α : Type} (label : MlsDeliveryEvent → Option α) (hack : δ.AckOnly) :
    δ.labels label = [] := by
  rw [hack]
  rfl

/-- Where rooms agree, the same devices have cursors. -/
lemma CursorInv.present {s t : MemoryState} (hs : CursorInv s) (ht : CursorInv t)
      (hrooms : t.rooms = s.rooms)
    (k : RoomId ×ₗ DeviceId) :
    (t.deviceCursors.get? k).isSome = (s.deviceCursors.get? k).isSome := by
  rw [Bool.eq_iff_iff, isSome_iff_exists, isSome_iff_exists]
  constructor
  · rintro ⟨cursor, hcursor⟩
    obtain ⟨room, hroom, hdevice, -⟩ := ht.cursor_ok hcursor
    exact hs.cursor_of_required (hrooms ▸ hroom) hdevice
  · rintro ⟨cursor, hcursor⟩
    obtain ⟨room, hroom, hdevice, -⟩ := hs.cursor_ok hcursor
    exact ht.cursor_of_required (hrooms.symm ▸ hroom) hdevice

/-- An acknowledgement is missing from the log. -/
lemma Replaying.drop (h : Replaying ids epochs d c x) (hinv : StoreInv d) (hadm : Admissible d δ)
      (hack : δ.AckOnly) :
    Replaying ids epochs (applyDelta d δ).1 c x := by
  have hd := hinv.applied δ
  have hinv' := hadm.storeInv hinv hd
  obtain ⟨hglobal, hrooms, hlog, hinbox⟩ := AckOnly.applied hack hd
  have hstay : SameLog x x := ⟨rfl, rfl, rfl⟩
  refine ⟨h.ids.same hlog hstay, h.epochs.same hlog hstay, h.inbox.same hinbox ⟨rfl, rfl, rfl⟩,
    hglobal ▸ h.rest.global, hrooms ▸ h.rest.rooms, ?_, h.rest.cursor_ok, h.rest.welcome_ok⟩
  intro k
  rw [hinv.cursors.present hinv'.cursors hrooms]
  exact h.rest.present k

end Record

/-! ## Whole histories -/

lemma applyAll_append (s : MemoryState) (ds es : List StateDelta) :
    applyAll s (ds ++ es) = applyAll (applyAll s ds) es := foldl_append

variable {s : MemoryState}

lemma admitted_append {es : List StateDelta} :
    Admitted s (ds ++ es) ↔ Admitted s ds ∧ Admitted (applyAll s ds) es := by
  induction ds generalizing s with
  | nil => simp [Admitted, applyAll]
  | cons δ ds ih =>
    show Admissible s δ ∧ Admitted _ (ds ++ es) ↔ (Admissible s δ ∧ Admitted _ ds) ∧ _
    rw [ih, and_assoc]
    rfl

/-- An admitted history keeps the invariant and only advances. -/
lemma Admitted.run (h : Admitted s ds) (hinv : StoreInv s) :
    StoreInv (applyAll s ds) ∧ Advances s (applyAll s ds) := by
  induction ds generalizing s with
  | nil => exact ⟨hinv, Advances.refl s⟩
  | cons δ ds ih =>
    obtain ⟨hinv', hadv'⟩ := ih h.2 (h.1.applyDelta_inv hinv)
    exact ⟨hinv', (h.1.advances hinv (hinv.applied δ)).trans hadv'⟩

/-- A label that no delta of the history stores points where it pointed before. -/
lemma labels_stable [LinearOrder α] (ix : EventIndex α) (h : Admitted s ds) (hinv : StoreInv s)
      {a : α} (hfree : (r, a) ∉ logLabels ix.label ds)
    (hq : (ix.index (applyAll s ds)).get? (toLex (r, a)) = some q) :
    (ix.index s).get? (toLex (r, a)) = some q := by
  induction ds generalizing s with
  | nil => exact hq
  | cons δ ds ih =>
    have hd := hinv.applied δ
    have hinv' := h.1.storeInv hinv hd
    unfold logLabels at hfree
    rw [flatMap_cons, mem_append, not_or] at hfree
    have hnext := ih h.2 hinv' hfree.2 hq
    obtain ⟨stored, hstored, hlabel⟩ := (ix.indexOf hinv'.log r a q).mp hnext
    apply (ix.indexOf hinv.log r a q).mpr
    rcases h.1.event_source hinv.log hd hstored with hold | ⟨e, he, rfl, hevent⟩
    · exact ⟨stored, hold, hlabel⟩
    · refine absurd (mem_filterMap.mpr ⟨e, he, ?_⟩) hfree.1
      rw [hevent, hlabel]
      rfl

/-- Commits of one room store strictly growing parent epochs. -/
lemma epochs_ge (h : Admitted s ds) (hinv : StoreInv s) {e : ℕ}
      (hmem : (r, e) ∈ logLabels MlsDeliveryEvent.parentEpoch? ds)
    (hroom : s.rooms.get? r = some room) : room.publicState.epoch ≤ e := by
  induction ds generalizing s room with
  | nil => cases hmem
  | cons δ ds ih =>
    have hd := hinv.applied δ
    have hinv' := h.1.storeInv hinv hd
    obtain ⟨room', hroom', hroomAdv⟩ := (h.1.advances hinv hd).room hroom
    unfold logLabels at hmem
    rw [flatMap_cons, mem_append] at hmem
    rcases hmem with hmem | hmem
    · obtain ⟨stored, hstored, hlabel⟩ := mem_filterMap.mp hmem
      obtain ⟨e', he', heq⟩ := map_eq_some_iff.mp hlabel
      obtain ⟨rfl, rfl⟩ := Prod.mk.inj heq
      have hadm := h.1
      cases hadm with
      | append happend _ =>
        rw [mem_singleton.mp hstored] at he' hroom
        obtain ⟨-, hepoch⟩ := happend.epoch_step e' he'
        exact (hepoch room (happend.base_eq.symm.trans hroom)).ge
      | prune _ _ | dropTargets _ | replace _ _ _ | acknowledge _ _ _ | acknowledgeWelcome _ _ =>
        cases hstored
    · exact hroomAdv.epoch_le.trans (ih h.2 hinv' hmem hroom')

lemma epochs_nodup (h : Admitted s ds) (hinv : StoreInv s) :
    (logLabels MlsDeliveryEvent.parentEpoch? ds).Nodup := by
  induction ds generalizing s with
  | nil => exact nodup_nil
  | cons δ ds ih =>
    have hd := hinv.applied δ
    have hinv' := h.1.storeInv hinv hd
    have hrest := ih h.2 hinv'
    have hquiet : δ.events = [] → (logLabels MlsDeliveryEvent.parentEpoch? (δ :: ds)).Nodup := by
      intro hevents
      unfold logLabels StateDelta.labels
      rw [flatMap_cons, hevents, filterMap_nil, nil_append]
      exact hrest
    have hadm := h.1
    cases hadm with
    | @append global base room event storedAt welcome happend _ =>
      have hrooms : RoomSet s _ room := roomSet_of_applied hd rfl
      have hroom : (applyDelta s
          (appendDelta global base room event storedAt welcome)).1.rooms.get?
            room.descriptor.roomId = some room := by
        rw [hrooms, if_pos rfl]
      unfold logLabels
      rw [flatMap_cons, labels_append]
      cases hlabel : event.parentEpoch? with
      | none => exact hrest
      | some e =>
        refine nodup_cons.mpr ⟨?_, hrest⟩
        intro hmem
        have hge := epochs_ge h.2 hinv' hmem hroom
        have hlt := (happend.epoch_step e hlabel).1
        omega
    | prune _ _ | dropTargets _ | replace _ _ _ | acknowledge _ _ _ | acknowledgeWelcome _ _ =>
      exact hquiet rfl

lemma replayAll_cons {x : MemoryState} (h : (applyDelta x δ).2 = .ok ()) :
    replayAll x (δ :: log) = replayAll (applyDelta x δ).1 log := by
  conv_lhs => unfold replayAll
  generalize applyDelta x δ = result at h
  obtain ⟨y, answer⟩ := result
  subst h
  rfl

lemma replayAll_append (x : MemoryState) (log log' : List StateDelta) :
    replayAll x (log ++ log') = replayAll x log >>= fun y => replayAll y log' := by
  induction log generalizing x with
  | nil => rfl
  | cons δ log ih =>
    rw [cons_append, replayAll, replayAll]
    split
    · rfl
    · exact ih _

/-- Labels that are stored once only are stable. -/
lemma labelsStable_of_nodup [LinearOrder α] (ix : EventIndex α) {labels : List (RoomId × α)}
      (h : Admitted s ds) (hinv : StoreInv s)
    (hnodup : (labels ++ logLabels ix.label (δ :: ds)).Nodup) :
    LabelsStable ix (labels ++ δ.labels ix.label) s (applyAll s ds) := by
  intro r a q hmem hq
  refine labels_stable ix h hinv ?_ hq
  intro hlater
  unfold logLabels at hnodup
  rw [flatMap_cons, ← append_assoc] at hnodup
  exact (nodup_append.mp hnodup).2.2 _ hmem _ hlater rfl

/-- The replay of the records the checkpoint already holds. -/
lemma Replaying.run {mid : List StateDelta} (hlog : Logged log mid) {ids : List (RoomId × EventId)}
      {epochs : List (RoomId × ℕ)}
    {d x : MemoryState} (h : Replaying ids epochs d (applyAll d mid) x) (hinv : StoreInv d)
    (hadm : Admitted d mid)
    (hids : (ids ++ logLabels MlsDeliveryEvent.eventId? mid).Nodup)
    (hepochs : (epochs ++ logLabels MlsDeliveryEvent.parentEpoch? mid).Nodup) :
    ∃ y ids' epochs', replayAll x log = .ok y ∧
    Replaying ids' epochs' (applyAll d mid) (applyAll d mid) y := by
  induction hlog generalizing ids epochs d x with
  | nil => exact ⟨x, ids, epochs, rfl, h⟩
  | @keep log mid δ _ ih =>
    have hinv' := hadm.1.applyDelta_inv hinv
    obtain ⟨hc, hadv⟩ := Admitted.run hadm.2 hinv'
    obtain ⟨hok, hkeep⟩ := h.keep hinv hadm.1 hadv hc
      (labelsStable_of_nodup eventIdIndex hadm.2 hinv' hids)
      (labelsStable_of_nodup commitEpochIndex hadm.2 hinv' hepochs)
    rw [replayAll_cons hok]
    refine ih hkeep hinv' hadm.2 ?_ ?_
    · rw [append_assoc]
      exact hids
    · rw [append_assoc]
      exact hepochs
  | @drop log mid δ hack _ ih =>
    have hinv' := hadm.1.applyDelta_inv hinv
    unfold logLabels at hids hepochs
    rw [flatMap_cons, AckOnly.labels _ hack, nil_append] at hids hepochs
    exact ih (h.drop hinv hadm.1 hack) hinv' hadm.2 hids hepochs

/-! ## States with the same deliveries -/

lemma event_of_event? {s t : MemoryState} (h : ∀ r q, t.event? r q = s.event? r q)
      {stored : StoredEvent} (hget : t.events.get? (toLex (r, q)) = some stored) :
    ∃ stored', s.events.get? (toLex (r, q)) = some stored' ∧ stored'.event = stored.event := by
  have hevent := event?_eq_some.mpr ⟨stored, hget, rfl⟩
  rw [h] at hevent
  obtain ⟨stored', hstored', hcontent⟩ := event?_eq_some.mp hevent
  exact ⟨stored', hstored', congrArg Prod.fst hcontent⟩

lemma IndexOf.of_content [LinearOrder α] {label : MlsDeliveryEvent → Option α}
      {index : OrdMap (RoomId ×ₗ α) ℕ} {s t : MemoryState}
    (h : ∀ r q, t.event? r q = s.event? r q) (hindex : IndexOf s.events label index) :
    IndexOf t.events label index := by
  intro r a q
  rw [hindex r a q]
  constructor
  · rintro ⟨stored, hstored, hlabel⟩
    obtain ⟨stored', hstored', hevent⟩ := event_of_event? (fun r q => (h r q).symm) hstored
    exact ⟨stored', hstored', hevent ▸ hlabel⟩
  · rintro ⟨stored, hstored, hlabel⟩
    obtain ⟨stored', hstored', hevent⟩ := event_of_event? h hstored
    exact ⟨stored', hstored', hevent ▸ hlabel⟩

/-- An index is determined by the events. -/
lemma IndexOf.unique [LinearOrder α] {label : MlsDeliveryEvent → Option α}
      {events : OrdMap (RoomId ×ₗ ℕ) StoredEvent}
    {index index' : OrdMap (RoomId ×ₗ α) ℕ} (h : IndexOf events label index)
    (h' : IndexOf events label index') : index' = index := by
  apply ext_get?
  intro k
  obtain ⟨⟨r, a⟩, rfl⟩ := toLex.surjective k
  apply Option.ext
  intro q
  rw [h r a q, h' r a q]

namespace SameDelivery

lemma refl (s : MemoryState) : SameDelivery s s :=
  ⟨rfl, rfl, fun _ _ => rfl, rfl, rfl, fun _ => rfl, rfl, rfl⟩

lemma trans {s t u : MemoryState} (h : SameDelivery s t) (h' : SameDelivery t u) :
    SameDelivery s u :=
  ⟨h'.global.trans h.global, h'.rooms.trans h.rooms, fun r q =>
    (h'.events r q).trans (h.events r q), h'.eventIds.trans h.eventIds,
    h'.commitEpochs.trans h.commitEpochs, fun id => (h'.welcomes id).trans (h.welcomes id),
    h'.targets.trans h.targets, h'.counts.trans h.counts⟩

lemma symm {s t : MemoryState} (h : SameDelivery s t) : SameDelivery t s :=
  ⟨h.global.symm, h.rooms.symm, fun r q => (h.events r q).symm, h.eventIds.symm,
    h.commitEpochs.symm, fun id => (h.welcomes id).symm, h.targets.symm, h.counts.symm⟩

variable {s t : MemoryState}

section

variable (h : SameDelivery s t)

include h

lemma welcome_of_welcome {id : ℕ} {w : StoredWelcome} (hget : t.welcomes.get? id = some w) :
    ∃ w', s.welcomes.get? id = some w' ∧ w'.content = w.content := by
  apply welcome?_eq_some.mp
  rw [← h.welcomes]
  exact welcome?_eq_some.mpr ⟨w, hget, rfl⟩

lemma logInv (hinv : LogInv s) : LogInv t where
  room_ok := by
    rw [h.rooms]
    exact hinv.room_ok
  event_of_room := by
    intro r room q hroom hlo hhi
    rw [h.rooms] at hroom
    obtain ⟨stored, hstored⟩ := hinv.event_of_room hroom hlo hhi
    obtain ⟨stored', hstored', -⟩ := event_of_event? h.symm.events hstored
    exact ⟨stored', hstored'⟩
  room_of_event := by
    intro r q stored hstored
    rw [h.rooms]
    obtain ⟨stored', hstored', hevent⟩ := event_of_event? h.events hstored
    obtain ⟨room, hroom, hlo, hhi, hseq⟩ := hinv.room_of_event hstored'
    exact ⟨room, hroom, hlo, hhi, hevent ▸ hseq⟩
  event_ids := by
    rw [h.eventIds]
    exact IndexOf.of_content h.events hinv.event_ids
  commit_epochs := by
    rw [h.commitEpochs]
    exact IndexOf.of_content h.events hinv.commit_epochs

lemma isRetainedCommit (r : RoomId) (q : ℕ) : isRetainedCommit t r q = isRetainedCommit s r q := by
  unfold Chatt.isRetainedCommit
  cases hs : s.events.get? (toLex (r, q)) with
  | none => rw [event?_eq_none.mp (by rw [h.events, event?_eq_none, hs])]
  | some stored =>
    obtain ⟨stored', hstored', hevent⟩ := event_of_event? h.symm.events hs
    rw [hstored', any_some, any_some, hevent]

lemma inboxOk (hinv : InboxOk s) : InboxOk t where
  welcome_of_target := by
    intro device id hget
    rw [h.targets] at hget
    obtain ⟨w, hw, hdevice⟩ := hinv.welcome_of_target hget
    obtain ⟨w', hw', hcontent⟩ := h.symm.welcome_of_welcome hw
    have hbundle : w'.bundle = w.bundle := congrArg (fun p => p.2.2.2) hcontent
    exact ⟨w', hw', hbundle ▸ hdevice⟩
  target_of_welcome := by
    intro id w hw
    rw [h.targets]
    obtain ⟨w', hw', -⟩ := h.welcome_of_welcome hw
    exact hinv.target_of_welcome hw'
  counts := by
    rw [h.counts, h.targets]
    exact hinv.counts

/-- The invariant carries over, given that of the cursors. -/
lemma storeInv (hinv : StoreInv s) (hcursors : CursorInv t)
    (hwelcomes : ∀ {device id}, t.welcomeCursors.get? device = some id → 0 < id ∧
      id < s.global.nextWelcomeDeliveryId) : StoreInv t where
  log := h.logInv hinv.log
  cursors := hcursors
  welcomes := by
    refine ⟨h.global ▸ hinv.welcomes.next_pos, h.inboxOk hinv.welcomes.inbox, ?_, ?_⟩
    · intro id w hw
      obtain ⟨w', hw', hcontent⟩ := h.welcome_of_welcome hw
      have hok := hinv.welcomes.welcome_ok hw'
      have hkey : w'.deliveryId = w.deliveryId := congrArg Prod.fst hcontent
      have hsequence : w'.sequence = w.sequence := congrArg (fun p => p.2.1) hcontent
      have hbundle : w'.bundle = w.bundle := congrArg (fun p => p.2.2.2) hcontent
      refine ⟨hkey ▸ hok.key, hok.id_pos, h.global ▸ hok.id_lt, hbundle ▸ hok.bundle_ok,
        hsequence ▸ hok.sequence_pos, ?_⟩
      rw [h.rooms, ← hbundle, ← hsequence]
      obtain ⟨room, hroom, hdescriptor, hle, hretained⟩ := hok.room
      refine ⟨room, hroom, hdescriptor, hle, ?_⟩
      rw [h.isRetainedCommit]
      exact hretained
    · intro device id hget
      rw [h.global]
      exact hwelcomes hget

/-- What is admissible does not depend on the cursors. -/
lemma admissible {δ : StateDelta} (hadm : Admissible s δ) : Admissible t δ := by
  have hrooms := h.rooms
  have hglobal := h.global
  have htargets : TargetsPresent s = TargetsPresent t := by
    unfold TargetsPresent
    rw [h.targets]
  cases hadm with
  | @append global base room event storedAt welcome happend hw =>
    refine Admissible.append { happend with
      base_eq := hrooms ▸ happend.base_eq, id_free := h.eventIds ▸ happend.id_free
      epoch_free := h.commitEpochs ▸ happend.epoch_free } ?_
    unfold WelcomeIssued
    rw [hglobal]
    exact hw
  | prune hprune ht =>
    exact Admissible.prune { hprune with room_eq := hrooms ▸ hprune.room_eq } (htargets ▸ ht)
  | dropTargets ht => exact Admissible.dropTargets (htargets ▸ ht)
  | @replace g rooms hnext hreplaced hnodup =>
    have hdropped : droppedCursors s = droppedCursors t := by
      funext room
      unfold droppedCursors
      rw [hrooms]
    rw [hdropped]
    exact Admissible.replace (hglobal ▸ hnext) (hrooms ▸ hreplaced) hnodup
  | acknowledge hroom hdevice hok => exact Admissible.acknowledge (hrooms ▸ hroom) hdevice hok
  | acknowledgeWelcome hpos hlt => exact Admissible.acknowledgeWelcome hpos (hglobal ▸ hlt)

end

end SameDelivery

/-! ## Up to the checkpoint -/

lemma Replaying.start {d c x : MemoryState} (h : SameDelivery c x) (hc : StoreInv c)
    (hx : StoreInv x) : Replaying [] [] d c x := by
  refine ⟨LogReplay.start hc.log h.events h.eventIds,
    LogReplay.start hc.log h.events h.commitEpochs, ⟨hx.welcomes.inbox, ?_⟩, Or.inl h.global,
    ?_, ?_, ?_, ?_⟩
  · intro id
    refine Or.inl ⟨h.welcomes id, ?_⟩
    rw [h.targets]
    exact fun device => rfl
  · intro r
    rw [h.rooms]
    exact Or.inl rfl
  · intro k
    exact Or.inl (hc.cursors.present hx.cursors h.rooms k)
  · intro r device cursor hget
    obtain ⟨room, hroom, -, hok⟩ := hx.cursors.cursor_ok hget
    exact ⟨room, h.rooms ▸ hroom, hok⟩
  · intro device id hget
    rw [← h.global]
    exact hx.welcomes.cursor_ok hget

/-- At the checkpoint the replay has its deliveries. -/
lemma Replaying.finish {ids : List (RoomId × EventId)} {epochs : List (RoomId × ℕ)}
      {c x : MemoryState}
    (h : Replaying ids epochs c c x) (hc : StoreInv c) : SameDelivery c x ∧ StoreInv x := by
  obtain ⟨hevents, hids⟩ := h.ids.finish hc.log
  obtain ⟨-, hepochs⟩ := h.epochs.finish hc.log
  obtain ⟨hwelcomes, htargets, hcounts⟩ := h.inbox.finish hc.welcomes.inbox
  have hrooms : x.rooms = c.rooms := ext_get? fun r => or_self_iff.mp (h.rest.rooms r)
  have hsame : SameDelivery c x := ⟨or_self_iff.mp h.rest.global, hrooms, hevents, hids, hepochs,
      hwelcomes, htargets, hcounts⟩
  have hpresent := fun k => or_self_iff.mp (h.rest.present k)
  refine ⟨hsame, hsame.storeInv hc ⟨?_, ?_⟩ h.rest.welcome_ok⟩
  · intro r room device hroom hdevice
    rw [hrooms] at hroom
    obtain ⟨cursor, hcursor⟩ := hc.cursors.cursor_of_required hroom hdevice
    have hsome := hpresent (toLex (r, device))
    rw [hcursor] at hsome
    exact isSome_iff_exists.mp hsome
  · intro r device cursor hget
    rw [hrooms]
    obtain ⟨room, hroom, hok⟩ := h.rest.cursor_ok hget
    have hsome := hpresent (toLex (r, device))
    rw [hget] at hsome
    obtain ⟨cursor', hcursor'⟩ := isSome_iff_exists.mp hsome.symm
    obtain ⟨room', hroom', hdevice, -⟩ := hc.cursors.cursor_ok hcursor'
    rw [hroom, some.injEq] at hroom'
    subst hroom'
    exact ⟨room, hroom, hdevice, hok⟩

/-! ## From the checkpoint on -/

/-- The events of a log depend on the events it started from only. -/
lemma event?_logAfter {s t : MemoryState} (h : ∀ r q, t.event? r q = s.event? r q)
      (δ : StateDelta) (r : RoomId)
    (q : ℕ) : (logAfter t δ).event? r q = (logAfter s δ).event? r q := by
  let Same (s t : MemoryState) : Prop := ∀ r q, s.event? r q = t.event? r q
  refine foldl_rel (r := Same) (foldl_rel (r := Same) h ?_) ?_ r q
  · intro key _ t s hst r q
    rw [event?_removeEventMemory, event?_removeEventMemory, hst]
  · intro e _ t s hst r q
    rw [event?_insertEventMemory, event?_insertEventMemory, hst]

/-- An admissible delta gives states with the same deliveries the same deliveries. -/
lemma SameDelivery.apply {s t : MemoryState} (h : SameDelivery s t) (hs : StoreInv s)
      (ht : StoreInv t)
    (hadm : Admissible s δ) : SameDelivery (applyDelta s δ).1 (applyDelta t δ).1 := by
  have hds := hs.applied δ
  have hdt := ht.applied δ
  have hs' := hadm.storeInv hs hds
  have ht' := (h.admissible hadm).storeInv ht hdt
  have hevents : ∀ r q, (applyDelta t δ).1.event? r q = (applyDelta s δ).1.event? r q := by
    intro r q
    rw [hdt.log.event?, hds.log.event?]
    exact event?_logAfter h.events δ r q
  have hinbox : InboxReplay s (applyDelta s δ).1 t :=
    ⟨ht.welcomes.inbox, fun id => Or.inr ⟨h.welcomes id, fun device => by rw [h.targets]⟩⟩
  obtain ⟨hwelcomes, htargets, hcounts⟩ := (hinbox.apply hs hadm hds hdt (Advances.refl _)).finish
    hs'.welcomes.inbox
  have hindex : ∀ {α : Type} [LinearOrder α] (ix : EventIndex α),
      ix.index (applyDelta t δ).1 = ix.index (applyDelta s δ).1 := fun ix =>
    IndexOf.unique (IndexOf.of_content hevents (ix.indexOf hs'.log)) (ix.indexOf ht'.log)
  refine ⟨?_, ?_, hevents, hindex eventIdIndex, hindex commitEpochIndex, hwelcomes,
    htargets, hcounts⟩
  · rw [hdt.global, hds.global, h.global]
  · apply ext_get?
    intro r
    rw [hdt.rooms, hds.rooms, h.rooms]

/-- An acknowledgement changes no delivery. -/
lemma SameDelivery.acked (hs : StoreInv s) (hack : δ.AckOnly) :
    SameDelivery s (applyDelta s δ).1 := by
  obtain ⟨hglobal, hrooms, hlog, hinbox⟩ := AckOnly.applied hack (hs.applied δ)
  refine ⟨hglobal, hrooms, hlog.event?, hlog.eventIds, hlog.commitEpochs, ?_, hinbox.targets,
    hinbox.counts⟩
  exact fun id => (hinbox.inboxAt id).welcome

/-- From states with the same deliveries, a history and its log run in step. -/
lemma replay_in_step {history : List StateDelta} (hlog : Logged log history) {s x : MemoryState}
      (h : SameDelivery s x) (hs : StoreInv s)
    (hx : StoreInv x) (hadm : Admitted s history) :
    ∃ y, replayAll x log = .ok y ∧ SameDelivery (applyAll s history) y ∧ StoreInv y := by
  induction hlog generalizing s x with
  | nil => exact ⟨x, rfl, h, hx⟩
  | @keep log history δ _ ih =>
    rw [replayAll_cons (hx.welcomes.inbox.deltaApplied δ).1]
    exact ih (h.apply hs hx hadm.1) (hadm.1.applyDelta_inv hs)
      ((h.admissible hadm.1).applyDelta_inv hx) hadm.2
  | @drop log history δ hack _ ih =>
    exact ih ((SameDelivery.acked hs hack).symm.trans h) (hadm.1.applyDelta_inv hs) hx hadm.2

/-! ## The whole log -/

/-- A log of two histories is a log of the one and a log of the other. -/
lemma Logged.split {mid post : List StateDelta} (h : Logged log (mid ++ post)) :
    ∃ covered later, log = covered ++ later ∧ Logged covered mid ∧ Logged later post := by
  induction mid generalizing log with
  | nil => exact ⟨[], log, rfl, Logged.nil, h⟩
  | cons δ mid ih =>
    cases h with
    | keep h =>
      obtain ⟨covered, later, rfl, hcovered, hlater⟩ := ih h
      exact ⟨δ :: covered, later, rfl, Logged.keep hcovered, hlater⟩
    | drop hack h =>
      obtain ⟨covered, later, rfl, hcovered, hlater⟩ := ih h
      exact ⟨covered, later, rfl, Logged.drop hack hcovered, hlater⟩

/-- Replaying the log of a history over a checkpoint taken inside it gives the deliveries at
its end, if no event id is stored twice before the checkpoint. -/
lemma replay_recovers {s x : MemoryState} {mid post : List StateDelta}
      (hlog : Logged log (mid ++ post)) (hs : StoreInv s)
    (hadm : Admitted s (mid ++ post)) (hids : (logLabels MlsDeliveryEvent.eventId? mid).Nodup)
    (h : SameDelivery (applyAll s mid) x)
    (hx : StoreInv x) :
    ∃ y, replayAll x log = .ok y ∧ SameDelivery (applyAll s (mid ++ post)) y ∧ StoreInv y := by
  obtain ⟨covered, later, rfl, hcovered, hlater⟩ := hlog.split
  obtain ⟨hmid, hpost⟩ := admitted_append.mp hadm
  obtain ⟨hc, -⟩ := Admitted.run hmid hs
  obtain ⟨y, ids, epochs, hy, hreplaying⟩ := Replaying.run hcovered (Replaying.start h hc hx) hs
    hmid hids (epochs_nodup hmid hs)
  obtain ⟨hsame, hinv⟩ := hreplaying.finish hc
  rw [replayAll_append, hy, applyAll_append]
  exact replay_in_step hlater hsame hc hinv hpost

end Chatt
