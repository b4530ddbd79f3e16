import Chatt.Analysis.ValidateMemory

/-!
# What a delta does

The effect of each function of `applyDelta`, field by field.  `LogFrame` and `InboxFrame`
say what the functions on the delivery log and on the Welcome inbox leave alone; the index
lemmas say that removals and insertions keep an index the inverse of the events.
-/

namespace Chatt

open Chatt.Lib OrdMap Option

variable {s t : MemoryState}

/-! ## Frames -/

/-- `t` agrees with `s` on everything but the delivery log. -/
structure LogFrame (s t : MemoryState) : Prop where
  global : t.global = s.global
  rooms : t.rooms = s.rooms
  deviceCursors : t.deviceCursors = s.deviceCursors
  welcomes : t.welcomes = s.welcomes
  welcomeTargetCounts : t.welcomeTargetCounts = s.welcomeTargetCounts
  deviceWelcomes : t.deviceWelcomes = s.deviceWelcomes
  welcomeCursors : t.welcomeCursors = s.welcomeCursors

/-- `t` agrees with `s` on everything but the Welcome inbox. -/
structure InboxFrame (s t : MemoryState) : Prop where
  global : t.global = s.global
  rooms : t.rooms = s.rooms
  events : t.events = s.events
  eventIds : t.eventIds = s.eventIds
  commitEpochs : t.commitEpochs = s.commitEpochs
  deviceCursors : t.deviceCursors = s.deviceCursors
  welcomeCursors : t.welcomeCursors = s.welcomeCursors

lemma LogFrame.refl (s : MemoryState) : LogFrame s s := ⟨rfl, rfl, rfl, rfl, rfl, rfl, rfl⟩

lemma LogFrame.trans {u : MemoryState} (h : LogFrame s t) (h' : LogFrame t u) : LogFrame s u :=
  ⟨h'.1.trans h.1, h'.2.trans h.2, h'.3.trans h.3, h'.4.trans h.4, h'.5.trans h.5, h'.6.trans h.6,
    h'.7.trans h.7⟩

lemma InboxFrame.refl (s : MemoryState) : InboxFrame s s := ⟨rfl, rfl, rfl, rfl, rfl, rfl, rfl⟩

lemma InboxFrame.trans {u : MemoryState} (h : InboxFrame s t) (h' : InboxFrame t u) :
    InboxFrame s u :=
  ⟨h'.1.trans h.1, h'.2.trans h.2, h'.3.trans h.3, h'.4.trans h.4, h'.5.trans h.5, h'.6.trans h.6,
    h'.7.trans h.7⟩

/-! ## Index entries -/

section Index

variable {α : Type} [LinearOrder α] {events : OrdMap (RoomId ×ₗ ℕ) StoredEvent}
  {label : MlsDeliveryEvent → Option α} {index : OrdMap (RoomId ×ₗ α) ℕ}

/-- Drops the index entry of a removed event. -/
def eraseLabel (index : OrdMap (RoomId ×ₗ α) ℕ) (r : RoomId) : Option α → OrdMap (RoomId ×ₗ α) ℕ
  | none => index
  | some a => index.erase (toLex (r, a))

/-- Adds the index entry of an inserted event. -/
def insertLabel (index : OrdMap (RoomId ×ₗ α) ℕ) (r : RoomId) (q : ℕ) :
    Option α → OrdMap (RoomId ×ₗ α) ℕ
  | none => index
  | some a => index.insert (toLex (r, a)) q

lemma get?_eraseLabel (r r' : RoomId) (o : Option α) (a : α) :
    (eraseLabel index r o).get? (toLex (r', a)) = if r' = r ∧ o = some a then none
    else index.get? (toLex (r', a)) := by
  cases o with
  | none => simp [eraseLabel]
  | some b =>
    rw [eraseLabel, get?_erase]
    simp only [toLex_inj, Prod.mk.injEq, some.injEq, eq_comm (a := b)]

lemma get?_insertLabel (r r' : RoomId) (q : ℕ) (o : Option α) (a : α) :
    (insertLabel index r q o).get? (toLex (r', a)) = if r' = r ∧ o = some a then some q
    else index.get? (toLex (r', a)) := by
  cases o with
  | none => simp [insertLabel]
  | some b =>
    rw [insertLabel, get?_insert]
    simp only [toLex_inj, Prod.mk.injEq, some.injEq, eq_comm (a := b)]

/-- Removing an event with its index entry keeps the index the inverse of the events. -/
lemma IndexOf.remove (h : IndexOf events label index) (r : RoomId) (q : ℕ) :
    IndexOf (events.erase (toLex (r, q))) label
      (eraseLabel index r ((events.get? (toLex (r, q))).bind fun stored =>
      label stored.event)) := by
  intro r' a q'
  rw [get?_eraseLabel]
  constructor
  · intro hget
    split_ifs at hget with hremoved
    obtain ⟨stored, hstored, hlabel⟩ := (h r' a q').mp hget
    have hne : toLex (r', q') ≠ toLex (r, q) := by
      intro heq
      obtain ⟨rfl, rfl⟩ := Prod.mk.inj (toLex.injective heq)
      exact hremoved ⟨rfl, by rw [hstored]; exact hlabel⟩
    exact ⟨stored, by rw [get?_erase_ne _ hne]; exact hstored, hlabel⟩
  · rintro ⟨stored, hstored, hlabel⟩
    obtain ⟨hkey, hstored⟩ := get?_erase_eq_some.mp hstored
    have hget := (h r' a q').mpr ⟨stored, hstored, hlabel⟩
    rw [if_neg, hget]
    rintro ⟨rfl, hbind⟩
    obtain ⟨removed, hremoved, hlabel'⟩ := bind_eq_some_iff.mp hbind
    have hq := (h r' a q).mpr ⟨removed, hremoved, hlabel'⟩
    rw [hget, some.injEq] at hq
    exact hkey (by rw [hq])

/-- Inserting an event at a free key with its index entry, which is free as well. -/
lemma IndexOf.insert (h : IndexOf events label index) {r : RoomId} {q : ℕ} {stored : StoredEvent}
    (hfresh : events.get? (toLex (r, q)) = none)
    (hfree : ∀ a, label stored.event = some a → index.get? (toLex (r, a)) = none) :
    IndexOf (events.insert (toLex (r, q)) stored) label
      (insertLabel index r q (label stored.event)) := by
  intro r' a q'
  rw [get?_insertLabel]
  constructor
  · intro hget
    split_ifs at hget with hnew
    · obtain ⟨rfl, hlabel⟩ := hnew
      cases hget
      exact ⟨stored, get?_insert_self _ _ _, hlabel⟩
    · obtain ⟨stored', hstored', hlabel'⟩ := (h r' a q').mp hget
      have hne : toLex (r', q') ≠ toLex (r, q) := by
        intro heq
        rw [heq, hfresh] at hstored'
        cases hstored'
      exact ⟨stored', by rw [get?_insert_ne _ _ hne]; exact hstored', hlabel'⟩
  · rintro ⟨stored', hstored', hlabel'⟩
    rw [get?_insert] at hstored'
    split_ifs at hstored' with hkey
    · obtain ⟨rfl, rfl⟩ := Prod.mk.inj (toLex.injective hkey)
      cases hstored'
      rw [if_pos ⟨rfl, hlabel'⟩]
    · have hget := (h r' a q').mpr ⟨stored', hstored', hlabel'⟩
      rw [if_neg, hget]
      rintro ⟨rfl, hlabel⟩
      rw [hfree a hlabel] at hget
      cases hget

end Index

/-! ## Removing and inserting events -/

lemma removeEventMemory_logFrame (s : MemoryState) (r : RoomId) (q : ℕ) :
    LogFrame s (removeEventMemory s r q) := by
  unfold removeEventMemory
  cases hget : s.events.get? (toLex (r, q)) with
  | none => exact LogFrame.refl s
  | some stored =>
    obtain ⟨event, storedAt, len⟩ := stored
    cases event <;> exact ⟨rfl, rfl, rfl, rfl, rfl, rfl, rfl⟩

lemma removeEventMemory_events (s : MemoryState) (r : RoomId) (q : ℕ) :
    (removeEventMemory s r q).events = s.events.erase (toLex (r, q)) := by
  unfold removeEventMemory
  cases hget : s.events.get? (toLex (r, q)) with
  | none => exact (erase_eq_self hget).symm
  | some stored =>
    obtain ⟨event, storedAt, len⟩ := stored
    cases event <;> rfl

lemma removeEventMemory_indexes (s : MemoryState) (r : RoomId) (q : ℕ) :
    (removeEventMemory s r q).eventIds = eraseLabel s.eventIds r
      ((s.events.get? (toLex (r, q))).bind fun stored => stored.event.eventId?) ∧
      (removeEventMemory s r q).commitEpochs =
        eraseLabel s.commitEpochs r ((s.events.get? (toLex (r, q))).bind fun stored =>
        stored.event.parentEpoch?) := by
  unfold removeEventMemory
  cases hget : s.events.get? (toLex (r, q)) with
  | none => exact ⟨rfl, rfl⟩
  | some stored =>
    obtain ⟨event, storedAt, len⟩ := stored
    cases event <;> exact ⟨rfl, rfl⟩

lemma insertEventMemory_logFrame (s : MemoryState) (r : RoomId) (event : MlsDeliveryEvent)
    (storedAt : ℕ) : LogFrame s (insertEventMemory s r event storedAt) := by
  unfold insertEventMemory
  simp only
  split_ifs
  · exact LogFrame.refl s
  · have h := removeEventMemory_logFrame s r event.sequence
    cases event <;> exact ⟨h.1, h.2, h.3, h.4, h.5, h.6, h.7⟩

/-- The event is already stored as it is. -/
def alreadyStored (s : MemoryState) (r : RoomId) (event : MlsDeliveryEvent) (storedAt : ℕ) : Bool :=
  (s.events.get? (toLex (r, event.sequence))).any fun stored => stored.event = event ∧
    stored.storedAtUnixMs = storedAt

lemma insertEventMemory_of_alreadyStored {r : RoomId} {event : MlsDeliveryEvent} {storedAt : ℕ}
    (h : alreadyStored s r event storedAt = true) : insertEventMemory s r event storedAt = s := by
  exact if_pos h

/-- Any other insertion clears the key and adds the event and its index entry. -/
lemma insertEventMemory_of_not_alreadyStored {r : RoomId} {event : MlsDeliveryEvent} {storedAt : ℕ}
      (h : alreadyStored s r event storedAt = false) :
    insertEventMemory s r event storedAt = { removeEventMemory s r event.sequence with
      events := (removeEventMemory s r event.sequence).events.insert
        (toLex (r, event.sequence)) ⟨event, storedAt, event.payloadLen⟩
      eventIds := insertLabel (removeEventMemory s r event.sequence).eventIds r event.sequence
        event.eventId?
      commitEpochs := insertLabel (removeEventMemory s r event.sequence).commitEpochs r
        event.sequence event.parentEpoch? } := by
  unfold alreadyStored at h
  unfold insertEventMemory
  simp only [h, Bool.false_eq_true, if_false]
  cases event <;> rfl

/-- At a free key an insertion only adds. -/
lemma insertEventMemory_of_fresh {r : RoomId} {event : MlsDeliveryEvent} (storedAt : ℕ)
      (h : s.events.get? (toLex (r, event.sequence)) = none) :
    insertEventMemory s r event storedAt = { s with
      events := s.events.insert (toLex (r, event.sequence)) ⟨event, storedAt, event.payloadLen⟩
      eventIds := insertLabel s.eventIds r event.sequence event.eventId?
      commitEpochs := insertLabel s.commitEpochs r event.sequence event.parentEpoch? } := by
  have hnot : alreadyStored s r event storedAt = false := by
    rw [alreadyStored, h]
    rfl
  have hremove : removeEventMemory s r event.sequence = s := by
    unfold removeEventMemory
    rw [h]
  rw [insertEventMemory_of_not_alreadyStored hnot, hremove]

/-- The two states hold the same delivery log. -/
structure SameLog (s t : MemoryState) : Prop where
  events : t.events = s.events
  eventIds : t.eventIds = s.eventIds
  commitEpochs : t.commitEpochs = s.commitEpochs

lemma SameLog.insertEvent (h : SameLog s t) (r : RoomId) (event : MlsDeliveryEvent) (storedAt : ℕ) :
    SameLog (insertEventMemory s r event storedAt) (insertEventMemory t r event storedAt) := by
  have hsame : alreadyStored t r event storedAt = alreadyStored s r event storedAt := by
    unfold alreadyStored
    rw [h.events]
  cases hstored : alreadyStored s r event storedAt with
  | true =>
    rw [insertEventMemory_of_alreadyStored hstored,
      insertEventMemory_of_alreadyStored (hsame.trans hstored)]
    exact h
  | false =>
    rw [insertEventMemory_of_not_alreadyStored hstored,
      insertEventMemory_of_not_alreadyStored (hsame.trans hstored)]
    refine ⟨?_, ?_, ?_⟩
    · simp only [removeEventMemory_events, h.events]
    · simp only [removeEventMemory_indexes, h.events, h.eventIds]
    · simp only [removeEventMemory_indexes, h.events, h.commitEpochs]

/-! ## Welcome targets -/

lemma targetCount_erase (targets : OrdSet (DeviceId ×ₗ ℕ)) (device : DeviceId) (deliveryId id : ℕ) :
    targetCount (targets.erase (toLex (device, deliveryId))) id = if deliveryId = id ∧
    targets.contains (toLex (device, deliveryId)) = true
      then targetCount targets id - 1 else targetCount targets id :=
  card_filter_keySet_erase targets (toLex (device, deliveryId)) _

lemma deleteWelcomeTarget_inboxFrame (s : MemoryState) (target : DeviceWelcomeCheckpoint) :
    InboxFrame s (deleteWelcomeTarget s target).1 := by
  unfold deleteWelcomeTarget
  simp only
  split_ifs
  · exact InboxFrame.refl s
  cases hcount : s.welcomeTargetCounts.get? target.deliveryId with
  | none => exact ⟨rfl, rfl, rfl, rfl, rfl, rfl, rfl⟩
  | some count =>
    simp only
    split_ifs
    · cases s.welcomes.get? target.deliveryId <;> exact ⟨rfl, rfl, rfl, rfl, rfl, rfl, rfl⟩
    · exact ⟨rfl, rfl, rfl, rfl, rfl, rfl, rfl⟩

/-- Deleting targets touches the inbox only, also where it fails. -/
lemma deleteWelcomeTargets_inboxFrame (s : MemoryState) (targets : List DeviceWelcomeCheckpoint) :
    InboxFrame s (deleteWelcomeTargets s targets).1 := by
  induction targets generalizing s with
  | nil => exact InboxFrame.refl s
  | cons target rest ih =>
    have hframe := deleteWelcomeTarget_inboxFrame s target
    unfold deleteWelcomeTargets
    generalize deleteWelcomeTarget s target = result at hframe
    obtain ⟨t, error | ⟨⟩⟩ := result
    · exact hframe
    · exact hframe.trans (ih t)

/-- What deleting one target does to a consistent inbox. -/
structure TargetDeleted (s : MemoryState) (target : DeviceWelcomeCheckpoint)
    (t : MemoryState) : Prop where
  targets : t.deviceWelcomes = s.deviceWelcomes.erase (toLex (target.deviceId, target.deliveryId))
  welcomes : ∀ {id w}, t.welcomes.get? id = some w → s.welcomes.get? id = some w
  inbox : InboxOk t

lemma InboxOk.deleteTarget (h : InboxOk s) (target : DeviceWelcomeCheckpoint) :
    (deleteWelcomeTarget s target).2 = .ok () ∧
    TargetDeleted s target (deleteWelcomeTarget s target).1 := by
  obtain ⟨deliveryId, device⟩ := target
  unfold deleteWelcomeTarget
  by_cases hmem : s.deviceWelcomes.contains (toLex (device, deliveryId)) = true
  swap
  · have hget := hmem
    rw [Bool.not_eq_true, contains_eq_false_iff] at hget
    simp only [hmem, Bool.not_false, if_true]
    exact ⟨trivial, (erase_eq_self hget).symm, fun hw => hw, h⟩
  have hpos : targetCount s.deviceWelcomes deliveryId ≠ 0 :=
    targetCount_ne_zero.mpr ⟨device, by
      obtain ⟨_, hget⟩ := contains_iff.mp hmem
      exact hget⟩
  have hcount := h.counts deliveryId
  rw [if_neg hpos] at hcount
  have herase := targetCount_erase s.deviceWelcomes device deliveryId
  simp only [hmem, Bool.not_true, Bool.false_eq_true, if_false, hcount]
  split_ifs with hone
  · -- The last target: the Welcome goes with it.
    obtain ⟨w, hw, -⟩ := h.welcome_of_target (contains_iff.mp hmem).choose_spec
    simp only [hw]
    refine ⟨trivial, rfl, ?_, ?_, ?_, ?_⟩
    · exact fun hw => (get?_erase_eq_some.mp hw).2
    · intro device' id hget
      obtain ⟨w', hw', hdevice⟩ := h.welcome_of_target (get?_erase_eq_some.mp hget).2
      have hid : id ≠ deliveryId := by
        rintro rfl
        have hzero := herase id
        rw [if_pos ⟨rfl, hmem⟩, hone] at hzero
        exact absurd hzero (targetCount_ne_zero.mpr ⟨device', hget⟩)
      exact ⟨w', by rw [get?_erase_ne _ hid]; exact hw', hdevice⟩
    · intro id w' hw'
      obtain ⟨hid, hw'⟩ := get?_erase_eq_some.mp hw'
      obtain ⟨device', hget⟩ := h.target_of_welcome hw'
      refine ⟨device', ?_⟩
      rw [get?_erase_ne _ (by simp [hid]), hget]
    · intro id
      rw [get?_erase, herase, h.counts]
      by_cases hid : id = deliveryId
      · subst hid
        simp [hmem, hone]
      · simp [hid, Ne.symm hid]
  · have hgt : targetCount s.deviceWelcomes deliveryId - 1 ≠ 0 := by omega
    refine ⟨rfl, rfl, fun hw => hw, ?_, ?_, ?_⟩
    · exact fun hget => h.welcome_of_target (get?_erase_eq_some.mp hget).2
    · intro id w hw
      by_cases hid : id = deliveryId
      · subst hid
        have hleft := herase id
        rw [if_pos ⟨rfl, hmem⟩] at hleft
        exact targetCount_ne_zero.mp (by rw [hleft]; exact hgt)
      · obtain ⟨device', hget⟩ := h.target_of_welcome hw
        refine ⟨device', ?_⟩
        rw [get?_erase_ne _ (by simp [hid]), hget]
    · intro id
      rw [get?_insert, herase, h.counts]
      by_cases hid : id = deliveryId
      · subst hid
        simp [hmem, hgt]
      · simp [hid, Ne.symm hid]

/-- What deleting a list of targets does to a consistent inbox. -/
structure TargetsDeleted (s : MemoryState) (l : List DeviceWelcomeCheckpoint)
    (t : MemoryState) : Prop where
  frame : InboxFrame s t
  targets : ∀ device id, t.deviceWelcomes.get? (toLex (device, id)) =
    if (⟨id, device⟩ : DeviceWelcomeCheckpoint) ∈ l then none
    else s.deviceWelcomes.get? (toLex (device, id))
  welcomes : ∀ {id w}, t.welcomes.get? id = some w → s.welcomes.get? id = some w
  inbox : InboxOk t

/-- On a consistent inbox the deletions never fail. -/
lemma InboxOk.deleteTargets (h : InboxOk s) (l : List DeviceWelcomeCheckpoint) :
    (deleteWelcomeTargets s l).2 = .ok () ∧ TargetsDeleted s l (deleteWelcomeTargets s l).1 := by
  induction l generalizing s with
  | nil =>
    exact ⟨rfl, InboxFrame.refl s, fun _ _ => by simp [deleteWelcomeTargets], fun hw => hw, h⟩
  | cons target rest ih =>
    obtain ⟨hok, hstep⟩ := h.deleteTarget target
    have hframe := deleteWelcomeTarget_inboxFrame s target
    unfold deleteWelcomeTargets
    generalize hresult : deleteWelcomeTarget s target = result at hok hstep hframe
    obtain ⟨t, answer⟩ := result
    subst hok
    obtain ⟨hrest, htail⟩ := ih hstep.inbox
    refine ⟨hrest, hframe.trans htail.frame, ?_, fun hw =>
      hstep.welcomes (htail.welcomes hw), htail.inbox⟩
    intro device id
    rw [htail.targets, hstep.targets, get?_erase]
    by_cases htarget : target = ⟨id, device⟩
    · subst htarget
      simp
    have hkey : toLex (device, id) ≠ toLex (target.deviceId, target.deliveryId) := by
      intro heq
      obtain ⟨rfl, rfl⟩ := Prod.mk.inj (toLex.injective heq)
      exact htarget rfl
    simp [hkey, Ne.symm htarget]

/-! ## Storing a Welcome -/

lemma insertWelcomeMemory_inboxFrame (s : MemoryState) (id : ℕ) (bundle : MlsWelcomeBundle)
    (q storedAt : ℕ) : InboxFrame s (insertWelcomeMemory s id bundle q storedAt) := by
  unfold insertWelcomeMemory
  split_ifs
  · exact InboxFrame.refl s
  · exact ⟨rfl, rfl, rfl, rfl, rfl, rfl, rfl⟩

lemma get?_foldl_targets (devices : List DeviceId) (id : ℕ) (m : OrdSet (DeviceId ×ₗ ℕ))
      (device : DeviceId) (id' : ℕ) :
    (devices.foldl (fun targets d => targets.insert (toLex (d, id)) ()) m).get?
      (toLex (device, id')) =
      if id' = id ∧ device ∈ devices then some () else m.get? (toLex (device, id')) := by
  induction devices generalizing m with
  | nil => simp
  | cons d rest ih =>
    rw [List.foldl_cons, ih, get?_insert]
    by_cases hid : id' = id
    · subst hid
      by_cases hd : device = d <;> simp [hd]
    · simp [hid]

/-- The devices of a Welcome without repetition are counted one by one. -/
lemma targetCount_eq_length {targets : OrdSet (DeviceId ×ₗ ℕ)} {devices : List DeviceId} {id : ℕ}
      (hnodup : devices.Nodup)
    (h : ∀ device, targets.get? (toLex (device, id)) = some () ↔ device ∈ devices) :
    targetCount targets id = devices.length := by
  have heq : targets.keySet.filter (fun t => (ofLex t).2 = id) =
      devices.toFinset.map ⟨fun device => toLex (device, id), fun a b hab =>
        (Prod.mk.inj (toLex.injective hab)).1⟩ := by
    ext t
    obtain ⟨⟨device, id'⟩, rfl⟩ := toLex.surjective t
    simp only [Finset.mem_filter, mem_keySet, ofLex_toLex, Finset.mem_map, List.mem_toFinset]
    constructor
    · rintro ⟨⟨⟨⟩, hget⟩, rfl⟩
      exact ⟨device, (h device).mp hget, rfl⟩
    · rintro ⟨device', hmem, heq⟩
      obtain ⟨rfl, rfl⟩ := Prod.mk.inj (toLex.injective heq)
      exact ⟨⟨(), (h device').mpr hmem⟩, rfl⟩
  rw [targetCount, heq, Finset.card_map, List.toFinset_card_of_nodup hnodup]

lemma targetCount_congr {targets targets' : OrdSet (DeviceId ×ₗ ℕ)} {id : ℕ}
    (h : ∀ device, targets.get? (toLex (device, id)) = targets'.get? (toLex (device, id))) :
    targetCount targets id = targetCount targets' id := by
  refine congrArg Finset.card (Finset.ext fun t => ?_)
  obtain ⟨⟨device, id'⟩, rfl⟩ := toLex.surjective t
  simp only [Finset.mem_filter, mem_keySet, ofLex_toLex]
  refine and_congr_left fun hid => ?_
  subst hid
  rw [h device]

/-- What storing a Welcome does: an identical one is left alone, any other replaces the
targets and the value of its delivery id. -/
structure WelcomeStored (s : MemoryState) (id : ℕ) (bundle : MlsWelcomeBundle) (q storedAt : ℕ)
    (t : MemoryState) : Prop where
  frame : InboxFrame s t
  targets : ∀ device id', t.deviceWelcomes.get? (toLex (device, id')) =
    if id' = id then (if device ∈ bundle.deviceIds then some () else none)
    else s.deviceWelcomes.get? (toLex (device, id'))
  welcomes : ∀ id', t.welcomes.get? id' = if id' =
    id then some ⟨id, q, storedAt, bundle, bundle.welcome.length⟩
    else s.welcomes.get? id'
  inbox : InboxOk t

lemma InboxOk.storeWelcome (h : InboxOk s) {id : ℕ} {bundle : MlsWelcomeBundle} (q storedAt : ℕ)
      (hbundle : BundleOk bundle)
    (hnew : (s.welcomes.get? id).any (fun stored => stored.sequence = q ∧
      stored.storedAtUnixMs = storedAt ∧ stored.bundle = bundle) = false) :
    WelcomeStored s id bundle q storedAt (insertWelcomeMemory s id bundle q storedAt) := by
  have htargets : ∀ device id', (insertWelcomeMemory s id bundle q storedAt).deviceWelcomes.get?
      (toLex (device, id')) =
      if id' = id then (if device ∈ bundle.deviceIds then some () else none)
      else s.deviceWelcomes.get? (toLex (device, id')) := by
    intro device id'
    unfold insertWelcomeMemory
    simp only [hnew, Bool.false_eq_true, if_false]
    rw [get?_foldl_targets, get?_retain]
    by_cases hid : id' = id
    · subst hid
      cases s.deviceWelcomes.get? (toLex (device, id')) <;> simp
    · cases s.deviceWelcomes.get? (toLex (device, id')) <;> simp [hid]
  have hwelcomes : ∀ id', (insertWelcomeMemory s id bundle q storedAt).welcomes.get? id' = if id' =
      id then some ⟨id, q, storedAt, bundle, bundle.welcome.length⟩
      else s.welcomes.get? id' := by
    intro id'
    unfold insertWelcomeMemory
    simp only [hnew, Bool.false_eq_true, if_false]
    exact get?_insert _ _ _ _
  refine ⟨insertWelcomeMemory_inboxFrame s id bundle q storedAt, htargets, hwelcomes, ?_, ?_, ?_⟩
  · intro device id' hget
    rw [htargets] at hget
    rw [hwelcomes]
    split_ifs at hget ⊢ with hid hdevice
    · exact ⟨_, rfl, hdevice⟩
    · exact h.welcome_of_target hget
  · intro id' w hw
    rw [hwelcomes] at hw
    split_ifs at hw with hid
    · obtain ⟨device, hdevice⟩ := List.exists_mem_of_ne_nil _ hbundle.devices_ne
      exact ⟨device, by rw [htargets, if_pos hid, if_pos hdevice]⟩
    · obtain ⟨device, hget⟩ := h.target_of_welcome hw
      exact ⟨device, by rw [htargets, if_neg hid, hget]⟩
  · intro id'
    by_cases hid : id' = id
    · subst hid
      have hcount : targetCount (insertWelcomeMemory s id' bundle q storedAt).deviceWelcomes
          id' = bundle.deviceIds.length := by
        refine targetCount_eq_length hbundle.devices_nodup fun device => ?_
        rw [htargets, if_pos rfl]
        split_ifs with hdevice <;> simp [hdevice]
      have hpos : bundle.deviceIds.length ≠ 0 := by simpa using hbundle.devices_ne
      have hsmall : bundle.deviceIds.length % 2 ^ 16 = bundle.deviceIds.length := by
        have := hbundle.devices_le
        unfold maxMlsWelcomesPerCommit at this
        omega
      rw [hcount, if_neg hpos]
      unfold insertWelcomeMemory
      simp only [hnew, Bool.false_eq_true, if_false]
      rw [get?_insert_self, hsmall]
    · have hcount : targetCount (insertWelcomeMemory s id bundle q storedAt).deviceWelcomes
          id' = targetCount s.deviceWelcomes id' :=
        targetCount_congr fun device => by rw [htargets, if_neg hid]
      rw [hcount, ← h.counts]
      unfold insertWelcomeMemory
      simp only [hnew, Bool.false_eq_true, if_false]
      exact get?_insert_ne _ _ hid

/-- The two states hold the same Welcome inbox. -/
structure SameInbox (s t : MemoryState) : Prop where
  welcomes : t.welcomes = s.welcomes
  counts : t.welcomeTargetCounts = s.welcomeTargetCounts
  targets : t.deviceWelcomes = s.deviceWelcomes

lemma SameInbox.inboxOk (h : SameInbox s t) (hs : InboxOk s) : InboxOk t := by
  obtain ⟨hw, hc, ht⟩ := h
  refine ⟨?_, ?_, ?_⟩
  · rw [hw, ht]
    exact hs.welcome_of_target
  · rw [hw, ht]
    exact hs.target_of_welcome
  · rw [hc, ht]
    exact hs.counts

lemma SameInbox.deleteTarget (h : SameInbox s t) (target : DeviceWelcomeCheckpoint) :
    SameInbox (deleteWelcomeTarget s target).1 (deleteWelcomeTarget t target).1 ∧
    (deleteWelcomeTarget t target).2 = (deleteWelcomeTarget s target).2 := by
  obtain ⟨hw, hc, ht⟩ := h
  unfold deleteWelcomeTarget
  simp only [hw, hc, ht]
  split_ifs
  · exact ⟨⟨hw, hc, ht⟩, rfl⟩
  cases s.welcomeTargetCounts.get? target.deliveryId with
  | none => exact ⟨⟨rfl, rfl, rfl⟩, rfl⟩
  | some count =>
    simp only
    split_ifs
    · cases s.welcomes.get? target.deliveryId <;> exact ⟨⟨rfl, rfl, rfl⟩, rfl⟩
    · exact ⟨⟨rfl, rfl, rfl⟩, rfl⟩

lemma SameInbox.deleteTargets (h : SameInbox s t) (l : List DeviceWelcomeCheckpoint) :
    SameInbox (deleteWelcomeTargets s l).1 (deleteWelcomeTargets t l).1 ∧
    (deleteWelcomeTargets t l).2 = (deleteWelcomeTargets s l).2 := by
  induction l generalizing s t with
  | nil => exact ⟨h, rfl⟩
  | cons target rest ih =>
    obtain ⟨hstate, hresult⟩ := h.deleteTarget target
    unfold deleteWelcomeTargets
    generalize deleteWelcomeTarget s target = a at hstate hresult
    generalize deleteWelcomeTarget t target = b at hstate hresult
    obtain ⟨s', ra⟩ := a
    obtain ⟨t', rb⟩ := b
    subst hresult
    cases rb with
    | error e => exact ⟨hstate, rfl⟩
    | ok u => exact ih hstate

lemma SameInbox.storeWelcome (h : SameInbox s t) (id : ℕ) (bundle : MlsWelcomeBundle)
    (q storedAt : ℕ) :
    SameInbox (insertWelcomeMemory s id bundle q storedAt)
      (insertWelcomeMemory t id bundle q storedAt) := by
  obtain ⟨hw, hc, ht⟩ := h
  unfold insertWelcomeMemory
  simp only [hw, hc, ht]
  split_ifs
  · exact ⟨hw, hc, ht⟩
  · exact ⟨rfl, rfl, rfl⟩

/-! ## The whole delta -/

/-- The delivery log after the removals and insertions of a delta. -/
def logAfter (s : MemoryState) (d : StateDelta) : MemoryState :=
  d.events.foldl (fun s e => insertEventMemory s e.roomId e.event e.storedAtUnixMs)
    (d.deletedEvents.foldl (fun s key => removeEventMemory s key.roomId key.sequence) s)

/-- The Welcome inbox after the removals and insertions of a delta. -/
def inboxAfter (s : MemoryState) (d : StateDelta) : MemoryState :=
  d.welcomes.foldl
    (fun s w => insertWelcomeMemory s w.deliveryId w.bundle w.sequence w.storedAtUnixMs)
    (deleteWelcomeTargets s d.deletedWelcomeTargets).1

/-- The keys a delta's records are stored under. -/
def roomKey (room : RoomRecord) : RoomId := room.descriptor.roomId

def WalCursor.key (c : WalCursor) : RoomId ×ₗ DeviceId := toLex (c.roomId, c.deviceId)

def CursorKey.key (k : CursorKey) : RoomId ×ₗ DeviceId := toLex (k.roomId, k.deviceId)

/-- `t` is `s` after the delta, component by component. -/
structure DeltaApplied (s : MemoryState) (d : StateDelta) (t : MemoryState) : Prop where
  global : t.global = d.global.getD s.global
  rooms : ∀ r, t.rooms.get? r = (OrdMap.lastWrite roomKey id d.rooms r).or (s.rooms.get? r)
  cursors : ∀ k, t.deviceCursors.get? k =
    (OrdMap.lastWrite WalCursor.key WalCursor.cursor d.cursors k).or
      (if OrdMap.touches CursorKey.key d.deletedCursors k = true then none
        else s.deviceCursors.get? k)
  welcomeCursors : ∀ device, t.welcomeCursors.get? device =
    (OrdMap.lastWrite WelcomeCursorCheckpoint.deviceId WelcomeCursorCheckpoint.deliveryId
      d.welcomeCursors device).or (s.welcomeCursors.get? device)
  log : SameLog (logAfter s d) t
  inbox : SameInbox (inboxAfter s d) t

lemma foldl_logFrame {α : Type} {f : MemoryState → α → MemoryState} (h : ∀ s a, LogFrame s (f s a))
    (l : List α) (s : MemoryState) : LogFrame s (l.foldl f s) :=
  List.foldlRecOn l f (LogFrame.refl s) fun t ih a _ => ih.trans (h t a)

lemma foldl_inboxFrame {α : Type} {f : MemoryState → α → MemoryState}
      (h : ∀ s a, InboxFrame s (f s a)) (l : List α)
    (s : MemoryState) : InboxFrame s (l.foldl f s) :=
  List.foldlRecOn l f (InboxFrame.refl s) fun t ih a _ => ih.trans (h t a)

lemma foldl_sameLog (l : List WalEvent) (h : SameLog s t) :
    SameLog (l.foldl (fun s e => insertEventMemory s e.roomId e.event e.storedAtUnixMs) s)
      (l.foldl (fun s e => insertEventMemory s e.roomId e.event e.storedAtUnixMs) t) :=
  List.foldl_rel h fun _ _ _ _ h => h.insertEvent _ _ _

lemma foldl_sameInbox (l : List WalWelcome) (h : SameInbox s t) : SameInbox
      (l.foldl (fun s w => insertWelcomeMemory s w.deliveryId w.bundle w.sequence w.storedAtUnixMs)
        s)
      (l.foldl (fun s w => insertWelcomeMemory s w.deliveryId w.bundle w.sequence w.storedAtUnixMs)
        t) :=
  List.foldl_rel h fun _ _ _ _ h => h.storeWelcome _ _ _ _

/-- What a delta that applies does to the cursors, whatever the inbox is. -/
lemma applyDelta_cursors {d : StateDelta} (h : applyDelta s d = (t, .ok ())) :
    (∀ k, t.deviceCursors.get? k =
      (OrdMap.lastWrite WalCursor.key WalCursor.cursor d.cursors k).or
        (if OrdMap.touches CursorKey.key d.deletedCursors k = true then none
          else s.deviceCursors.get? k)) ∧
    ∀ device, t.welcomeCursors.get? device =
      (OrdMap.lastWrite WelcomeCursorCheckpoint.deviceId WelcomeCursorCheckpoint.deliveryId
        d.welcomeCursors device).or (s.welcomeCursors.get? device) := by
  have hremove : LogFrame s
      (d.deletedEvents.foldl (fun s key => removeEventMemory s key.roomId key.sequence) s) :=
    foldl_logFrame (fun s key => removeEventMemory_logFrame s _ _) _ s
  have hframe := deleteWelcomeTargets_inboxFrame (applyDeletions s d) d.deletedWelcomeTargets
  unfold applyDelta at h
  split at h
  · cases h
  rename_i u hdeleted
  rw [hdeleted] at hframe
  cases h
  have hevents : LogFrame u
      (d.events.foldl (fun s e => insertEventMemory s e.roomId e.event e.storedAtUnixMs) u) :=
    foldl_logFrame (fun s e => insertEventMemory_logFrame s _ _ _) _ u
  have hwelcomes := foldl_inboxFrame
    (f := fun s (w : WalWelcome) =>
      insertWelcomeMemory s w.deliveryId w.bundle w.sequence w.storedAtUnixMs)
    (fun s w => insertWelcomeMemory_inboxFrame s _ _ _ _) d.welcomes
    (d.events.foldl (fun s e => insertEventMemory s e.roomId e.event e.storedAtUnixMs) u)
  refine ⟨?_, ?_⟩
  · intro k
    have hcursors := get?_foldl_insert WalCursor.key WalCursor.cursor d.cursors
      u.deviceCursors k
    have herased := get?_foldl_erase CursorKey.key d.deletedCursors
      s.deviceCursors k
    simp only [applyInsertions]
    rw [hwelcomes.deviceCursors, hevents.deviceCursors]
    refine hcursors.trans ?_
    rw [hframe.deviceCursors, ← herased, ← hremove.deviceCursors]
    rfl
  · intro device
    have hcursors := get?_foldl_insert WelcomeCursorCheckpoint.deviceId
      WelcomeCursorCheckpoint.deliveryId d.welcomeCursors u.welcomeCursors device
    simp only [applyInsertions]
    rw [hwelcomes.welcomeCursors, hevents.welcomeCursors]
    refine hcursors.trans ?_
    rw [hframe.welcomeCursors]
    exact congrArg (fun m => Option.or _ (OrdMap.get? m device)) hremove.welcomeCursors

/-- Over a consistent inbox a delta always applies. -/
lemma InboxOk.deltaApplied (h : InboxOk s) (d : StateDelta) :
    (applyDelta s d).2 = .ok () ∧ DeltaApplied s d (applyDelta s d).1 := by
  have hremove :
      LogFrame s (d.deletedEvents.foldl (fun s key =>
      removeEventMemory s key.roomId key.sequence) s) :=
    foldl_logFrame (fun s key => removeEventMemory_logFrame s _ _) _ s
  have hdeletions : SameInbox s (applyDeletions s d) :=
    ⟨hremove.welcomes, hremove.welcomeTargetCounts, hremove.deviceWelcomes⟩
  obtain ⟨hok, hdeleted⟩ := (hdeletions.inboxOk h).deleteTargets d.deletedWelcomeTargets
  have hinbox := (hdeletions.deleteTargets d.deletedWelcomeTargets).1
  generalize hresult : deleteWelcomeTargets (applyDeletions s d) d.deletedWelcomeTargets = result
    at hok hdeleted hinbox
  obtain ⟨u, answer⟩ := result
  subst hok
  have happly : applyDelta s d = (applyInsertions u d, .ok ()) := by
    unfold applyDelta
    rw [hresult]
  obtain ⟨hcursors, hwelcomeCursors⟩ := applyDelta_cursors happly
  rw [happly]
  have hframe := hdeleted.frame
  have hevents :
      LogFrame u (d.events.foldl (fun s e => insertEventMemory s e.roomId e.event e.storedAtUnixMs)
      u) :=
    foldl_logFrame (fun s e => insertEventMemory_logFrame s _ _ _) _ u
  have hwelcomes := foldl_inboxFrame
    (f := fun s (w : WalWelcome) =>
      insertWelcomeMemory s w.deliveryId w.bundle w.sequence w.storedAtUnixMs)
    (fun s w => insertWelcomeMemory_inboxFrame s _ _ _ _) d.welcomes
      (d.events.foldl (fun s e => insertEventMemory s e.roomId e.event e.storedAtUnixMs) u)
  refine ⟨rfl, ?_, ?_, ?_, ?_, ?_, ?_⟩
  · simp only [applyInsertions]
    rw [hwelcomes.global, hevents.global, hframe.global]
    exact congrArg _ hremove.global
  · intro r
    have hrooms := get?_foldl_insert roomKey id d.rooms u.rooms r
    simp only [applyInsertions]
    rw [hwelcomes.rooms, hevents.rooms]
    refine hrooms.trans ?_
    rw [hframe.rooms]
    exact congrArg (fun m => Option.or _ (OrdMap.get? m r)) hremove.rooms
  · exact hcursors
  · exact hwelcomeCursors
  · have hsame :
        SameLog (d.deletedEvents.foldl (fun s key => removeEventMemory s key.roomId key.sequence) s)
        u :=
      ⟨hframe.events, hframe.eventIds, hframe.commitEpochs⟩
    have hlog := foldl_sameLog d.events hsame
    exact ⟨hwelcomes.events.trans hlog.events, hwelcomes.eventIds.trans hlog.eventIds,
      hwelcomes.commitEpochs.trans hlog.commitEpochs⟩
  · have hsame : SameInbox (deleteWelcomeTargets s d.deletedWelcomeTargets).1 (d.events.foldl
        (fun s e => insertEventMemory s e.roomId e.event e.storedAtUnixMs) u) :=
      ⟨hevents.welcomes.trans hinbox.welcomes, hevents.welcomeTargetCounts.trans hinbox.counts,
        hevents.deviceWelcomes.trans hinbox.targets⟩
    have hstored := foldl_sameInbox d.welcomes hsame
    exact ⟨hstored.welcomes, hstored.counts, hstored.targets⟩

end Chatt
