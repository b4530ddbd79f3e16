import Chatt.Interface.StoreInvariant

/-!
# Validation decides the invariant

One lemma for each loop of `validateMemory`, in both directions, and from them
`validateMemory_eq_ok_iff`: on states stored under their own ids the validation passes
exactly on the states of `StoreInv`.
-/

namespace Chatt

open Chatt.Lib List OrdMap

variable {s : MemoryState}
variable {l : List ((RoomId ×ₗ ℕ) × StoredEvent)}

/-! ## Scanning a room's log -/

lemma scanContiguous_eq_ok {start stop : ℕ} (h : scanContiguous l start = .ok stop) :
    stop = start + l.length ∧ l.map (fun e => (ofLex e.1).2) = List.range' start l.length ∧
    ∀ e ∈ l, e.2.event.sequence = (ofLex e.1).2 := by
  induction l generalizing start with
  | nil =>
    cases h
    simp
  | cons e rest ih =>
    unfold scanContiguous at h
    split_ifs at h with hbad
    rw [not_or, not_not, not_not] at hbad
    split at h
    · cases h
    next next hadd =>
    obtain ⟨rfl, -⟩ := checkedAdd_eq_some.mp hadd
    obtain ⟨hstop, hseq, hev⟩ := ih h
    refine ⟨by simp only [length_cons]; omega, ?_, ?_⟩
    · simp [range'_succ, hseq, hbad.1]
    · simp only [mem_cons, forall_eq_or_imp]
      exact ⟨hbad.2.trans hbad.1.symm, hev⟩

lemma scanContiguous_of_range {start : ℕ} (hseq : l.map (fun e => (ofLex e.1).2) =
      List.range' start l.length)
    (hev : ∀ e ∈ l, e.2.event.sequence = (ofLex e.1).2) (hmax : start + l.length ≤ u64Max) :
    scanContiguous l start = .ok (start + l.length) := by
  induction l generalizing start with
  | nil => rfl
  | cons e rest ih =>
    simp only [map_cons, length_cons, range'_succ, List.cons.injEq] at hseq
    simp only [length_cons] at hmax
    have hkey := hev _ mem_cons_self
    unfold scanContiguous
    rw [if_neg (by simp [hseq.1, hkey]), checkedAdd_eq_some.mpr ⟨rfl, by omega⟩]
    have := ih hseq.2 (fun e he => hev e (mem_cons_of_mem _ he)) (by omega)
    rw [length_cons, Nat.add_comm rest.length, ← Nat.add_assoc]
    exact this

variable {r : RoomId}

lemma map_snd_row {start count : ℕ}
      (h : l.map Prod.fst = (List.range' start count).map (fun q => toLex (r, q))) :
    l.map (fun e => (ofLex e.1).2) = List.range' start count := by
  have := congrArg (List.map (fun k => (ofLex k).2)) h
  simpa [map_map, Function.comp_def] using this

/-! ## Rooms -/

/-- What the check of one room shows, over the entries of the other maps. -/
structure RoomChecked (s : MemoryState) (r : RoomId) (room : RoomRecord) : Prop where
  room_ok : RoomOk r room
  event_of_room : ∀ {q}, room.oldestAvailableSequence ≤ q → q ≤ room.headSequence →
    ∃ stored, s.events.get? (toLex (r, q)) = some stored
  cursor_of_required : ∀ {device}, device ∈ room.requiredDevices →
    ∃ c, s.deviceCursors.get? (toLex (r, device)) = some c

lemma validateRoom_eq_ok {room : RoomRecord} (key : room.descriptor.roomId = r)
    (h : validateRoom s room = .ok ()) : RoomChecked s r room := by
  subst key
  simp only [validateRoom, bind_eq_ok, require_eq_ok, reject_eq_ok, checkedAdd_eq_some,
    forM_eq_ok] at h
  obtain ⟨after, ⟨rfl, hmax⟩, -, hrange, stop, hscan, -, hstop, hcur⟩ := h
  simp only [not_or, not_not, not_lt] at hrange hstop
  obtain ⟨hpos, hle, hchain⟩ := hrange
  refine ⟨⟨rfl, by omega, hle, by omega, isChain_iff_pairwise.mp hchain⟩, ?_, ?_⟩
  · intro q hlo hhi
    rw [scanRoom, if_pos (by omega)] at hscan
    obtain ⟨hlen, hseq, -⟩ := scanContiguous_eq_ok hscan
    have hmem : q ∈ List.range' room.oldestAvailableSequence
        (s.events.range (toLex (room.descriptor.roomId, room.oldestAvailableSequence))
          (toLex (room.descriptor.roomId, room.headSequence))).length := by
      rw [mem_range'_1]
      omega
    rw [← hseq, mem_map] at hmem
    obtain ⟨⟨k, stored⟩, hstored, rfl⟩ := hmem
    obtain ⟨-, -, -, hget⟩ := mem_row.mp hstored
    exact ⟨stored, hget⟩
  · intro device hdevice
    have := hcur device hdevice
    rw [Bool.not_eq_false] at this
    exact contains_iff.mp this

lemma validateRoom_of_checked {room : RoomRecord} (h : RoomChecked s r room)
    (hseq : ∀ {q stored}, s.events.get? (toLex (r, q)) = some stored → stored.event.sequence = q) :
    validateRoom s room = .ok () := by
  obtain ⟨⟨rfl, hpos, hle, hlt, hsorted⟩, hevent, hcursor⟩ := h
  simp only [validateRoom, bind_eq_ok, require_eq_ok, reject_eq_ok, checkedAdd_eq_some, forM_eq_ok]
  refine ⟨_, ⟨rfl, by omega⟩, (), ?_, room.headSequence + 1, ?_, (), by simp, ?_⟩
  · simp only [not_or, not_not, not_lt]
    exact ⟨by omega, hle, isChain_iff_pairwise.mpr hsorted⟩
  · unfold scanRoom
    split_ifs with hrange
    · have hkeys := row_keys (m := s.events) (r := room.descriptor.roomId)
        (fun q hlo hhi => hevent hlo hhi) (fun q _ _ _ hhi => hhi) le_rfl
      have hlen := congrArg List.length hkeys
      simp only [length_map, length_range'] at hlen
      have hscan := fun hev => scanContiguous_of_range
        (l := s.events.range (toLex (room.descriptor.roomId, room.oldestAvailableSequence))
          (toLex (room.descriptor.roomId, room.headSequence)))
        (by rw [map_snd_row hkeys, hlen]) hev (by omega)
      rw [hscan, hlen]
      · exact congrArg Except.ok (by omega)
      · rintro ⟨k, stored⟩ hmem
        obtain ⟨⟨r', q⟩, rfl⟩ := toLex.surjective k
        obtain ⟨rfl, -, -, hget⟩ := mem_row.mp hmem
        exact hseq hget
    · exact congrArg Except.ok (by omega)
  · intro device hdevice
    rw [Bool.not_eq_false]
    exact contains_iff.mpr (hcursor hdevice)

/-! ## Events and indexes -/

lemma validateEvent_eq_ok {q : ℕ} {stored : StoredEvent} :
    validateEvent s r q stored = .ok () ↔
      (∃ room, s.rooms.get? r = some room ∧ room.oldestAvailableSequence ≤ q ∧
        q ≤ room.headSequence ∧ stored.event.sequence = q) ∧
      (∀ i, stored.event.eventId? = some i → s.eventIds.get? (toLex (r, i)) = some q) ∧
      (∀ e, stored.event.parentEpoch? = some e → s.commitEpochs.get? (toLex (r, e)) = some q) := by
  simp only [validateEvent, bind_eq_ok, require_eq_ok, reject_eq_ok]
  constructor
  · rintro ⟨room, hroom, -, hrange, hindex⟩
    simp only [not_or, not_lt, not_not] at hrange
    refine ⟨⟨room, hroom, hrange.1, hrange.2.1, hrange.2.2⟩, ?_⟩
    cases hev : stored.event <;> rw [hev] at hindex <;>
      simpa [MlsDeliveryEvent.eventId?, MlsDeliveryEvent.parentEpoch?] using hindex
  · rintro ⟨⟨room, hroom, hlo, hhi, hseq⟩, hid, hepoch⟩
    refine ⟨room, hroom, (), by simp [hlo, hhi, hseq], ?_⟩
    cases hev : stored.event with
    | commit => simpa using hepoch _ (by rw [hev]; rfl)
    | application => simpa using hid _ (by rw [hev]; rfl)

section Index

variable {α : Type} [LinearOrder α] {events : OrdMap (RoomId ×ₗ ℕ) StoredEvent}
  {label : MlsDeliveryEvent → Option α} {index : OrdMap (RoomId ×ₗ α) ℕ}

/-- The index keys of the labelled events, in log order. -/
def labelKeys (label : MlsDeliveryEvent → Option α)
    (l : List ((RoomId ×ₗ ℕ) × StoredEvent)) : List (RoomId ×ₗ α) :=
  l.filterMap fun e => (label e.2.event).map fun a => toLex ((ofLex e.1).1, a)

omit [LinearOrder α] in
lemma length_labelKeys (l : List ((RoomId ×ₗ ℕ) × StoredEvent)) :
    (labelKeys label l).length = l.countP (fun e => (label e.2.event).isSome) := by
  rw [labelKeys, length_filterMap_eq_countP]
  simp

omit [LinearOrder α] in
lemma mem_labelKeys {r : RoomId} {a : α} :
    toLex (r, a) ∈ labelKeys label events.entries ↔
    ∃ q stored, events.get? (toLex (r, q)) = some stored ∧ label stored.event = some a := by
  simp only [labelKeys, mem_filterMap, Option.map_eq_some_iff]
  constructor
  · rintro ⟨⟨k, stored⟩, hmem, b, hlabel, hkey⟩
    obtain ⟨⟨r', q⟩, rfl⟩ := toLex.surjective k
    obtain ⟨rfl, rfl⟩ := Prod.mk.inj (toLex.injective hkey)
    exact ⟨q, stored, mem_entries.mp hmem, hlabel⟩
  · rintro ⟨q, stored, hget, hlabel⟩
    exact ⟨(toLex (r, q), stored), mem_entries.mpr hget, a, hlabel, rfl⟩

/-- Every labelled event is found in the index. -/
def Indexed (events : OrdMap (RoomId ×ₗ ℕ) StoredEvent) (label : MlsDeliveryEvent → Option α)
    (index : OrdMap (RoomId ×ₗ α) ℕ) : Prop :=
  ∀ {r q stored a}, events.get? (toLex (r, q)) = some stored → label stored.event = some a →
    index.get? (toLex (r, a)) = some q

lemma nodup_labelKeys (h : Indexed events label index) :
    (labelKeys label events.entries).Nodup := by
  -- Two events under one index key have the sequence the index holds, so are one entry.
  have hsorted : events.entries.Pairwise
      (fun e e' => e ∈ events.entries ∧ e' ∈ events.entries ∧ e.1 < e'.1) :=
    events.sorted.imp_of_mem fun he he' hlt => ⟨he, he', hlt⟩
  refine hsorted.filterMap _ ?_
  rintro ⟨k, stored⟩ ⟨k', stored'⟩ ⟨hmem, hmem', hlt⟩ key hkey key' hkey' rfl
  obtain ⟨⟨r, q⟩, rfl⟩ := toLex.surjective k
  obtain ⟨⟨r', q'⟩, rfl⟩ := toLex.surjective k'
  obtain ⟨a, hlabel, rfl⟩ := Option.map_eq_some_iff.mp hkey
  obtain ⟨a', hlabel', heq⟩ := Option.map_eq_some_iff.mp hkey'
  obtain ⟨hr, rfl⟩ := Prod.mk.inj (toLex.injective heq)
  simp only [ofLex_toLex] at hr
  subst hr
  have hq := h (mem_entries.mp hmem) hlabel
  have hq' := h (mem_entries.mp hmem') hlabel'
  rw [hq, Option.some.injEq] at hq'
  subst hq'
  exact absurd hlt (lt_irrefl _)

lemma IndexOf.indexed (h : IndexOf events label index) : Indexed events label index :=
  fun hget hlabel => (h _ _ _).mpr ⟨_, hget, hlabel⟩

/-- An index that finds every event and is no larger than their number has no orphan. -/
lemma indexOf_of_count (h : Indexed events label index)
    (hcount : events.entries.countP (fun e => (label e.2.event).isSome) = index.size) :
    IndexOf events label index := by
  have hsub : (labelKeys label events.entries).toFinset ⊆ index.keySet := by
    intro key hkey
    obtain ⟨q, stored, hget, hlabel⟩ := mem_labelKeys.mp (mem_toFinset.mp hkey)
    exact mem_keySet.mpr ⟨q, h hget hlabel⟩
  have hcard : index.keySet.card ≤ (labelKeys label events.entries).toFinset.card := by
    rw [card_keySet, toFinset_card_of_nodup (nodup_labelKeys h), length_labelKeys, hcount]
  have heq := Finset.eq_of_subset_of_card_le hsub hcard
  intro r a q
  constructor
  · intro hq
    have hmem := mem_keySet.mpr ⟨q, hq⟩
    rw [← heq, mem_toFinset] at hmem
    obtain ⟨q', stored, hget, hlabel⟩ := mem_labelKeys.mp hmem
    have hq' := h hget hlabel
    rw [hq, Option.some.injEq] at hq'
    subst hq'
    exact ⟨stored, hget, hlabel⟩
  · rintro ⟨stored, hget, hlabel⟩
    exact h hget hlabel

lemma IndexOf.count (h : IndexOf events label index) :
    events.entries.countP (fun e => (label e.2.event).isSome) = index.size := by
  have heq : (labelKeys label events.entries).toFinset = index.keySet := by
    ext key
    obtain ⟨⟨r, a⟩, rfl⟩ := toLex.surjective key
    rw [mem_toFinset, mem_labelKeys, mem_keySet]
    exact exists_congr fun q => (h r a q).symm
  rw [← length_labelKeys, ← toFinset_card_of_nodup (nodup_labelKeys h.indexed), heq, card_keySet]

end Index

/-! ## Cursors -/

lemma validateCursor_eq_ok {device : DeviceId} {c : DeviceCursor} :
    validateCursor s r device c = .ok () ↔ ∃ room, s.rooms.get? r = some room ∧
    device ∈ room.requiredDevices ∧ CursorOk room.headSequence c := by
  simp only [validateCursor, bind_eq_ok, require_eq_ok, reject_eq_ok, not_or, not_not, not_lt,
    Option.any_eq_true, decide_eq_true_eq, not_exists, not_and]
  constructor
  · rintro ⟨room, hroom, -, hdevice, hpos, hle, hhead, hrejoin⟩
    refine ⟨room, hroom, hdevice, Nat.pos_of_ne_zero hpos, hle, hhead, fun w hw => ?_⟩
    exact hrejoin w hw
  · rintro ⟨room, hroom, hdevice, hpos, hle, hhead, hrejoin⟩
    exact ⟨room, hroom, (), hdevice, by omega, hle, hhead, hrejoin⟩

/-! ## Welcomes and their targets -/

/-- What the check of one Welcome shows. -/
structure WelcomeChecked (s : MemoryState) (deliveryId : ℕ) (w : StoredWelcome) : Prop where
  id_pos : 0 < deliveryId
  id_lt : deliveryId < s.global.nextWelcomeDeliveryId
  bundle_ok : BundleOk w.bundle
  sequence_pos : 0 < w.sequence
  room : ∃ room, s.rooms.get? w.bundle.descriptor.roomId = some room ∧
    w.bundle.descriptor = room.descriptor ∧ w.sequence ≤ room.headSequence ∧
    (room.oldestAvailableSequence ≤ w.sequence →
    isRetainedCommit s room.descriptor.roomId w.sequence = true)
  count : ∃ n, s.welcomeTargetCounts.get? deliveryId = some n ∧ n ≠ 0 ∧
    n ≤ w.bundle.deviceIds.length

variable {deliveryId : ℕ}

lemma validateWelcome_eq_ok {w : StoredWelcome} :
    validateWelcome s deliveryId w = .ok () ↔ WelcomeChecked s deliveryId w := by
  simp only [validateWelcome, bind_eq_ok, require_eq_ok, reject_eq_ok, not_or, not_not, not_and,
    not_lt, not_le, Bool.not_eq_false]
  constructor
  · rintro ⟨-, ⟨hpos, hlt⟩, room, hroom, -, ⟨hdesc, hseq, hhead, hne, hlen, hnodup⟩, n, hn, -,
      ⟨hn0, hnle⟩, hcommit⟩
    exact ⟨by omega, hlt, ⟨hne, hlen, hnodup⟩, by omega, ⟨room, hroom, hdesc, hhead, hcommit⟩,
      ⟨n, hn, hn0, hnle⟩⟩
  · rintro ⟨hpos, hlt, ⟨hne, hlen, hnodup⟩, hseq, ⟨room, hroom, hdesc, hhead, hcommit⟩,
      ⟨n, hn, hn0, hnle⟩⟩
    exact ⟨(), ⟨by omega, hlt⟩, room, hroom, (), ⟨hdesc, by omega, hhead, hne, hlen, hnodup⟩, n, hn,
      (), ⟨hn0, hnle⟩, hcommit⟩

/-- A target of a stored Welcome that names the device. -/
def TargetOk (s : MemoryState) (target : DeviceId ×ₗ ℕ) : Prop :=
  ∃ w, s.welcomes.get? (ofLex target).2 = some w ∧ (ofLex target).1 ∈ w.bundle.deviceIds

/-- What the counting loop makes of a count that stood at `count` before `n` more targets. -/
def countAfter (count : Option ℕ) (n : ℕ) : Option ℕ :=
  if n = 0 then count else some (count.getD 0 + n)

lemma countAfter_succ (count : Option ℕ) (n : ℕ) :
    countAfter (some (count.getD 0 + 1)) n = countAfter count (n + 1) := by
  unfold countAfter
  by_cases hn : n = 0
  · simp [hn]
  · simp only [hn, if_false, Nat.succ_ne_zero, Option.getD_some, Option.some.injEq]
    omega

lemma countTargets_eq_ok {l : List (DeviceId ×ₗ ℕ)} {counts result : OrdMap ℕ ℕ}
    (h : countTargets s l counts = .ok result) : (∀ t ∈ l, TargetOk s t) ∧
      ∀ id, result.get? id = countAfter (counts.get? id) (l.countP fun t => (ofLex t).2 = id) := by
  induction l generalizing counts with
  | nil =>
    cases h
    simp [countAfter]
  | cons t rest ih =>
    unfold countTargets at h
    simp only at h
    split at h
    · cases h
    next w hw =>
    split_ifs at h with hdevice hmax
    obtain ⟨hrest, hcounts⟩ := ih h
    refine ⟨?_, ?_⟩
    · simp only [mem_cons, forall_eq_or_imp]
      exact ⟨⟨w, hw, hdevice⟩, hrest⟩
    intro id
    rw [hcounts, get?_insert]
    by_cases hid : (ofLex t).2 = id
    · subst hid
      rw [if_pos rfl, countAfter_succ, countP_cons_of_pos (by simp)]
    · rw [if_neg (Ne.symm hid), countP_cons_of_neg (by simpa using hid)]

lemma countTargets_of_targetOk {l : List (DeviceId ×ₗ ℕ)} {counts : OrdMap ℕ ℕ}
      (htargets : ∀ t ∈ l, TargetOk s t)
    (hmax : ∀ id, (counts.get? id).getD 0 + (l.countP fun t => (ofLex t).2 = id) ≤ u16Max) :
    ∃ result, countTargets s l counts = .ok result := by
  induction l generalizing counts with
  | nil => exact ⟨counts, rfl⟩
  | cons t rest ih =>
    obtain ⟨w, hw, hdevice⟩ := htargets t mem_cons_self
    unfold countTargets
    simp only [hw]
    have hcount := hmax (ofLex t).2
    rw [countP_cons_of_pos (by simp)] at hcount
    rw [if_neg (by simpa using hdevice), if_neg (by omega)]
    apply ih (fun t ht => htargets t (mem_cons_of_mem _ ht))
    intro id
    rw [get?_insert]
    by_cases hid : id = (ofLex t).2
    · subst hid
      rw [if_pos rfl, Option.getD_some]
      omega
    · have := hmax id
      rw [countP_cons_of_neg (by simpa using Ne.symm hid)] at this
      rw [if_neg hid]
      exact this

lemma countP_keys_eq_targetCount (targets : OrdSet (DeviceId ×ₗ ℕ)) (deliveryId : ℕ) :
    (targets.keys.countP fun t => (ofLex t).2 = deliveryId) = targetCount targets deliveryId := by
  rw [countP_eq_length_filter]
  rfl

lemma targetCount_ne_zero {targets : OrdSet (DeviceId ×ₗ ℕ)} :
    targetCount targets deliveryId ≠ 0 ↔ ∃ device,
    targets.get? (toLex (device, deliveryId)) = some () := by
  rw [targetCount, Finset.card_ne_zero]
  constructor
  · rintro ⟨t, ht⟩
    obtain ⟨⟨device, id⟩, rfl⟩ := toLex.surjective t
    rw [Finset.mem_filter, mem_keySet] at ht
    obtain ⟨⟨_, hget⟩, rfl⟩ := ht
    exact ⟨device, hget⟩
  · rintro ⟨device, hget⟩
    exact ⟨toLex (device, deliveryId), by
      rw [Finset.mem_filter, mem_keySet]
      exact ⟨⟨_, hget⟩, rfl⟩⟩

/-- A Welcome waits for at most the devices its bundle names. -/
lemma InboxOk.targetCount_le (h : InboxOk s) {w : StoredWelcome}
      (hw : s.welcomes.get? deliveryId = some w) :
    targetCount s.deviceWelcomes deliveryId ≤ w.bundle.deviceIds.length := by
  calc targetCount s.deviceWelcomes deliveryId
      ≤ w.bundle.deviceIds.toFinset.card := by
        refine Finset.card_le_card_of_injOn (fun t => (ofLex t).1) ?_ ?_
        · intro t ht
          obtain ⟨⟨device, id⟩, rfl⟩ := toLex.surjective t
          rw [Finset.mem_coe, Finset.mem_filter, mem_keySet] at ht
          obtain ⟨⟨_, hget⟩, rfl⟩ := ht
          obtain ⟨w', hw', hdevice⟩ := h.welcome_of_target hget
          rw [ofLex_toLex, hw', Option.some.injEq] at hw
          subst hw
          simpa using hdevice
        · intro t ht t' ht' heq
          rw [Finset.mem_coe, Finset.mem_filter] at ht ht'
          exact ofLex.injective (Prod.ext heq (ht.2.trans ht'.2.symm))
    _ ≤ w.bundle.deviceIds.length := toFinset_card_le _

/-! ## The whole validation -/

/-- The checks of `validateMemory`, one field for each loop. -/
structure Validated (s : MemoryState) : Prop where
  next_pos : 0 < s.global.nextWelcomeDeliveryId
  rooms : ∀ room ∈ s.rooms.values, validateRoom s room = .ok ()
  events : ∀ {r q stored}, s.events.get? (toLex (r, q)) = some stored →
    validateEvent s r q stored = .ok ()
  counts : s.events.entries.countP (fun e => e.2.event.eventId?.isSome) = s.eventIds.size ∧
    s.events.entries.countP (fun e => e.2.event.parentEpoch?.isSome) = s.commitEpochs.size
  cursors : ∀ {r device c}, s.deviceCursors.get? (toLex (r, device)) = some c →
    validateCursor s r device c = .ok ()
  welcomes : ∀ {deliveryId w}, s.welcomes.get? deliveryId = some w → WelcomeChecked s deliveryId w
  targets : countTargets s s.deviceWelcomes.keys OrdMap.empty = .ok s.welcomeTargetCounts
  welcome_cursors : ∀ {device deliveryId}, s.welcomeCursors.get? device = some deliveryId →
    0 < deliveryId ∧ deliveryId < s.global.nextWelcomeDeliveryId

lemma validateMemory_eq_ok : validateMemory s = .ok () ↔ Validated s := by
  simp only [validateMemory, bind_eq_ok, reject_eq_ok, forM_eq_ok, not_or, not_not, any_eq_true,
    decide_eq_true_eq, not_exists, not_and, not_le]
  constructor
  · rintro ⟨-, hnext, -, hrooms, -, hevents, -, hcounts, -, hcursors, -, hwelcomes, counts,
      hcount, -, rfl, hwc⟩
    refine ⟨by omega, hrooms, ?_, hcounts, ?_, ?_, hcount, ?_⟩
    · intro r q stored hget
      exact hevents _ (mem_entries.mpr hget)
    · intro r device c hget
      exact hcursors _ (mem_entries.mpr hget)
    · intro deliveryId w hget
      exact validateWelcome_eq_ok.mp (hwelcomes _ (mem_entries.mpr hget))
    · intro device deliveryId hget
      have := hwc deliveryId (mem_values.mpr ⟨device, hget⟩)
      omega
  · intro h
    refine ⟨(), by have := h.next_pos; omega, (), h.rooms, (), ?_, (), h.counts, (), ?_, (), ?_, _,
      h.targets, (), rfl, ?_⟩
    · rintro ⟨k, stored⟩ hmem
      exact h.events (mem_entries.mp hmem)
    · rintro ⟨k, c⟩ hmem
      exact h.cursors (mem_entries.mp hmem)
    · rintro ⟨id, w⟩ hmem
      exact validateWelcome_eq_ok.mpr (h.welcomes (mem_entries.mp hmem))
    · intro deliveryId hmem
      obtain ⟨device, hget⟩ := mem_values.mp hmem
      have := h.welcome_cursors hget
      omega

lemma Validated.logInv (h : Validated s) (hk : Keyed s) : LogInv s where
  room_ok hroom :=
    (validateRoom_eq_ok (hk.room hroom) (h.rooms _ (mem_values.mpr ⟨_, hroom⟩))).room_ok
  event_of_room hroom :=
    (validateRoom_eq_ok (hk.room hroom) (h.rooms _ (mem_values.mpr ⟨_, hroom⟩))).event_of_room
  room_of_event hevent := (validateEvent_eq_ok.mp (h.events hevent)).1
  event_ids := indexOf_of_count
    (fun hget hlabel => (validateEvent_eq_ok.mp (h.events hget)).2.1 _ hlabel) h.counts.1
  commit_epochs := indexOf_of_count
    (fun hget hlabel => (validateEvent_eq_ok.mp (h.events hget)).2.2 _ hlabel) h.counts.2

lemma Validated.inboxOk (h : Validated s) : InboxOk s := by
  obtain ⟨htargets, hcounts⟩ := countTargets_eq_ok h.targets
  have hcount : ∀ deliveryId, s.welcomeTargetCounts.get? deliveryId =
      if targetCount s.deviceWelcomes deliveryId = 0 then none
      else some (targetCount s.deviceWelcomes deliveryId) := by
    intro deliveryId
    rw [hcounts, countP_keys_eq_targetCount, countAfter, get?_empty, Option.getD_none, Nat.zero_add]
  refine ⟨?_, ?_, hcount⟩
  · intro device deliveryId hget
    exact htargets _ (mem_keys.mpr ⟨_, hget⟩)
  · intro deliveryId w hw
    obtain ⟨n, hn, hn0, -⟩ := (h.welcomes hw).count
    rw [hcount] at hn
    exact targetCount_ne_zero.mp fun h0 => by simp [h0] at hn

lemma Validated.storeInv (h : Validated s) (hk : Keyed s) : StoreInv s where
  log := h.logInv hk
  cursors :=
    { cursor_of_required := fun hroom => (validateRoom_eq_ok (hk.room hroom)
        (h.rooms _ (mem_values.mpr ⟨_, hroom⟩))).cursor_of_required
      cursor_ok := fun hcursor => validateCursor_eq_ok.mp (h.cursors hcursor) }
  welcomes :=
    { next_pos := h.next_pos
      inbox := h.inboxOk
      welcome_ok := fun hw =>
        let c := h.welcomes hw
        ⟨hk.welcome hw, c.id_pos, c.id_lt, c.bundle_ok, c.sequence_pos, c.room⟩
      cursor_ok := h.welcome_cursors }

lemma InboxOk.targetCount_le_u16Max (h : InboxOk s)
      (hbundle : ∀ {deliveryId w}, s.welcomes.get? deliveryId = some w → BundleOk w.bundle)
    (deliveryId : ℕ) : targetCount s.deviceWelcomes deliveryId ≤ u16Max := by
  by_cases hzero : targetCount s.deviceWelcomes deliveryId = 0
  · omega
  obtain ⟨device, hget⟩ := targetCount_ne_zero.mp hzero
  obtain ⟨w, hw, -⟩ := h.welcome_of_target hget
  have hle := h.targetCount_le hw
  have hbound := (hbundle hw).devices_le
  unfold maxMlsWelcomesPerCommit at hbound
  unfold u16Max
  omega

lemma InboxOk.countTargets (h : InboxOk s) (hbundle : ∀ {deliveryId w},
      s.welcomes.get? deliveryId = some w → BundleOk w.bundle) :
    countTargets s s.deviceWelcomes.keys OrdMap.empty = .ok s.welcomeTargetCounts := by
  have htargets : ∀ t ∈ s.deviceWelcomes.keys, TargetOk s t := by
    intro t ht
    obtain ⟨_, hget⟩ := mem_keys.mp ht
    exact h.welcome_of_target hget
  have hmax : ∀ id, ((OrdMap.empty : OrdMap ℕ ℕ).get? id).getD 0 +
      (s.deviceWelcomes.keys.countP fun t => (ofLex t).2 = id) ≤ u16Max := by
    intro id
    rw [get?_empty, Option.getD_none, Nat.zero_add, countP_keys_eq_targetCount]
    exact h.targetCount_le_u16Max hbundle id
  obtain ⟨result, hresult⟩ := countTargets_of_targetOk htargets hmax
  have hcounts := (countTargets_eq_ok hresult).2
  rw [hresult]
  refine congrArg Except.ok (ext_get? fun id => ?_)
  rw [hcounts, countP_keys_eq_targetCount, h.counts, countAfter, get?_empty,
    Option.getD_none, Nat.zero_add]

lemma StoreInv.validated (h : StoreInv s) : Validated s where
  next_pos := h.welcomes.next_pos
  rooms := by
    intro room hroom
    obtain ⟨r, hget⟩ := mem_values.mp hroom
    refine validateRoom_of_checked (r := r) ⟨h.log.room_ok hget, fun hlo hhi =>
      h.log.event_of_room hget hlo hhi, fun hd => h.cursors.cursor_of_required hget hd⟩ ?_
    intro q stored hstored
    obtain ⟨-, -, -, -, hseq⟩ := h.log.room_of_event hstored
    exact hseq
  events hevent := validateEvent_eq_ok.mpr ⟨h.log.room_of_event hevent,
    fun _ hlabel => h.log.event_ids.indexed hevent hlabel, fun _ hlabel =>
    h.log.commit_epochs.indexed hevent hlabel⟩
  counts := ⟨h.log.event_ids.count, h.log.commit_epochs.count⟩
  cursors hcursor := validateCursor_eq_ok.mpr (h.cursors.cursor_ok hcursor)
  welcomes := by
    intro deliveryId w hw
    have hok := h.welcomes.welcome_ok hw
    have htarget : targetCount s.deviceWelcomes deliveryId ≠ 0 :=
      targetCount_ne_zero.mpr (h.welcomes.inbox.target_of_welcome hw)
    refine ⟨hok.id_pos, hok.id_lt, hok.bundle_ok, hok.sequence_pos, hok.room,
      targetCount s.deviceWelcomes deliveryId, ?_, htarget, h.welcomes.inbox.targetCount_le hw⟩
    rw [h.welcomes.inbox.counts, if_neg htarget]
  targets := h.welcomes.inbox.countTargets fun hw => (h.welcomes.welcome_ok hw).bundle_ok
  welcome_cursors := h.welcomes.cursor_ok

/-- The validation passes exactly on the states of the invariant. -/
lemma validateMemory_eq_ok_iff (hk : Keyed s) : validateMemory s = .ok () ↔ StoreInv s := by
  rw [validateMemory_eq_ok]
  exact ⟨fun h => h.storeInv hk, StoreInv.validated⟩

lemma StoreInv.validateMemory (h : StoreInv s) : validateMemory s = .ok () :=
  (validateMemory_eq_ok_iff h.keyed).mpr h

lemma StoreInv.initial : StoreInv MemoryState.initial :=
  (validateMemory_eq_ok_iff (by decide)).mp (by decide)

end Chatt
