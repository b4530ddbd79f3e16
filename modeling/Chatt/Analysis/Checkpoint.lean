import Chatt.Model.Checkpoint
import Chatt.Analysis.ValidateMemory
import Chatt.Model.MlsStore

/-!
# A checkpoint is read back

`loadCheckpoint` applied to the bytes of `serializeCheckpoint` rebuilds the state.  The
payload block is laid out element after element (`layOut_eq_some`), every loop of the loader
is an insertion of sorted entries, and the two indexes and the target counts, which the file
does not hold, come out right because the invariant determines them.
-/

namespace Chatt

open Chatt.Lib List OrdMap Option

variable {s : MemoryState}
variable {block : Bytes} {jsony : Jsony} {stored : StoredEvent}

/-! ## The payload block -/

/-- `len` bytes from `offset` on are `bytes`, whatever is appended to the block. -/
def SliceOf (block : Bytes) (offset : ℕ) (bytes : Bytes) : Prop :=
  ∃ before after, block = before ++ bytes ++ after ∧ before.length = offset

lemma SliceOf.append {bytes : Bytes} {offset : ℕ} (h : SliceOf block offset bytes) (more : Bytes) :
    SliceOf (block ++ more) offset bytes := by
  obtain ⟨before, after, rfl, hlen⟩ := h
  exact ⟨before, after ++ more, by simp [append_assoc], hlen⟩

lemma decodePayload_of_sliceOf {α : Type} (codec : Codec α) {offset : ℕ} (kind : String) (value : α)
    (h : SliceOf block offset (codec.encode value)) :
    decodePayload codec block offset (codec.encode value).length kind = .ok value := by
  obtain ⟨before, after, rfl, rfl⟩ := h
  have hslice : payloadSlice (before ++ codec.encode value ++ after) before.length
      (codec.encode value).length kind = .ok (codec.encode value) := by
    unfold payloadSlice
    rw [if_pos (by simp only [length_append]; omega), append_assoc, drop_left, take_left]
  unfold decodePayload
  rw [hslice]
  simp only [codec.decode_encode]

section LayOut

variable {α ρ : Type} {encode : α → Bytes} {row : α → ℕ → ℕ → ρ}

/-- The block starts with what it held before, and every row points at its encoding. -/
lemma layOut_eq_some {l : List α} {payloads : Bytes} {rows : List ρ}
    (h : layOut encode row l payloads = some (rows, block)) : (∃ tail, block = payloads ++ tail) ∧
      List.Forall₂ (fun r a => ∃ offset, r = row a offset (encode a).length ∧
        SliceOf block offset (encode a)) rows l := by
  induction l generalizing payloads rows with
  | nil =>
    cases h
    exact ⟨⟨[], by simp⟩, List.Forall₂.nil⟩
  | cons a rest ih =>
    unfold layOut at h
    simp only at h
    split_ifs at h with hlen
    split at h
    · cases h
    next rows' block' hrest =>
    cases h
    obtain ⟨⟨tail, htail⟩, hrows⟩ := ih hrest
    refine ⟨⟨encode a ++ tail, by rw [htail, append_assoc]⟩, ?_⟩
    exact List.Forall₂.cons ⟨payloads.length, rfl, payloads, tail, htail, rfl⟩ hrows

variable (encode row) in
lemma layOut_of_fits {l : List α} (h : ∀ a ∈ l, (encode a).length ≤ u32Max) (payloads : Bytes) :
    ∃ result, layOut encode row l payloads = some result := by
  induction l generalizing payloads with
  | nil => exact ⟨_, rfl⟩
  | cons a rest ih =>
    obtain ⟨⟨rows, block⟩, hrest⟩ :=
      ih (fun b hb => h b (mem_cons_of_mem _ hb)) (payloads ++ encode a)
    have hlen := h a mem_cons_self
    unfold layOut
    simp only [hrest]
    rw [if_neg (by omega)]
    exact ⟨_, rfl⟩

lemma layOut_eq_none {l : List α} {a : α} (ha : a ∈ l) (h : u32Max < (encode a).length)
    (payloads : Bytes) : layOut encode row l payloads = none := by
  induction l generalizing payloads with
  | nil => cases ha
  | cons b rest ih =>
    unfold layOut
    simp only
    split_ifs with hlen
    · rfl
    · rcases mem_cons.mp ha with rfl | hrest
      · exact absurd h hlen
      · rw [ih hrest]

end LayOut

/-! ## The state a checkpoint stands for -/

/-- A loaded event or Welcome is accounted with the length of its encoding. -/
def reloadEvent (jsony : Jsony) (stored : StoredEvent) : StoredEvent :=
  { stored with payloadLen := (jsony.event.encode stored.event).length }

def reloadWelcome (jsony : Jsony) (stored : StoredWelcome) : StoredWelcome :=
  { stored with payloadLen := (jsony.bundle.encode stored.bundle).length }

/-- The state with its byte accounting as a reload leaves it. -/
def reloaded (jsony : Jsony) (s : MemoryState) : MemoryState :=
  { s with
    events := s.events.mapValues (reloadEvent jsony)
    welcomes := s.welcomes.mapValues (reloadWelcome jsony)
    retiredPayloadBytes := 0 }

/-- Every encoded event and Welcome fits the `u32` length of its row. -/
structure PayloadsFit (jsony : Jsony) (s : MemoryState) : Prop where
  event : ∀ {k stored}, s.events.get? k = some stored →
    (jsony.event.encode stored.event).length ≤ u32Max
  welcome : ∀ {k stored}, s.welcomes.get? k = some stored →
    (jsony.bundle.encode stored.bundle).length ≤ u32Max

instance (jsony : Jsony) (s : MemoryState) : Decidable (PayloadsFit jsony s) :=
  decidable_of_iff
    ((∀ e ∈ s.events.entries, (jsony.event.encode e.2.event).length ≤ u32Max) ∧
      ∀ e ∈ s.welcomes.entries, (jsony.bundle.encode e.2.bundle).length ≤ u32Max)
    ⟨fun h => ⟨fun he => h.1 _ (mem_entries.mpr he), fun hw => h.2 _ (mem_entries.mpr hw)⟩,
      fun h => ⟨fun _ he => h.event (mem_entries.mp he), fun _ he => h.welcome (mem_entries.mp he)⟩⟩

/-! ## Loading the events -/

section Index

variable {α : Type} [LinearOrder α] {label : MlsDeliveryEvent → Option α}
  {index : OrdMap (RoomId ×ₗ α) ℕ} {done l : List ((RoomId ×ₗ ℕ) × StoredEvent)}

/-- The index of the labelled events of a list of entries. -/
def ListIndex (label : MlsDeliveryEvent → Option α)
    (l : List ((RoomId ×ₗ ℕ) × StoredEvent)) (index : OrdMap (RoomId ×ₗ α) ℕ) : Prop :=
  ∀ r a q, index.get? (toLex (r, a)) = some q ↔ ∃ stored, (toLex (r, q), stored) ∈ l ∧
    label stored.event = some a

/-- At most one entry of the list carries a label, room by room. -/
def LabelUnique (label : MlsDeliveryEvent → Option α)
    (l : List ((RoomId ×ₗ ℕ) × StoredEvent)) : Prop :=
  ∀ {r a q q' stored stored'}, (toLex (r, q), stored) ∈ l → (toLex (r, q'), stored') ∈ l →
    label stored.event = some a → label stored'.event = some a → q = q'

variable {events : OrdMap (RoomId ×ₗ ℕ) StoredEvent}

lemma IndexOf.listIndex (h : IndexOf events label index) :
    ListIndex label events.entries index := by
  intro r a q
  rw [h r a q]
  exact exists_congr fun stored => and_congr_left fun _ => mem_entries.symm

lemma IndexOf.labelUnique (h : IndexOf events label index) : LabelUnique label events.entries := by
  intro r a q q' stored stored' hmem hmem' hlabel hlabel'
  have hq := h.indexed (mem_entries.mp hmem) hlabel
  have hq' := h.indexed (mem_entries.mp hmem') hlabel'
  rw [hq, some.injEq] at hq'
  exact hq'

lemma ListIndex.unique {index' : OrdMap (RoomId ×ₗ α) ℕ} (h : ListIndex label l index)
    (h' : ListIndex label l index') : index = index' := by
  refine ext_get? fun k => Option.ext fun q => ?_
  obtain ⟨⟨r, a⟩, rfl⟩ := toLex.surjective k
  exact (h r a q).trans (h' r a q).symm

lemma ListIndex.skip (h : ListIndex label done index) {e : (RoomId ×ₗ ℕ) × StoredEvent}
    (hlabel : label e.2.event = none) : ListIndex label (done ++ [e]) index := by
  intro r a q
  rw [h r a q]
  refine exists_congr fun stored => ?_
  rw [mem_append, mem_singleton]
  constructor
  · rintro ⟨hmem, ha⟩
    exact ⟨Or.inl hmem, ha⟩
  · rintro ⟨hmem | rfl, ha⟩
    · exact ⟨hmem, ha⟩
    · exact absurd (hlabel.symm.trans ha) (by simp)

/-- A labelled entry finds its index key free, and takes it. -/
lemma ListIndex.push (h : ListIndex label done index) {r : RoomId} {q : ℕ} {a : α}
      (hlabel : label stored.event = some a)
    (hunique : LabelUnique label (done ++ [(toLex (r, q), stored)]))
    (hnew : ∀ stored', (toLex (r, q), stored') ∉ done) :
    index.get? (toLex (r, a)) = none ∧
    ListIndex label (done ++ [(toLex (r, q), stored)]) (index.insert (toLex (r, a)) q) := by
  have hlast : (toLex (r, q), stored) ∈ done ++ [(toLex (r, q), stored)] := by simp
  constructor
  · rw [eq_none_iff_forall_ne_some]
    intro q' hq'
    obtain ⟨stored', hmem, hlabel'⟩ := (h r a q').mp hq'
    have hq := hunique hlast (mem_append_left _ hmem) hlabel hlabel'
    subst hq
    exact hnew _ hmem
  · intro r' a' q'
    rw [get?_insert]
    by_cases hkey : toLex (r', a') = toLex (r, a)
    · obtain ⟨rfl, rfl⟩ := Prod.mk.inj (toLex.injective hkey)
      rw [if_pos rfl, some.injEq]
      constructor
      · rintro rfl
        exact ⟨stored, hlast, hlabel⟩
      · rintro ⟨stored', hmem, hlabel'⟩
        exact hunique hlast hmem hlabel hlabel'
    · rw [if_neg hkey, h r' a' q']
      refine exists_congr fun stored' => ?_
      rw [mem_append, mem_singleton]
      constructor
      · rintro ⟨hmem, ha⟩
        exact ⟨Or.inl hmem, ha⟩
      rintro ⟨hmem | heq, ha⟩
      · exact ⟨hmem, ha⟩
      · obtain ⟨hk, rfl⟩ := Prod.mk.inj heq
        obtain ⟨rfl, rfl⟩ := Prod.mk.inj (toLex.injective hk)
        rw [hlabel, some.injEq] at ha
        exact absurd (by rw [ha]) hkey

end Index

/-- The log of a partly loaded state: exactly the entries read so far. -/
structure LogLoaded (jsony : Jsony) (done : List ((RoomId ×ₗ ℕ) × StoredEvent))
    (s : MemoryState) : Prop where
  events : ∀ k v, s.events.get? k = some v ↔ ∃ stored, (k, stored) ∈ done ∧
    v = reloadEvent jsony stored
  event_ids : ListIndex MlsDeliveryEvent.eventId? done s.eventIds
  commit_epochs : ListIndex MlsDeliveryEvent.parentEpoch? done s.commitEpochs

variable {done : List ((RoomId ×ₗ ℕ) × StoredEvent)}

lemma loadIndexes_step {r : RoomId} {q : ℕ} (h : LogLoaded jsony done s)
      (hids : LabelUnique MlsDeliveryEvent.eventId? (done ++ [(toLex (r, q), stored)]))
    (hepochs : LabelUnique MlsDeliveryEvent.parentEpoch? (done ++ [(toLex (r, q), stored)]))
    (hnew : ∀ stored', (toLex (r, q), stored') ∉ done) :
    ∃ eventIds commitEpochs, loadIndexes s r stored.event q =
      .ok { s with eventIds, commitEpochs } ∧
      ListIndex MlsDeliveryEvent.eventId? (done ++ [(toLex (r, q), stored)]) eventIds ∧
      ListIndex MlsDeliveryEvent.parentEpoch? (done ++ [(toLex (r, q), stored)]) commitEpochs := by
  cases hev : stored.event with
  | application sequence epoch eventId rosters ciphertext =>
    have hlabel : stored.event.eventId? = some eventId := by rw [hev]; rfl
    have hnone : stored.event.parentEpoch? = none := by rw [hev]; rfl
    obtain ⟨hfree, hindex⟩ := h.event_ids.push hlabel hids hnew
    refine ⟨_, s.commitEpochs, ?_, hindex, h.commit_epochs.skip hnone⟩
    unfold loadIndexes
    simp only [OrdMap.contains, hfree, isSome_none, Bool.false_eq_true, if_false]
  | commit sequence parentEpoch epoch rosters bytes =>
    have hlabel : stored.event.parentEpoch? = some parentEpoch := by rw [hev]; rfl
    have hnone : stored.event.eventId? = none := by rw [hev]; rfl
    obtain ⟨hfree, hindex⟩ := h.commit_epochs.push hlabel hepochs hnew
    refine ⟨s.eventIds, _, ?_, h.event_ids.skip hnone, hindex⟩
    unfold loadIndexes
    simp only [OrdMap.contains, hfree, isSome_none, Bool.false_eq_true, if_false]

lemma LogLoaded.insert {k : RoomId ×ₗ ℕ} (h : ∀ k v, s.events.get? k = some v ↔
      ∃ stored, (k, stored) ∈ done ∧ v = reloadEvent jsony stored)
    (hnew : ∀ stored', (k, stored') ∉ done) (k' : RoomId ×ₗ ℕ) (v : StoredEvent) :
    (s.events.insert k (reloadEvent jsony stored)).get? k' = some v ↔
      ∃ stored', (k', stored') ∈ done ++ [(k, stored)] ∧ v = reloadEvent jsony stored' := by
  rw [get?_insert]
  by_cases hk : k' = k
  · subst hk
    rw [if_pos rfl, some.injEq]
    constructor
    · rintro rfl
      exact ⟨stored, by simp, rfl⟩
    · rintro ⟨stored', hmem, rfl⟩
      rcases mem_append.mp hmem with hmem | hmem
      · exact absurd hmem (hnew _)
      · rw [mem_singleton, Prod.mk.injEq] at hmem
        rw [hmem.2]
  · rw [if_neg hk, h k' v]
    refine exists_congr fun stored' => and_congr_left fun _ => ?_
    simp [hk]

lemma loadEvents_of_rows {rows : List EventCheckpoint} (done : List ((RoomId ×ₗ ℕ) × StoredEvent))
      {l : List ((RoomId ×ₗ ℕ) × StoredEvent)}
    (hrows : List.Forall₂ (fun row e => ∃ offset,
      row = eventRow e offset (jsony.event.encode e.2.event).length ∧
      SliceOf block offset (jsony.event.encode e.2.event)) rows l)
        (hseq : ∀ e ∈ l, e.2.event.sequence = (ofLex e.1).2)
    (hsorted : (done ++ l).Pairwise (fun a b => a.1 < b.1))
    (hids : LabelUnique MlsDeliveryEvent.eventId? (done ++ l))
    (hepochs : LabelUnique MlsDeliveryEvent.parentEpoch? (done ++ l))
    (hloaded : LogLoaded jsony done s) : ∃ events eventIds commitEpochs,
      loadEvents jsony block rows s = .ok { s with events, eventIds, commitEpochs } ∧
      LogLoaded jsony (done ++ l) { s with events, eventIds, commitEpochs } := by
  -- The entries read so far move from the rows to `done`.
  induction hrows generalizing done s with
  | nil => exact ⟨s.events, s.eventIds, s.commitEpochs, rfl, by simpa using hloaded⟩
  | @cons row e rows l hrow _ ih =>
    obtain ⟨k, stored⟩ := e
    obtain ⟨⟨r, q⟩, rfl⟩ := toLex.surjective k
    obtain ⟨offset, rfl, hslice⟩ := hrow
    have hnew : ∀ stored', (toLex (r, q), stored') ∉ done := by
      intro stored' hmem
      have hlt := (pairwise_append.mp hsorted).2.2 _ hmem (toLex (r, q), stored)
        mem_cons_self
      exact lt_irrefl _ hlt
    rw [append_cons] at hsorted hids hepochs
    have hstep := loadIndexes_step hloaded
      (fun h h' => hids (mem_append_left _ h) (mem_append_left _ h'))
      (fun h h' => hepochs (mem_append_left _ h) (mem_append_left _ h')) hnew
    obtain ⟨ids, epochs, hindex, hidsDone, hepochsDone⟩ := hstep
    have hfree : s.events.contains (toLex (r, q)) = false := by
      rw [contains_eq_false_iff, eq_none_iff_forall_ne_some]
      intro v hv
      obtain ⟨stored', hmem, -⟩ := (hloaded.events _ _).mp hv
      exact hnew _ hmem
    obtain ⟨events, eventIds, commitEpochs, hrest, hlog⟩ :=
      ih (done ++ [(toLex (r, q), stored)])
        (s := { s with
          eventIds := ids
          commitEpochs := epochs
          events := s.events.insert (toLex (r, q)) (reloadEvent jsony stored) })
        (fun e he => hseq e (mem_cons_of_mem _ he)) hsorted hids hepochs
        ⟨LogLoaded.insert hloaded.events hnew, hidsDone, hepochsDone⟩
    refine ⟨events, eventIds, commitEpochs, ?_, by rw [append_cons]; exact hlog⟩
    unfold loadEvents
    have hq : stored.event.sequence = q := hseq _ mem_cons_self
    simp only [eventRow, ofLex_toLex, decodePayload_of_sliceOf jsony.event "event" _ hslice, hq,
      ne_eq, not_true_eq_false, if_false, hindex, hfree, Bool.false_eq_true]
    exact hrest

/-! ## Loading the Welcome targets -/

lemma loadTargets_of_keys (targets : OrdSet (DeviceId ×ₗ ℕ)) (done : List (DeviceId ×ₗ ℕ))
      {l : List (DeviceId ×ₗ ℕ)}
    (acc : OrdSet (DeviceId ×ₗ ℕ)) (counts : OrdMap ℕ ℕ) (hkeys : targets.keys = done ++ l)
    (hmax : ∀ deliveryId, targetCount targets deliveryId ≤ u16Max)
    (hacc : ∀ t, acc.get? t = some () ↔ t ∈ done)
    (hcounts : ∀ deliveryId, counts.get? deliveryId =
      countAfter none (done.countP fun t => (ofLex t).2 = deliveryId)) :
    ∃ acc' counts', loadTargets (l.map fun t =>
        { deliveryId := (ofLex t).2, deviceId := (ofLex t).1 }) acc counts = .ok (acc', counts') ∧
      (∀ t, acc'.get? t = some () ↔ t ∈ targets.keys) ∧
      ∀ deliveryId, counts'.get? deliveryId = countAfter none (targetCount targets deliveryId) := by
  induction l generalizing done acc counts with
  | nil =>
    rw [append_nil] at hkeys
    refine ⟨acc, counts, rfl, by rw [hkeys]; exact hacc, ?_⟩
    intro deliveryId
    rw [hcounts, ← countP_keys_eq_targetCount, hkeys]
  | cons t rest ih =>
    obtain ⟨⟨device, id⟩, rfl⟩ := toLex.surjective t
    have hnodup : (done ++ toLex (device, id) :: rest).Nodup := hkeys ▸ targets.nodup_keys
    have hfree : acc.contains (toLex (device, id)) = false := by
      rw [contains_eq_false_iff, eq_none_iff_forall_ne_some]
      rintro ⟨⟩ hget
      exact (nodup_append.mp hnodup).2.2 _ ((hacc _).mp hget) _ mem_cons_self rfl
    have hcount : (counts.get? id).getD 0 = done.countP fun t => (ofLex t).2 = id := by
      rw [hcounts, countAfter]
      split_ifs with hzero
      · rw [hzero]; rfl
      · simp
    have hbound := hmax id
    rw [← countP_keys_eq_targetCount, hkeys, countP_append, countP_cons_of_pos (by simp)] at hbound
    rw [append_cons] at hkeys
    obtain ⟨acc', counts', hrest, hresult⟩ := ih (done ++ [toLex (device, id)])
      (acc.insert (toLex (device, id)) ()) (counts.insert id ((counts.get? id).getD 0 + 1)) hkeys
      (by
        intro t
        rw [get?_insert]
        by_cases ht : t = toLex (device, id)
        · simp [ht]
        · rw [if_neg ht, hacc]
          simp [ht])
      (by
        intro deliveryId
        rw [get?_insert, countP_append, countP_singleton]
        by_cases hid : deliveryId = id
        · subst hid
          rw [if_pos rfl, hcount]
          simp [countAfter]
        · rw [if_neg hid, hcounts]
          simp [Ne.symm hid])
    have hsmall : ¬ ((counts.get? id).getD 0 + 1 > u16Max) := by omega
    refine ⟨acc', counts', ?_, hresult⟩
    rw [map_cons]
    unfold loadTargets
    simp only [ofLex_toLex, hfree, hsmall, Bool.false_eq_true, if_false]
    exact hrest

/-! ## The round trip -/

lemma loadCursor_cursorRow {head : ℕ} {e : (RoomId ×ₗ DeviceId) × DeviceCursor}
    (h : CursorOk head e.2) (hmax : head < u64Max) : loadCursor (cursorRow e) = e.2 := by
  -- The sentinel for "no watermark" is never a watermark: those stay below the head.
  obtain ⟨key, highest, start, ack, rejoin⟩ := e
  unfold loadCursor cursorRow
  cases rejoin with
  | none => simp
  | some w =>
    have := (h.rejoin_ok w rfl).2
    simp only [getD_some]
    rw [if_pos (by omega)]

lemma forall₂_of_mem {α ρ : Type} {R S : ρ → α → Prop} {rows : List ρ} {l : List α}
      (h : List.Forall₂ R rows l)
    (himp : ∀ row, ∀ a ∈ l, R row a → S row a) : List.Forall₂ S rows l := by
  induction h with
  | nil => exact List.Forall₂.nil
  | cons hrow _ ih =>
    exact List.Forall₂.cons (himp _ _ mem_cons_self hrow)
      (ih fun row a ha => himp row a (mem_cons_of_mem _ ha))

lemma loadRooms_values (hk : Keyed s) : loadRooms s.rooms.values OrdMap.empty = .ok s.rooms := by
  refine insertAll_empty ?_
  rw [OrdMap.values, forall₂_map_left_iff, forall₂_same]
  intro e he
  rw [hk.room (mem_entries.mp he)]

lemma loadCursors_entries (h : StoreInv s) :
    loadCursors (s.deviceCursors.entries.map cursorRow) OrdMap.empty = .ok s.deviceCursors := by
  refine insertAll_empty ?_
  rw [forall₂_map_left_iff, forall₂_same]
  intro e he
  obtain ⟨k, c⟩ := e
  obtain ⟨room, hroom, -, hok⟩ := h.cursors.cursor_ok (mem_entries.mp he)
  rw [loadCursor_cursorRow hok (h.log.room_ok hroom).head_lt]
  rfl

lemma loadWelcomes_rows (hk : Keyed s) {rows : List WelcomeCheckpoint}
    (hrows : List.Forall₂ (fun row stored => ∃ offset,
      row = welcomeRow stored offset (jsony.bundle.encode stored.bundle).length ∧
      SliceOf block offset (jsony.bundle.encode stored.bundle)) rows s.welcomes.values) :
    loadWelcomes jsony block rows OrdMap.empty =
      .ok (s.welcomes.mapValues (reloadWelcome jsony)) := by
  refine insertAll_empty ?_
  show List.Forall₂ _ rows (s.welcomes.entries.map fun e => (e.1, reloadWelcome jsony e.2))
  rw [OrdMap.values, forall₂_map_right_iff] at hrows
  rw [forall₂_map_right_iff]
  refine forall₂_of_mem hrows ?_
  rintro row ⟨deliveryId, stored⟩ hmem ⟨offset, rfl, hslice⟩
  have hkey := hk.welcome (mem_entries.mp hmem)
  unfold loadWelcome
  simp only [welcomeRow, decodePayload_of_sliceOf jsony.bundle "Welcome" _ hslice, hkey]
  rw [← hkey]
  rfl

lemma loadTargets_entries (h : StoreInv s) : loadTargets (s.deviceWelcomes.keys.map fun t =>
      { deliveryId := (ofLex t).2, deviceId := (ofLex t).1 }) OrdMap.empty OrdMap.empty =
      .ok (s.deviceWelcomes, s.welcomeTargetCounts) := by
  have hmax := h.welcomes.inbox.targetCount_le_u16Max fun hw => (h.welcomes.welcome_ok hw).bundle_ok
  obtain ⟨targets, counts, hload, htargets, hcounts⟩ :=
    loadTargets_of_keys s.deviceWelcomes [] OrdMap.empty OrdMap.empty (nil_append _).symm
      hmax (by simp) (by simp [countAfter])
  have heq : targets = s.deviceWelcomes := by
    refine ext_get? fun t => Option.ext fun u => ?_
    cases u
    rw [htargets, OrdMap.mem_keys]
    constructor
    · rintro ⟨_, hget⟩
      exact hget
    · exact fun hget => ⟨_, hget⟩
  have heq' : counts = s.welcomeTargetCounts := by
    refine ext_get? fun deliveryId => ?_
    rw [hcounts, h.welcomes.inbox.counts, countAfter, getD_none, Nat.zero_add]
  rw [hload, heq, heq']

lemma loadWelcomeCursors_entries (s : MemoryState) :
    loadWelcomeCursors (s.welcomeCursors.entries.map fun e =>
      { deliveryId := e.2, deviceId := e.1 }) OrdMap.empty = .ok s.welcomeCursors := by
  refine insertAll_empty ?_
  rw [forall₂_map_left_iff, forall₂_same]
  intro e _
  rfl

lemma loadEvents_entries (h : LogInv s) {rows : List EventCheckpoint}
    (hrows : List.Forall₂ (fun row e => ∃ offset,
      row = eventRow e offset (jsony.event.encode e.2.event).length ∧
      SliceOf block offset (jsony.event.encode e.2.event)) rows s.events.entries)
        (start : MemoryState) (hevents : start.events = OrdMap.empty)
    (hids : start.eventIds = OrdMap.empty) (hepochs : start.commitEpochs = OrdMap.empty) :
    loadEvents jsony block rows start = .ok { start with
      events := s.events.mapValues (reloadEvent jsony)
      eventIds := s.eventIds
      commitEpochs := s.commitEpochs } := by
  have hseq : ∀ e ∈ s.events.entries, e.2.event.sequence = (ofLex e.1).2 := by
    rintro ⟨k, stored⟩ hmem
    obtain ⟨-, -, -, -, hq⟩ := h.room_of_event (mem_entries.mp hmem)
    exact hq
  have hempty : LogLoaded jsony [] start := by
    refine ⟨?_, ?_, ?_⟩
    · intro k v
      simp [hevents]
    · intro r i q
      simp [hids]
    · intro r e q
      simp [hepochs]
  obtain ⟨events, eventIds, commitEpochs, hload, hlog⟩ :=
    loadEvents_of_rows [] hrows hseq s.events.sorted h.event_ids.labelUnique
      h.commit_epochs.labelUnique hempty
  have hev : events = s.events.mapValues (reloadEvent jsony) := by
    refine ext_get? fun k => Option.ext fun v => ?_
    rw [get?_mapValues, map_eq_some_iff]
    refine (hlog.events k v).trans (exists_congr fun stored => ?_)
    rw [nil_append, mem_entries, eq_comm (a := v)]
  have hidsEq : eventIds = s.eventIds := hlog.event_ids.unique h.event_ids.listIndex
  have hepochsEq : commitEpochs = s.commitEpochs :=
    hlog.commit_epochs.unique h.commit_epochs.listIndex
  rw [hload, hev, hidsEq, hepochsEq]

lemma loadCheckpoint_header (jsony : Jsony) (body : Checkpoint) :
    loadCheckpoint jsony (some (snapshotHeader ++ jsony.checkpoint.encode body)) =
      loadBody jsony body := by
  have hlen : snapshotHeader.length = 12 := rfl
  have hmagic : (snapshotHeader ++ jsony.checkpoint.encode body).take 8 = snapshotMagic := rfl
  have hversion : leValue (((snapshotHeader ++ jsony.checkpoint.encode body).drop 8).take 4) =
      snapshotVersion := rfl
  have hbody : (snapshotHeader ++ jsony.checkpoint.encode body).drop 12 =
      jsony.checkpoint.encode body := rfl
  unfold loadCheckpoint
  simp only [hmagic, hversion, hbody, jsony.checkpoint.decode_encode]
  rw [if_neg (by simp [hlen]), if_neg (by simp)]

lemma serializeCheckpoint_of_fits (h : PayloadsFit jsony s) :
    ∃ bytes, serializeCheckpoint jsony s = some bytes := by
  obtain ⟨⟨events, block⟩, hevents⟩ := layOut_of_fits
    (fun e => jsony.event.encode e.2.event) eventRow (l := s.events.entries)
    (fun e he => h.event (mem_entries.mp he)) []
  obtain ⟨⟨welcomes, payloads⟩, hwelcomes⟩ := layOut_of_fits
    (fun stored => jsony.bundle.encode stored.bundle) welcomeRow (l := s.welcomes.values)
    (fun w hw => by
      obtain ⟨k, hget⟩ := mem_values.mp hw
      exact h.welcome hget) block
  unfold serializeCheckpoint serializeEvents serializeWelcomes
  rw [hevents]
  simp only [hwelcomes]
  exact ⟨_, rfl⟩

lemma loadCheckpoint_of_serializeCheckpoint (h : StoreInv s) {bytes : Bytes}
    (hbytes : serializeCheckpoint jsony s = some bytes) :
    loadCheckpoint jsony (some bytes) = .ok (reloaded jsony s) := by
  unfold serializeCheckpoint at hbytes
  split at hbytes
  · cases hbytes
  next events block hevents =>
  split at hbytes
  · cases hbytes
  next welcomes payloads hwelcomes =>
  cases hbytes
  obtain ⟨-, heventRows⟩ := layOut_eq_some hevents
  obtain ⟨⟨tail, rfl⟩, hwelcomeRows⟩ := layOut_eq_some hwelcomes
  -- The events' payloads stay where they are when the Welcomes are appended.
  have heventRows' := heventRows.imp fun row e ⟨offset, hrow, hslice⟩ =>
    (⟨offset, hrow, hslice.append tail⟩ : ∃ offset,
      row = eventRow e offset (jsony.event.encode e.2.event).length ∧
      SliceOf (block ++ tail) offset (jsony.event.encode e.2.event))
  rw [loadCheckpoint_header]
  simp only [loadBody, bind_eq_ok]
  refine ⟨s.rooms, loadRooms_values h.keyed, _, loadEvents_entries h.log heventRows' _ rfl rfl rfl,
    _, loadCursors_entries h, _,
    loadWelcomes_rows h.keyed hwelcomeRows, _, loadTargets_entries h, _,
    loadWelcomeCursors_entries s, rfl⟩

/-! ## States to evaluate on -/

/-- The store after one room was created with the given first commit. -/
def sampleCreated (commit : Bytes) (welcome : Option (ℕ × MlsWelcomeBundle)) : MlsStore :=
  (MlsStore.initial.createRoom none { GlobalRecord.initial with nextWelcomeDeliveryId := 2 }
    (sampleRoom 7 1 1 [sampleDevice 1, sampleDevice 2]) (.commit 1 0 1 [] commit) welcome).1

/-- A created room whose second device still has to fetch its Welcome, with an application
event the first device has acknowledged. -/
def sampleBusy : MlsStore :=
  let created := sampleCreated [9]
    (some (1, { deviceIds := [sampleDevice 1, sampleDevice 2], descriptor := sampleDescriptor 7,
                welcome := [5] }))
  let sent := (created.appendApplication none 7 (sampleDevice 1) 1 (ByteArr.replicate 16 3)
    [] [1, 2] 4).1
  let acked := (sent.acknowledge none 7 (sampleDevice 1) 2 6).1
  let taken := (acked.acknowledgeWelcome none (sampleDevice 1) 1).1
  (taken.cleanup none 7 10).1

/-! ## Every accepted state

A reload recomputes the byte accounting from the encodings, and the validation does not look at the
key a room or a Welcome is stored under, while the file only holds their own ids. -/

/-- Every accepted state stored under its own ids is written and read back; only the byte
accounting is recomputed. -/
theorem checkpoint_round_trip (jsony : Jsony) (s : MemoryState)
    (hvalid : validateMemory s = .ok ()) (hkeyed : Keyed s) (hfits : PayloadsFit jsony s) :
    ∃ bytes, serializeCheckpoint jsony s = some bytes ∧
    loadCheckpoint jsony (some bytes) = .ok (reloaded jsony s) := by
  have hinv : StoreInv s := (validateMemory_eq_ok_iff hkeyed).mp hvalid
  obtain ⟨bytes, hbytes⟩ := serializeCheckpoint_of_fits hfits
  exact ⟨bytes, hbytes, loadCheckpoint_of_serializeCheckpoint hinv hbytes⟩

theorem checkpoint_round_trip_sampleBusy :
    ∃ bytes, serializeCheckpoint Jsony.stream sampleBusy.state = some bytes ∧
      loadCheckpoint Jsony.stream (some bytes) = .ok (reloaded Jsony.stream sampleBusy.state) :=
  checkpoint_round_trip Jsony.stream sampleBusy.state (by decide +kernel) (by decide +kernel)
    (by decide +kernel)

/-! ## What the round trip does not keep -/

/-- An empty room with id 7 stored under key 5. -/
def misKeyedRoom : MemoryState :=
  { MemoryState.initial with rooms := OrdMap.empty.insert 5 (sampleRoom 7 0 0 []) }

/-- A Welcome with delivery id 2 stored under key 1. -/
def misKeyedWelcome : MemoryState :=
  { sampleBusy.state with
    welcomes := sampleBusy.state.welcomes.mapValues fun w => { w with deliveryId := 2 } }

lemma stream_encode_commit_length (commit : Bytes) :
    commit.length < (Jsony.stream.event.encode (.commit 1 0 1 [] commit)).length := by
  simp only [Jsony.stream, StreamCodec.toCodec, StreamCodecs.event, StreamCodec.via,
    StreamCodec.either, StreamCodec.pair, StreamCodecs.bytes, StreamCodec.list, List.length_cons,
    List.length_append, StreamCodec.length_putCount]
  omega

lemma serializeCheckpoint_sampleCreated_eq_none {commit : Bytes} (h : u32Max ≤ commit.length) :
    serializeCheckpoint Jsony.stream (sampleCreated commit none).state = none := by
  have hmem : (toLex (7, 1), (⟨.commit 1 0 1 [] commit, 0, commit.length⟩ : StoredEvent)) ∈
      (sampleCreated commit none).state.events.entries := List.mem_cons_self
  unfold serializeCheckpoint serializeEvents
  rw [layOut_eq_none hmem (lt_of_le_of_lt h (stream_encode_commit_length commit))]

/-- The state that comes back from a written checkpoint; `none` when the writer panics. -/
def reopen (jsony : Jsony) (s : MemoryState) : Option (Except String MemoryState) :=
  (serializeCheckpoint jsony s).map fun bytes => loadCheckpoint jsony (some bytes)

/-- States the validation accepts whose checkpoint does not come back as they were: a used
room, whose events and Welcomes come back with another accounted length; a room and a
Welcome under a foreign key, which come back under their own; and an event too long for its
row, on which the writer panics. -/
theorem checkpoint_round_trip_fails :
    (validateMemory sampleBusy.state = .ok () ∧
      ∃ t, reopen Jsony.stream sampleBusy.state = some (.ok t) ∧
      t.events ≠ sampleBusy.state.events ∧ t.welcomes ≠ sampleBusy.state.welcomes) ∧
    (validateMemory misKeyedRoom = .ok () ∧ misKeyedRoom.rooms.keys = [5] ∧
      (reopen Jsony.stream misKeyedRoom).map (Except.map fun t => t.rooms.keys) = some (.ok [7])) ∧
    (validateMemory misKeyedWelcome = .ok () ∧ misKeyedWelcome.welcomes.keys = [1] ∧
      (reopen Jsony.stream misKeyedWelcome).map (Except.map fun t => t.welcomes.keys) =
        some (.ok [2])) ∧
    (∃ s, validateMemory s = .ok () ∧ reopen Jsony.stream s = none) := by
  refine ⟨⟨by decide +kernel, reloaded Jsony.stream sampleBusy.state, ?_, by decide +kernel,
    by decide +kernel⟩, by decide +kernel, by decide +kernel, ?_⟩
  · have hinv : StoreInv sampleBusy.state :=
      (validateMemory_eq_ok_iff (by decide +kernel)).mp (by decide +kernel)
    obtain ⟨bytes, hbytes⟩ : ∃ bytes, serializeCheckpoint Jsony.stream sampleBusy.state =
        some bytes := serializeCheckpoint_of_fits (by decide +kernel)
    rw [reopen, hbytes, Option.map_some, loadCheckpoint_of_serializeCheckpoint hinv hbytes]
  · -- The validation never looks at a payload, so it passes whatever the commit holds.
    refine ⟨(sampleCreated (List.replicate u32Max 0) none).state, ?_, ?_⟩
    · have hvalid : ∀ commit, validateMemory (sampleCreated commit none).state = .ok () :=
        fun commit => rfl
      exact hvalid _
    · rw [reopen, serializeCheckpoint_sampleCreated_eq_none (by simp)]
      rfl

end Chatt
