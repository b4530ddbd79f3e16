import Chatt.Interface.Recovery
import Chatt.Analysis.StoreStep

/-!
# Replaying the delivery log

`LogReplay` is the relation between the state `x` of a replay, the state `d` in which the
record at hand was first applied, and the state `c` of the checkpoint, for one of the two
indexes of the log.  Every key of the events is where it was in one of the two; the index is
sound, and it holds what it held in the checkpoint.
-/

namespace Chatt

open Chatt.Lib OrdMap Option

variable {r : RoomId} {storedAt q : ℕ}

/-! ## One index of the log -/

/-- An index over the events: application events by their id, commits by their parent
epoch. -/
structure EventIndex (α : Type) [LinearOrder α] where
  label : MlsDeliveryEvent → Option α
  index : MemoryState → OrdMap (RoomId ×ₗ α) ℕ
  index_remove : ∀ s r q, index (removeEventMemory s r q) = eraseLabel (index s) r
    ((s.events.get? (toLex (r, q))).bind fun stored => label stored.event)
  index_insert : ∀ {s r event storedAt}, alreadyStored s r event storedAt = false →
    index (insertEventMemory s r event storedAt) =
      insertLabel (index (removeEventMemory s r event.sequence)) r event.sequence (label event)
  index_same : ∀ {s t}, SameLog s t → index t = index s
  indexOf : ∀ {s}, LogInv s → IndexOf s.events label (index s)

def eventIdIndex : EventIndex EventId where
  label := MlsDeliveryEvent.eventId?
  index := MemoryState.eventIds
  index_remove := fun s r q => (removeEventMemory_indexes s r q).1
  index_insert := fun h => by rw [insertEventMemory_of_not_alreadyStored h]
  index_same := SameLog.eventIds
  indexOf := LogInv.event_ids

def commitEpochIndex : EventIndex ℕ where
  label := MlsDeliveryEvent.parentEpoch?
  index := MemoryState.commitEpochs
  index_remove := fun s r q => (removeEventMemory_indexes s r q).2
  index_insert := fun h => by rw [insertEventMemory_of_not_alreadyStored h]
  index_same := SameLog.commitEpochs
  indexOf := LogInv.commit_epochs

/-! ## Events by their content -/

lemma SameLog.event? {s t : MemoryState} (h : SameLog s t) (r : RoomId) (q : ℕ) :
    t.event? r q = s.event? r q := by
  unfold MemoryState.event?
  rw [h.events]

lemma event?_removeEventMemory (s : MemoryState) (r r' : RoomId) (q q' : ℕ) :
    (removeEventMemory s r q).event? r' q' = if r' = r ∧ q' = q then none else s.event? r' q' := by
  unfold MemoryState.event?
  rw [removeEventMemory_events, get?_erase]
  simp only [toLex_inj, Prod.mk.injEq]
  split_ifs <;> rfl

lemma event?_eq_some {s : MemoryState} {e : MlsDeliveryEvent × ℕ} :
    s.event? r q = some e ↔ ∃ stored, s.events.get? (toLex (r, q)) = some stored ∧
    stored.content = e :=
  map_eq_some_iff

lemma event?_eq_none {s : MemoryState} :
    s.event? r q = none ↔ s.events.get? (toLex (r, q)) = none := map_eq_none_iff

lemma alreadyStored_iff {s : MemoryState} {event : MlsDeliveryEvent} :
    alreadyStored s r event storedAt = true ↔
    s.event? r event.sequence = some (event, storedAt) := by
  unfold alreadyStored
  rw [any_eq_true, event?_eq_some]
  simp only [decide_eq_true_eq, StoredEvent.content, Prod.mk.injEq]

lemma event?_insertEventMemory (s : MemoryState) (r r' : RoomId) (event : MlsDeliveryEvent)
    (storedAt q' : ℕ) :
    (insertEventMemory s r event storedAt).event? r' q' = if r' = r ∧
    q' = event.sequence then some (event, storedAt) else s.event? r' q' := by
  cases hstored : alreadyStored s r event storedAt with
  | true =>
    rw [insertEventMemory_of_alreadyStored hstored]
    split_ifs with hkey
    · obtain ⟨rfl, rfl⟩ := hkey
      exact alreadyStored_iff.mp hstored
    · rfl
  | false =>
    rw [insertEventMemory_of_not_alreadyStored hstored]
    unfold MemoryState.event?
    simp only [removeEventMemory_events]
    rw [get?_insert]
    simp only [toLex_inj, Prod.mk.injEq]
    split_ifs with hkey
    · rfl
    · rw [get?_erase_ne]
      intro heq
      exact hkey (Prod.mk.inj (toLex.injective heq))

/-! ## The relation of a replay -/

section Replay

variable {α : Type} [LinearOrder α]

/-- An index entry points to an event with that label. -/
def EventIndex.Sound (ix : EventIndex α) (s : MemoryState) : Prop :=
  ∀ r a q, (ix.index s).get? (toLex (r, a)) = some q → ∃ e, s.event? r q = some e ∧
    ix.label e.1 = some a

/-- `labels` are those of the events the replay has stored so far. -/
structure LogReplay (ix : EventIndex α) (labels : List (RoomId × α)) (d c x : MemoryState) :
    Prop where
  events : ∀ r q, x.event? r q = c.event? r q ∨ (x.event? r q = d.event? r q ∧
    ∀ e, d.event? r q = some e → ∀ a, ix.label e.1 = some a → (r, a) ∈ labels)
  sound : ix.Sound x
  kept : ∀ r a q, (ix.index c).get? (toLex (r, a)) = some q →
    (ix.index x).get? (toLex (r, a)) = some q

variable {ix : EventIndex α} {labels : List (RoomId × α)} {d d' c x x' : MemoryState}

lemma EventIndex.Sound.remove (h : ix.Sound x) (r : RoomId) (q : ℕ) :
    ix.Sound (removeEventMemory x r q) := by
  intro r' a q' hget
  rw [ix.index_remove, get?_eraseLabel] at hget
  split_ifs at hget with hremoved
  obtain ⟨e, he, hlabel⟩ := h r' a q' hget
  refine ⟨e, ?_, hlabel⟩
  rw [event?_removeEventMemory, if_neg, he]
  rintro ⟨rfl, rfl⟩
  obtain ⟨stored, hstored, rfl⟩ := event?_eq_some.mp he
  exact hremoved ⟨rfl, by rw [hstored]; exact hlabel⟩

lemma EventIndex.Sound.insert (h : ix.Sound x) (r : RoomId) (event : MlsDeliveryEvent)
    (storedAt : ℕ) : ix.Sound (insertEventMemory x r event storedAt) := by
  cases hstored : alreadyStored x r event storedAt with
  | true =>
    rw [insertEventMemory_of_alreadyStored hstored]
    exact h
  | false =>
    intro r' a q' hget
    rw [ix.index_insert hstored, get?_insertLabel] at hget
    rw [event?_insertEventMemory]
    split_ifs at hget with hnew
    · obtain ⟨rfl, hlabel⟩ := hnew
      cases hget
      exact ⟨_, if_pos ⟨rfl, rfl⟩, hlabel⟩
    · obtain ⟨e, he, hlabel⟩ := h.remove r event.sequence r' a q' hget
      rw [event?_removeEventMemory] at he
      split_ifs at he with hkey
      rw [if_neg hkey]
      exact ⟨e, he, hlabel⟩

/-- The replay of a record that stores an event.  In the checkpoint the key of the event is
free or holds this very event, and its label points nowhere else. -/
lemma LogReplay.insert (h : LogReplay ix labels d c x) {event : MlsDeliveryEvent}
      (hfresh : d.event? r event.sequence = none)
    (hstay : ∀ e, c.event? r event.sequence = some e → e = (event, storedAt))
    (hlabel : ∀ a, ix.label event = some a → ∀ q, (ix.index c).get? (toLex (r, a)) = some q →
      q = event.sequence)
    (hd : SameLog (insertEventMemory d r event storedAt) d')
    (hx : SameLog (insertEventMemory x r event storedAt) x') :
    LogReplay ix (labels ++ ((ix.label event).map fun a => (r, a)).toList) d' c x' where
  events := by
    intro r' q'
    rw [hx.event?, hd.event?, event?_insertEventMemory, event?_insertEventMemory]
    by_cases hkey : r' = r ∧ q' = event.sequence
    · rw [if_pos hkey, if_pos hkey]
      refine Or.inr ⟨rfl, ?_⟩
      intro e he a ha
      cases he
      rw [hkey.1, ha]
      exact List.mem_append_right _ (by simp)
    · rw [if_neg hkey, if_neg hkey]
      rcases h.events r' q' with heq | ⟨heq, hin⟩
      · exact Or.inl heq
      · exact Or.inr ⟨heq, fun e he a ha => List.mem_append_left _ (hin e he a ha)⟩
  sound := by
    intro r' a q' hget
    rw [ix.index_same hx] at hget
    rw [hx.event?]
    exact h.sound.insert r event storedAt r' a q' hget
  kept := by
    intro r' a q' hget
    rw [ix.index_same hx]
    cases hstored : alreadyStored x r event storedAt with
    | true =>
      rw [insertEventMemory_of_alreadyStored hstored]
      exact h.kept r' a q' hget
    | false =>
      -- The key is free: an event there would be the one of the checkpoint, this very event.
      have hfree : x.event? r event.sequence = none := by
        rcases h.events r event.sequence with heq | ⟨heq, -⟩
        · cases hc : c.event? r event.sequence with
          | none => rw [heq, hc]
          | some e =>
            rw [hstay e hc] at hc
            rw [← Bool.not_eq_true, alreadyStored_iff, heq, hc] at hstored
            exact absurd rfl hstored
        · rw [heq, hfresh]
      rw [ix.index_insert hstored, ix.index_remove, event?_eq_none.mp hfree, get?_insertLabel]
      split_ifs with hnew
      · obtain ⟨rfl, hnew⟩ := hnew
        rw [hlabel a hnew q' hget]
      · exact h.kept r' a q' hget

/-- The replay of the removal of an event that the checkpoint no longer holds, and whose
label it does not hold either if the replay has stored it. -/
lemma LogReplay.remove (h : LogReplay ix labels d c x) (hgone : c.event? r q = none)
    (hlabel : ∀ e, d.event? r q = some e → ∀ a, ix.label e.1 = some a → (r, a) ∈ labels →
      (ix.index c).get? (toLex (r, a)) = none) :
    LogReplay ix labels (removeEventMemory d r q) c (removeEventMemory x r q) where
  events := by
    intro r' q'
    rw [event?_removeEventMemory, event?_removeEventMemory]
    split_ifs with hkey
    · obtain ⟨rfl, rfl⟩ := hkey
      exact Or.inl hgone.symm
    · exact h.events r' q'
  sound := h.sound.remove r q
  kept := by
    intro r' a q' hget
    rw [ix.index_remove, get?_eraseLabel, if_neg]
    · exact h.kept r' a q' hget
    · rintro ⟨rfl, hbind⟩
      obtain ⟨stored, hstored, ha⟩ := bind_eq_some_iff.mp hbind
      have hevent : x.event? r' q = some stored.content := event?_eq_some.mpr ⟨stored, hstored, rfl⟩
      rcases h.events r' q with heq | ⟨heq, hin⟩
      · rw [hevent, hgone] at heq
        cases heq
      rw [hevent] at heq
      have hmem := hin _ heq.symm a ha
      rw [hlabel _ heq.symm a ha hmem] at hget
      cases hget

lemma LogReplay.same (h : LogReplay ix labels d c x) (hd : SameLog d d') (hx : SameLog x x') :
    LogReplay ix labels d' c x' where
  events := by
    intro r q
    rw [hx.event?, hd.event?]
    exact h.events r q
  sound := by
    intro r a q hget
    rw [ix.index_same hx] at hget
    rw [hx.event?]
    exact h.sound r a q hget
  kept := by
    intro r a q hget
    rw [ix.index_same hx]
    exact h.kept r a q hget

/-- The replay of a pruning pass, key by key. -/
lemma LogReplay.removeAll (keys : List EventKey) (h : LogReplay ix labels d c x)
      (hgone : ∀ k ∈ keys, c.event? k.roomId k.sequence = none)
    (hlabel : ∀ k ∈ keys, ∀ e, d.event? k.roomId k.sequence = some e → ∀ a, ix.label e.1 = some a →
      (k.roomId, a) ∈ labels →
      (ix.index c).get? (toLex (k.roomId, a)) = none) :
    LogReplay ix labels (keys.foldl (fun s key => removeEventMemory s key.roomId key.sequence) d) c
      (keys.foldl (fun s key => removeEventMemory s key.roomId key.sequence) x) := by
  induction keys generalizing d x with
  | nil => exact h
  | cons k rest ih =>
    apply ih
    · exact h.remove (hgone k List.mem_cons_self) (hlabel k List.mem_cons_self)
    · exact fun k' hk' => hgone k' (List.mem_cons_of_mem _ hk')
    · intro k' hk' e he
      rw [event?_removeEventMemory] at he
      split_ifs at he
      exact hlabel k' (List.mem_cons_of_mem _ hk') e he

/-- Where the replay starts. -/
lemma LogReplay.start (hc : LogInv c) (hevents : ∀ r q, x.event? r q = c.event? r q)
    (hindex : ix.index x = ix.index c) : LogReplay ix [] d c x where
  events := fun r q => Or.inl (hevents r q)
  sound := by
    intro r a q hget
    rw [hindex] at hget
    obtain ⟨stored, hstored, hlabel⟩ := (ix.indexOf hc r a q).mp hget
    refine ⟨stored.content, ?_, hlabel⟩
    rw [hevents]
    exact event?_eq_some.mpr ⟨stored, hstored, rfl⟩
  kept := by
    intro r a q hget
    rw [hindex]
    exact hget

/-- Where the replay has reached the checkpoint, it has its log. -/
lemma LogReplay.finish (h : LogReplay ix labels c c x) (hc : LogInv c) :
    (∀ r q, x.event? r q = c.event? r q) ∧ ix.index x = ix.index c := by
  have hevents : ∀ r q, x.event? r q = c.event? r q := by
    intro r q
    rcases h.events r q with heq | ⟨heq, -⟩
    · exact heq
    · exact heq
  refine ⟨hevents, ext_get? ?_⟩
  intro k
  obtain ⟨⟨r, a⟩, rfl⟩ := toLex.surjective k
  cases hget : (ix.index c).get? (toLex (r, a)) with
  | some q => exact h.kept r a q hget
  | none =>
    rw [eq_none_iff_forall_ne_some]
    intro q hq
    obtain ⟨e, he, hlabel⟩ := h.sound r a q hq
    rw [hevents] at he
    obtain ⟨stored, hstored, rfl⟩ := event?_eq_some.mp he
    rw [(ix.indexOf hc r a q).mpr ⟨stored, hstored, hlabel⟩] at hget
    cases hget

end Replay

/-! ## The inbox

As for the delivery log: through a replay every delivery id is as it was when the record at
hand was first applied, or as it is in the checkpoint.  A stored Welcome is never replaced
and a deleted target never comes back, so the early exit of `insert_welcome_memory` and the
deletion of absent targets are right. -/

variable {s t : MemoryState}
variable {l : List DeviceWelcomeCheckpoint} {bundle : MlsWelcomeBundle} {id : ℕ} {s' : MemoryState}

/-- The two states agree on one delivery id. -/
structure InboxAt (s t : MemoryState) (id : ℕ) : Prop where
  welcome : t.welcome? id = s.welcome? id
  targets : ∀ device, t.deviceWelcomes.get? (toLex (device, id)) =
    s.deviceWelcomes.get? (toLex (device, id))

lemma InboxAt.trans {u : MemoryState} (h : InboxAt s t id) (h' : InboxAt t u id) : InboxAt s u id :=
  ⟨h'.welcome.trans h.welcome, fun device => (h'.targets device).trans (h.targets device)⟩

lemma InboxAt.symm (h : InboxAt s t id) : InboxAt t s id :=
  ⟨h.welcome.symm, fun device => (h.targets device).symm⟩

structure InboxReplay (d c x : MemoryState) : Prop where
  inbox : InboxOk x
  between : ∀ id, InboxAt c x id ∨ InboxAt d x id

/-! ## Consistent inboxes -/

lemma welcome?_eq_none :
    s.welcome? id = none ↔ s.welcomes.get? id = none := map_eq_none_iff

lemma welcome?_eq_some {content : ℕ × ℕ × ℕ × MlsWelcomeBundle} :
    s.welcome? id = some content ↔ ∃ w, s.welcomes.get? id = some w ∧ w.content = content :=
  map_eq_some_iff

/-- A Welcome is there exactly as long as it has a target. -/
lemma InboxOk.welcome?_isSome_iff (h : InboxOk s) (id : ℕ) :
    (s.welcome? id).isSome = true ↔ ∃ device,
    s.deviceWelcomes.get? (toLex (device, id)) = some () := by
  rw [isSome_iff_exists]
  constructor
  · rintro ⟨content, hcontent⟩
    obtain ⟨w, hw, -⟩ := welcome?_eq_some.mp hcontent
    exact h.target_of_welcome hw
  · rintro ⟨device, hget⟩
    obtain ⟨w, hw, -⟩ := h.welcome_of_target hget
    exact ⟨w.content, welcome?_eq_some.mpr ⟨w, hw, rfl⟩⟩

/-- Two consistent inboxes with the same targets have the same Welcome, as soon as the one
that is there comes from a common source. -/
lemma InboxOk.welcome?_eq (hs : InboxOk s) (ht : InboxOk t)
    (htargets : ∀ device, t.deviceWelcomes.get? (toLex (device, id)) =
      s.deviceWelcomes.get? (toLex (device, id)))
    (hsource : ∀ a b, t.welcome? id = some a → s.welcome? id = some b → a = b) :
    t.welcome? id = s.welcome? id := by
  have hiff : (t.welcome? id).isSome = true ↔ (s.welcome? id).isSome = true := by
    rw [ht.welcome?_isSome_iff, hs.welcome?_isSome_iff]
    simp only [htargets]
  cases hta : t.welcome? id with
  | none =>
    cases hsb : s.welcome? id with
    | none => rfl
    | some b => simp [hta, hsb] at hiff
  | some a =>
    cases hsb : s.welcome? id with
    | none => simp [hta, hsb] at hiff
    | some b => rw [hsource a b hta hsb]

lemma InboxOk.counts_eq (hs : InboxOk s) (ht : InboxOk t)
    (htargets : t.deviceWelcomes = s.deviceWelcomes) :
    t.welcomeTargetCounts = s.welcomeTargetCounts := by
  apply OrdMap.ext_get?
  intro id
  rw [hs.counts, ht.counts, htargets]

/-! ## Deleting targets -/

lemma TargetsDeleted.welcome?_of_some (h : TargetsDeleted s l t)
      {content : ℕ × ℕ × ℕ × MlsWelcomeBundle}
    (hcontent : t.welcome? id = some content) : s.welcome? id = some content := by
  obtain ⟨w, hw, rfl⟩ := welcome?_eq_some.mp hcontent
  exact welcome?_eq_some.mpr ⟨w, h.welcomes hw, rfl⟩

/-- Deleting the same targets from two inboxes that agree on a delivery id. -/
lemma InboxAt.deleted {t' : MemoryState} (h : InboxAt s t id) (hs : TargetsDeleted s l s')
    (ht : TargetsDeleted t l t') : InboxAt s' t' id := by
  have htargets : ∀ device, t'.deviceWelcomes.get? (toLex (device, id)) =
      s'.deviceWelcomes.get? (toLex (device, id)) := by
    intro device
    rw [ht.targets, hs.targets, h.targets]
  refine ⟨hs.inbox.welcome?_eq ht.inbox htargets ?_, htargets⟩
  intro a b ha hb
  have ha' := ht.welcome?_of_some ha
  rw [h.welcome, hs.welcome?_of_some hb, some.injEq] at ha'
  exact ha'.symm

/-- Deleting targets that are not there changes nothing. -/
lemma InboxAt.deleted_absent (hinbox : InboxOk s) (hs : TargetsDeleted s l s')
    (habsent : ∀ t ∈ l, t.deliveryId = id →
      s.deviceWelcomes.get? (toLex (t.deviceId, t.deliveryId)) = none) : InboxAt s s' id := by
  have htargets : ∀ device, s'.deviceWelcomes.get? (toLex (device, id)) =
      s.deviceWelcomes.get? (toLex (device, id)) := by
    intro device
    rw [hs.targets]
    split_ifs with hmem
    · exact (habsent _ hmem rfl).symm
    · rfl
  refine ⟨hinbox.welcome?_eq hs.inbox htargets ?_, htargets⟩
  intro a b ha hb
  have ha' := hs.welcome?_of_some ha
  rw [hb, some.injEq] at ha'
  exact ha'.symm

/-- The replay of deletions of targets that the checkpoint no longer has. -/
lemma InboxReplay.deleteTargets {d c x : MemoryState} (h : InboxReplay d c x) (hd : InboxOk d)
    (l : List DeviceWelcomeCheckpoint)
    (hgone : ∀ t ∈ l, c.deviceWelcomes.get? (toLex (t.deviceId, t.deliveryId)) = none) :
    InboxReplay (deleteWelcomeTargets d l).1 c (deleteWelcomeTargets x l).1 := by
  have hx := (h.inbox.deleteTargets l).2
  have hd' := (hd.deleteTargets l).2
  refine ⟨hx.inbox, ?_⟩
  intro id
  rcases h.between id with hat | hat
  · refine Or.inl (hat.trans (InboxAt.deleted_absent h.inbox hx ?_))
    intro t ht hid
    subst hid
    rw [hat.targets]
    exact hgone t ht
  · exact Or.inr (hat.deleted hd' hx)

/-! ## Storing a Welcome -/

/-- Two inboxes that both store a Welcome agree on its id. -/
lemma WelcomeStored.inboxAt {t' : MemoryState} (hs : WelcomeStored s id bundle q storedAt s')
    (ht : WelcomeStored t id bundle q storedAt t') : InboxAt s' t' id := by
  refine ⟨?_, ?_⟩
  · unfold MemoryState.welcome?
    rw [hs.welcomes, ht.welcomes, if_pos rfl, if_pos rfl]
  · intro device
    rw [hs.targets, ht.targets, if_pos rfl, if_pos rfl]

lemma WelcomeStored.other {id' : ℕ} (h : WelcomeStored s id bundle q storedAt s') (hne : id' ≠ id) :
    InboxAt s s' id' := by
  refine ⟨?_, ?_⟩
  · unfold MemoryState.welcome?
    rw [h.welcomes, if_neg hne]
  · intro device
    rw [h.targets, if_neg hne]

/-- The replay of a record that issues a Welcome: its id was free, and in the checkpoint it is
free or holds this very Welcome. -/
lemma InboxReplay.storeWelcome {d c x : MemoryState} (h : InboxReplay d c x) (hd : InboxOk d)
      (hbundle : BundleOk bundle)
    (hfree : d.welcome? id = none)
    (hstay : ∀ content, c.welcome? id = some content → content = (id, q, storedAt, bundle)) :
    InboxReplay (insertWelcomeMemory d id bundle q storedAt) c
      (insertWelcomeMemory x id bundle q storedAt) := by
  have hd' : WelcomeStored d id bundle q storedAt (insertWelcomeMemory d id bundle q storedAt) := by
    apply hd.storeWelcome q storedAt hbundle
    rw [welcome?_eq_none.mp hfree]
    rfl
  -- The replay has at this id what the checkpoint has, or nothing.
  have hx : x.welcome? id = none ∨ (x.welcome? id = some (id, q, storedAt, bundle) ∧
      InboxAt c x id) := by
    rcases h.between id with hat | hat
    · cases hc : c.welcome? id with
      | none => exact Or.inl (hat.welcome.trans hc)
      | some content => exact Or.inr ⟨by rw [hat.welcome, hc, hstay content hc], hat⟩
    · exact Or.inl (hat.welcome.trans hfree)
  rcases hx with hnone | ⟨hsome, hat⟩
  · have hx' : WelcomeStored x id bundle q storedAt
        (insertWelcomeMemory x id bundle q storedAt) := by
      apply h.inbox.storeWelcome q storedAt hbundle
      rw [welcome?_eq_none.mp hnone]
      rfl
    refine ⟨hx'.inbox, ?_⟩
    intro id'
    by_cases hid : id' = id
    · subst hid
      exact Or.inr (hd'.inboxAt hx')
    · rcases h.between id' with hat | hat
      · exact Or.inl (hat.trans (hx'.other hid))
      · exact Or.inr ((hd'.other hid).symm.trans (hat.trans (hx'.other hid)))
  · have hsame : insertWelcomeMemory x id bundle q storedAt = x := by
      have hany : (x.welcomes.get? id).any (fun stored => stored.sequence = q ∧
          stored.storedAtUnixMs = storedAt ∧ stored.bundle = bundle) = true := by
        obtain ⟨w, hw, hcontent⟩ := welcome?_eq_some.mp hsome
        rw [hw, any_some]
        cases hcontent
        simp
      exact if_pos hany
    rw [hsame]
    refine ⟨h.inbox, ?_⟩
    intro id'
    by_cases hid : id' = id
    · subst hid
      exact Or.inl hat
    · rcases h.between id' with hat' | hat'
      · exact Or.inl hat'
      · exact Or.inr ((hd'.other hid).symm.trans hat')

lemma SameInbox.inboxAt (h : SameInbox s t) (id : ℕ) : InboxAt s t id := by
  refine ⟨?_, ?_⟩
  · unfold MemoryState.welcome?
    rw [h.welcomes]
  · intro device
    rw [h.targets]

lemma InboxReplay.same {d d' c x x' : MemoryState} (h : InboxReplay d c x) (hd : SameInbox d d')
    (hx : SameInbox x x') : InboxReplay d' c x' := by
  refine ⟨hx.inboxOk h.inbox, ?_⟩
  intro id
  rcases h.between id with hat | hat
  · exact Or.inl (hat.trans (hx.inboxAt id))
  · exact Or.inr ((hd.inboxAt id).symm.trans (hat.trans (hx.inboxAt id)))

/-- Where the replay has reached the checkpoint, it has its inbox. -/
lemma InboxReplay.finish {c x : MemoryState} (h : InboxReplay c c x) (hc : InboxOk c) :
    (∀ id, x.welcome? id = c.welcome? id) ∧ x.deviceWelcomes = c.deviceWelcomes ∧
    x.welcomeTargetCounts = c.welcomeTargetCounts := by
  have hat : ∀ id, InboxAt c x id := fun id => or_self_iff.mp (h.between id)
  have htargets : x.deviceWelcomes = c.deviceWelcomes := by
    apply OrdMap.ext_get?
    intro k
    obtain ⟨⟨device, id⟩, rfl⟩ := toLex.surjective k
    exact (hat id).targets device
  exact ⟨fun id => (hat id).welcome, htargets, hc.counts_eq h.inbox htargets⟩

end Chatt
