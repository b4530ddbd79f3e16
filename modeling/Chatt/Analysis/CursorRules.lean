import Chatt.Analysis.StorePlans

/-!
# Legal deltas keep the cursor rules

For each kind of delta, what becomes of a cursor (`Legal.cursor_cases`); from it, that no
message is lost silently (`Legal.noLoss`) and that a flag only goes by an acknowledgement
(`Legal.cursorStep`).
-/

namespace Chatt

open Chatt.Lib Option

variable {c c' : DeviceCursor} {device : DeviceId} {s t : MemoryState} {d : StateDelta}

/-! ## One cursor through one delta -/

/-- What a legal delta makes of the cursor `c` of a device that keeps one: it leaves it, flags
it, or replaces it by what an acknowledgement gives. -/
inductive CursorChange (s : MemoryState) (d : StateDelta) (r : RoomId) (device : DeviceId)
    (c : DeviceCursor) : DeviceCursor → Prop
  | same : CursorChange s d r device c c
  | flagged {watermark} : c.highestContiguousSequence < watermark →
      CursorChange s d r device c { c with rejoinRequiredThrough := some watermark }
  | acked {room c'} : s.rooms.get? r = some room → AckOf room.headSequence c c' →
      AcksWith d r device c' → CursorChange s d r device c c'

variable {r : RoomId}

lemma Legal.cursor_cases (h : Legal s d) (ht : DeltaApplied s d t) (hinv : CursorInv s)
      (hc : s.deviceCursors.get? (toLex (r, device)) = some c)
    (hc' : t.deviceCursors.get? (toLex (r, device)) = some c') :
    CursorChange s d r device c c' := by
  have hsame : t.deviceCursors.get? (toLex (r, device)) = s.deviceCursors.get? (toLex (r, device)) →
      CursorChange s d r device c c' := by
    intro heq
    rw [heq, hc, some.injEq] at hc'
    subst hc'
    exact CursorChange.same
  cases h with
  | append h hw =>
    rw [cursors_of_append ht] at hc'
    split_ifs at hc' with hadded hremoved
    · -- A device that joins had no cursor.
      obtain ⟨room', hroom', hdevice, -⟩ := hinv.cursor_ok hc
      obtain ⟨rfl, hmem⟩ := hadded
      have hbase := h.base_eq.symm.trans hroom'
      exact absurd (mem_requiredOf.mpr ⟨room', hbase, hdevice⟩) (mem_addedDevices.mp hmem).2
    · rw [hc, some.injEq] at hc'
      subst hc'
      exact CursorChange.same
  | prune h _ =>
    rcases cursors_of_prune ht (h.fits hinv) r device with ⟨c₀, rfl, hmem, hget⟩ | ⟨-, heq⟩
    · obtain ⟨hcursor, -, hlag⟩ := h.lagging_cursor _ hmem
      rw [hc, some.injEq] at hcursor
      rw [hget, some.injEq] at hc'
      subst hcursor hc'
      exact CursorChange.flagged hlag
    · exact hsame heq
  | dropTargets _ => exact hsame (by rw [cursors_of_noCursors ht rfl rfl])
  | replace _ _ _ =>
    rcases cursors_of_replace ht r device with ⟨-, hnone⟩ | ⟨-, heq⟩
    · rw [hnone] at hc'
      cases hc'
    · exact hsame heq
  | @acknowledge r₀ room device₀ c₀ c₁ hroom hcursor hack =>
    rw [cursors_of_acknowledge ht] at hc'
    split_ifs at hc' with hkey
    · obtain ⟨rfl, rfl⟩ := Prod.mk.inj (toLex.injective hkey)
      rw [hc, some.injEq] at hcursor
      cases hc'
      subst hcursor
      exact CursorChange.acked hroom hack rfl
    · rw [hc, some.injEq] at hc'
      subst hc'
      exact CursorChange.same
  | acknowledgeWelcome _ _ => exact hsame (by rw [cursors_of_noCursors ht rfl rfl])

lemma CursorChange.highest_le (h : CursorChange s d r device c c') :
    c.highestContiguousSequence ≤ c'.highestContiguousSequence := by
  cases h with
  | same | flagged _ => exact le_rfl
  | acked _ hack _ => exact hack.highest_le

lemma CursorChange.flag {watermark : ℕ} (h : CursorChange s d r device c c')
      (hflag : c.rejoinRequiredThrough = some watermark)
    (hclear : c'.rejoinRequiredThrough = none) :
    watermark < c'.highestContiguousSequence ∧ AcksWith d r device c' := by
  cases h with
  | same =>
    rw [hflag] at hclear
    cases hclear
  | flagged _ => cases hclear
  | acked _ hack hd =>
    refine ⟨?_, hd⟩
    have hrejoin := hack.rejoin_eq
    rw [hclear, hflag, any_some] at hrejoin
    split_ifs at hrejoin with hlt
    rwa [decide_eq_true_eq] at hlt

/-! ## The rules over one delta -/

/-- A legal delta clears a flag only where it acknowledges beyond the watermark. -/
lemma Legal.cursorStep (hinv : StoreInv s) (h : Legal s d) (ht : DeltaApplied s d t) :
    CursorStep (fun r device q => ∃ c c', s.deviceCursors.get? (toLex (r, device)) = some c ∧
      AcksWith d r device c' ∧ c'.highestContiguousSequence = q ∧
      c'.rejoinRequiredThrough ≠ c.rejoinRequiredThrough) s t where
  removed := by
    intro r device c hc hnone
    obtain ⟨room, hroom, -, -⟩ := hinv.cursors.cursor_ok hc
    obtain ⟨room', hroom', -⟩ := (h.advances hinv ht).room hroom
    refine ⟨room', hroom', ?_⟩
    intro hdevice
    obtain ⟨c', hc'⟩ := (h.storeInv hinv ht).cursors.cursor_of_required hroom' hdevice
    rw [hnone] at hc'
    cases hc'
  joined := by
    intro r device c' hnone hc'
    constructor
    · intro room hroom hdevice
      obtain ⟨c, hc⟩ := hinv.cursors.cursor_of_required hroom hdevice
      rw [hnone] at hc
      cases hc
    · obtain ⟨room, hroom, hdevice, -⟩ := (h.storeInv hinv ht).cursors.cursor_ok hc'
      exact ⟨room, hroom, hdevice⟩
  monotone := fun hc hc' => (h.cursor_cases ht hinv.cursors hc hc').highest_le
  flag := by
    intro r device c c' watermark hc hc' hflag hclear
    obtain ⟨hlt, hd⟩ := (h.cursor_cases ht hinv.cursors hc hc').flag hflag hclear
    refine ⟨_, hlt, c, c', hc, hd, rfl, ?_⟩
    rw [hflag, hclear]
    exact nofun

lemma NoGap.ack {oldest head : ℕ} (h : NoGap oldest c) (hack : AckOf head c c') :
    NoGap oldest c' := by
  have hle := hack.highest_le
  have hrejoin := hack.rejoin_eq
  unfold NoGap at h ⊢
  cases hflag : c.rejoinRequiredThrough with
  | none =>
    rw [hflag] at h hrejoin
    rw [hrejoin]
    show oldest ≤ c'.highestContiguousSequence + 1
    omega
  | some watermark =>
    rw [hflag] at h hrejoin
    rw [hrejoin, any_some]
    split_ifs with hlt
    · rw [decide_eq_true_eq] at hlt
      omega
    · exact h

/-- Pruning up to a sequence the cursor has passed. -/
lemma NoGap.passed {last head : ℕ} (hok : CursorOk head c)
    (hle : last ≤ c.highestContiguousSequence) : NoGap (last + 1) c := by
  unfold NoGap
  cases hflag : c.rejoinRequiredThrough with
  | none => exact Nat.succ_le_succ hle
  | some watermark =>
    have := (hok.rejoin_ok watermark hflag).1
    omega

/-- The cursor of a required device, from the invariant after the step. -/
lemma noLoss_of_cursors (hinv : CursorInv t)
    (h : ∀ {r room device c}, t.rooms.get? r = some room → device ∈ room.requiredDevices →
      t.deviceCursors.get? (toLex (r, device)) = some c → NoGap room.oldestAvailableSequence c) :
      NoLoss t := by
  intro r room device hroom hdevice
  obtain ⟨c, hc⟩ := hinv.cursor_of_required hroom hdevice
  exact ⟨c, hc, h hroom hdevice hc⟩

variable {room : RoomRecord}

lemma NoLoss.noGap (h : NoLoss s) (hroom : s.rooms.get? r = some room)
      (hdevice : device ∈ room.requiredDevices)
    (hc : s.deviceCursors.get? (toLex (r, device)) = some c) :
    NoGap room.oldestAvailableSequence c := by
  obtain ⟨c', hc', hgap⟩ := h r room device hroom hdevice
  rw [hc, some.injEq] at hc'
  exact hc' ▸ hgap

lemma noLoss_of_append {base : Option RoomRecord} {event : MlsDeliveryEvent}
      {global : Option GlobalRecord} {storedAt : ℕ}
    {welcome : Option (ℕ × MlsWelcomeBundle)} (hinv : StoreInv s) (h : NoLoss s)
    (happend : AppendOk s base room event)
    (ht : DeltaApplied s (appendDelta global base room event storedAt welcome) t)
    (hcursors : CursorInv t) : NoLoss t := by
  apply noLoss_of_cursors hcursors
  intro r room' device c hroom' hdevice hc
  rw [cursors_of_append ht] at hc
  have hrooms : RoomSet s t room := roomSet_of_applied ht rfl
  rcases hrooms.cases hroom' with ⟨rfl, rfl⟩ | ⟨hne, hold⟩
  · split_ifs at hc with hadded hremoved
    · cases hc
      exact (happend.oldest_le hinv.log).2.trans (Nat.le_succ _)
    · obtain ⟨previous, hprevious, hreq, -⟩ := hinv.cursors.cursor_ok hc
      rw [(happend.range_eq hprevious).2]
      exact h.noGap hprevious hreq hc
  · rw [if_neg fun hk => hne hk.1, if_neg fun hk => hne hk.1] at hc
    exact h.noGap hold hdevice hc

lemma noLoss_of_prune {last expiry : ℕ} {lagging : List (DeviceId × DeviceCursor)}
      {targets : List DeviceWelcomeCheckpoint} (hinv : StoreInv s) (h : NoLoss s)
    (hprune : PruneOk s r room last expiry lagging)
    (ht : DeltaApplied s (pruneDelta r room last expiry lagging targets) t)
    (hcursors : CursorInv t) : NoLoss t := by
  apply noLoss_of_cursors hcursors
  intro r' room' device c' hroom' hdevice hc'
  have hkey : room.descriptor.roomId = r := (hinv.log.room_ok hprune.room_eq).key
  rcases cursors_of_prune ht (hprune.fits hinv.cursors) r' device with ⟨c, rfl, hmem,
    hget⟩ | ⟨hnot, hsame⟩
  · rcases (roomSet_of_prune ht).cases hroom' with ⟨-, rfl⟩ | ⟨hne, -⟩
    · rw [hget, some.injEq] at hc'
      rw [← hc']
      exact (hprune.expiry_le (List.ne_nil_of_mem hmem)).1
    · exact absurd hkey.symm hne
  · rw [hsame] at hc'
    rcases (roomSet_of_prune ht).cases hroom' with ⟨hr, rfl⟩ | ⟨-, hold⟩
    · have hr : r' = r := hr.trans hkey
      subst hr
      rcases hprune.covered device hdevice c' hc' with hle | hmem
      · obtain ⟨_, -, -, hok⟩ := hinv.cursors.cursor_ok hc'
        exact NoGap.passed hok hle
      · exact absurd hmem (hnot c' rfl)
    · exact h.noGap hold hdevice hc'

/-- A legal delta loses nothing silently. -/
lemma Legal.noLoss (hinv : StoreInv s) (hstep : Legal s d) (ht : DeltaApplied s d t)
    (h : NoLoss s) : NoLoss t := by
  have hcursors := (hstep.storeInv hinv ht).cursors
  cases hstep with
  | append happend _ => exact noLoss_of_append hinv h happend ht hcursors
  | prune hprune _ => exact noLoss_of_prune hinv h hprune ht hcursors
  | dropTargets _ =>
    have hrooms := rooms_of_noRooms ht rfl
    have hsame := cursors_of_noCursors ht rfl rfl
    unfold NoLoss
    rw [hrooms, hsame]
    exact h
  | replace _ hrooms _ =>
    apply noLoss_of_cursors hcursors
    intro r room' device c hroom' hdevice hc
    obtain ⟨previous, hprevious, hok, -⟩ := (rooms_of_replace hrooms ht).1 hroom'
    rcases cursors_of_replace ht r device with ⟨-, hnone⟩ | ⟨-, hsame⟩
    · rw [hnone] at hc
      cases hc
    · rw [hsame] at hc
      rw [hok.oldest_eq]
      exact h.noGap hprevious (hok.required_sublist.subset hdevice) hc
  | acknowledge hroom hc hack =>
    apply noLoss_of_cursors hcursors
    intro r' room' device' c'' hroom' hdevice' hget
    rw [rooms_of_noRooms ht rfl] at hroom'
    rw [cursors_of_acknowledge ht] at hget
    split_ifs at hget with hkey
    · obtain ⟨rfl, rfl⟩ := Prod.mk.inj (toLex.injective hkey)
      cases hget
      exact (h.noGap hroom' hdevice' hc).ack hack
    · exact h.noGap hroom' hdevice' hget
  | acknowledgeWelcome _ _ =>
    have hrooms := rooms_of_noRooms ht rfl
    have hsame := cursors_of_noCursors ht rfl rfl
    unfold NoLoss
    rw [hrooms, hsame]
    exact h

/-! ## Which operation acknowledges -/

/-- A delta that sets one cursor and nothing else comes from an acknowledgement, or from a
persisted one that leaves the cursor as it is. -/
lemma StoreOp.plan_acksWith {store : MlsStore} {op : StoreOp} (hinv : StoreInv store.state)
    (hissued : op.Issued store.state) (h : (op.plan store).2 = .ok (some d))
    (hd : AcksWith d r device c') :
    (∃ nowUnixMs, op = .acknowledge r device c'.highestContiguousSequence nowUnixMs) ∨
    store.state.deviceCursors.get? (toLex (r, device)) = some c' := by
  subst hd
  cases op with
  | createRoom global room event welcome =>
    have hplan := map_some_eq_ok h
    unfold planCreateRoom at hplan
    split_ifs at hplan
    have hdelta := (planAppendRoomEvent_eq_ok none hplan).1
    exact absurd (congrArg StateDelta.rooms hdelta) nofun
  | appendCommit global previous room event welcome =>
    have hplan := map_some_eq_ok h
    unfold planAppendCommit at hplan
    rw [hissued.previous_eq] at hplan
    simp only at hplan
    rw [if_neg (by simp)] at hplan
    have hdelta := (planAppendRoomEvent_eq_ok (some previous) hplan).1
    exact absurd (congrArg StateDelta.rooms hdelta) nofun
  | appendApplication roomId deviceId expectedEpoch eventId rosters ciphertext nowUnixMs =>
    obtain ⟨result, hplan⟩ := map_snd_eq_ok h
    obtain ⟨previous, hplanned⟩ := planAppendApplication_eq_stored hplan
    exact absurd (congrArg StateDelta.rooms hplanned.delta_eq) nofun
  | replaceGlobalAndRooms global rooms =>
    have hdelta := planReplaceRooms_eq_ok (map_some_eq_ok h) hissued.rooms_ok
    exact absurd (congrArg StateDelta.global hdelta) nofun
  | acknowledge roomId deviceId sequence nowUnixMs =>
    obtain ⟨room, c, hplanned⟩ := planAcknowledge_eq_some h
    have hcursors := congrArg StateDelta.cursors hplanned.delta_eq
    obtain ⟨rfl, rfl, rfl⟩ := hcursors
    exact Or.inl ⟨nowUnixMs, rfl⟩
  | persistAcknowledgement roomId deviceId =>
    have hplan := map_some_eq_ok h
    unfold planPersistAcknowledgement at hplan
    split at hplan
    · cases hplan
    rename_i c hc
    have hcursors := congrArg StateDelta.cursors (Except.ok.inj hplan)
    obtain ⟨rfl, rfl, rfl⟩ := hcursors
    exact Or.inr hc
  | acknowledgeWelcome deviceId deliveryId =>
    have hdelta := (planAcknowledgeWelcome_eq_some h hinv.welcomes).1
    exact absurd (congrArg StateDelta.cursors hdelta) nofun
  | persistWelcomeAcknowledgement deviceId =>
    have hplan := map_some_eq_ok h
    unfold planPersistWelcomeAcknowledgement at hplan
    split at hplan
    · cases hplan
    · exact absurd (congrArg StateDelta.cursors (Except.ok.inj hplan)) nofun
  | cleanup nowUnixMs batchLimit =>
    obtain ⟨hbatch, report, hplan⟩ := MlsStore.planCleanup_eq_some (Prod.ext rfl h)
    obtain ⟨targets, -, hdelta | ⟨r', pruned, last, expiry, lagging, -, hdelta⟩⟩ :=
      planCleanup_eq_ok hplan hinv.log hbatch
    · exact absurd (congrArg StateDelta.cursors hdelta) nofun
    · exact absurd (congrArg StateDelta.rooms hdelta) nofun

end Chatt
