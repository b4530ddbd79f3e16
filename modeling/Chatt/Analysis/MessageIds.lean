import Chatt.Model.MessageIds

/-!
# When message ids are reused

Between a crash and the commit of the watermark that covers them, ids can be handed out that the
restart does not know of: the first ids of a room, and the first ids after a restart, for which
no reservation is committed yet.  An id is handed out below a watermark that is committed or on
its way to the writer, so ids strictly increase where no crash comes before the writer has
committed what is queued to it.
-/

namespace Chatt.MessageIds

open Lib List OrdMap

variable {s : IdState}

/-- The ids handed out in a room, in order. -/
def idsOf (s : IdState) (room : RoomId) : List ℕ :=
  (s.handedOut.filter fun e => e.1 = room).map Prod.snd

/-- The id is below the room's committed watermark, or not above the last record of its log. -/
def Recoverable (s : IdState) (room : RoomId) (id : ℕ) : Prop :=
  (∃ mark ∈ s.stored.get? room, id < mark) ∨ ∃ last ∈ s.logs.get? room, id ≤ last

instance decidableRecoverable (s : IdState) (room : RoomId) (id : ℕ) :
    Decidable (Recoverable s room id) :=
  inferInstanceAs (Decidable ((∃ mark ∈ s.stored.get? room, id < mark) ∨ _))

/-- No crash comes while a queued watermark is uncommitted. -/
def Settled (s : IdState) : IdAction → Prop
  | .crash => s.pending = OrdMap.empty ∧ s.writing = none
  | _ => True

instance decidableSettled (s : IdState) (a : IdAction) : Decidable (Settled s a) := by
  cases a <;> dsimp only [Settled] <;> infer_instance

/-- The highest watermark of the room that is committed, with the writer or queued to it. -/
def submitted (s : IdState) (room : RoomId) : ℕ :=
  max ((s.stored.get? room).getD 0)
    (max ((s.writing.bind (·.get? room)).getD 0) ((s.pending.get? room).getD 0))

/-! ## What a restart recovers -/

lemma lookup_of_not_mem {l : List (RoomId × ℕ)} {room : RoomId} (h : room ∉ l.map Prod.fst) :
    l.lookup room = none := by
  rw [lookup_eq_none_iff]
  intro e mem
  exact bne_iff_ne.mpr fun same => h (same ▸ mem_map_of_mem mem)

/-- The next id of a room after the walk over the logs. -/
lemma nextId_raised (l : List (RoomId × ℕ)) (distinct : (l.map Prod.fst).Nodup)
      (nextIds : OrdMap RoomId ℕ) (room : RoomId) :
    ((l.foldl (fun nextIds e => nextIds.insert e.1 (max ((nextIds.get? e.1).getD 1) (e.2 + 1)))
      nextIds).get? room).getD 1 =
      max ((nextIds.get? room).getD 1) ((l.lookup room).elim 0 (· + 1)) := by
  induction l generalizing nextIds with
  | nil => simp
  | cons e rest ih =>
    obtain ⟨absent, others⟩ := nodup_cons.mp distinct
    rw [foldl_cons, ih others, lookup_cons_ite]
    by_cases same : room = e.1
    · subst same
      have alone : rest.lookup e.1 = none := lookup_of_not_mem absent
      simp [alone]
    · rw [if_neg same, get?_insert_ne _ _ same]

lemma nextId_restart (s : IdState) (room : RoomId) :
    (restart s).nextId room = max ((s.stored.get? room).getD 1)
    ((s.logs.get? room).elim 0 (· + 1)) :=
  nextId_raised s.logs.entries s.logs.nodup_keys s.stored room

/-- The restart resumes above exactly the recoverable ids. -/
lemma lt_nextId_restart {room : RoomId} {id : ℕ} (positive : 1 ≤ id) :
    id < (restart s).nextId room ↔ Recoverable s room id := by
  rw [nextId_restart, Recoverable]
  cases s.stored.get? room with
  | none =>
    cases s.logs.get? room with
    | none => simp; omega
    | some last => simp
  | some mark => cases s.logs.get? room <;> simp

/-- A transaction raises each watermark to what is written. -/
lemma getD_persist (stored write : OrdMap RoomId ℕ) (room : RoomId) :
    ((persist stored write).get? room).getD 0 =
      max ((stored.get? room).getD 0) ((write.get? room).getD 0) := by
  have walk : ∀ (l : List (RoomId × ℕ)) (stored : OrdMap RoomId ℕ), (l.map Prod.fst).Nodup →
      ((l.foldl (fun stored e =>
        if e.2 > (stored.get? e.1).getD 0 then stored.insert e.1 e.2 else stored) stored).get?
          room).getD 0 = max ((stored.get? room).getD 0) ((l.lookup room).getD 0) := by
    intro l
    induction l with
    | nil => simp
    | cons e rest ih =>
      intro stored distinct
      obtain ⟨absent, others⟩ := nodup_cons.mp distinct
      rw [foldl_cons, ih _ others, lookup_cons_ite]
      by_cases same : room = e.1
      · subst same
        have alone : rest.lookup e.1 = none := lookup_of_not_mem absent
        rw [if_pos rfl, alone]
        split_ifs with above
        · simp [above.le]
        · simp [not_lt.mp above]
      · rw [if_neg same]
        split_ifs
        · rw [get?_insert_ne _ _ same]
        · rfl
  exact walk write.entries stored write.nodup_keys

/-! ## Steps -/

/-- What every state satisfies: in particular each id handed out is below its room's watermark in
memory, which has been handed to the writer. -/
structure IdInv (s : IdState) : Prop where
  storedPos : ∀ room mark, s.stored.get? room = some mark → 1 ≤ mark
  nextPos : ∀ room, 1 ≤ s.nextId room
  idPos : ∀ e ∈ s.handedOut, 1 ≤ e.2
  below : ∀ e ∈ s.handedOut, e.2 < s.nextId e.1
  rising : ∀ room, (idsOf s room).Pairwise (· < ·)
  reserved : ∀ e ∈ s.handedOut, e.2 < (s.watermarks.get? e.1).getD 0
  queued : ∀ room, (s.watermarks.get? room).getD 0 ≤ submitted s room

/-- The reservation: an id that is handed out is below what has been submitted for its room. -/
lemma IdInv.lt_submitted (inv : IdInv s) {e : RoomId × ℕ} (mem : e ∈ s.handedOut) :
    e.2 < submitted s e.1 :=
  (inv.reserved e mem).trans_le (inv.queued e.1)

lemma IdInv.initial : IdInv IdState.initial where
  storedPos := by simp [IdState.initial]
  nextPos := by simp [IdState.initial, IdState.nextId]
  idPos := by simp [IdState.initial]
  below := by simp [IdState.initial]
  rising := by simp [IdState.initial, idsOf]
  reserved := by simp [IdState.initial]
  queued := by simp [IdState.initial]

lemma allocateMessageId_handedOut (s : IdState) (room : RoomId) :
    (allocateMessageId s room).handedOut = s.handedOut ++ [(room, s.nextId room)] := by
  simp only [allocateMessageId]
  split <;> rfl

lemma allocateMessageId_stored (s : IdState) (room : RoomId) :
    (allocateMessageId s room).stored = s.stored := by
  simp only [allocateMessageId]
  split <;> rfl

lemma allocateMessageId_nextId (s : IdState) (room room' : RoomId) :
    (allocateMessageId s room).nextId room' = if room' = room then s.nextId room + 1
    else s.nextId room' := by
  have step : (allocateMessageId s room).nextIds = s.nextIds.insert room (s.nextId room + 1) := by
    simp only [allocateMessageId]
    split <;> rfl
  rw [IdState.nextId, step, get?_insert]
  split <;> rfl

lemma idsOf_allocate (s : IdState) (room room' : RoomId) :
    idsOf (allocateMessageId s room) room' = if room' = room then idsOf s room' ++ [s.nextId room]
    else idsOf s room' := by
  rw [idsOf, allocateMessageId_handedOut, filter_append, map_append]
  by_cases same : room' = room
  · simp [same, idsOf]
  · simp [same, Ne.symm same, idsOf]

lemma mem_idsOf {room : RoomId} {id : ℕ} : id ∈ idsOf s room ↔ (room, id) ∈ s.handedOut := by
  simp [idsOf]

lemma getD_submitWatermark (pending : OrdMap RoomId ℕ) (room room' : RoomId) (next : ℕ) :
    ((submitWatermark pending room next).get? room').getD 0 =
      if room' = room then max ((pending.get? room).getD 0) next
      else (pending.get? room').getD 0 := by
  unfold submitWatermark
  cases found : pending.get? room <;> by_cases same : room' = room <;>
    simp [get?_insert, same]

lemma lt_nextMultipleOf (id : ℕ) :
    id < nextMultipleOf (id + 1 + messageIdReserve) messageIdReserve := by
  simp only [nextMultipleOf, messageIdReserve]
  omega

/-- Allocation leaves the watermark of the room above the id, and submits it where it is a new
one; the other rooms keep theirs. -/
lemma allocateMessageId_watermark (s : IdState) (room : RoomId) :
    s.nextId room < ((allocateMessageId s room).watermarks.get? room).getD 0 ∧
    (∀ room', ((s.watermarks.get? room').getD 0 ≤
      ((allocateMessageId s room).watermarks.get? room').getD 0)) ∧
    ∀ room', (s.watermarks.get? room').getD 0 ≤ submitted s room' →
      ((allocateMessageId s room).watermarks.get? room').getD 0 ≤
        submitted (allocateMessageId s room) room' := by
  simp only [allocateMessageId]
  have above := lt_nextMultipleOf (s.nextId room)
  split_ifs with short
  · -- the headroom is used up, and the next block is submitted
    refine ⟨by simpa using above, fun room' => ?_, fun room' => ?_⟩
    · by_cases same : room' = room
      · subst same
        simp only [get?_insert, if_pos, Option.getD_some]
        simp only [nextMultipleOf, messageIdReserve] at short ⊢
        omega
      · rw [get?_insert_ne _ _ same]
    · simp only [submitted, getD_submitWatermark]
      by_cases same : room' = room
      · simp [same]
      · simp only [get?_insert_ne _ _ same, if_neg same]
        exact id
  · -- the watermark is half a block ahead already
    have covered : s.nextId room < (s.watermarks.get? room).getD 0 := by omega
    refine ⟨by simpa using covered, fun room' => ?_, fun room' => ?_⟩ <;>
    · by_cases same : room' = room
      · simp [same, submitted]
      · simp [get?_insert_ne _ _ same, submitted]

lemma IdInv.allocate (inv : IdInv s) (room : RoomId) : IdInv (allocateMessageId s room) := by
  obtain ⟨above, grown, queued⟩ := allocateMessageId_watermark s room
  refine ⟨?_, ?_, ?_, ?_, ?_, ?_, fun room' => queued room' (inv.queued room')⟩
  · rw [allocateMessageId_stored]
    exact inv.storedPos
  · intro room'
    rw [allocateMessageId_nextId]
    split
    · exact Nat.le_add_left 1 _
    · exact inv.nextPos room'
  · intro e mem
    rw [allocateMessageId_handedOut] at mem
    rcases mem_append.mp mem with old | new
    · exact inv.idPos e old
    · rw [mem_singleton.mp new]
      exact inv.nextPos room
  · intro e mem
    rw [allocateMessageId_handedOut] at mem
    rw [allocateMessageId_nextId]
    rcases mem_append.mp mem with old | new
    · have := inv.below e old
      split
      · next same => rw [same] at this; omega
      · exact this
    · rw [mem_singleton.mp new, if_pos rfl]
      exact Nat.lt_succ_self _
  · intro room'
    rw [idsOf_allocate]
    split
    · next same =>
      subst same
      refine pairwise_append.mpr ⟨inv.rising room', pairwise_singleton _ _, ?_⟩
      intro id mem next last
      rw [mem_singleton.mp last]
      exact inv.below (room', id) (mem_idsOf.mp mem)
    · exact inv.rising room'
  · intro e mem
    rw [allocateMessageId_handedOut] at mem
    rcases mem_append.mp mem with old | new
    · exact (inv.reserved e old).trans_le (grown e.1)
    · rw [mem_singleton.mp new]
      exact above

lemma persist_pos {stored write : OrdMap RoomId ℕ}
      (pos : ∀ room mark, stored.get? room = some mark → 1 ≤ mark)
    (room : RoomId) (mark : ℕ) (h : (persist stored write).get? room = some mark) : 1 ≤ mark := by
  unfold persist at h
  generalize write.entries = entries at h
  induction entries generalizing stored with
  | nil => exact pos room mark h
  | cons e rest ih =>
    refine ih ?_ h
    intro room' mark' found
    simp only at found
    split at found
    · next above =>
      rw [get?_insert] at found
      split at found
      · cases found
        omega
      · exact pos room' mark' found
    · exact pos room' mark' found

/-- Where nothing is on its way to the writer, the ids are below the committed watermarks. -/
lemma IdInv.recoverable (inv : IdInv s) (settled : Settled s .crash) {e : RoomId × ℕ}
    (mem : e ∈ s.handedOut) : e.2 < (s.stored.get? e.1).getD 0 := by
  obtain ⟨noneQueued, noneWritten⟩ := settled
  simpa [submitted, noneQueued, noneWritten] using inv.lt_submitted mem

lemma IdInv.crash (inv : IdInv s) (settled : Settled s .crash) : IdInv (restart s) := by
  refine ⟨inv.storedPos, ?_, inv.idPos, ?_, inv.rising, ?_, fun room => le_max_left _ _⟩
  · intro room
    rw [nextId_restart]
    refine le_trans ?_ (le_max_left _ _)
    cases found : s.stored.get? room with
    | none => exact le_rfl
    | some mark => exact inv.storedPos room mark found
  · intro e mem
    have below := inv.recoverable settled mem
    rw [lt_nextId_restart (inv.idPos e mem)]
    left
    cases found : s.stored.get? e.1 with
    | none => simp [found] at below
    | some mark => exact ⟨mark, rfl, by simpa [found] using below⟩
  · intro e mem
    exact inv.recoverable settled mem

lemma IdInv.step {durable : RoomId → Bool} {s' : IdState} {a : IdAction} (inv : IdInv s)
    (settled : Settled s a) (h : s.next durable a = some s') : IdInv s' := by
  cases a with
  | allocate room =>
    cases h
    exact inv.allocate room
  | receive =>
    simp only [IdState.next] at h
    split at h
    · next idle =>
      cases h
      refine ⟨inv.storedPos, inv.nextPos, inv.idPos, inv.below, inv.rising, inv.reserved, ?_⟩
      intro room
      simpa [submitted, idle.1] using inv.queued room
    · cases h
  | commit =>
    simp only [IdState.next] at h
    split at h
    · next write writing =>
      cases h
      refine ⟨persist_pos inv.storedPos, inv.nextPos, inv.idPos, inv.below, inv.rising,
        inv.reserved, ?_⟩
      intro room
      have queued := inv.queued room
      simp only [submitted, writing, Option.bind_some, getD_persist, Option.bind_none,
        Option.getD_none] at queued ⊢
      omega
    · cases h
  | logRecord room id =>
    simp only [IdState.next] at h
    split at h
    · cases h
      exact ⟨inv.storedPos, inv.nextPos, inv.idPos, inv.below, inv.rising, inv.reserved,
        inv.queued⟩
    · cases h
  | crash =>
    cases h
    exact inv.crash settled

/-- An id that a crash leaves unrecoverable: the room's next id after the restart is not above
it. -/
lemma IdInv.reused (inv : IdInv s) {room : RoomId} {id : ℕ} (mem : (room, id) ∈ s.handedOut)
    (lost : ¬ Recoverable s room id) :
    ¬ (idsOf (allocateMessageId (restart s) room) room).Pairwise (· < ·) := by
  intro rising
  rw [idsOf_allocate, if_pos rfl, pairwise_append] at rising
  have next := rising.2.2 id (mem_idsOf.mpr mem) _ (mem_singleton.mpr rfl)
  exact lost ((lt_nextId_restart (inv.idPos _ mem)).mp next)

/-- In every run without a crash while a queued watermark is uncommitted, the ids of each room
strictly increase, and every id handed out is below a watermark of its room that is committed or
on its way to the writer.  A crash that leaves an id unrecoverable lets the room hand out, right
after the restart, an id that does not increase. -/
theorem message_ids_increase (durable : RoomId → Bool) (s : IdState)
    (run : Reachable (IdState.next durable) Settled IdState.initial s) :
    (∀ room, (idsOf s room).Pairwise (· < ·)) ∧
    (∀ room, ∀ id ∈ idsOf s room, id < submitted s room) ∧
    ∀ room id, (room, id) ∈ s.handedOut → ¬ Recoverable s room id →
      ¬ (idsOf (allocateMessageId (restart s) room) room).Pairwise (· < ·) := by
  have inv : IdInv s := run.invariant IdInv.initial fun inv settled h => inv.step settled h
  exact ⟨inv.rising, fun room id mem => inv.lt_submitted (mem_idsOf.mp mem), fun _ _ => inv.reused⟩

/-- The first id of a room, its watermark committed, a restart, and the next id. -/
def sampleIds : IdState :=
  after (IdState.next fun _ => false) IdState.initial
    [.allocate 1, .receive, .commit, .crash, .allocate 1]

theorem message_ids_increase_sample :
    idsOf sampleIds 1 = [1, 2048] ∧ (idsOf sampleIds 1).Pairwise (· < ·) :=
  ⟨by decide +kernel,
    (message_ids_increase (fun _ => false) sampleIds (reachable_after (by decide +kernel))).1 1⟩

/-- A room hands out its first id, and again after a crash that came before the writer's
commit. -/
theorem first_id_reused :
    ∃ s, Reachable (IdState.next fun _ => false) (fun _ _ => True) IdState.initial s ∧
    idsOf s 1 = [1, 1] :=
  ⟨after (IdState.next fun _ => false) IdState.initial [.allocate 1, .crash, .allocate 1],
    reachable_after (by decide +kernel), by decide +kernel⟩

end Chatt.MessageIds
