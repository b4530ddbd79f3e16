import Chatt.Analysis.StoreRun

/-!
# Acknowledgements beside the worker

An acknowledgement replaces the whole cursor it has read under the read lock, and so do the
worker's persisted acknowledgements and flags.  In a run where no cursor changes between the
plan that read it and the write lock that replaces it, every planned delta is still legal
when it is applied, and the cursor rules hold.
-/

namespace Chatt

open Chatt.Lib Option

variable {s t : MemoryState} {x : Shared} {a : Action}

/-! ## The runs -/

/-- The worker comes with the arguments its caller keeps to. -/
def Shared.Issued (x : Shared) : Action → Prop
  | .planWorker op => op.Issued x.store.state
  | _ => True

instance (x : Shared) (a : Action) : Decidable (x.Issued a) := by
  cases a <;> dsimp only [Shared.Issued] <;> infer_instance

/-- The cursors a planned delta writes are still those its plan has read. -/
def Planned.Undisturbed (s : MemoryState) (p : Planned) : Prop :=
  ∀ w ∈ p.delta.cursors, s.deviceCursors.get? w.key = p.base.deviceCursors.get? w.key

/-- The delta the action applies, if it applies one, finds its cursors undisturbed. -/
def Shared.Undisturbed (x : Shared) (a : Action) : Prop :=
  ∀ p ∈ x.applied a, p.Undisturbed x.store.state

instance (x : Shared) (a : Action) : Decidable (x.Undisturbed a) :=
  inferInstanceAs (Decidable (∀ p ∈ x.applied a, ∀ w ∈ p.delta.cursors,
    x.store.state.deviceCursors.get? w.key = p.base.deviceCursors.get? w.key))

def Shared.Quiet (x : Shared) (a : Action) : Prop := x.Issued a ∧ x.Undisturbed a

instance (x : Shared) (a : Action) : Decidable (x.Quiet a) :=
  inferInstanceAs (Decidable (x.Issued a ∧ x.Undisturbed a))

/-! ## What the other thread may change -/

/-- What the network loop changes between the worker's plan and its application: cursors
only, none appears, and none moves backwards. -/
structure AckDrift (s t : MemoryState) : Prop where
  global : t.global = s.global
  rooms : t.rooms = s.rooms
  eventIds : t.eventIds = s.eventIds
  commitEpochs : t.commitEpochs = s.commitEpochs
  deviceWelcomes : t.deviceWelcomes = s.deviceWelcomes
  cursor : ∀ {k c'}, t.deviceCursors.get? k = some c' → ∃ c, s.deviceCursors.get? k = some c ∧
    c.highestContiguousSequence ≤ c'.highestContiguousSequence

lemma AckDrift.refl (s : MemoryState) : AckDrift s s :=
  ⟨rfl, rfl, rfl, rfl, rfl, fun hc => ⟨_, hc, le_rfl⟩⟩

lemma AckDrift.trans {u : MemoryState} (h : AckDrift s t) (h' : AckDrift t u) : AckDrift s u := by
  refine ⟨h'.global.trans h.global, h'.rooms.trans h.rooms, h'.eventIds.trans h.eventIds,
    h'.commitEpochs.trans h.commitEpochs, h'.deviceWelcomes.trans h.deviceWelcomes, ?_⟩
  intro k c' hc'
  obtain ⟨c, hc, hle⟩ := h'.cursor hc'
  obtain ⟨c₀, hc₀, hle₀⟩ := h.cursor hc
  exact ⟨c₀, hc₀, hle₀.trans hle⟩

/-- A legal delta stays legal through such changes, as long as the cursors it writes stay. -/
lemma Legal.drift {d : StateDelta} (h : Legal s d) (hdrift : AckDrift s t)
    (hkeep : ∀ w ∈ d.cursors, t.deviceCursors.get? w.key = s.deviceCursors.get? w.key) :
    Legal t d := by
  have hrooms := hdrift.rooms
  have hglobal := hdrift.global
  have htargets : TargetsPresent s = TargetsPresent t := by
    unfold TargetsPresent
    rw [hdrift.deviceWelcomes]
  cases h with
  | @append global base room event storedAt welcome h hw =>
    refine Legal.append { h with
      base_eq := hrooms ▸ h.base_eq, id_free := ?_, epoch_free := ?_ } ?_
    · rw [hdrift.eventIds]
      exact h.id_free
    · rw [hdrift.commitEpochs]
      exact h.epoch_free
    · unfold WelcomeIssued
      rw [hglobal]
      exact hw
  | @prune r room last expiry lagging targets h ht =>
    -- The flagged cursors are written, so they stay; the others have only moved on.
    have hlag : ∀ p ∈ lagging, t.deviceCursors.get? (toLex (r, p.1)) =
        s.deviceCursors.get? (toLex (r, p.1)) := fun p hp => hkeep _ (List.mem_map.mpr ⟨p, hp, rfl⟩)
    refine Legal.prune { h with
      room_eq := hrooms ▸ h.room_eq, lagging_cursor := ?_, covered := ?_ } (htargets ▸ ht)
    · intro p hp
      rw [hlag p hp]
      exact h.lagging_cursor p hp
    · intro device hdevice c' hc'
      obtain ⟨c, hc, hle⟩ := hdrift.cursor hc'
      rcases h.covered device hdevice c hc with hpassed | hmem
      · exact Or.inl (hpassed.trans hle)
      have hget := hlag _ hmem
      rw [hc', hc, some.injEq] at hget
      exact Or.inr (hget ▸ hmem)
  | dropTargets ht => exact Legal.dropTargets (htargets ▸ ht)
  | @replace g rooms hnext hreplaced hnodup =>
    have hdropped : droppedCursors s = droppedCursors t := by
      funext room
      unfold droppedCursors
      rw [hrooms]
    rw [hdropped]
    exact Legal.replace (hglobal ▸ hnext) (hrooms ▸ hreplaced) hnodup
  | acknowledge hroom hc hack =>
    refine Legal.acknowledge (hrooms ▸ hroom) ?_ hack
    rw [← hc]
    exact hkeep _ List.mem_cons_self
  | acknowledgeWelcome hpos hlt => exact Legal.acknowledgeWelcome hpos (hglobal ▸ hlt)

/-! ## The network loop's deltas -/

/-- The network loop only acknowledges. -/
def StoreOp.IsAck : StoreOp → Prop
  | .acknowledge .. => True
  | .acknowledgeWelcome .. => True
  | _ => False

/-- A delta that some operation has planned on `p.base`. -/
structure Planned.Ok (p : Planned) : Prop where
  inv : StoreInv p.base
  issued : p.op.Issued p.base
  planned : ∃ store : MlsStore, store.state = p.base ∧ (p.op.plan store).2 = .ok (some p.delta)

lemma Planned.Ok.legal {p : Planned} (h : p.Ok) : Legal p.base p.delta := by
  obtain ⟨store, hstate, hplan⟩ := h.planned
  rw [← hstate]
  apply StoreOp.plan_legal hplan
  · exact hstate ▸ h.inv
  · exact hstate ▸ h.issued

/-- A delta that only writes cursors that are there is such a change. -/
lemma Legal.ackDrift {cursors : List WalCursor} {welcomeCursors : List WelcomeCursorCheckpoint}
      (hinv : StoreInv s) (h : Legal s { cursors, welcomeCursors })
    (ht : DeltaApplied s { cursors, welcomeCursors } t)
    (hkeep : ∀ w ∈ cursors, ∃ c, s.deviceCursors.get? w.key = some c) : AckDrift s t := by
  have hlog : SameLog s t := sameLog_of_noEvents ht rfl rfl
  have hinbox : SameInbox s t := ht.inbox
  refine ⟨ht.global, rooms_of_noRooms ht rfl, hlog.eventIds, hlog.commitEpochs, hinbox.targets, ?_⟩
  intro k c' hc'
  obtain ⟨⟨r, device⟩, rfl⟩ := toLex.surjective k
  cases hc : s.deviceCursors.get? (toLex (r, device)) with
  | some c => exact ⟨c, rfl, (h.cursor_cases ht hinv.cursors hc hc').highest_le⟩
  | none =>
    rw [ht.cursors, OrdMap.touches_nil, if_neg Bool.false_ne_true, hc, or_none] at hc'
    obtain ⟨w, hw, hkey, -⟩ := OrdMap.lastWrite_eq_some hc'
    obtain ⟨c, hcursor⟩ := hkeep w hw
    rw [hkey, hc] at hcursor
    cases hcursor

/-- A planned acknowledgement stays legal while the rooms advance, as long as its cursor is
the one it has read, and applying it is such a change. -/
lemma Planned.Ok.acknowledges {p : Planned} (h : p.Ok) (hack : p.op.IsAck) (hinv : StoreInv s)
      (hadv : Advances p.base s)
    (hkeep : p.Undisturbed s) :
    Legal s p.delta ∧ ∀ {t}, DeltaApplied s p.delta t → AckDrift s t := by
  obtain ⟨store, hstate, hplan⟩ := h.planned
  unfold Planned.Undisturbed at hkeep
  cases hop : p.op with
  | acknowledge r device q nowUnixMs =>
    rw [hop] at hplan
    obtain ⟨room, c, hplanned⟩ := planAcknowledge_eq_some hplan
    have hroom := hplanned.room_eq
    have hcursor := hplanned.cursor_eq
    rw [hstate] at hroom hcursor
    obtain ⟨room', hroom', hroomAdv⟩ := hadv.room hroom
    have hhead := hroomAdv.head_le
    have hle := hplanned.le_head
    rw [hplanned.delta_eq] at hkeep
    have hcursor' := (hkeep _ List.mem_cons_self).trans hcursor
    have hlegal : Legal s p.delta := by
      rw [hplanned.delta_eq]
      exact Legal.acknowledge hroom' hcursor' ⟨rfl, hplanned.highest_lt.le, hle.trans hhead, rfl⟩
    refine ⟨hlegal, fun ht => ?_⟩
    rw [hplanned.delta_eq] at hlegal ht
    apply hlegal.ackDrift hinv ht
    intro w hw
    rw [List.mem_singleton.mp hw]
    exact ⟨c, hcursor'⟩
  | acknowledgeWelcome device deliveryId =>
    rw [hop] at hplan
    have hbase : StoreInv store.state := hstate ▸ h.inv
    obtain ⟨hdelta, hpos, hlt⟩ := planAcknowledgeWelcome_eq_some hplan hbase.welcomes
    rw [hstate] at hlt
    have hlegal : Legal s p.delta := by
      rw [hdelta]
      exact Legal.acknowledgeWelcome hpos (lt_of_lt_of_le hlt hadv.next_le)
    rw [hdelta] at hlegal ⊢
    exact ⟨hlegal, fun ht => hlegal.ackDrift hinv ht nofun⟩
  | _ =>
    rw [hop] at hack
    exact hack.elim

/-! ## The invariant of the two threads -/

structure SharedInv (x : Shared) : Prop where
  store : StoreInv x.store.state
  network : ∀ p, x.network = some p → p.Ok ∧ p.op.IsAck ∧ Advances p.base x.store.state
  worker : ∀ p, x.worker = some p → p.Ok ∧ AckDrift p.base x.store.state

/-- The delta an action applies is legal for the state it meets. -/
lemma SharedInv.applied_legal (h : SharedInv x) {p : Planned} (hp : x.applied a = some p)
    (hquiet : x.Undisturbed a) : p.Ok ∧ Legal x.store.state p.delta := by
  have hkeep := hquiet p hp
  cases a with
  | applyNetwork =>
    obtain ⟨hok, hack, hadv⟩ := h.network p hp
    exact ⟨hok, (hok.acknowledges hack h.store hadv hkeep).1⟩
  | applyWorker =>
    obtain ⟨hok, hdrift⟩ := h.worker p hp
    exact ⟨hok, hok.legal.drift hdrift hkeep⟩
  | planAcknowledge | planAcknowledgeWelcome | planWorker | failWorker => cases hp

variable {y : Shared} {op : StoreOp}

/-- What planning on the network loop's side does. -/
lemma Shared.planNetwork_eq_some (h : x.planNetwork op = some y) :
    y.store = x.store ∧ y.worker = x.worker ∧
      (y.network = x.network ∨ ∃ delta, (op.plan x.store).2 = .ok (some delta) ∧
        y.network = some { op, base := x.store.state, delta }) := by
  unfold Shared.planNetwork at h
  split at h
  · cases h
  split at h
  · rename_i delta hplan
    cases h
    exact ⟨rfl, rfl, Or.inr ⟨delta, hplan, rfl⟩⟩
  · cases h
    exact ⟨rfl, rfl, Or.inl rfl⟩
  · cases h
    exact ⟨rfl, rfl, Or.inl rfl⟩

/-- What planning on the worker's side does. -/
lemma Shared.planWorker_eq_some (h : x.planWorker op = some y) :
    y.store.state = x.store.state ∧ y.network = x.network ∧
      (y.worker = x.worker ∨ ∃ delta, (op.plan x.store).2 = .ok (some delta) ∧
        y.worker = some { op, base := x.store.state, delta }) := by
  unfold Shared.planWorker at h
  split at h
  · cases h
  simp only at h
  split at h
  · rename_i delta hplan
    cases h
    exact ⟨rfl, rfl, Or.inr ⟨delta, hplan, rfl⟩⟩
  · cases h
    exact ⟨rfl, rfl, Or.inl rfl⟩
  · cases h
    exact ⟨rfl, rfl, Or.inl rfl⟩

/-- An action either leaves the hot state alone or applies a planned delta to it. -/
lemma Shared.next_state (h : x.next a = some y) :
    y.store.state = x.store.state ∨ ∃ p, x.applied a = some p ∧
    y.store.state = (x.store.commit none p.delta).1.state := by
  cases a with
  | planAcknowledge r device q nowUnixMs | planAcknowledgeWelcome device deliveryId =>
    exact Or.inl (congrArg MlsStore.state (Shared.planNetwork_eq_some h).1)
  | applyNetwork =>
    obtain ⟨p, hp, rfl⟩ := map_eq_some_iff.mp h
    exact Or.inr ⟨p, hp, rfl⟩
  | planWorker op => exact Or.inl (Shared.planWorker_eq_some h).1
  | applyWorker =>
    obtain ⟨p, hp, rfl⟩ := map_eq_some_iff.mp h
    exact Or.inr ⟨p, hp, rfl⟩
  | failWorker =>
    obtain ⟨p, hp, rfl⟩ := map_eq_some_iff.mp h
    exact Or.inl rfl

lemma SharedInv.planNetwork (h : SharedInv x) (hy : x.planNetwork op = some y) (hack : op.IsAck)
    (hissued : op.Issued x.store.state) : SharedInv y := by
  obtain ⟨hstore, hworker, hnetwork⟩ := Shared.planNetwork_eq_some hy
  refine ⟨hstore ▸ h.store, ?_, ?_⟩
  · intro p hp
    rw [hstore]
    rcases hnetwork with heq | ⟨delta, hplan, heq⟩
    · exact h.network p (heq ▸ hp)
    · rw [heq, some.injEq] at hp
      subst hp
      exact ⟨⟨h.store, hissued, x.store, rfl, hplan⟩, hack, Advances.refl _⟩
  · rw [hstore, hworker]
    exact h.worker

lemma SharedInv.planWorker (h : SharedInv x) (hissued : op.Issued x.store.state)
    (hy : x.planWorker op = some y) : SharedInv y := by
  obtain ⟨hstate, hnetwork, hworker⟩ := Shared.planWorker_eq_some hy
  refine ⟨hstate ▸ h.store, ?_, ?_⟩
  · rw [hstate, hnetwork]
    exact h.network
  intro p hp
  rw [hstate]
  rcases hworker with heq | ⟨delta, hplan, heq⟩
  · exact h.worker p (heq ▸ hp)
  · rw [heq, some.injEq] at hp
    subst hp
    exact ⟨⟨h.store, hissued, x.store, rfl, hplan⟩, AckDrift.refl _⟩

/-- A quiet step keeps the invariant. -/
lemma SharedInv.step (h : SharedInv x) (hok : x.Quiet a) (hnext : x.next a = some y) :
    SharedInv y := by
  obtain ⟨hissued, hquiet⟩ := hok
  cases a with
  | planAcknowledge r device q nowUnixMs | planAcknowledgeWelcome device deliveryId =>
    exact h.planNetwork hnext trivial trivial
  | planWorker op => exact h.planWorker hissued hnext
  | failWorker =>
    obtain ⟨p, -, rfl⟩ := map_eq_some_iff.mp hnext
    exact ⟨h.store, h.network, by simp⟩
  | applyNetwork =>
    obtain ⟨p, hp, rfl⟩ := map_eq_some_iff.mp hnext
    obtain ⟨hok, hlegal⟩ := h.applied_legal (a := .applyNetwork) hp hquiet
    obtain ⟨-, hack, hadv⟩ := h.network p hp
    have ht := h.store.applied p.delta
    refine ⟨hlegal.storeInv h.store ht, by simp, ?_⟩
    intro p' hp'
    obtain ⟨hok', hdrift⟩ := h.worker p' hp'
    exact ⟨hok', hdrift.trans ((hok.acknowledges hack h.store hadv (hquiet p hp)).2 ht)⟩
  | applyWorker =>
    obtain ⟨p, hp, rfl⟩ := map_eq_some_iff.mp hnext
    obtain ⟨-, hlegal⟩ := h.applied_legal (a := .applyWorker) hp hquiet
    have ht := h.store.applied p.delta
    refine ⟨hlegal.storeInv h.store ht, ?_, by simp⟩
    intro p' hp'
    obtain ⟨hok', hack', hadv'⟩ := h.network p' hp'
    exact ⟨hok', hack', hadv'.trans (hlegal.advances h.store ht)⟩

lemma SharedInv.initial : SharedInv Shared.initial := ⟨StoreInv.initial, nofun, nofun⟩

/-- The invariant holds after every quiet run. -/
lemma SharedInv.of_reachable (hx : Reachable Shared.next Shared.Quiet Shared.initial x) :
    SharedInv x :=
  hx.invariant SharedInv.initial fun h hok hnext => h.step hok hnext

/-! ## The cursor rules over every quiet run -/

/-- The action applies a planned acknowledgement of `q`. -/
def Shared.Acks (x : Shared) (a : Action) (r : RoomId) (device : DeviceId) (q : ℕ) : Prop :=
  ∃ p nowUnixMs, x.applied a = some p ∧ p.op = .acknowledge r device q nowUnixMs

/-- In every run of the two threads in which no cursor changes between the plan that reads it
and the step that writes it, the state passes the validation, no cursor of a removed device
comes back, no cursor moves backwards, and a flag only goes by an acknowledgement above its
watermark. -/
theorem interleaving_keeps_cursor_rules {x y : Shared} {a : Action}
    (hx : Reachable Shared.next Shared.Quiet Shared.initial x) (hok : x.Quiet a)
    (hnext : x.next a = some y) :
    validateMemory y.store.state = .ok () ∧ CursorStep (x.Acks a) x.store.state y.store.state := by
  have hinv := SharedInv.of_reachable hx
  have hquiet := hok.2
  refine ⟨(hinv.step hok hnext).store.validateMemory, ?_⟩
  rcases Shared.next_state hnext with hsame | ⟨p, hp, hstate⟩
  · rw [hsame]
    exact CursorStep.refl _ _
  obtain ⟨hok, hlegal⟩ := hinv.applied_legal hp hquiet
  have ht := hinv.store.applied p.delta
  rw [hstate]
  apply (hlegal.cursorStep hinv.store ht).mono
  rintro r device q ⟨c, c', hc, hacks, rfl, hne⟩
  obtain ⟨store, hbase, hplan⟩ := hok.planned
  have hacked := StoreOp.plan_acksWith (hbase ▸ hok.inv) (hbase ▸ hok.issued) hplan hacks
  rcases hacked with ⟨nowUnixMs, hop⟩ | hread
  · exact ⟨p, nowUnixMs, hp, hop⟩
  -- A persisted acknowledgement writes the cursor it has read, which is still there.
  have hkeep := hquiet p hp
  unfold Planned.Undisturbed AcksWith at *
  rw [hacks] at hkeep
  have hget : x.store.state.deviceCursors.get? (toLex (r, device)) =
    p.base.deviceCursors.get? (toLex (r, device)) := hkeep _ List.mem_cons_self
  rw [hc, ← hbase, hread, some.injEq] at hget
  exact absurd (congrArg DeviceCursor.rejoinRequiredThrough hget.symm) hne

/-! ## Runs to evaluate on -/

/-- The worker creates room 7 for two devices and stores two application events in it. -/
def sampleOpening : List Action :=
  [.planWorker (.createRoom GlobalRecord.initial
      (sampleRoom 7 1 1 [sampleDevice 1, sampleDevice 2]) (.commit 1 0 1 [] [9]) none),
    .applyWorker,
    .planWorker (.appendApplication 7 (sampleDevice 1) 1 (ByteArr.replicate 16 3) [] [1] 4),
    .applyWorker,
    .planWorker (.appendApplication 7 (sampleDevice 1) 1 (ByteArr.replicate 16 4) [] [2] 4),
    .applyWorker]

/-- The second device acknowledges the first application event. -/
def sampleAcknowledge : Action := .planAcknowledge 7 (sampleDevice 2) 2 6

/-- The second device leaves the room, as when its account drops it from the roster. -/
def sampleRevocation : Action :=
  .planWorker (.replaceGlobalAndRooms GlobalRecord.initial
    [{ sampleRoom 7 1 3 [sampleDevice 1] with revocationPending := true }])

/-- A cleanup three days later, when all three events have expired. -/
def sampleExpiry : Action := .planWorker (.cleanup (3 * 24 * 60 * 60 * 1000) 10)

def samplePersist : Action := .planWorker (.persistAcknowledgement 7 (sampleDevice 2))

def sampleAfter (actions : List Action) : Shared := after Shared.next Shared.initial actions

/-- The cursor of the second device. -/
def sampleCursor (x : Shared) : Option DeviceCursor :=
  x.store.state.deviceCursors.get? (toLex (7, sampleDevice 2))

theorem interleaving_keeps_cursor_rules_sample :
    validateMemory (sampleAfter (sampleOpening ++ [sampleExpiry, .applyWorker,
        .planAcknowledge 7 (sampleDevice 2) 3 6, .applyNetwork])).store.state = .ok () ∧
      CursorStep ((sampleAfter (sampleOpening ++ [sampleExpiry, .applyWorker,
          .planAcknowledge 7 (sampleDevice 2) 3 6])).Acks .applyNetwork)
        (sampleAfter
          (sampleOpening ++
          [sampleExpiry, .applyWorker, .planAcknowledge 7 (sampleDevice 2) 3 6])).store.state
        (sampleAfter (sampleOpening ++ [sampleExpiry, .applyWorker,
          .planAcknowledge 7 (sampleDevice 2) 3 6, .applyNetwork])).store.state :=
  interleaving_keeps_cursor_rules (reachable_after (by decide +kernel)) (by decide +kernel)
    (by decide +kernel)

/-- What the two threads can do to a cursor that changes between its plan and its write: a
removed device gets its cursor back and the state no longer passes the validation; an
acknowledgement of event 2 clears the flag set up to event 3; and a persisted acknowledgement
takes the cursor back from event 2 to event 1. -/
theorem interleaving_breaks_cursor_rules :
    (∃ x y, Reachable Shared.next Shared.Issued Shared.initial x ∧
      x.next .applyNetwork = some y ∧ sampleCursor x = none ∧ (sampleCursor y).isSome ∧
      (y.store.state.rooms.get? 7).map RoomRecord.requiredDevices = some [sampleDevice 1] ∧
      validateMemory y.store.state ≠ .ok ()) ∧
    (∃ x y, Reachable Shared.next Shared.Issued Shared.initial x ∧ x.next .applyNetwork = some y ∧
      (sampleCursor x).map DeviceCursor.rejoinRequiredThrough = some (some 3) ∧
      (sampleCursor y).map DeviceCursor.rejoinRequiredThrough = some none ∧
      (sampleCursor y).map DeviceCursor.highestContiguousSequence = some 2) ∧
    (∃ x y, Reachable Shared.next Shared.Issued Shared.initial x ∧ x.next .applyWorker = some y ∧
      (sampleCursor x).map DeviceCursor.highestContiguousSequence = some 2 ∧
      (sampleCursor y).map DeviceCursor.highestContiguousSequence = some 1 ∧
      (y.store.state.rooms.get? 7).map RoomRecord.requiredDevices =
        some [sampleDevice 1, sampleDevice 2]) := by
  refine ⟨⟨sampleAfter (sampleOpening ++ [sampleAcknowledge, sampleRevocation, .applyWorker]),
      sampleAfter (sampleOpening ++ [sampleAcknowledge, sampleRevocation, .applyWorker,
        .applyNetwork]), reachable_after (by decide +kernel), ?_⟩,
    ⟨sampleAfter (sampleOpening ++ [sampleAcknowledge, sampleExpiry, .applyWorker]),
      sampleAfter (sampleOpening ++ [sampleAcknowledge, sampleExpiry, .applyWorker,
        .applyNetwork]), reachable_after (by decide +kernel), ?_⟩,
    ⟨sampleAfter (sampleOpening ++ [samplePersist, sampleAcknowledge, .applyNetwork]),
      sampleAfter (sampleOpening ++ [samplePersist, sampleAcknowledge, .applyNetwork,
        .applyWorker]), reachable_after (by decide +kernel), ?_⟩⟩
  · decide +kernel
  · decide +kernel
  · decide +kernel

end Chatt
