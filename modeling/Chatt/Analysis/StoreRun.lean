import Chatt.Lib.Run
import Chatt.Analysis.CursorRules

/-!
# Runs of the delivery store

The operations are called one after the other, each with what comes of its append to the log.  Every
store that a run reaches passes the validation, and no device loses an event unnoticed.
-/

namespace Chatt

open Chatt.Lib Option

variable {store store' : MlsStore}

lemma CursorStep.refl (acked : RoomId → DeviceId → ℕ → Prop) (s : MemoryState) :
    CursorStep acked s s where
  removed := by
    intro r device c hc hnone
    rw [hc] at hnone
    cases hnone
  joined := by
    intro r device c' hnone hc'
    rw [hnone] at hc'
    cases hc'
  monotone := by
    intro r device c c' hc hc'
    rw [hc, some.injEq] at hc'
    exact hc' ▸ le_rfl
  flag := by
    intro r device c c' watermark hc hc' hflag hclear
    rw [hc, some.injEq] at hc'
    rw [← hc', hflag] at hclear
    cases hclear

lemma CursorStep.mono {acked acked' : RoomId → DeviceId → ℕ → Prop} (h : CursorStep acked s t)
    (himp : ∀ r device q, acked r device q → acked' r device q) : CursorStep acked' s t := by
  refine { h with flag := ?_ }
  intro r device c c' watermark hc hc' hflag hclear
  obtain ⟨q, hlt, hacked⟩ := h.flag hc hc' hflag hclear
  exact ⟨q, hlt, himp r device q hacked⟩

/-- The second part of an operation. -/
def MlsStore.finish (io : AppendResult) (store : MlsStore)
    (planned : RoomId × Except String (Option StateDelta)) : MlsStore :=
  match planned with
  | (after, .ok (some d)) => (({ store with cleanupAfterRoom := after } : MlsStore).commit io d).1
  | (after, _) => { store with cleanupAfterRoom := after }

/-- An operation is its plan, and the commit of what it has planned. -/
lemma StoreOp.run_eq (io : AppendResult) (store : MlsStore) (op : StoreOp) :
    op.run io store = store.finish io (op.plan store) := by
  cases op
  all_goals
    simp only [run, plan, MlsStore.createRoom, MlsStore.appendCommit, MlsStore.appendApplication,
      MlsStore.replaceGlobalAndRooms, MlsStore.acknowledge, MlsStore.persistAcknowledgement,
      MlsStore.acknowledgeWelcome, MlsStore.persistWelcomeAcknowledgement, MlsStore.cleanup,
      MlsStore.planCleanup]
  case cleanup now limit =>
    split_ifs
    · rfl
    rcases planCleanup store.state store.cleanupAfterRoom now limit with ⟨after, - | ⟨report, d⟩⟩
    · rfl
    by_cases hempty : d.isEmpty = true
    · simp only [hempty, if_true, MlsStore.finish]
    · simp only [if_neg hempty, MlsStore.finish]
      split <;> simp [*]
  case appendApplication | acknowledge | acknowledgeWelcome =>
    split <;> simp [*, Except.map, MlsStore.finish]
    split <;> simp [*]
  all_goals split <;> simp [*, Except.map, MlsStore.finish]

/-- An operation leaves the state, or applies a legal delta that it has planned. -/
lemma StoreOp.run_state {op : StoreOp} (io : AppendResult) (hinv : StoreInv store.state)
    (hissued : op.Issued store.state) : (op.run io store).state = store.state ∨
      ∃ d, (op.plan store).2 = .ok (some d) ∧ Legal store.state d ∧
      DeltaApplied store.state d (op.run io store).state := by
  rw [run_eq]
  rcases hplan : op.plan store with ⟨after, error | - | d⟩
  · exact Or.inl rfl
  · exact Or.inl rfl
  cases io with
  | some error => exact Or.inl rfl
  | none =>
    have hd : (op.plan store).2 = .ok (some d) := by rw [hplan]
    exact Or.inr ⟨d, rfl, plan_legal hd hinv hissued, hinv.applied d⟩

/-! ## Runs -/

/-- A call of an operation, with what comes of its append to the log. -/
def MlsStore.next (store : MlsStore) (call : AppendResult × StoreOp) : Option MlsStore :=
  some (call.2.run call.1 store)

/-- The call comes with the arguments the service keeps to. -/
abbrev MlsStore.Issued (store : MlsStore) (call : AppendResult × StoreOp) : Prop :=
  call.2.Issued store.state

structure MlsStore.Sound (store : MlsStore) : Prop where
  inv : StoreInv store.state
  noLoss : NoLoss store.state

lemma MlsStore.Sound.of_reachable
      (h : Reachable MlsStore.next MlsStore.Issued MlsStore.initial store) : store.Sound := by
  refine h.invariant ⟨StoreInv.initial, nofun⟩ ?_
  rintro store _ ⟨io, op⟩ ⟨hinv, hloss⟩ hissued ⟨⟩
  rcases StoreOp.run_state io hinv hissued with hsame | ⟨d, -, hlegal, ht⟩
  · constructor <;> rwa [hsame]
  · exact ⟨hlegal.storeInv hinv ht, hlegal.noLoss hinv ht hloss⟩

/-- `find_commit` never meets a dangling index entry, and answers the commit that is stored for the
epoch if it has these bytes. -/
lemma MlsStore.Sound.findCommit (h : store.Sound) (roomId : RoomId) (parentEpoch : ℕ)
    (commit : Bytes) :
    ∃ found, store.findCommit roomId parentEpoch commit = .ok found ∧
      ∀ sequence epoch, found = some (sequence, epoch) ↔ ∃ stored sequence' rosters,
        store.state.events.get? (toLex (roomId, sequence)) = some stored ∧
        stored.event = .commit sequence' parentEpoch epoch rosters commit := by
  have hindex := h.inv.log.commit_epochs roomId parentEpoch
  unfold MlsStore.findCommit
  cases hepoch : store.state.commitEpochs.get? (toLex (roomId, parentEpoch)) with
  | none =>
    refine ⟨none, rfl, fun sequence epoch => ⟨nofun, ?_⟩⟩
    rintro ⟨stored, sequence', rosters, hget, hevent⟩
    have hfound := (hindex sequence).mpr ⟨stored, hget, by rw [hevent]; rfl⟩
    rw [hepoch] at hfound
    cases hfound
  | some q =>
    obtain ⟨stored, hget, hlabel⟩ := (hindex q).mp hepoch
    have hunique : ∀ {sequence stored'},
        store.state.events.get? (toLex (roomId, sequence)) = some stored' →
        stored'.event.parentEpoch? = some parentEpoch → sequence = q ∧ stored' = stored := by
      intro sequence stored' hget' hlabel'
      have hsame := (hindex sequence).mpr ⟨stored', hget', hlabel'⟩
      rw [hepoch] at hsame
      cases hsame
      rw [hget] at hget'
      exact ⟨rfl, (Option.some.inj hget').symm⟩
    cases hevent : stored.event with
    | application sequence epoch eventId rosters ciphertext =>
      rw [hevent] at hlabel
      cases hlabel
    | commit sequence' parent epoch rosters bytes =>
      rw [hevent] at hlabel
      cases hlabel
      simp only [hget, hevent]
      by_cases hbytes : bytes = commit
      · refine ⟨some (q, epoch), if_pos hbytes, fun sequence epoch' => ⟨?_, ?_⟩⟩
        · rintro ⟨⟩
          exact ⟨stored, sequence', rosters, hget, by rw [hevent, hbytes]⟩
        · rintro ⟨stored', _, _, hget', hevent'⟩
          obtain ⟨rfl, rfl⟩ := hunique hget' (by rw [hevent']; rfl)
          rw [hevent] at hevent'
          cases hevent'
          rfl
      · refine ⟨none, if_neg hbytes, fun sequence epoch' => ⟨nofun, ?_⟩⟩
        rintro ⟨stored', _, _, hget', hevent'⟩
        obtain ⟨rfl, rfl⟩ := hunique hget' (by rw [hevent']; rfl)
        rw [hevent] at hevent'
        cases hevent'
        exact absurd rfl hbytes

/-- `welcomes` always answers, and lists the Welcomes that wait for the device after the given id.
-/
lemma MlsStore.Sound.welcomes (h : store.Sound) (deviceId : DeviceId) (after : ℕ) :
    ∃ l, store.welcomes deviceId after = .ok l ∧
      ∀ id, id ∈ l.map MlsWelcome.deliveryId ↔ after < id ∧ id ≤ u64Max ∧
        store.state.deviceWelcomes.get? (toLex (deviceId, id)) = some () := by
  unfold MlsStore.welcomes checkedAdd
  by_cases hlast : after + 1 ≤ u64Max
  · rw [if_pos hlast]
    refine Exists.imp (fun l hl => ⟨hl.1, fun id => ?_⟩)
      (exists_mapM_eq_ok (g := MlsWelcome.deliveryId) (k := fun target => (ofLex target.1).2) ?_)
    · rw [hl.2, List.mem_map]
      constructor
      · rintro ⟨⟨k, ⟨⟩⟩, htarget, rfl⟩
        obtain ⟨⟨device, id⟩, rfl⟩ := toLex.surjective k
        obtain ⟨rfl, hlo, hhi, hget⟩ := OrdMap.mem_row.mp htarget
        exact ⟨hlo, hhi, hget⟩
      · rintro ⟨hlo, hhi, hget⟩
        exact ⟨(toLex (deviceId, id), ()), OrdMap.mem_row.mpr ⟨rfl, hlo, hhi, hget⟩, rfl⟩
    · rintro ⟨k, ⟨⟩⟩ htarget
      obtain ⟨⟨device, id⟩, rfl⟩ := toLex.surjective k
      obtain ⟨rfl, -, -, hget⟩ := OrdMap.mem_row.mp htarget
      obtain ⟨w, hw, -⟩ := h.inv.welcomes.inbox.welcome_of_target hget
      simp only [ofLex_toLex, hw]
      exact ⟨_, rfl, rfl⟩
  · rw [if_neg hlast]
    refine ⟨[], rfl, fun id => ⟨nofun, ?_⟩⟩
    rintro ⟨hlo, hhi, -⟩
    omega

/-- Every state a run of the operations reaches passes the validation. -/
theorem store_runs_validate (h : Reachable MlsStore.next MlsStore.Issued MlsStore.initial store) :
    validateMemory store.state = .ok () :=
  (MlsStore.Sound.of_reachable h).inv.validateMemory

/-- Every required device is up to date with what was pruned or flagged for a rejoin, and a flag
only goes by an acknowledgement above its watermark or with the device. -/
theorem store_runs_lose_nothing {call : AppendResult × StoreOp}
    (h : Reachable MlsStore.next MlsStore.Issued MlsStore.initial store)
    (hissued : store.Issued call) (hnext : store.next call = some store') :
    NoLoss store.state ∧ CursorStep (fun r device q =>
      ∃ nowUnixMs, call.2 = .acknowledge r device q nowUnixMs) store.state store'.state := by
  obtain ⟨hinv, hloss⟩ := MlsStore.Sound.of_reachable h
  refine ⟨hloss, ?_⟩
  cases hnext
  rcases StoreOp.run_state call.1 hinv hissued with hsame | ⟨d, hplan, hlegal, ht⟩
  · rw [hsame]
    exact CursorStep.refl _ _
  apply (hlegal.cursorStep hinv ht).mono
  rintro r device q ⟨c, c', hc, hacks, rfl, hne⟩
  rcases StoreOp.plan_acksWith hinv hissued hplan hacks with hack | hread
  · exact hack
  · rw [hc, Option.some.injEq] at hread
    exact absurd (congrArg DeviceCursor.rejoinRequiredThrough hread.symm) hne

/-- Two devices in a room with three events, all of which a cleanup prunes as expired. -/
def sampleCalls : List (AppendResult × StoreOp) :=
  [(none, .createRoom GlobalRecord.initial (sampleRoom 7 1 1 [sampleDevice 1, sampleDevice 2])
      (.commit 1 0 1 [] [9]) none),
    (none, .appendApplication 7 (sampleDevice 1) 1 (ByteArr.replicate 16 3) [] [1] 4),
    (none, .appendApplication 7 (sampleDevice 1) 1 (ByteArr.replicate 16 4) [] [2] 4),
    (none, .cleanup (3 * 24 * 60 * 60 * 1000) 10)]

theorem store_runs_validate_sample :
    validateMemory (after MlsStore.next MlsStore.initial sampleCalls).state = .ok () :=
  store_runs_validate (reachable_after (by decide +kernel))

theorem store_runs_lose_nothing_sample :
    let store := after MlsStore.next MlsStore.initial sampleCalls
    let acknowledge := StoreOp.acknowledge 7 (sampleDevice 2) 3 6
    NoLoss store.state ∧ CursorStep
      (fun r device q => ∃ nowUnixMs, acknowledge = .acknowledge r device q nowUnixMs)
      store.state (acknowledge.run none store).state :=
  @store_runs_lose_nothing _ _ (none, .acknowledge 7 (sampleDevice 2) 3 6)
    (reachable_after (by decide +kernel)) trivial rfl

end Chatt
