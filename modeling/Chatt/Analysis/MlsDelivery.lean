import Chatt.Analysis.StoreRun
import Chatt.Model.MlsDelivery

/-!
# The clients of a room process one sequence of messages

Clients are sent answers of `events` (a fetched batch, or the one pushed with a new event) and the
outcomes
of their own submissions, which may be late, repeated and out of order.  Still each client processes
consecutive sequences, and no two clients process different messages under one sequence.
-/

namespace Chatt

open Chatt.Lib OrdMap List

/-- The stores along a run of calls, which a refused call continues too. -/
structure StoreTrace where
  store : ℕ → MlsStore
  first : store 0 = MlsStore.initial
  step : ∀ n, Step MlsStore.next MlsStore.Issued (store n) (store (n + 1))

/-- The stores along a list of calls; a cleanup with nothing to do goes on for ever after. -/
def StoreTrace.ofCalls (calls : List (AppendResult × StoreOp))
    (h : Allowed MlsStore.next MlsStore.Issued MlsStore.initial calls) : StoreTrace where
  store n := after MlsStore.next MlsStore.initial (calls.take n)
  first := rfl
  step n := by
    rcases lt_or_ge n calls.length with hlt | hge
    · exact h.step_take hlt
    · rw [take_of_length_le hge, take_of_length_le (Nat.le_succ_of_le hge)]
      exact ⟨(none, .cleanup 0 0), trivial, rfl⟩

/-- What reaches a client, as the store answered at some time of the run: a batch, or the outcome of
a
submission (`Stored` is what a retry is answered right after the append, `AlreadyStored` later). -/
inductive Receipt
  | batch (time sequence limit : ℕ) (works : MlsDeliveryEvent → Bool)
  | outcome (time : ℕ) (eventId : EventId) (epoch : ℕ) (ciphertext : Bytes)

def RoomClient.receive (store : ℕ → MlsStore) (r : RoomId) (client : RoomClient) :
    Receipt → RoomClient
  | .batch time sequence limit works =>
    match (store time).events r sequence limit with
    | .error _ => client
    | .ok batch => (client.handleMlsEvents works batch).1
  | .outcome time eventId epoch ciphertext =>
    match (store time).applicationRetry r eventId epoch ciphertext with
    | .ok (some (some sequence)) => client.markOutgoingDelivered sequence ciphertext
    | _ => client

variable (trace : StoreTrace) {r : RoomId} {event : MlsDeliveryEvent} {start sequence : ℕ}
  {message : Bytes} {client client' : RoomClient}
  {works : MlsDeliveryEvent → Bool} {events : List MlsDeliveryEvent}

/-! ## The log of the run -/

namespace StoreTrace

/-- The message is the one of its sequence in the room's log, at some time. -/
def Logged (r : RoomId) (sequence : ℕ) (message : Bytes) : Prop :=
  ∃ n stored, (trace.store n).state.events.get? (toLex (r, sequence)) = some stored ∧
    stored.event.encoded = message

lemma sound (n : ℕ) : (trace.store n).Sound := by
  apply MlsStore.Sound.of_reachable
  induction n with
  | zero => exact trace.first ▸ Reachable.refl _
  | succ n ih => exact ih.tail (trace.step n)

lemma advances {m n : ℕ} (h : m ≤ n) : Advances (trace.store m).state (trace.store n).state := by
  induction n, h using Nat.le_induction with
  | base => exact Advances.refl _
  | succ n _ ih =>
    obtain ⟨⟨io, op⟩, hissued, hnext⟩ := trace.step n
    have hinv := (trace.sound n).inv
    rw [← Option.some_inj.mp hnext]
    rcases StoreOp.run_state io hinv hissued with hsame | ⟨d, -, hlegal, ht⟩
    · rwa [hsame]
    · exact ih.trans (hlegal.advances hinv ht)

variable {trace}

/-- An event of the log is never replaced by another one. -/
lemma Logged.eq {message' : Bytes} (h : trace.Logged r sequence message)
    (h' : trace.Logged r sequence message') : message = message' := by
  obtain ⟨m, stored, hget, rfl⟩ := h
  obtain ⟨n, stored', hget', rfl⟩ := h'
  obtain ⟨room, hroom, -, hhead, -⟩ := (trace.sound m).inv.log.room_of_event hget
  obtain ⟨room', hroom', -, hhead', -⟩ := (trace.sound n).inv.log.room_of_event hget'
  rcases le_total m n with hle | hle
  · cases hget.symm.trans ((trace.advances hle).event_old hroom hhead hget')
    rfl
  · cases hget'.symm.trans ((trace.advances hle).event_old hroom' hhead' hget)
    rfl

lemma logged_of_batch {n after limit : ℕ} {batch : EventBatch}
      (h : (trace.store n).events r after limit = .ok batch)
    (he : event ∈ batch.events) : trace.Logged r event.sequence event.encoded := by
  unfold MlsStore.events at h
  split at h
  · cases h
  cases h
  split at he
  swap
  · cases he
  obtain ⟨⟨k, stored⟩, hmem, rfl⟩ := mem_map.mp he
  obtain ⟨⟨r', q⟩, rfl⟩ := toLex.surjective k
  obtain ⟨rfl, -, -, hget⟩ := mem_row.mp (mem_of_mem_take hmem)
  obtain ⟨-, -, -, -, rfl⟩ := (trace.sound n).inv.log.room_of_event hget
  exact ⟨n, stored, hget, rfl⟩

lemma logged_of_retry {n epoch : ℕ} {eventId : EventId}
    (h : (trace.store n).applicationRetry r eventId epoch message = .ok (some (some sequence))) :
    trace.Logged r sequence message := by
  unfold MlsStore.applicationRetry at h
  split at h
  · cases h
  split at h
  · cases h
  next stored hget =>
  split at h
  swap
  · cases h
  next hretry =>
  cases h
  unfold isExactRetry at hretry
  split at hretry
  swap
  · cases hretry
  next hevent => exact ⟨n, stored, hget, by rw [hevent]; exact (of_decide_eq_true hretry).2.2⟩

end StoreTrace

/-! ## A client -/

/-- The messages so far are consecutive and come from the log. -/
structure StoreTrace.InOrder (r : RoomId) (start : ℕ) (client : RoomClient) : Prop where
  start_le : start ≤ client.cursor
  sequences : client.processed.map (·.1) = range' (start + 1) (client.cursor - start)
  logged : ∀ p ∈ client.processed, trace.Logged r p.1 p.2

namespace StoreTrace.InOrder

variable {trace} (h : trace.InOrder r start client)

include h

lemma advance (hlogged : trace.Logged r sequence message)
      (hnext : checkedAdd client.cursor 1 = some sequence) :
    trace.InOrder r start (client.advance sequence message) := by
  obtain ⟨rfl, -⟩ := checkedAdd_eq_some.mp hnext
  have hstart := h.start_le
  refine ⟨Nat.le_succ_of_le hstart, ?_, forall_mem_append.mpr ⟨h.logged,
    forall_mem_singleton.mpr hlogged⟩⟩
  rw [RoomClient.advance, map_append, h.sequences, map_singleton, Nat.succ_sub hstart,
    range'_concat]
  congr 2
  omega

lemma processDelivery (hevent : trace.Logged r event.sequence event.encoded)
      (hok : client.processDelivery works event = .ok client') :
    trace.InOrder r start client' := by
  unfold RoomClient.processDelivery at hok
  split at hok
  · cases hok
    exact h
  split at hok
  · cases hok
  next expected hexpected =>
  split at hok
  · cases hok
  next hgap =>
  split at hok
  swap
  · cases hok
  cases hok
  exact h.advance hevent (hexpected.trans (congrArg some (not_not.mp hgap).symm))

lemma processAll (hevents : ∀ event ∈ events, trace.Logged r event.sequence event.encoded) :
    trace.InOrder r start (client.processAll works events).1 := by
  induction events generalizing client with
  | nil => exact h
  | cons event rest ih =>
    rw [RoomClient.processAll]
    split
    · exact h
    · next hok =>
        exact ih (h.processDelivery (hevents _ mem_cons_self) hok) fun e he =>
          hevents e (mem_cons_of_mem _ he)

lemma receive (receipt : Receipt) :
    trace.InOrder r start (client.receive trace.store r receipt) := by
  unfold RoomClient.receive
  split
  · split
    · exact h
    next batch hbatch =>
    unfold RoomClient.handleMlsEvents
    dsimp only
    split_ifs
    · exact h
    · exact h
    · exact h.processAll fun event he =>
        logged_of_batch hbatch (mem_mergeSort.mp (mem_of_mem_filter he))
  · split
    · next hretry =>
      unfold RoomClient.markOutgoingDelivered
      split_ifs with hnext
      · exact h.advance (logged_of_retry hretry) hnext
      · exact h
    · exact h

lemma foldl_receive (receipts : List Receipt) :
    trace.InOrder r start (receipts.foldl (RoomClient.receive trace.store r) client) :=
  foldlRecOn receipts _ h fun _ ih receipt _ => ih.receive receipt

end StoreTrace.InOrder

/-- Each client processes consecutive messages of the log from where it has joined, and no two
clients
process different messages under one sequence. -/
theorem deliveries_agree (trace : StoreTrace) (r : RoomId) (start start' : ℕ)
      (receipts receipts' : List Receipt) :
    let client := receipts.foldl (RoomClient.receive trace.store r) { cursor := start }
    let client' := receipts'.foldl (RoomClient.receive trace.store r) { cursor := start' }
    client.processed.map (·.1) = range' (start + 1) (client.cursor - start) ∧
      (∀ p ∈ client.processed, trace.Logged r p.1 p.2) ∧
      ∀ p ∈ client.processed, ∀ p' ∈ client'.processed, p.1 = p'.1 → p.2 = p'.2 := by
  have joined : ∀ start, trace.InOrder r start { cursor := start } := fun start =>
      ⟨le_rfl, by simp, by simp⟩
  have h := (joined start).foldl_receive receipts
  have h' := (joined start').foldl_receive receipts'
  exact ⟨h.sequences, h.logged, fun p hp p' hp' hsequence =>
    (h.logged p hp).eq (hsequence ▸ h'.logged p' hp')⟩

/-- What is handled of a batch that comes in order. -/
lemma RoomClient.handleMlsEvents_of_sorted {batch : EventBatch}
    (hsorted : batch.events.Pairwise fun a b => a.sequence ≤ b.sequence)
    (holdest : ¬ saturatingAdd client.cursor 1 < batch.oldestAvailableSequence)
    (hnext : ¬ (batch.events.filter (·.sequence > client.cursor)).head?.any
      (·.sequence ≠ saturatingAdd client.cursor 1)) :
    (client.handleMlsEvents works batch).1 =
      (client.processAll works (batch.events.filter (·.sequence > client.cursor))).1 := by
  have hmerge : batch.events.mergeSort (fun a b => a.sequence ≤ b.sequence) = batch.events :=
    mergeSort_of_pairwise (hsorted.imp fun h => decide_eq_true h)
  rw [RoomClient.handleMlsEvents, if_neg holdest, hmerge]
  dsimp only
  rw [if_neg hnext]
  rfl

/-- The store while the room is filled, and after a cleanup that prunes what has expired. -/
def sampleTrace : StoreTrace := StoreTrace.ofCalls sampleCalls (by decide +kernel)

/-- The three events of the room. -/
def sampleBatch : EventBatch where
  events := [.commit 1 0 1 [] [9], .application 2 1 (ByteArr.replicate 16 3) [] [1],
    .application 3 1 (ByteArr.replicate 16 4) [] [2]]
  oldestAvailableSequence := 1
  headSequence := 3

lemma sampleTrace_events : (sampleTrace.store 3).events 7 0 8 = .ok sampleBatch := by decide +kernel

/-- One client is sent the events of the room from its start.  The other joined behind the first
event, and has the outcome of its own submission before the batch. -/
theorem deliveries_agree_sample :
    let client := [Receipt.batch 3 0 8 fun _ => true].foldl
      (RoomClient.receive sampleTrace.store 7) { cursor := 0 }
    let client' := [Receipt.outcome 3 (ByteArr.replicate 16 3) 1 [1],
      .batch 3 0 8 fun _ => true].foldl (RoomClient.receive sampleTrace.store 7) { cursor := 1 }
    client.processed = [(1, [9]), (2, [1]), (3, [2])] ∧
    client'.processed = [(2, [1]), (3, [2])] ∧
    (∀ p ∈ client.processed, sampleTrace.Logged 7 p.1 p.2) ∧
    ∀ p ∈ client.processed, ∀ p' ∈ client'.processed, p.1 = p'.1 → p.2 = p'.2 := by
  have h := deliveries_agree sampleTrace 7 0 1 [.batch 3 0 8 fun _ => true]
    [.outcome 3 (ByteArr.replicate 16 3) 1 [1], .batch 3 0 8 fun _ => true]
  have houtcome : RoomClient.receive sampleTrace.store 7 { cursor := 1 }
      (.outcome 3 (ByteArr.replicate 16 3) 1 [1]) = { cursor := 2, processed := [(2, [1])] } := by
    decide +kernel
  refine ⟨?_, ?_, h.2.1, h.2.2⟩
  · simp only [foldl_cons, foldl_nil, RoomClient.receive, sampleTrace_events]
    rw [RoomClient.handleMlsEvents_of_sorted (by decide) (by decide) (by decide)]
    decide
  · simp only [foldl_cons, foldl_nil, houtcome]
    simp only [RoomClient.receive, sampleTrace_events]
    rw [RoomClient.handleMlsEvents_of_sorted (by decide) (by decide) (by decide)]
    decide

/-- The client takes its history for expired only if the store has flagged it: what the cleanup
prunes and
what the client tests fit together. -/
theorem expired_only_if_flagged {store : MlsStore} {room : RoomRecord} {device : DeviceId}
      {c : DeviceCursor} {batch : EventBatch}
    {after limit : ℕ} (hrun : Reachable MlsStore.next MlsStore.Issued MlsStore.initial store)
    (hroom : store.state.rooms.get? r = some room)
    (hdevice : device ∈ room.requiredDevices)
    (hcursor : store.state.deviceCursors.get? (toLex (r, device)) = some c)
    (hacked : c.highestContiguousSequence ≤ client.cursor)
    (hbatch : store.events r after limit = .ok batch)
    (hexpired : (client.handleMlsEvents works batch).2 = .historyExpired) :
    store.requiresRejoin r device = true := by
  obtain ⟨hinv, hloss⟩ := MlsStore.Sound.of_reachable hrun
  have hgap := hloss.noGap hroom hdevice hcursor
  have holdest := (hinv.log.room_ok hroom).oldest_le
  have hhead := (hinv.log.room_ok hroom).head_lt
  simp only [MlsStore.events, hroom, Except.ok.injEq] at hbatch
  rw [← hbatch, RoomClient.handleMlsEvents, saturatingAdd] at hexpired
  by_contra hflag
  have hnone : c.rejoinRequiredThrough = none := by
    simpa [MlsStore.requiresRejoin, hcursor] using hflag
  simp only [NoGap, hnone] at hgap
  rw [if_neg (by dsimp only; omega)] at hexpired
  dsimp only at hexpired
  split_ifs at hexpired
  cases hexpired

theorem expired_only_if_flagged_sample :
    (after MlsStore.next MlsStore.initial sampleCalls).requiresRejoin 7 (sampleDevice 2) = true :=
  @expired_only_if_flagged 7 { cursor := 1 } (fun _ => true) _ _ (sampleDevice 2) _ ⟨[], 4,
    3⟩ 1 8 (reachable_after (by decide +kernel))
    (Option.some_get (by decide +kernel)).symm (by decide +kernel)
      (Option.some_get (by decide +kernel)).symm (by decide +kernel)
    (by decide +kernel) (by decide +kernel)

end Chatt
