import Chatt.Interface.Recovery
import Chatt.Analysis.StorePlans
import Chatt.Analysis.Checkpoint
import Chatt.Analysis.Replay
import Chatt.Lib.Overwrite

/-!
# What becomes of the cursors in a crash

The device cursors and the Welcome cursors are two maps that deltas overwrite (`CursorMap`).  The
durable deltas, applied once, lead to one value of such a map; a checkpoint with some of the
logged records on top of it leads to another.  `CursorMap.Keeps` says that the second is the first
moved on by acknowledgements, whichever acknowledgements of the history the log has lost.  It is
kept by every delta that is appended, and a checkpoint of the memory may take over from the
checkpoint on the disk (`Keeps.ofMemory`).
-/

namespace Chatt

open Chatt.Lib List Option

variable {d : StateDelta} {s t : MemoryState}

/-! ## Logs with missing acknowledgements -/

lemma Logged.append {log log' history history' : List StateDelta} (h : Logged log history)
    (h' : Logged log' history') : Logged (log ++ log') (history ++ history') := by
  induction h with
  | nil => exact h'
  | keep _ ih => exact Logged.keep ih
  | drop hack _ ih => exact Logged.drop hack ih

lemma Logged.concat {log history : List StateDelta} (h : Logged log history) (d : StateDelta) :
    Logged (log ++ [d]) (history ++ [d]) :=
  h.append (Logged.keep Logged.nil)

/-- Acknowledgements at the end of a log may be lost. -/
lemma Logged.take {log history : List StateDelta} (h : Logged log history) {k : ℕ}
    (hack : ∀ d ∈ log.drop k, d.AckOnly) : Logged (log.take k) history := by
  induction h generalizing k with
  | nil => rw [take_nil]; exact Logged.nil
  | @keep log history d _ ih =>
    cases k with
    | zero =>
      apply Logged.drop (hack d mem_cons_self)
      simpa using ih (k := 0) fun e he => hack e (mem_cons_of_mem _ he)
    | succ k => exact Logged.keep (ih hack)
  | drop hd _ ih => exact Logged.drop hd (ih hack)


lemma Logged.refl (history : List StateDelta) : Logged history history := by
  induction history with
  | nil => exact Logged.nil
  | cons d history ih => exact Logged.keep ih

/-- A log of one delta has it, or it is an acknowledgement. -/
lemma Logged.single {log : List StateDelta} (h : Logged log [d]) :
    log = [d] ∨ log = [] ∧ d.AckOnly := by
  cases h with
  | keep h =>
    cases h
    exact Or.inl rfl
  | drop hack h =>
    cases h
    exact Or.inr ⟨rfl, hack⟩

/-! ## The two maps -/

/-- A map of cursors in the state: how it is read, what a delta writes to it, and when one value
is another moved on by acknowledgements. -/
structure CursorMap (κ ν : Type) where
  read : MemoryState → κ → ν
  write : StateDelta → κ → Option ν
  Moved : ν → ν → Prop
  refl : ∀ v, Moved v v
  trans : ∀ {u v w}, Moved u v → Moved v w → Moved u w
  applied : ∀ {s t d}, applyDelta s d = (t, .ok ()) → read t = overwrite write (read s) d
  retired : ∀ (store : MlsStore) (n : ℕ), read (store.retire n).state = read store.state
  reload : ∀ (jsony : Jsony) (s : MemoryState), read (reloaded jsony s) = read s
  /-- a delta that is synced and writes cursors only writes none -/
  durable : ∀ {store : MlsStore} {op : StoreOp} {d}, StoreInv store.state →
    op.Issued store.state → (op.plan store).2 = .ok (some d) → op.durable = true → d.AckOnly →
    ∀ k, write d k = none
  /-- a delta that is not synced moves cursors on -/
  acked : ∀ {store : MlsStore} {op : StoreOp} {d}, StoreInv store.state →
    (op.plan store).2 = .ok (some d) → op.durable = false →
    ∀ k v, write d k = some v → Moved (read store.state k) v

/-- Nothing that is appended durably writes cursors and nothing else. -/
lemma StoreOp.plan_cursors {store : MlsStore} {op : StoreOp} (hinv : StoreInv store.state)
    (hissued : op.Issued store.state) (h : (op.plan store).2 = .ok (some d))
    (hop : op.durable = true) (hack : d.AckOnly) :
    d.cursors = [] ∧ d.deletedCursors = [] ∧ d.welcomeCursors = [] := by
  have hrooms : d.rooms = [] := congrArg StateDelta.rooms hack
  have hglobal : d.global = none := congrArg StateDelta.global hack
  cases op with
  | createRoom global room event welcome =>
    have hplan := map_some_eq_ok h
    unfold planCreateRoom at hplan
    split_ifs at hplan
    rw [(planAppendRoomEvent_eq_ok none hplan).1] at hrooms
    cases hrooms
  | appendCommit global previous room event welcome =>
    have hplan := map_some_eq_ok h
    unfold planAppendCommit at hplan
    rw [hissued.previous_eq] at hplan
    simp only at hplan
    rw [if_neg (by simp)] at hplan
    rw [(planAppendRoomEvent_eq_ok (some previous) hplan).1] at hrooms
    cases hrooms
  | appendApplication roomId deviceId expectedEpoch eventId rosters ciphertext nowUnixMs =>
    obtain ⟨result, hplan⟩ := map_snd_eq_ok h
    obtain ⟨previous, hplanned⟩ := planAppendApplication_eq_stored hplan
    rw [hplanned.delta_eq] at hrooms
    cases hrooms
  | replaceGlobalAndRooms global rooms =>
    rw [planReplaceRooms_eq_ok (map_some_eq_ok h) hissued.rooms_ok] at hglobal
    cases hglobal
  | cleanup nowUnixMs batchLimit =>
    obtain ⟨hbatch, report, hplan⟩ := MlsStore.planCleanup_eq_some (Prod.ext rfl h)
    obtain ⟨targets, -, rfl | ⟨r', pruned, last, expiry, lagging, -, rfl⟩⟩ :=
      planCleanup_eq_ok hplan hinv.log hbatch
    · exact ⟨rfl, rfl, rfl⟩
    · cases hrooms
  | acknowledge _ _ _ _ | persistAcknowledgement _ _ | acknowledgeWelcome _ _
  | persistWelcomeAcknowledgement _ => cases hop

/-- What an acknowledgement plans: a device cursor that it moves on or persists, or a Welcome
cursor likewise. -/
inductive AckDelta (s : MemoryState) : StateDelta → Prop
  | device {roomId deviceId c c'} : s.deviceCursors.get? (toLex (roomId, deviceId)) = some c →
      DeviceCursor.Acked c c' → AckDelta s { cursors := [{ roomId, deviceId, cursor := c' }] }
  | welcome {deviceId deliveryId} :
      (∀ deliveryId' ∈ s.welcomeCursors.get? deviceId, deliveryId' ≤ deliveryId) →
      AckDelta s { welcomeCursors := [{ deliveryId, deviceId }] }

lemma StoreOp.plan_ackDelta {store : MlsStore} {op : StoreOp} (hinv : StoreInv store.state)
    (h : (op.plan store).2 = .ok (some d)) (hop : op.durable = false) :
    AckDelta store.state d := by
  cases op with
  | acknowledge roomId deviceId sequence nowUnixMs =>
    obtain ⟨room, c, hplanned⟩ := planAcknowledge_eq_some h
    rw [hplanned.delta_eq]
    exact AckDelta.device hplanned.cursor_eq
      (Relation.ReflTransGen.single ⟨sequence, nowUnixMs, hplanned.highest_lt, rfl⟩)
  | persistAcknowledgement roomId deviceId =>
    have hplan := map_some_eq_ok h
    unfold planPersistAcknowledgement at hplan
    split at hplan
    · cases hplan
    next c hc =>
    cases hplan
    exact AckDelta.device hc Relation.ReflTransGen.refl
  | acknowledgeWelcome deviceId deliveryId =>
    have hold : ¬ deliveryId ≤ (store.state.welcomeCursors.get? deviceId).getD 0 := by
      intro hle
      have hplan : planAcknowledgeWelcome store.state deviceId deliveryId = .ok (some d) := h
      unfold planAcknowledgeWelcome at hplan
      rw [if_pos hle] at hplan
      cases hplan
    rw [(planAcknowledgeWelcome_eq_some h hinv.welcomes).1]
    refine AckDelta.welcome fun deliveryId' hget => ?_
    rw [mem_def.mp hget, getD_some] at hold
    omega
  | persistWelcomeAcknowledgement deviceId =>
    have hplan := map_some_eq_ok h
    unfold planPersistWelcomeAcknowledgement at hplan
    split at hplan
    · cases hplan
    next deliveryId hget =>
    cases hplan
    refine AckDelta.welcome fun deliveryId' hget' => ?_
    rw [hget] at hget'
    exact le_of_eq (some.inj hget').symm
  | createRoom _ _ _ _ | appendCommit _ _ _ _ _ | appendApplication _ _ _ _ _ _ _
  | replaceGlobalAndRooms _ _ | cleanup _ _ => cases hop

/-- The value that a delta gives a device cursor. -/
def writtenCursor (d : StateDelta) (k : RoomId ×ₗ DeviceId) : Option (Option DeviceCursor) :=
  match OrdMap.lastWrite WalCursor.key WalCursor.cursor d.cursors k with
  | some c => some (some c)
  | none => if OrdMap.touches CursorKey.key d.deletedCursors k = true then some none else none

lemma ackedRel_trans {u v w : Option DeviceCursor} (h : Option.Rel DeviceCursor.Acked u v)
    (h' : Option.Rel DeviceCursor.Acked v w) : Option.Rel DeviceCursor.Acked u w := by
  cases h with
  | none =>
    cases h'
    exact Option.Rel.none
  | some h =>
    cases h' with
    | some h' => exact Option.Rel.some (h.trans h')

lemma ackedRel_refl (v : Option DeviceCursor) : Option.Rel DeviceCursor.Acked v v := by
  cases v with
  | none => exact Option.Rel.none
  | some c => exact Option.Rel.some Relation.ReflTransGen.refl

/-- The device cursors. -/
def deviceCursorMap : CursorMap (RoomId ×ₗ DeviceId) (Option DeviceCursor) where
  read s k := s.deviceCursors.get? k
  write := writtenCursor
  Moved := Option.Rel DeviceCursor.Acked
  refl := ackedRel_refl
  trans := ackedRel_trans
  applied h := by
    funext k
    rw [(applyDelta_cursors h).1 k, overwrite, writtenCursor]
    cases OrdMap.lastWrite WalCursor.key WalCursor.cursor _ k with
    | some c => rfl
    | none => split_ifs <;> rfl
  retired _ _ := rfl
  reload _ _ := rfl
  durable hinv hissued hplan hop hack k := by
    obtain ⟨hcursors, hdeleted, -⟩ := StoreOp.plan_cursors hinv hissued hplan hop hack
    simp [writtenCursor, hcursors, hdeleted]
  acked hinv hplan hop k v hwrite := by
    cases StoreOp.plan_ackDelta hinv hplan hop with
    | @device roomId deviceId c c' hget hacked =>
      simp only [writtenCursor, OrdMap.lastWrite_singleton, OrdMap.touches_nil] at hwrite
      by_cases hk : WalCursor.key { roomId, deviceId, cursor := c' } = k
      · subst hk
        simp only [if_true, some.injEq] at hwrite
        subst hwrite
        simp only [WalCursor.key, hget]
        exact Option.Rel.some hacked
      · simp [hk] at hwrite
    | welcome _ => simp [writtenCursor] at hwrite

/-- The Welcome cursors. -/
def welcomeCursorMap : CursorMap DeviceId (Option ℕ) where
  read s device := s.welcomeCursors.get? device
  write d device := (OrdMap.lastWrite WelcomeCursorCheckpoint.deviceId
    WelcomeCursorCheckpoint.deliveryId d.welcomeCursors device).map some
  Moved o o' := ∀ deliveryId ∈ o, ∃ deliveryId' ∈ o', deliveryId ≤ deliveryId'
  refl _ deliveryId h := ⟨deliveryId, h, le_refl _⟩
  trans h h' deliveryId hu := by
    obtain ⟨v, hv, hle⟩ := h deliveryId hu
    obtain ⟨w, hw, hle'⟩ := h' v hv
    exact ⟨w, hw, hle.trans hle'⟩
  applied h := by
    funext device
    rw [(applyDelta_cursors h).2 device, overwrite]
    cases OrdMap.lastWrite WelcomeCursorCheckpoint.deviceId WelcomeCursorCheckpoint.deliveryId
      _ device <;> rfl
  retired _ _ := rfl
  reload _ _ := rfl
  durable hinv hissued hplan hop hack k := by
    simp [(StoreOp.plan_cursors hinv hissued hplan hop hack).2.2]
  acked hinv hplan hop device v hwrite := by
    cases StoreOp.plan_ackDelta hinv hplan hop with
    | device _ _ => simp at hwrite
    | @welcome deviceId deliveryId hold =>
      simp only [OrdMap.lastWrite_singleton] at hwrite
      split_ifs at hwrite with hdevice
      · cases hwrite
        subst hdevice
        exact fun id hid => ⟨deliveryId, rfl, hold id hid⟩
      · cases hwrite

/-! ## Logged records over a checkpoint -/

namespace CursorMap

variable {κ ν : Type} (m : CursorMap κ ν)

/-- The cursors after the durable deltas. -/
def expected (log : List StateDelta) : κ → ν := m.read (applyAll MemoryState.initial log)

/-- If the delta writes cursors and nothing else, it writes none of these. -/
def Silent (d : StateDelta) : Prop := d.AckOnly → ∀ k, m.write d k = none

/-- Whatever acknowledgements the log has lost, its records lead from `s` to the expected cursors
moved on. -/
def Keeps (s : MemoryState) (history : List StateDelta) (e : κ → ν) : Prop :=
  ∀ log, Logged log history → ∀ k, m.Moved (e k) (overwriteAll m.write (m.read s) log k)

/-- The same from the state in a checkpoint file. -/
def KeepsFile (jsony : Jsony) (file : Option Bytes) (history : List StateDelta) (e : κ → ν) :
    Prop :=
  ∀ c, loadCheckpoint jsony file = .ok c → m.Keeps c history e

variable {m} {e : κ → ν} {history older newer pending : List StateDelta}

lemma read_apply (m : CursorMap κ ν) (h : StoreInv s) (d : StateDelta) :
    m.read (applyDelta s d).1 = overwrite m.write (m.read s) d :=
  m.applied (Prod.ext rfl (h.welcomes.inbox.deltaApplied d).1)

lemma expected_concat (m : CursorMap κ ν) {log : List StateDelta}
    (h : StoreInv (applyAll MemoryState.initial log)) (d : StateDelta) :
    m.expected (log ++ [d]) = overwrite m.write (m.expected log) d := by
  unfold expected applyAll
  rw [foldl_append]
  exact m.read_apply h d

lemma read_replayAll (m : CursorMap κ ν) {log : List StateDelta} (h : replayAll s log = .ok t) :
    m.read t = overwriteAll m.write (m.read s) log := by
  induction log generalizing s with
  | nil =>
    cases h
    rfl
  | cons d log ih =>
    unfold replayAll at h
    split at h
    · cases h
    next s' happly => rw [ih h, m.applied happly, overwriteAll_cons]

/-- A log that has lost silent records leaves the same cursors. -/
lemma overwriteAll_of_silent {log : List StateDelta} (h : Logged log history)
    (hsilent : ∀ d ∈ history, m.Silent d) (f : κ → ν) :
    overwriteAll m.write f log = overwriteAll m.write f history := by
  induction h generalizing f with
  | nil => rfl
  | keep _ ih => exact ih (fun d hd => hsilent d (mem_cons_of_mem _ hd)) _
  | @drop log history d hack _ ih =>
    have hsame : overwrite m.write f d = f := funext fun k =>
      overwrite_of_none (hsilent d mem_cons_self hack k)
    rw [ih (fun d hd => hsilent d (mem_cons_of_mem _ hd)), overwriteAll_cons, hsame]

/-- A delta that is applied on both sides keeps one value the other moved on. -/
lemma moved_overwrite {f : κ → ν} {k : κ} (d : StateDelta) (h : m.Moved (e k) (f k)) :
    m.Moved (overwrite m.write e d k) (overwrite m.write f d k) := by
  cases hwrite : m.write d k with
  | none =>
    rw [overwrite_of_none hwrite, overwrite_of_none hwrite]
    exact h
  | some v =>
    rw [overwrite_of_some hwrite, overwrite_of_some hwrite]
    exact m.refl v

/-- A delta that is applied on one side only has to move on what it writes. -/
lemma moved_overwrite_right {f : κ → ν} {k : κ} (h : m.Moved (e k) (f k))
    (hd : ∀ v, m.write d k = some v → m.Moved (e k) v) :
    m.Moved (e k) (overwrite m.write f d k) := by
  cases hwrite : m.write d k with
  | none =>
    rw [overwrite_of_none hwrite]
    exact h
  | some v =>
    rw [overwrite_of_some hwrite]
    exact hd v hwrite

namespace Keeps

/-- A durable delta is applied on both sides. -/
lemma durable (h : m.Keeps s history e) (hd : m.Silent d) :
    m.Keeps s (history ++ [d]) (overwrite m.write e d) := by
  intro log hlog k
  obtain ⟨ds, es, rfl, hds, hes⟩ := hlog.split
  rw [overwriteAll_append]
  rcases hes.single with rfl | ⟨rfl, hack⟩
  · rw [overwriteAll_cons, overwriteAll_nil]
    exact moved_overwrite d (h ds hds k)
  · rw [overwriteAll_nil, overwrite_of_none (hd hack k)]
    exact h ds hds k

/-- An acknowledgement is expected by neither side and moves cursors on. -/
lemma acked (h : m.Keeps s history e)
    (hd : ∀ k v, m.write d k = some v → m.Moved (e k) v) : m.Keeps s (history ++ [d]) e := by
  intro log hlog k
  obtain ⟨ds, es, rfl, hds, hes⟩ := hlog.split
  rw [overwriteAll_append]
  rcases hes.single with rfl | ⟨rfl, -⟩
  · rw [overwriteAll_cons, overwriteAll_nil]
    exact moved_overwrite_right (h ds hds k) (hd k)
  · exact h ds hds k

/-- A later checkpoint may stand under the older records too. -/
lemma before (h : m.Keeps s (older ++ newer) e) (h' : m.Keeps t newer e) :
    m.Keeps t (older ++ newer) e := by
  intro log hlog k
  obtain ⟨ds, es, rfl, hds, hes⟩ := hlog.split
  rw [overwriteAll_append]
  rcases overwriteAll_cases m.write ds k with hkept | hset
  · rw [overwriteAll_congr es (hkept (m.read t))]
    exact h' es hes k
  · rw [overwriteAll_congr es (hset (m.read t) (m.read s)), ← overwriteAll_append]
    exact h _ hlog k

/-- The memory, which lacks the pending delta only, may become the checkpoint under the newer
records. -/
lemma ofMemory (h : m.Keeps s (older ++ (newer ++ pending)) e)
    (hsilent : ∀ d ∈ pending, m.Silent d)
    (hmemory : ∀ k, m.Moved (e k) (overwriteAll m.write (m.read t) pending k)) :
    m.Keeps t (newer ++ pending) e := by
  intro log hlog k
  have hwhole := h _ ((Logged.refl older).append hlog) k
  obtain ⟨ds, es, rfl, hds, hes⟩ := hlog.split
  rw [overwriteAll_append]
  rcases overwriteAll_cases m.write ds k with hkept | hset
  · rw [overwriteAll_congr es (hkept (m.read t)), overwriteAll_of_silent hes hsilent]
    exact hmemory k
  · rw [overwriteAll_append, overwriteAll_append] at hwhole
    rw [overwriteAll_congr es (hset (m.read t) (overwriteAll m.write (m.read s) older))]
    exact hwhole

end Keeps

/-! ## The cursors beside a running process -/

variable {jsony : Jsony} {checkpoint : Option Bytes} {snapshot : SnapshotAt} {worker : WorkerAt}

lemma KeepsFile.durable (h : m.KeepsFile jsony checkpoint history e) (hd : m.Silent d) :
    m.KeepsFile jsony checkpoint (history ++ [d]) (overwrite m.write e d) :=
  fun c hc => (h c hc).durable hd

lemma KeepsFile.acked (h : m.KeepsFile jsony checkpoint history e)
    (hd : ∀ k v, m.write d k = some v → m.Moved (e k) v) :
    m.KeepsFile jsony checkpoint (history ++ [d]) e :=
  fun c hc => (h c hc).acked hd

variable (m) in
/-- The checkpoint of the snapshot thread needs the newer records only. -/
def SnapshotKeeps (jsony : Jsony) (checkpoint : Option Bytes) (snapshot : SnapshotAt)
    (later : List StateDelta) (e : κ → ν) : Prop :=
  match snapshot with
  | .idle => True
  | .taken bytes _ => m.KeepsFile jsony (some bytes) later e
  | .written _ => m.KeepsFile jsony checkpoint later e

variable (m) in
/-- What the delta under way does to the cursors; the checkpoint of a compaction needs no record. -/
def WorkerKeeps (jsony : Jsony) (checkpoint : Option Bytes) (worker : WorkerAt) (e : κ → ν) :
    Prop :=
  match worker with
  | .written d true => m.Silent d
  | .written d false => ∀ k v, m.write d k = some v → m.Moved (e k) v
  | .resetting | .reset => m.KeepsFile jsony checkpoint [] e
  | .idle | .appended _ | .rotating | .rotated | .flushing => True

variable (m) in
/-- The memory has the expected cursors moved on, and so will have a process that starts on what
a crash leaves. -/
structure Up (jsony : Jsony) (checkpoint : Option Bytes) (s : MemoryState) (snapshot : SnapshotAt)
    (worker : WorkerAt) (e : κ → ν) (older newer pending : List StateDelta) : Prop where
  memory : ∀ k, m.Moved (e k) (overwriteAll m.write (m.read s) pending k)
  files : m.KeepsFile jsony checkpoint (older ++ (newer ++ pending)) e
  snapshot : m.SnapshotKeeps jsony checkpoint snapshot (newer ++ pending) e
  worker : m.WorkerKeeps jsony checkpoint worker e
  silent : ∀ d ∈ pending, m.Silent d

lemma SnapshotKeeps.durable (h : m.SnapshotKeeps jsony checkpoint snapshot history e)
    (hd : m.Silent d) :
    m.SnapshotKeeps jsony checkpoint snapshot (history ++ [d]) (overwrite m.write e d) := by
  cases snapshot with
  | idle => trivial
  | taken bytes retired | written retired => exact KeepsFile.durable h hd

lemma SnapshotKeeps.acked (h : m.SnapshotKeeps jsony checkpoint snapshot history e)
    (hd : ∀ k v, m.write d k = some v → m.Moved (e k) v) :
    m.SnapshotKeeps jsony checkpoint snapshot (history ++ [d]) e := by
  cases snapshot with
  | idle => trivial
  | taken bytes retired | written retired => exact KeepsFile.acked h hd

/-- The checkpoint that the memory is written to. -/
lemma keepsFile_of_serializeCheckpoint {bytes : Bytes} (hinv : StoreInv s)
    (hbytes : serializeCheckpoint jsony s = some bytes) (h : m.Keeps s history e) :
    m.KeepsFile jsony (some bytes) history e := by
  intro c hc
  rw [loadCheckpoint_of_serializeCheckpoint hinv hbytes] at hc
  cases hc
  unfold Keeps
  rw [m.reload]
  exact h

/-- An empty directory starts with the initial cursors. -/
lemma keepsFile_initial (m : CursorMap κ ν) :
    m.KeepsFile jsony none ([] ++ []) (m.expected []) := by
  intro c hc log hlog k
  cases hc
  cases hlog
  exact m.refl _

namespace Up

/-- What `commit` hands to the log. -/
lemma plan {store : MlsStore} {op : StoreOp}
    (h : m.Up jsony checkpoint store.state snapshot worker e older newer [])
    (hinv : StoreInv store.state) (hissued : op.Issued store.state)
    (hplan : (op.plan store).2 = .ok (some d)) :
    m.WorkerKeeps jsony checkpoint (.written d op.durable) e := by
  cases hop : op.durable with
  | true => exact fun hack => m.durable hinv hissued hplan hop hack
  | false => exact fun k v hwrite => m.trans (h.memory k) (m.acked hinv hplan hop k v hwrite)

lemma sync (h : m.Up jsony checkpoint s snapshot (.written d true) e older newer []) :
    m.Up jsony checkpoint s snapshot (.appended d) (overwrite m.write e d) older newer [d] := by
  have hfiles := h.files
  have hsnapshot := h.snapshot
  rw [append_nil] at hfiles hsnapshot
  refine ⟨?_, ?_, hsnapshot.durable h.worker, trivial, forall_mem_singleton.mpr h.worker⟩
  · intro k
    rw [overwriteAll_cons, overwriteAll_nil]
    exact moved_overwrite d (h.memory k)
  · rw [← append_assoc]
    exact hfiles.durable h.worker

/-- A pending delta is applied to the memory. -/
lemma apply (h : m.Up jsony checkpoint s snapshot worker e older newer [d]) (hinv : StoreInv s) :
    m.Up jsony checkpoint (applyDelta s d).1 snapshot .idle e older (newer ++ [d]) [] := by
  refine ⟨?_, ?_, ?_, trivial, by simp⟩
  · rw [m.read_apply hinv]
    exact h.memory
  · rw [append_nil]
    exact h.files
  · rw [append_nil]
    exact h.snapshot

/-- An acknowledgement in the log is applied to the memory. -/
lemma applyUnsynced (h : m.Up jsony checkpoint s snapshot (.written d false) e older newer [])
    (hinv : StoreInv s) :
    m.Up jsony checkpoint (applyDelta s d).1 snapshot .idle e older (newer ++ [d]) [] := by
  have hfiles := h.files
  have hsnapshot := h.snapshot
  have hd : ∀ k v, m.write d k = some v → m.Moved (e k) v := h.worker
  rw [append_nil] at hfiles hsnapshot
  refine ⟨?_, ?_, ?_, trivial, by simp⟩
  · intro k
    rw [m.read_apply hinv, overwriteAll_nil]
    exact moved_overwrite_right (h.memory k) (hd k)
  · rw [append_nil, ← append_assoc]
    exact hfiles.acked hd
  · rw [append_nil]
    exact hsnapshot.acked hd

/-- An acknowledgement on the read handle. -/
lemma readHandle {store : MlsStore} {op : StoreOp}
    (h : m.Up jsony checkpoint store.state snapshot worker e older newer pending)
    (hinv : StoreInv store.state) (hplan : (op.plan store).2 = .ok (some d))
    (hop : op.durable = false) :
    m.Up jsony checkpoint (applyDelta store.state d).1 snapshot worker e older newer pending := by
  refine { h with memory := fun k => ?_ }
  have hmemory := h.memory k
  rw [m.read_apply hinv]
  rcases overwriteAll_cases m.write pending k with hkept | hset
  · rw [hkept] at hmemory ⊢
    exact moved_overwrite_right hmemory fun v hwrite =>
      m.trans hmemory (m.acked hinv hplan hop k v hwrite)
  · rw [hset _ (m.read store.state)]
    exact hmemory

/-- The memory may become a checkpoint under the newer records. -/
lemma keeps_memory {c : MemoryState}
    (h : m.Up jsony checkpoint s snapshot worker e older newer pending)
    (hload : loadCheckpoint jsony checkpoint = .ok c) : m.Keeps s (newer ++ pending) e :=
  (h.files c hload).ofMemory h.silent h.memory

/-- With nothing pending the memory needs no record at all. -/
lemma keeps_nil (h : m.Up jsony checkpoint s snapshot worker e older newer []) :
    m.Keeps s [] e := by
  intro log hlog k
  cases hlog
  exact h.memory k

end Up

end CursorMap

end Chatt
