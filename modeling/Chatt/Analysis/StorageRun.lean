import Chatt.Analysis.Storage
import Chatt.Analysis.Checkpoint
import Chatt.Lib.Run

/-!
# The running store and its crashes

`UpInv` is kept by every step of the process, a crash turns it into `DownInv`, and a start
turns `DownInv` into `UpInv`.
-/

namespace Chatt

open Chatt.Lib List Option

variable {newer older pending : List StateDelta} {base : MemoryState} {d : StateDelta}
variable {sealedCut : Cut} {ds : List StateDelta} {survived : Option Bytes} {snapshot : SnapshotAt}

/-! ## A directory beside a running process -/

/-- The snapshot thread has cloned the state after all of the older deltas. -/
def SnapshotOk (jsony : Jsony) (disk : Disk) (snapshot : SnapshotAt) (base : MemoryState)
    (older newer : List StateDelta) : Prop :=
  match snapshot with
  | .idle => True
  | .taken bytes _ => disk.sealedWal.isSome ∧ ∃ covered later, newer = covered ++ later ∧
      CheckpointAt jsony (some bytes) (applyAll base (older ++ covered))
  | .written _ => disk.sealedWal.isSome ∧ ∃ covered later, newer = covered ++ later ∧
      CheckpointAt jsony disk.checkpoint (applyAll base (older ++ covered))

/-- The active log can be appended to, and the process knows its length. -/
def Appendable (jsony : Jsony) (disk : Disk) (walBytes : ℕ) (newer : List StateDelta) : Prop :=
  ∃ file ds, disk.wal = some file ∧ LiveLog jsony file ds ∧ Logged ds newer ∧
    walBytes = file.bytes.length

/-- The checkpoint of a compaction covers the whole history. -/
structure Compacting (jsony : Jsony) (disk : Disk) (snapshot : SnapshotAt) (base : MemoryState)
    (deltas : List StateDelta) : Prop where
  sealedWal : disk.sealedWal = none
  snapshot_idle : snapshot = .idle
  checkpoint : CheckpointAt jsony disk.checkpoint (applyAll base deltas)

/-- Where the worker stands; `pending` is a delta that is synced and not applied. -/
def WorkerOk (jsony : Jsony) (disk : Disk) (worker : WorkerAt) (walBytes : ℕ)
    (snapshot : SnapshotAt) (base : MemoryState) (older newer pending : List StateDelta) : Prop :=
  match worker with
  | .idle | .flushing => pending = [] ∧ Appendable jsony disk walBytes newer
  | .written d durable => pending = [] ∧ History base (older ++ newer ++ [d]) ∧
      (jsony.delta.encode d).length < 2 ^ 32 ∧ (durable = false → d.AckOnly) ∧
      ∃ file ds, disk.wal = some (file.write (walFrame jsony d)) ∧ LiveLog jsony file ds ∧
        Logged ds newer ∧ walBytes = file.bytes.length
  | .appended d => pending = [d] ∧ Appendable jsony disk walBytes (newer ++ [d])
  | .rotating => pending = [] ∧ newer = [] ∧ disk.wal = none
  | .rotated => pending = [] ∧ newer = [] ∧ disk.wal = some { bytes := walHeader, synced := 0 }
  | .resetting =>
    pending = [] ∧ Compacting jsony disk snapshot base (older ++ newer) ∧
      ActiveLive jsony disk.wal newer
  | .reset => pending = [] ∧ Compacting jsony disk snapshot base (older ++ newer) ∧
      ∃ file ds, disk.wal = some file.reset ∧ LiveLog jsony file ds ∧ Logged ds newer

/-- The files and the memory are explained by the history; `pending` is synced and not applied. -/
structure UpInv (jsony : Jsony) (disk : Disk) (p : Process) (log : List StateDelta)
    (base : MemoryState) (older newer pending : List StateDelta) : Prop where
  history : History base (older ++ newer ++ pending)
  expects : Expects log (applyAll base (older ++ newer ++ pending))
  memory : SameDelivery (applyAll base (older ++ newer)) p.store.state
  memory_inv : StoreInv p.store.state
  checkpoint : CheckpointIn jsony disk.checkpoint base (older ++ newer)
  sealedWal : SealedLive jsony disk.sealedWal older
  snapshot : SnapshotOk jsony disk p.snapshot base older newer
  worker : WorkerOk jsony disk p.worker p.walBytes p.snapshot base older newer pending
  cursors : ∀ {κ ν : Type} (m : CursorMap κ ν), m.Up jsony disk.checkpoint p.store.state p.snapshot
    p.worker (m.expected log) older newer pending

/-- Some history explains the directory without a process. -/
def Down (jsony : Jsony) (files : Files) (log : List StateDelta) : Prop :=
  ∃ base older newer, DownInv jsony files log base older newer

/-- Some history explains the directory beside the process. -/
def Up (jsony : Jsony) (disk : Disk) (p : Process) (log : List StateDelta) : Prop :=
  ∃ base older newer pending, UpInv jsony disk p log base older newer pending

/-- The invariant of the whole system. -/
def StorageInv (jsony : Jsony) (x : Storage) : Prop :=
  match x.process with
  | none => Down jsony x.disk.files x.log
  | some p => Up jsony x.disk p x.log

variable {jsony : Jsony}

lemma StorageInv.initial : StorageInv jsony Storage.initial :=
  ⟨MemoryState.initial, [], [],
    { history := History.nil StoreInv.initial
      expects := ⟨SameDelivery.refl _, StoreInv.initial⟩
      checkpoint := ⟨[], [], rfl, _, rfl, SameDelivery.refl _, StoreInv.initial⟩
      sealedWal := ⟨[], rfl, Logged.nil⟩
      wal := ⟨[], Or.inl rfl, Logged.nil⟩
      cursors := CursorMap.keepsFile_initial }⟩

/-! ## Small facts -/

/-- The state as the checkpoint file will give it back. -/
lemma SameDelivery.reloaded (jsony : Jsony) (s : MemoryState) :
    SameDelivery s (reloaded jsony s) := by
  refine ⟨rfl, rfl, ?_, rfl, rfl, ?_, rfl, rfl⟩
  · intro r q
    unfold MemoryState.event? Chatt.reloaded
    rw [OrdMap.get?_mapValues, Option.map_map]
    rfl
  · intro id
    unfold MemoryState.welcome? Chatt.reloaded
    rw [OrdMap.get?_mapValues, Option.map_map]
    rfl

/-- Resetting the byte accounting changes no delivery. -/
lemma SameDelivery.retire (store : MlsStore) (retired : ℕ) :
    SameDelivery store.state (store.retire retired).state :=
  ⟨rfl, rfl, fun _ _ => rfl, rfl, rfl, fun _ => rfl, rfl, rfl⟩

lemma checkpointAt_of_serializeCheckpoint {s t : MemoryState} {bytes : Bytes} (h : SameDelivery t s)
    (hinv : StoreInv s) (hbytes : serializeCheckpoint jsony s = some bytes) :
    CheckpointAt jsony (some bytes) t := by
  refine ⟨reloaded jsony s, loadCheckpoint_of_serializeCheckpoint hinv hbytes,
    h.trans (SameDelivery.reloaded jsony s), ?_⟩
  exact (SameDelivery.reloaded jsony s).storeInv hinv
    ⟨hinv.cursors.cursor_of_required, hinv.cursors.cursor_ok⟩ hinv.welcomes.cursor_ok

lemma CheckpointIn.append {file : Option Bytes} (h : CheckpointIn jsony file base ds)
    (es : List StateDelta) : CheckpointIn jsony file base (ds ++ es) := by
  obtain ⟨covered, later, rfl, hat⟩ := h
  exact ⟨covered, later ++ es, append_assoc _ _ _, hat⟩

/-- The checkpoint on the disk can be read. -/
lemma CheckpointIn.load {file : Option Bytes} (h : CheckpointIn jsony file base ds) :
    ∃ c, loadCheckpoint jsony file = .ok c := by
  obtain ⟨-, -, -, c, hload, -⟩ := h
  exact ⟨c, hload⟩

lemma SnapshotOk.append {disk : Disk} (h : SnapshotOk jsony disk snapshot base older newer)
    (es : List StateDelta) : SnapshotOk jsony disk snapshot base older (newer ++ es) := by
  cases snapshot with
  | idle => trivial
  | taken bytes retired | written retired =>
    obtain ⟨hsome, covered, later, rfl, hat⟩ := h
    exact ⟨hsome, covered, later ++ es, append_assoc _ _ _, hat⟩

/-- A delta that is applied on both sides. -/
lemma Expects.concat {log : List StateDelta} (h : Expects log (applyAll base ds))
    (hhistory : History base (ds ++ [d])) : Expects (log ++ [d]) (applyAll base (ds ++ [d])) := by
  have hadm := (admitted_append.mp hhistory.admitted).2.1
  rw [applyAll_append]
  refine ⟨?_, ?_⟩
  · rw [applyAll_append]
    exact h.same.apply hhistory.left.storeInv h.inv hadm
  · rw [applyAll_append]
    exact (h.same.admissible hadm).applyDelta_inv h.inv

/-- An acknowledgement that the list of durable deltas does not have. -/
lemma Expects.acked {log : List StateDelta} (h : Expects log (applyAll base ds))
      (hinv : StoreInv (applyAll base ds))
    (hack : d.AckOnly) : Expects log (applyAll base (ds ++ [d])) := by
  rw [applyAll_append]
  exact ⟨(SameDelivery.acked hinv hack).symm.trans h.same, h.inv⟩

/-! ## Appending -/

section Steps

variable {disk : Disk} {p : Process} {log : List StateDelta}

lemma Up.worker {worker : WorkerAt} (h : Up jsony disk p log) (hworker : p.worker = worker) :
    ∃ base older newer pending, UpInv jsony disk p log base older newer pending ∧
    WorkerOk jsony disk worker p.walBytes p.snapshot base older newer pending := by
  obtain ⟨base, older, newer, pending, h⟩ := h
  exact ⟨base, older, newer, pending, h, hworker ▸ h.worker⟩

lemma Up.snapshotOk (h : Up jsony disk p log) (hsnapshot : p.snapshot = snapshot) :
    ∃ base older newer pending, UpInv jsony disk p log base older newer pending ∧
    SnapshotOk jsony disk snapshot base older newer := by
  obtain ⟨base, older, newer, pending, h⟩ := h
  exact ⟨base, older, newer, pending, h, hsnapshot ▸ h.snapshot⟩

lemma walRecords_of_fileHolds {file : Option Bytes} (h : FileHolds jsony file ds) :
    walRecords jsony (file.getD []) = ds := by
  cases file with
  | none =>
    have hds : ds = [] := h
    rw [hds]
    exact walRecords_of_short (by decide)
  | some bytes => exact walRecords_of_holds h

/-- The records of the logs store the event ids of the history. -/
lemma recordsLabels (h : UpInv jsony disk p log base older newer pending)
    (hidle : p.worker = .idle) :
    logLabels MlsDeliveryEvent.eventId? (disk.files.records jsony) =
      logLabels MlsDeliveryEvent.eventId? (older ++ newer) := by
  have hworker := h.worker
  rw [hidle] at hworker
  obtain ⟨-, file, ww, hwal, hlive, hww, -⟩ := hworker
  obtain ⟨ws, hsealed, hws⟩ := h.sealedWal.fileHolds
  have hholds : FileHolds jsony disk.files.sealedWal ws := hsealed
  have hactive : FileHolds jsony disk.files.wal ww := by
    unfold Disk.files
    rw [hwal]
    exact hlive.holds
  unfold Files.records
  rw [walRecords_of_fileHolds hholds, walRecords_of_fileHolds hactive]
  exact (hws.append hww).labels MlsDeliveryEvent.eventId?

section

variable (h : Up jsony disk p log)

include h

lemma Up.plan {op : StoreOp} (hidle : p.worker = .idle) (hissued : op.Issued p.store.state)
    (hfresh : ∀ id ∈ p.newIds op, id ∉ logLabels MlsDeliveryEvent.eventId?
      (disk.files.records jsony)) :
    Up jsony (p.planned jsony disk op).1 (p.planned jsony disk op).2 log := by
  obtain ⟨base, older, newer, pending, h, rfl, file, ds, hwal, hlive, hlog, hbytes⟩ :=
    h.worker hidle
  unfold Process.planned
  unfold Process.newIds at hfresh
  cases hplan : (op.plan p.store).2 with
  | error error =>
    simp only [hplan]
    exact ⟨base, older, newer, [], { h with }⟩
  | ok planned =>
    cases planned with
    | none =>
      simp only [hplan]
      exact ⟨base, older, newer, [], { h with }⟩
    | some d =>
      simp only [hplan] at hfresh ⊢
      split_ifs with hlong
      · exact ⟨base, older, newer, [], { h with }⟩
      have hlegal := StoreOp.plan_legal hplan h.memory_inv hissued
      have hadm := h.memory.symm.admissible (hlegal.admissible h.memory_inv.cursors)
      have hhistory : History base (older ++ newer) := by
        have := h.history
        rwa [append_nil] at this
      have hids : ∀ id ∈ d.labels MlsDeliveryEvent.eventId?,
          id ∉ logLabels MlsDeliveryEvent.eventId? (older ++ newer) := by
        rw [← recordsLabels h hidle]
        exact hfresh
      refine ⟨base, older, newer, [], { h with
        worker := ⟨rfl, hhistory.concat hadm hids, ?_,
          fun hdurable => StoreOp.plan_ackOnly h.memory_inv hplan hdurable, file, ds, ?_, hlive,
          hlog, hbytes⟩
        cursors := fun m =>
          { h.cursors m with worker := (h.cursors m).plan h.memory_inv hissued hplan } }⟩
      · unfold u32Max at hlong
        omega
      · simp only [hwal, map_some]

lemma Up.sync (hworker : p.worker = .written d true) :
    Up jsony { disk with wal := disk.wal.map LogFile.sync }
      { p.counted jsony d with worker := .appended d } (log ++ [d]) := by
  obtain ⟨base, older, newer, pending, h, rfl, hhistory, hfit, -, file, ds, hwal, hlive, hlog,
    hbytes⟩ := h.worker hworker
  have hexpects := h.expects
  rw [append_nil] at hexpects
  refine ⟨base, older, newer, [d], { h with
    history := hhistory
    expects := hexpects.concat hhistory
    worker := ⟨rfl, _, ds ++ [d], ?_, hlive.append hfit, hlog.concat d, ?_⟩
    cursors := fun m => by
      rw [m.expected_concat h.expects.inv]
      exact (hworker ▸ h.cursors m).sync }⟩
  · simp only [hwal, map_some]
  · show p.walBytes + _ = (file.bytes ++ _).length
    rw [hbytes, length_append]

lemma Up.failAppend {durable : Bool} (hworker : p.worker = .written d durable) :
    Up jsony { disk with wal := disk.wal.map (·.truncate p.walBytes) }
      { p with worker := .idle } log := by
  obtain ⟨base, older, newer, pending, h, rfl, -, -, -, file, ds, hwal, hlive, hlog, hbytes⟩ :=
    h.worker hworker
  refine ⟨base, older, newer, [], { h with
    worker := ⟨rfl, _, ds, ?_, hlive.rollBack (walFrame jsony d), hlog, ?_⟩
    cursors := fun m => { h.cursors m with worker := trivial } }⟩
  · simp only [hwal, map_some, hbytes]
  · show p.walBytes = ((file.bytes ++ _).take _).length
    rw [take_left, hbytes]

omit h in
/-- The worker applies the delta it has appended. -/
lemma UpInv.applied {q : Process} (h : UpInv jsony disk p log base older newer pending)
      (hhistory : History base (older ++ newer ++ [d]))
    (hexpects : Expects log (applyAll base (older ++ newer ++ [d])))
    (hstore : q.store = (p.store.commit none d).1) (hsnapshot : q.snapshot = p.snapshot)
    (hidle : q.worker = .idle) (happendable : Appendable jsony disk q.walBytes (newer ++ [d]))
    (hcursors : ∀ {κ ν : Type} (m : CursorMap κ ν),
      m.Up jsony disk.checkpoint (applyDelta p.store.state d).1 p.snapshot .idle (m.expected log)
        older (newer ++ [d]) []) :
    UpInv jsony disk q log base older (newer ++ [d]) [] := by
  have hadm := (admitted_append.mp hhistory.admitted).2.1
  have hstate : q.store.state = (applyDelta p.store.state d).1 := by
    rw [hstore]
    rfl
  have hassoc : older ++ (newer ++ [d]) = older ++ newer ++ [d] := (append_assoc _ _ _).symm
  exact {
    history := by rw [append_nil, hassoc]; exact hhistory
    expects := by rw [append_nil, hassoc]; exact hexpects
    memory := by
      rw [hassoc, applyAll_append, hstate]
      exact h.memory.apply hhistory.left.storeInv h.memory_inv hadm
    memory_inv := by
      rw [hstate]
      exact (h.memory.admissible hadm).applyDelta_inv h.memory_inv
    checkpoint := by rw [hassoc]; exact h.checkpoint.append [d]
    sealedWal := h.sealedWal
    snapshot := by rw [hsnapshot]; exact h.snapshot.append [d]
    worker := by rw [hidle]; exact ⟨rfl, happendable⟩
    cursors := fun m => by rw [hstate, hsnapshot, hidle]; exact hcursors m }

lemma Up.applyAppended (hworker : p.worker = .appended d) : Up jsony disk (p.applied d) log := by
  obtain ⟨base, older, newer, pending, h, rfl, happendable⟩ := h.worker hworker
  exact ⟨base, older, newer ++ [d], [], h.applied h.history h.expects rfl rfl rfl happendable
    fun m => (h.cursors m).apply h.memory_inv⟩

lemma Up.applyUnsynced (hworker : p.worker = .written d false) :
    Up jsony disk ((p.counted jsony d).applied d) log := by
  obtain ⟨base, older, newer, pending, h, rfl, hhistory, hfit, hack, file, ds, hwal, hlive, hlog,
    hbytes⟩ := h.worker hworker
  have hexpects := h.expects
  rw [append_nil] at hexpects
  refine ⟨base, older, newer ++ [d], [],
    h.applied hhistory (hexpects.acked hhistory.left.storeInv (hack rfl)) rfl rfl rfl
    ⟨_, ds ++ [d], hwal, hlive.write hfit (hack rfl), hlog.concat d, ?_⟩
    fun m => (hworker ▸ h.cursors m).applyUnsynced h.memory_inv⟩
  show p.walBytes + _ = (file.bytes ++ _).length
  rw [hbytes, length_append]

/-- An acknowledgement on the read handle is in no log. -/
lemma Up.readHandle {op : StoreOp} (hop : op.durable = false) (hissued : op.Issued p.store.state) :
    Up jsony disk (p.readHandle op) log := by
  obtain ⟨base, older, newer, pending, h⟩ := h
  unfold Process.readHandle
  cases hplan : (op.plan p.store).2 with
  | error error => exact ⟨base, older, newer, pending, h⟩
  | ok planned =>
    cases planned with
    | none => exact ⟨base, older, newer, pending, h⟩
    | some d =>
      have hlegal := StoreOp.plan_legal hplan h.memory_inv hissued
      have hack := StoreOp.plan_ackOnly h.memory_inv hplan hop
      exact ⟨base, older, newer, pending, { h with
        memory := h.memory.trans (SameDelivery.acked h.memory_inv hack)
        memory_inv := hlegal.storeInv h.memory_inv (h.memory_inv.applied d)
        cursors := fun m => (h.cursors m).readHandle h.memory_inv hplan hop }⟩

end

/-! ## Sealing and snapshots -/

/-- A snapshot under way has a sealed log to retire. -/
lemma SnapshotOk.idle_of_unsealed (h : SnapshotOk jsony disk snapshot base older newer)
    (hsealed : disk.sealedWal = none) : snapshot = .idle := by
  unfold SnapshotOk at h
  rw [hsealed] at h
  cases snapshot with
  | idle => rfl
  | taken bytes retired | written retired => cases h.1

/-- The snapshot thread leaves the worker alone: while there is a sealed log, no compaction is
under way. -/
lemma WorkerOk.beside {disk' : Disk} {worker : WorkerAt} {walBytes : ℕ} {snapshot' : SnapshotAt}
      {base' : MemoryState} {older' : List StateDelta}
    (h : WorkerOk jsony disk worker walBytes snapshot base older newer pending)
    (hsealed : disk.sealedWal.isSome) (hwal : disk'.wal = disk.wal)
    (hhistory : ∀ ds, History base (older ++ ds) → History base' (older' ++ ds)) :
    WorkerOk jsony disk' worker walBytes snapshot' base' older' newer pending := by
  unfold WorkerOk Appendable at h ⊢
  rw [hwal]
  cases worker with
  | idle | flushing | appended d | rotating | rotated => exact h
  | written d durable =>
    obtain ⟨hpending, hdelta, hrest⟩ := h
    rw [append_assoc] at hdelta
    refine ⟨hpending, ?_, hrest⟩
    rw [append_assoc]
    exact hhistory _ hdelta
  | resetting | reset =>
    rw [h.2.1.sealedWal] at hsealed
    cases hsealed

/-- While there is a sealed log, the worker does not depend on the checkpoint. -/
lemma WorkerOk.keeps_of_sealed {worker : WorkerAt} {walBytes : ℕ} {checkpoint : Option Bytes}
    {κ ν : Type} {m : CursorMap κ ν} {e : κ → ν}
    (h : WorkerOk jsony disk worker walBytes snapshot base older newer pending)
    (hsealed : disk.sealedWal.isSome) (hkeeps : m.WorkerKeeps jsony disk.checkpoint worker e) :
    m.WorkerKeeps jsony checkpoint worker e := by
  cases worker with
  | idle | flushing | appended d | rotating | rotated => trivial
  | written d durable => cases durable <;> exact hkeeps
  | resetting | reset =>
    rw [h.2.1.sealedWal] at hsealed
    cases hsealed

lemma Up.sealWal (h : Up jsony disk p log) (hidle : p.worker = .idle)
      (hsealed : disk.sealedWal = none) :
    Up jsony { disk with sealedWal := disk.wal, wal := none } { p with worker := .rotating }
      log := by
  obtain ⟨base, older, newer, pending, h, rfl, file, ds, hwal, hlive, hlog, -⟩ := h.worker hidle
  obtain ⟨ws, hws, hnone⟩ := h.sealedWal
  rw [hsealed] at hnone
  cases hnone
  refine ⟨base, older ++ newer, [], [], { h with
    history := by rw [append_nil]; exact h.history
    expects := by rw [append_nil]; exact h.expects
    memory := by rw [append_nil]; exact h.memory
    checkpoint := by rw [append_nil]; exact h.checkpoint
    sealedWal := ⟨ds, hws.append hlog, ?_⟩
    snapshot := ?_
    worker := ⟨rfl, rfl, rfl⟩
    cursors := fun m => { h.cursors m with
      files := by rw [append_nil, append_nil]; simpa using (h.cursors m).files
      snapshot := ?_
      worker := trivial } }⟩
  · simp only [hwal]
    exact hlive
  · rw [h.snapshot.idle_of_unsealed hsealed]
    trivial
  · rw [h.snapshot.idle_of_unsealed hsealed]
    trivial

lemma Up.createWal (h : Up jsony disk p log) (hworker : p.worker = .rotating) :
    Up jsony { disk with wal := some { bytes := walHeader, synced := 0 } }
      { p with worker := .rotated } log := by
  obtain ⟨base, older, newer, pending, h, rfl, rfl, -⟩ := h.worker hworker
  exact ⟨base, older, [], [], { h with
    worker := ⟨rfl, rfl, rfl⟩
    cursors := fun m => { h.cursors m with worker := trivial } }⟩

lemma liveLog_header : LiveLog jsony (.ofBytes walHeader) [] := by
  have h : walHeader = walOf jsony [] := (append_nil _).symm
  rw [h]
  exact LiveLog.ofBytes fun _ hd => by cases hd

section

variable (h : Up jsony disk p log)

include h

lemma Up.finishSeal (hworker : p.worker = .rotated) :
    Up jsony { disk with wal := disk.wal.map LogFile.sync }
      { p with worker := .idle, walBytes := walHeaderBytes, recordsSinceCheckpoint := 0 } log := by
  obtain ⟨base, older, newer, pending, h, rfl, rfl, hwal⟩ := h.worker hworker
  refine ⟨base, older, [], [], { h with
    worker := ⟨rfl, .ofBytes walHeader, [], ?_, liveLog_header, Logged.nil, rfl⟩
    cursors := fun m => { h.cursors m with worker := trivial } }⟩
  simp only [hwal, map_some]
  rfl

lemma Up.startSnapshot {bytes : Bytes} (hsealed : disk.sealedWal.isSome)
    (hbytes : serializeCheckpoint jsony p.store.state = some bytes) :
    Up jsony disk { p with snapshot := .taken bytes p.store.state.retiredPayloadBytes } log := by
  obtain ⟨base, older, newer, pending, h⟩ := h
  have hat := checkpointAt_of_serializeCheckpoint h.memory h.memory_inv hbytes
  obtain ⟨c, hload⟩ := h.checkpoint.load
  exact ⟨base, older, newer, pending, { h with
    snapshot := ⟨hsealed, newer, [], (append_nil _).symm, hat⟩
    worker := h.worker.beside hsealed rfl fun _ hhistory => hhistory
    cursors := fun m => { h.cursors m with
      snapshot := CursorMap.keepsFile_of_serializeCheckpoint h.memory_inv hbytes
        ((h.cursors m).keeps_memory hload) } }⟩

lemma Up.writeSnapshot {bytes : Bytes} {retired : ℕ}
      (hsnapshot : p.snapshot = .taken bytes retired) :
    Up jsony { disk with checkpoint := some bytes } { p with snapshot := .written retired }
      log := by
  obtain ⟨base, older, newer, pending, h, hsealed, covered, later, heq, hat⟩ :=
    h.snapshotOk hsnapshot
  refine ⟨base, older, newer, pending, { h with
    checkpoint := ⟨older ++ covered, later, ?_, hat⟩
    snapshot := ⟨hsealed, covered, later, heq, hat⟩
    worker := h.worker.beside hsealed rfl fun _ hhistory => hhistory
    cursors := fun m => ?_ }⟩
  · rw [heq, append_assoc]
  · have hkeeps : m.KeepsFile jsony (some bytes) (newer ++ pending) (m.expected log) := by
      have := (h.cursors m).snapshot
      rwa [hsnapshot] at this
    obtain ⟨c, hload⟩ := h.checkpoint.load
    exact { h.cursors m with
      files := fun c' hload' => ((h.cursors m).files c hload).before (hkeeps c' hload')
      snapshot := hkeeps
      worker := h.worker.keeps_of_sealed hsealed (h.cursors m).worker }

lemma Up.failSnapshot : Up jsony disk { p with snapshot := .idle } log := by
  obtain ⟨base, older, newer, pending, h⟩ := h
  refine ⟨base, older, newer, pending, { h with
    snapshot := trivial
    worker := ?_
    cursors := fun m => { h.cursors m with snapshot := trivial } }⟩
  cases hsealed : disk.sealedWal with
  | none =>
    rw [← h.snapshot.idle_of_unsealed hsealed]
    exact h.worker
  | some file => exact h.worker.beside (by rw [hsealed]; rfl) rfl fun _ hhistory => hhistory

/-- The sealed log goes: its deltas are in the checkpoint. -/
lemma Up.retireSealed {retired : ℕ} (hsnapshot : p.snapshot = .written retired) :
    Up jsony { disk with sealedWal := none }
      { p with snapshot := .idle, store := p.store.retire retired } log := by
  obtain ⟨base, older, newer, pending, h, hsealed, covered, later, heq, hat⟩ :=
    h.snapshotOk hsnapshot
  have hbase : ∀ ds, applyAll base (older ++ ds) = applyAll (applyAll base older) ([] ++ ds) :=
    fun ds => applyAll_append base older ds
  have hhistory := h.history
  have hexpects := h.expects
  have hmemory := h.memory
  rw [append_assoc] at hhistory hexpects
  rw [hbase] at hexpects hmemory hat
  refine ⟨applyAll base older, [], newer, pending, {
    history := hhistory.right
    expects := hexpects
    memory := hmemory.trans (SameDelivery.retire p.store retired)
    memory_inv := (SameDelivery.retire p.store retired).storeInv h.memory_inv
      ⟨h.memory_inv.cursors.cursor_of_required, h.memory_inv.cursors.cursor_ok⟩
      h.memory_inv.welcomes.cursor_ok
    checkpoint := ⟨covered, later, heq, hat⟩
    sealedWal := ⟨[], Logged.nil, rfl⟩
    snapshot := trivial
    worker := h.worker.beside hsealed rfl fun _ hds => hds.right
    cursors := fun m => { h.cursors m with
      memory := by rw [m.retired]; exact (h.cursors m).memory
      files := by
        have hkeeps := (h.cursors m).snapshot
        rw [hsnapshot] at hkeeps
        exact hkeeps
      snapshot := trivial } }⟩

/-! ## Compaction -/

lemma Up.compact (hidle : p.worker = .idle) : Up jsony disk { p with worker := .flushing } log := by
  obtain ⟨base, older, newer, pending, h, hw⟩ := h.worker hidle
  exact ⟨base, older, newer, pending, { h with
    worker := hw
    cursors := fun m => { h.cursors m with worker := trivial } }⟩

lemma Up.failFlush (hworker : p.worker = .flushing) :
    Up jsony disk { p with worker := .idle } log := by
  obtain ⟨base, older, newer, pending, h, hw⟩ := h.worker hworker
  exact ⟨base, older, newer, pending, { h with
    worker := hw
    cursors := fun m => { h.cursors m with worker := trivial } }⟩

lemma Up.writeCompaction {bytes : Bytes} (hworker : p.worker = .flushing)
      (hsnapshot : p.snapshot = .idle) (hsealed : disk.sealedWal = none)
    (hbytes : serializeCheckpoint jsony p.store.state = some bytes) :
    Up jsony { disk with checkpoint := some bytes } { p with worker := .resetting } log := by
  obtain ⟨base, older, newer, pending, h, rfl, file, ds, hwal, hlive, hlog, -⟩ := h.worker hworker
  have hat := checkpointAt_of_serializeCheckpoint h.memory h.memory_inv hbytes
  refine ⟨base, older, newer, [], { h with
    checkpoint := ⟨older ++ newer, [], (append_nil _).symm, hat⟩
    snapshot := ?_
    worker := ⟨rfl, ⟨hsealed, hsnapshot, hat⟩, file, ds, hwal, hlive, hlog⟩
    cursors := fun m => ?_ }⟩
  · rw [hsnapshot]
    trivial
  · have hcheckpoint : ∀ history, m.Keeps p.store.state history (m.expected log) →
        m.KeepsFile jsony (some bytes) history (m.expected log) := fun history =>
      CursorMap.keepsFile_of_serializeCheckpoint h.memory_inv hbytes
    obtain ⟨c, hload⟩ := h.checkpoint.load
    have hnewer := (h.cursors m).keeps_memory hload
    exact { h.cursors m with
      files := hcheckpoint _ (((h.cursors m).files c hload).before hnewer)
      snapshot := by rw [hsnapshot]; trivial
      worker := hcheckpoint [] (h.cursors m).keeps_nil }

lemma Up.resetWal (hworker : p.worker = .resetting) :
    Up jsony { disk with wal := disk.wal.map LogFile.reset } { p with worker := .reset } log := by
  obtain ⟨base, older, newer, pending, h, rfl, hcompacting, file, ds, hwal, hlive, hlog⟩ :=
    h.worker hworker
  refine ⟨base, older, newer, [], { h with
    worker := ⟨rfl, ⟨hcompacting.sealedWal, hcompacting.snapshot_idle, hcompacting.checkpoint⟩,
      file, ds, ?_, hlive, hlog⟩
    cursors := fun m => { h.cursors m with
      worker := by
        have hkeeps := (h.cursors m).worker
        rw [hworker] at hkeeps
        exact hkeeps } }⟩
  simp only [hwal, map_some]

/-- The checkpoint of a compaction becomes the base of an empty history. -/
lemma Up.finishCompaction {retired : ℕ} (hworker : p.worker = .reset) :
    Up jsony { disk with wal := disk.wal.map LogFile.sync }
      { p with worker := .idle, walBytes := walHeaderBytes, recordsSinceCheckpoint := 0
               store := p.store.retire retired } log := by
  obtain ⟨base, older, newer, pending, h, rfl, hcompacting, file, ds, hwal, -, -⟩ :=
    h.worker hworker
  have hhistory := h.history
  have hexpects := h.expects
  rw [append_nil] at hhistory hexpects
  refine ⟨applyAll base (older ++ newer), [], [], [], {
    history := History.nil hhistory.storeInv
    expects := hexpects
    memory := h.memory.trans (SameDelivery.retire p.store retired)
    memory_inv := (SameDelivery.retire p.store retired).storeInv h.memory_inv
      ⟨h.memory_inv.cursors.cursor_of_required, h.memory_inv.cursors.cursor_ok⟩
      h.memory_inv.welcomes.cursor_ok
    checkpoint := ⟨[], [], rfl, hcompacting.checkpoint⟩
    sealedWal := ?_
    snapshot := ?_
    worker := ⟨rfl, .ofBytes walHeader, [], ?_, liveLog_header, Logged.nil, rfl⟩
    cursors := fun m => { h.cursors m with
      memory := by rw [m.retired]; exact (h.cursors m).memory
      files := by
        have hkeeps := (h.cursors m).worker
        rw [hworker] at hkeeps
        exact hkeeps
      snapshot := ?_
      worker := trivial } }⟩
  · rw [hcompacting.sealedWal]
    exact ⟨[], Logged.nil, rfl⟩
  · rw [hcompacting.snapshot_idle]
    trivial
  · simp only [hwal, map_some]
    rfl
  · rw [hcompacting.snapshot_idle]
    trivial

end

/-! ## Crashes -/

lemma surviveFile_of_previous_none {file : LogFile} {cut : Cut} (hprevious : file.previous = none)
    (h : surviveFile (some file) cut = some survived) :
    ∃ n, file.synced ≤ n ∧ survived = some (file.bytes.take n) := by
  rcases surviveFile_some h with hcut | ⟨bytes, synced, n, hsome, -⟩
  · exact hcut
  · rw [hprevious] at hsome
    cases hsome

lemma SealedLive.survive {file : Option LogFile} {cut : Cut} (h : SealedLive jsony file older)
    (hsurvive : surviveFile file cut = some survived) :
    ∃ ds, FileHolds jsony survived ds ∧ Logged ds older := by
  obtain ⟨ds, hlog, hfile⟩ := h
  cases file with
  | none =>
    cases hsurvive
    exact ⟨ds, hfile, hlog⟩
  | some file =>
    have hlive : LiveLog jsony file ds := hfile
    obtain ⟨n, hn, rfl⟩ := surviveFile_of_previous_none hlive.previous hsurvive
    exact hlive.survive hlog hn

lemma LiveLog.active {file : LogFile} {cut : Cut} (h : LiveLog jsony file ds)
      (hlog : Logged ds newer)
    (hsurvive : surviveFile (some file) cut = some survived) :
    ∃ ds, ActiveHolds jsony survived ds ∧ Logged ds newer := by
  obtain ⟨n, hn, rfl⟩ := surviveFile_of_previous_none h.previous hsurvive
  obtain ⟨ds', hholds, hlog'⟩ := h.survive hlog hn
  exact ⟨ds', Or.inl hholds, hlog'⟩

/-- What is left of a new header is a log without records. -/
lemma activeHolds_header (n : ℕ) : ActiveHolds jsony (some (walHeader.take n)) [] := by
  by_cases hn : n < walHeaderBytes
  · refine Or.inr ⟨rfl, _, rfl, ?_⟩
    rw [length_take]
    omega
  · rw [take_of_length_le (by rw [length_walHeader]; omega)]
    exact Or.inl liveLog_header.holds

variable {files : Files} {walCut : Cut}

/-- The files a crash leaves. -/
lemma Disk.survive_eq_some (h : disk.survive sealedCut walCut = some files) :
    files.checkpoint = disk.checkpoint ∧ surviveFile disk.sealedWal sealedCut =
      some files.sealedWal ∧ surviveFile disk.wal walCut = some files.wal := by
  unfold Disk.survive at h
  split at h
  next hsealed hwal =>
    cases h
    exact ⟨rfl, hsealed, hwal⟩
  · cases h

section

variable (h : UpInv jsony disk p log base older newer pending)

include h

/-- A crash with no delta under way. -/
lemma UpInv.crash (hcheckpoint : files.checkpoint = disk.checkpoint)
      (hsealed : surviveFile disk.sealedWal sealedCut = some files.sealedWal)
    (hwal : ∃ ds, ActiveHolds jsony files.wal ds ∧ Logged ds (newer ++ pending)) :
    Down jsony files log := by
  have hhistory := h.history
  have hexpects := h.expects
  rw [append_assoc] at hhistory hexpects
  refine ⟨base, older, newer ++ pending, {
    history := hhistory
    expects := hexpects
    checkpoint := ?_
    sealedWal := h.sealedWal.survive hsealed
    wal := hwal
    cursors := fun m => by rw [hcheckpoint]; exact (h.cursors m).files }⟩
  rw [hcheckpoint, ← append_assoc]
  exact h.checkpoint.append pending

/-- A crash between the write of a frame and the application of its delta. -/
lemma UpInv.crash_written {durable : Bool} (hworker : p.worker = .written d durable)
    (hcheckpoint : files.checkpoint = disk.checkpoint)
    (hsealed : surviveFile disk.sealedWal sealedCut = some files.sealedWal)
    (hwal : surviveFile disk.wal walCut = some files.wal) :
    Down jsony files (log ++ p.survived disk files) := by
  have hw := h.worker
  rw [hworker] at hw
  obtain ⟨rfl, hhistory, hfit, hack, file, ds, hfile, hlive, hlog, -⟩ := hw
  have hbytes : disk.files.wal = some (file.write (walFrame jsony d)).bytes := by
    unfold Disk.files
    rw [hfile]
    rfl
  have hexpects := h.expects
  rw [append_nil] at hexpects
  rw [hfile] at hwal
  have hprevious : (file.write (walFrame jsony d)).previous = none := hlive.previous
  obtain ⟨n, hn, hcut⟩ := surviveFile_of_previous_none hprevious hwal
  by_cases hall : files.wal = disk.files.wal
  · -- the record is in the log: the delta belongs to the history
    have hholds : WalHolds jsony (file.write (walFrame jsony d)).bytes (ds ++ [d]) := by
      have heq : (file.write (walFrame jsony d)).bytes = walOf jsony (ds ++ [d]) := by
        rw [walOf_concat, ← hlive.bytes_eq]
        rfl
      rw [heq]
      exact walHolds_walOf (hlive.fit.concat hfit)
    have hactive : ∃ ds, ActiveHolds jsony files.wal ds ∧ Logged ds (newer ++ [d]) := by
      rw [hall, hbytes]
      exact ⟨ds ++ [d], Or.inl hholds, hlog.concat d⟩
    have hexpects' : Expects (log ++ p.survived disk files)
        (applyAll base (older ++ newer ++ [d])) := by
      unfold Process.survived
      rw [hworker]
      cases durable with
      | true =>
        simp only [if_pos hall]
        exact hexpects.concat hhistory
      | false =>
        rw [append_nil]
        exact hexpects.acked hhistory.left.storeInv (hack rfl)
    rw [append_assoc] at hhistory hexpects'
    refine ⟨base, older, newer ++ [d], hhistory, hexpects', ?_, h.sealedWal.survive hsealed,
      hactive, fun m => ?_⟩
    · rw [hcheckpoint, ← append_assoc]
      exact h.checkpoint.append [d]
    have hkeeps := (h.cursors m).files
    have hdelta := (h.cursors m).worker
    rw [append_nil] at hkeeps
    rw [hworker] at hdelta
    unfold Process.survived
    rw [hcheckpoint, ← append_assoc, hworker]
    cases durable with
    | true =>
      simp only [if_pos hall]
      rw [m.expected_concat h.expects.inv]
      exact hkeeps.durable hdelta
    | false =>
      rw [append_nil]
      exact hkeeps.acked hdelta
  · -- the record is torn: the delta was never appended
    have hnone : p.survived disk files = [] := by
      unfold Process.survived
      rw [hworker]
      cases durable <;> simp [hall]
    rw [hnone, append_nil]
    have hne : (file.write (walFrame jsony d)).bytes.take n ≠
        (file.write (walFrame jsony d)).bytes := by
      intro heq
      apply hall
      rw [hbytes, hcut, heq]
    obtain ⟨ds', hholds, hlog'⟩ := hlive.survive_write hlog hfit hn hne
    refine h.crash hcheckpoint hsealed ⟨ds', ?_, ?_⟩
    · rw [hcut]
      exact Or.inl hholds
    · rw [append_nil]
      exact hlog'

/-- A crash while the log is truncated: the log is as before, or the checkpoint has it all. -/
lemma UpInv.crash_reset (hworker : p.worker = .reset)
      (hcheckpoint : files.checkpoint = disk.checkpoint)
    (hsealed : surviveFile disk.sealedWal sealedCut = some files.sealedWal)
    (hwal : surviveFile disk.wal walCut = some files.wal) : Down jsony files log := by
  have hw := h.worker
  rw [hworker] at hw
  obtain ⟨rfl, hcompacting, file, ds, hfile, hlive, hlog⟩ := hw
  rw [hfile] at hwal
  rcases surviveFile_some hwal with ⟨n, -, hcut⟩ | ⟨bytes, synced, n, hprevious, hn, hcut⟩
  · have hhistory := h.history
    have hexpects := h.expects
    rw [append_nil] at hhistory hexpects
    refine ⟨applyAll base (older ++ newer), [], [], History.nil hhistory.storeInv, hexpects,
      ⟨[], [], rfl, ?_⟩,
      ⟨[], ?_, Logged.nil⟩, ⟨[], ?_, Logged.nil⟩, fun m => ?_⟩
    · rw [hcheckpoint]
      exact hcompacting.checkpoint
    · rw [hcompacting.sealedWal] at hsealed
      rw [← some.inj hsealed]
      rfl
    · rw [hcut]
      exact activeHolds_header n
    · have hkeeps := (h.cursors m).worker
      rw [hworker] at hkeeps
      rw [hcheckpoint]
      exact hkeeps
  · cases hprevious
    obtain ⟨ds', hholds, hlog'⟩ := hlive.survive hlog hn
    refine h.crash hcheckpoint hsealed ⟨ds', ?_, ?_⟩
    · rw [hcut]
      exact Or.inl hholds
    · rw [append_nil]
      exact hlog'

end

lemma Up.crash (h : Up jsony disk p log) (hsurvive : disk.survive sealedCut walCut = some files) :
    Down jsony files (log ++ p.survived disk files) := by
  obtain ⟨base, older, newer, pending, h⟩ := h
  obtain ⟨hcheckpoint, hsealed, hwal⟩ := Disk.survive_eq_some hsurvive
  have hnone : (∀ d durable, p.worker ≠ .written d durable) → p.survived disk files = [] := by
    intro hworker
    unfold Process.survived
    split
    · rename_i d hd
      exact absurd hd (hworker d true)
    · rfl
  have hw := h.worker
  cases hworker : p.worker with
  | written d durable => exact h.crash_written hworker hcheckpoint hsealed hwal
  | reset =>
    rw [hnone (by simp [hworker]), append_nil]
    exact h.crash_reset hworker hcheckpoint hsealed hwal
  | idle | flushing =>
    rw [hworker] at hw
    obtain ⟨rfl, file, ds, hfile, hlive, hlog, -⟩ := hw
    rw [hnone (by simp [hworker]), append_nil]
    rw [hfile] at hwal
    refine h.crash hcheckpoint hsealed ?_
    rw [append_nil]
    exact hlive.active hlog hwal
  | appended d =>
    rw [hworker] at hw
    obtain ⟨rfl, file, ds, hfile, hlive, hlog, -⟩ := hw
    rw [hnone (by simp [hworker]), append_nil]
    rw [hfile] at hwal
    exact h.crash hcheckpoint hsealed (hlive.active hlog hwal)
  | resetting =>
    rw [hworker] at hw
    obtain ⟨rfl, -, file, ds, hfile, hlive, hlog⟩ := hw
    rw [hnone (by simp [hworker]), append_nil]
    rw [hfile] at hwal
    refine h.crash hcheckpoint hsealed ?_
    rw [append_nil]
    exact hlive.active hlog hwal
  | rotating =>
    rw [hworker] at hw
    obtain ⟨rfl, rfl, hfile⟩ := hw
    rw [hnone (by simp [hworker]), append_nil]
    rw [hfile] at hwal
    refine h.crash hcheckpoint hsealed ⟨[], ?_, Logged.nil⟩
    rw [← some.inj hwal]
    exact Or.inl rfl
  | rotated =>
    rw [hworker] at hw
    obtain ⟨rfl, rfl, hfile⟩ := hw
    rw [hnone (by simp [hworker]), append_nil]
    rw [hfile] at hwal
    obtain ⟨n, -, hcut⟩ := surviveFile_of_previous_none rfl hwal
    refine h.crash hcheckpoint hsealed ⟨[], ?_, Logged.nil⟩
    rw [hcut]
    exact activeHolds_header n

/-! ## Starting -/

variable {files : Files}

lemma Down.interruptSealed {replayed : Replayed} {files' : Files} (h : Down jsony files log)
    (hok : recoverSealed jsony files = .ok (replayed, files')) : Down jsony files' log := by
  obtain ⟨base, older, newer, h⟩ := h
  obtain ⟨_, _, hok', hcheckpoint, hwal, hsealed, -⟩ := h.recoverSealed
  rw [hok] at hok'
  cases hok'
  obtain ⟨ds, hholds, hlog⟩ := hsealed.fileHolds
  refine ⟨base, older, newer, h.history, h.expects, ?_, ⟨ds, ?_, hlog⟩, ?_, fun m => ?_⟩
  · rw [hcheckpoint]
    exact h.checkpoint
  · rw [← Disk.files_ofFiles files']
    exact hholds
  · rw [hwal]
    exact h.wal
  · rw [hcheckpoint]
    exact h.cursors m

lemma Down.interruptWal {replayed : Replayed} {files' : Files} (h : Down jsony files log)
      (hok : recoverWal jsony files = .ok (replayed, files')) (written : ℕ) :
    Down jsony (if replayed.validBytes =
      0 then { files' with wal := some (files'.wal.getD [] ++ walHeader.take written) }
    else files') log := by
  obtain ⟨base, older, newer, h⟩ := h
  obtain ⟨_, _, hok', hrecovered⟩ := h.recoverWal
  rw [hok] at hok'
  cases hok'
  have hcheckpoint : CheckpointIn jsony files'.checkpoint base (older ++ newer) := by
    rw [hrecovered.checkpoint]
    exact h.checkpoint
  have hsealed : ∃ ds, FileHolds jsony files'.sealedWal ds ∧ Logged ds older := by
    obtain ⟨ds, hholds, hlog⟩ := hrecovered.sealedWal.fileHolds
    refine ⟨ds, ?_, hlog⟩
    rw [← Disk.files_ofFiles files']
    exact hholds
  have hcursors : ∀ {κ ν : Type} (m : CursorMap κ ν),
      m.KeepsFile jsony files'.checkpoint (older ++ newer) (m.expected log) := by
    rw [hrecovered.checkpoint]
    exact h.cursors
  rcases hrecovered.wal with ⟨hzero, hlog, hempty⟩ | ⟨hactive, -, hvalid⟩
  · rw [if_pos hzero, hempty, nil_append]
    exact ⟨base, older, newer, h.history, h.expects, hcheckpoint, hsealed,
      ⟨[], activeHolds_header written, hlog⟩, hcursors⟩
  rw [if_neg hvalid]
  obtain ⟨ds, hholds, hlog⟩ := hactive.activeHolds
  refine ⟨base, older, newer, h.history, h.expects, hcheckpoint, hsealed, ⟨ds, ?_, hlog⟩, hcursors⟩
  rw [← Disk.files_ofFiles files']
  exact hholds

/-- Opening the directory succeeds, and the state is the expected one. -/
lemma Down.openFiles (h : Down jsony files log) :
    ∃ opened, openFiles jsony files = .ok opened ∧
      SameDelivery (applyAll MemoryState.initial log) opened.state ∧
      CursorsAcked (applyAll MemoryState.initial log) opened.state ∧
      validateMemory opened.state = .ok () ∧
      Up jsony (Disk.ofFiles opened.files)
        { store := { state := opened.state, cleanupAfterRoom := 0 }
          walBytes := opened.walBytes
          recordsSinceCheckpoint := opened.records
          worker := .idle
          snapshot := .idle } log := by
  obtain ⟨base, older, newer, h⟩ := h
  obtain ⟨replayed, files', hok, hrecovered⟩ := h.recoverWal
  have hvalid := hrecovered.inv.validateMemory
  have hsame := h.expects.same.symm.trans hrecovered.same
  have hcheckpoint : CheckpointIn jsony files'.checkpoint base (older ++ newer) := by
    rw [hrecovered.checkpoint]
    exact h.checkpoint
  have hhistory : History base (older ++ newer ++ []) := by
    rw [append_nil]
    exact h.history
  have hexpects : Expects log (applyAll base (older ++ newer ++ [])) := by
    rw [append_nil]
    exact h.expects
  have hacked : CursorsAcked (applyAll MemoryState.initial log) replayed.state :=
    ⟨h.moved hrecovered deviceCursorMap, h.moved hrecovered welcomeCursorMap⟩
  have hcursors : ∀ {κ ν : Type} (m : CursorMap κ ν), m.Up jsony files'.checkpoint replayed.state
      .idle .idle (m.expected log) older newer [] := by
    intro κ ν m
    refine ⟨h.moved hrecovered m, ?_, trivial, trivial, by simp⟩
    rw [hrecovered.checkpoint, append_nil]
    exact h.cursors m
  unfold Chatt.openFiles
  simp only [hok, hvalid]
  rcases hrecovered.wal with ⟨hzero, hlog, hempty⟩ | ⟨⟨file, ds, hfile, hlive, hlog⟩, hlength, hne⟩
  · rw [if_pos hzero, hempty, nil_append]
    exact ⟨_, rfl, hsame, hacked, hvalid, base, older, newer, [], hhistory, hexpects,
      hrecovered.same, hrecovered.inv, hcheckpoint, hrecovered.sealedWal, trivial,
      ⟨rfl, _, [], rfl, liveLog_header, hlog, rfl⟩, hcursors⟩
  · rw [if_neg hne]
    refine ⟨_, rfl, hsame, hacked, hvalid, base, older, newer, [], hhistory, hexpects,
      hrecovered.same, hrecovered.inv, hcheckpoint, hrecovered.sealedWal, trivial,
      ⟨rfl, file, ds, hfile, hlive, hlog, ?_⟩, hcursors⟩
    show replayed.validBytes = file.bytes.length
    obtain ⟨bytes, hbytes, rfl⟩ := map_eq_some_iff.mp hfile
    rw [hlength, hbytes]
    rfl

end Steps

end Chatt
