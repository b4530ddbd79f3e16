import Chatt.Analysis.CursorRecovery
import Chatt.Analysis.WalReplay

/-!
# The data directory between two crashes

`DownInv` says what a data directory without a process holds, `UpInv` what it holds beside a
running one.  Both explain the files by one history: a base state, the deltas `older` whose
records are in the sealed log, and the deltas `newer` whose records are in the active log.
The checkpoint was taken at some point of that history.
-/

namespace Chatt

open Chatt.Lib List Option

variable {d : StateDelta}

/-! ## Logs with missing acknowledgements -/

lemma Logged.labels {α : Type} (label : MlsDeliveryEvent → Option α) {log history : List StateDelta}
    (h : Logged log history) : logLabels label log = logLabels label history := by
  unfold logLabels
  induction h with
  | nil => rfl
  | keep _ ih => rw [flatMap_cons, flatMap_cons, ih]
  | drop hack _ ih => rw [flatMap_cons, AckOnly.labels label hack, ih, nil_append]

/-- A delta stores at most one event. -/
lemma Admissible.labels_nodup {α : Type} {label : MlsDeliveryEvent → Option α} {s : MemoryState}
    (h : Admissible s d) : (d.labels label).Nodup := by
  cases h with
  | append _ _ =>
    rw [labels_append]
    cases label _ <;> simp
  | prune _ _ | dropTargets _ | replace _ _ _ | acknowledge _ _ _ | acknowledgeWelcome _ _ =>
    exact nodup_nil

/-- The acknowledgements are the operations that are not synced. -/
lemma StoreOp.plan_ackOnly {store : MlsStore} {op : StoreOp} (hinv : StoreInv store.state)
    (h : (op.plan store).2 = .ok (some d)) (hop : op.durable = false) : d.AckOnly := by
  cases op with
  | acknowledge roomId deviceId sequence nowUnixMs =>
    obtain ⟨room, c, hplanned⟩ := planAcknowledge_eq_some h
    rw [hplanned.delta_eq]
    rfl
  | persistAcknowledgement roomId deviceId =>
    have h' := map_some_eq_ok h
    unfold planPersistAcknowledgement at h'
    split at h'
    · cases h'
    · cases h'
      rfl
  | acknowledgeWelcome deviceId deliveryId =>
    rw [(planAcknowledgeWelcome_eq_some h hinv.welcomes).1]
    rfl
  | persistWelcomeAcknowledgement deviceId =>
    have h' := map_some_eq_ok h
    unfold planPersistWelcomeAcknowledgement at h'
    split at h'
    · cases h'
    · cases h'
      rfl
  | createRoom _ _ _ _ | appendCommit _ _ _ _ _ | appendApplication _ _ _ _ _ _ _
  | replaceGlobalAndRooms _ _ | cleanup _ _ => cases hop

/-! ## Histories -/

/-- The deltas of a history can be applied to its base, and store no event id twice. -/
structure History (base : MemoryState) (deltas : List StateDelta) : Prop where
  base_inv : StoreInv base
  admitted : Admitted base deltas
  ids : (logLabels MlsDeliveryEvent.eventId? deltas).Nodup

lemma logLabels_append {α : Type} (label : MlsDeliveryEvent → Option α)
    (ds es : List StateDelta) :
    logLabels label (ds ++ es) = logLabels label ds ++ logLabels label es :=
  flatMap_append

namespace History

variable {base : MemoryState} {ds es : List StateDelta}

lemma storeInv (h : History base ds) : StoreInv (applyAll base ds) := (h.admitted.run h.base_inv).1

lemma left (h : History base (ds ++ es)) : History base ds := by
  refine ⟨h.base_inv, (admitted_append.mp h.admitted).1, ?_⟩
  have hids := h.ids
  rw [logLabels_append] at hids
  exact hids.of_append_left

/-- The first part of a history may be taken into its base. -/
lemma right (h : History base (ds ++ es)) : History (applyAll base ds) es := by
  refine ⟨h.left.storeInv, (admitted_append.mp h.admitted).2, ?_⟩
  have hids := h.ids
  rw [logLabels_append] at hids
  exact hids.of_append_right

lemma nil (h : StoreInv base) : History base [] := ⟨h, trivial, nodup_nil⟩

lemma concat (h : History base ds) (hadm : Admissible (applyAll base ds) d)
    (hfresh : ∀ id ∈ d.labels MlsDeliveryEvent.eventId?,
      id ∉ logLabels MlsDeliveryEvent.eventId? ds) : History base (ds ++ [d]) := by
  refine ⟨h.base_inv, admitted_append.mpr ⟨h.admitted, hadm, trivial⟩, ?_⟩
  have hone : logLabels MlsDeliveryEvent.eventId? [d] = d.labels MlsDeliveryEvent.eventId? := by
    simp [logLabels]
  rw [logLabels_append, hone]
  refine List.Nodup.append h.ids hadm.labels_nodup ?_
  intro id hid hid'
  exact hfresh id hid' hid

end History

/-! ## Log files -/

variable {jsony : Jsony}

/-- A crash cuts the file behind its synced bytes, or it undoes the truncation. -/
lemma surviveFile_some {file : LogFile} {cut : Cut} {survived : Option Bytes}
      (h : surviveFile (some file) cut = some survived) :
    (∃ n, file.synced ≤ n ∧ survived = some (file.bytes.take n)) ∨
      ∃ bytes synced n, file.previous = some (bytes, synced) ∧ synced ≤ n ∧
      survived = some (bytes.take n) := by
  obtain ⟨kept, hkept, rfl⟩ := map_eq_some_iff.mp h
  unfold LogFile.survive at hkept
  split_ifs at hkept with hbefore hsynced
  · split at hkept
    next bytes synced hprevious =>
      split_ifs at hkept with hsynced
      cases hkept
      exact Or.inr ⟨bytes, synced, cut.length, hprevious, hsynced, rfl⟩
    · cases hkept
  · cases hkept
    exact Or.inl ⟨cut.length, hsynced, rfl⟩

/-- A log file that is appended to: its records, of which those past the synced part are
acknowledgements. -/
structure LiveLog (jsony : Jsony) (file : LogFile) (ds : List StateDelta) : Prop where
  bytes_eq : file.bytes = walOf jsony ds
  fit : RecordsFit jsony ds
  synced : ∃ m ≤ ds.length, (walOf jsony (ds.take m)).length ≤ file.synced ∧
    ∀ d ∈ ds.drop m, d.AckOnly
  previous : file.previous = none

namespace LiveLog

variable {file : LogFile} {ds history : List StateDelta}

lemma ofBytes (h : RecordsFit jsony ds) : LiveLog jsony (.ofBytes (walOf jsony ds)) ds :=
  ⟨rfl, h, ⟨ds.length, le_refl _, by rw [take_length]; exact le_refl _, by simp [drop_length]⟩, rfl⟩

section

variable (h : LiveLog jsony file ds)

include h

lemma holds : WalHolds jsony file.bytes ds := by
  rw [h.bytes_eq]
  exact walHolds_walOf h.fit

/-- An acknowledgement is written and not synced. -/
lemma write (hfit : (jsony.delta.encode d).length < 2 ^ 32) (hack : d.AckOnly) :
    LiveLog jsony (file.write (walFrame jsony d)) (ds ++ [d]) := by
  obtain ⟨m, hm, hsynced, hacks⟩ := h.synced
  refine ⟨?_, h.fit.concat hfit, ⟨m, ?_, ?_⟩, h.previous⟩
  · rw [walOf_concat, ← h.bytes_eq]
    rfl
  · rw [length_append]
    omega
  · rw [take_append_of_le_length hm, drop_append_of_le_length hm]
    refine ⟨hsynced, ?_⟩
    exact forall_mem_append.mpr ⟨hacks, forall_mem_singleton.mpr hack⟩

/-- A record is written and synced. -/
lemma append (hfit : (jsony.delta.encode d).length < 2 ^ 32) :
    LiveLog jsony (file.write (walFrame jsony d)).sync (ds ++ [d]) := by
  have hbytes : (file.write (walFrame jsony d)).bytes = walOf jsony (ds ++ [d]) := by
    rw [walOf_concat, ← h.bytes_eq]
    rfl
  unfold LogFile.sync
  rw [hbytes]
  exact ofBytes (h.fit.concat hfit)

/-- A record that was written is taken back. -/
lemma rollBack (bytes : Bytes) :
    LiveLog jsony ((file.write bytes).truncate file.bytes.length) ds := by
  have hbytes : (file.write bytes).bytes.take file.bytes.length = walOf jsony ds := by
    rw [← h.bytes_eq]
    exact take_left
  unfold LogFile.truncate
  rw [hbytes]
  exact ofBytes h.fit

/-- A crash loses acknowledgements at most. -/
lemma survive (hlog : Logged ds history) {n : ℕ} (hn : file.synced ≤ n) :
    ∃ ds', WalHolds jsony (file.bytes.take n) ds' ∧ Logged ds' history := by
  obtain ⟨m, hm, hsynced, hacks⟩ := h.synced
  obtain ⟨k, -, hholds, hkept⟩ := h.holds.take ((le_length_walOf _).trans (hsynced.trans hn))
  refine ⟨ds.take k, hholds, hlog.take ?_⟩
  intro d hd
  exact hacks d (drop_subset_drop_left ds (hkept m hm (hsynced.trans hn)) hd)

/-- A crash after a frame was written leaves the log with the whole frame, or as above. -/
lemma survive_write (hlog : Logged ds history) (hfit : (jsony.delta.encode d).length < 2 ^ 32)
      {n : ℕ} (hn : file.synced ≤ n)
    (hcut : (file.write (walFrame jsony d)).bytes.take n ≠ (file.write (walFrame jsony d)).bytes) :
    ∃ ds', WalHolds jsony ((file.write (walFrame jsony d)).bytes.take n) ds' ∧
    Logged ds' history := by
  have hbytes : (file.write (walFrame jsony d)).bytes = walOf jsony (ds ++ [d]) := by
    rw [walOf_concat, ← h.bytes_eq]
    rfl
  rw [hbytes] at hcut ⊢
  obtain ⟨m, hm, hsynced, hacks⟩ := h.synced
  have hsynced' : (walOf jsony ((ds ++ [d]).take m)).length ≤ n := by
    rw [take_append_of_le_length hm]
    exact le_trans hsynced hn
  obtain ⟨k, hk, hholds, hkept⟩ := (walHolds_walOf (h.fit.concat hfit)).take
    ((le_length_walOf _).trans hsynced')
  have hmk := hkept m (by rw [length_append]; omega) hsynced'
  -- the last record is not complete, or nothing would have been cut off
  have hlt : k ≤ ds.length := by
    by_contra hle
    have hall : (ds ++ [d]).take k = ds ++ [d] := take_of_length_le (by
      rw [length_append, length_singleton]
      omega)
    rw [hall] at hholds
    obtain ⟨-, tail, -, heq⟩ := hholds
    apply hcut
    apply take_of_length_le
    have hlength := congrArg List.length heq
    rw [length_take, length_append] at hlength
    omega
  rw [take_append_of_le_length hlt] at hholds
  refine ⟨ds.take k, hholds, hlog.take ?_⟩
  intro e he
  exact hacks e (drop_subset_drop_left ds hmk he)

end

end LiveLog

/-! ## A directory without a process -/

/-- The checkpoint file reads as a state with the deliveries of `s`. -/
def CheckpointAt (jsony : Jsony) (file : Option Bytes) (s : MemoryState) : Prop :=
  ∃ c, loadCheckpoint jsony file = .ok c ∧ SameDelivery s c ∧ StoreInv c

/-- The checkpoint was taken at some point of the history. -/
def CheckpointIn (jsony : Jsony) (file : Option Bytes) (base : MemoryState)
    (deltas : List StateDelta) : Prop :=
  ∃ covered later, deltas = covered ++ later ∧ CheckpointAt jsony file (applyAll base covered)

/-- A log that may be missing has these records. -/
def FileHolds (jsony : Jsony) (file : Option Bytes) (ds : List StateDelta) : Prop :=
  match file with
  | none => ds = []
  | some bytes => WalHolds jsony bytes ds

/-- The active log may also end inside its header. -/
def ActiveHolds (jsony : Jsony) (file : Option Bytes) (ds : List StateDelta) : Prop :=
  FileHolds jsony file ds ∨ ds = [] ∧ ∃ bytes, file = some bytes ∧ bytes.length < walHeaderBytes

/-- The deltas appended durably lead to the deliveries at the end of the history. -/
structure Expects (log : List StateDelta) (s : MemoryState) : Prop where
  same : SameDelivery s (applyAll MemoryState.initial log)
  inv : StoreInv (applyAll MemoryState.initial log)

/-- The files are explained by the history: the checkpoint was taken in it, the logs hold it up to
acknowledgements, and together they give the cursors back. -/
structure DownInv (jsony : Jsony) (files : Files) (log : List StateDelta) (base : MemoryState)
    (older newer : List StateDelta) : Prop where
  history : History base (older ++ newer)
  expects : Expects log (applyAll base (older ++ newer))
  checkpoint : CheckpointIn jsony files.checkpoint base (older ++ newer)
  sealedWal : ∃ ds, FileHolds jsony files.sealedWal ds ∧ Logged ds older
  wal : ∃ ds, ActiveHolds jsony files.wal ds ∧ Logged ds newer
  cursors : ∀ {κ ν : Type} (m : CursorMap κ ν),
    m.KeepsFile jsony files.checkpoint (older ++ newer) (m.expected log)

lemma replayWal_of_fileHolds {file : Option Bytes} {ds : List StateDelta} {s t : MemoryState}
    (path : String) (h : FileHolds jsony file ds) (hreplay : replayAll s ds = .ok t) :
    ∃ replayed, replayWal jsony path file s = .ok replayed ∧ replayed.state = t ∧
      FileHolds jsony replayed.file ds ∧ replayed.file = file.map (fun _ => walOf jsony ds) ∧
      (replayed.validBytes = 0 ∧ file = none ∨ replayed.validBytes = (walOf jsony ds).length ∧
        file.isSome) := by
  cases file with
  | none =>
    have hds : ds = [] := h
    subst hds
    cases hreplay
    exact ⟨_, rfl, rfl, rfl, rfl, Or.inl ⟨rfl, rfl⟩⟩
  | some bytes =>
    have hholds : WalHolds jsony bytes ds := h
    refine ⟨replayedOf jsony ds t, ?_, rfl, walHolds_walOf hholds.1, rfl, Or.inr ⟨rfl, rfl⟩⟩
    rw [replayWal_of_holds hholds, hreplay]
    rfl

/-- What replaying the active log leaves: the log without a torn end, or none at all. -/
lemma replayWal_of_activeHolds {file : Option Bytes} {ds : List StateDelta} {s t : MemoryState}
      (path : String)
    (h : ActiveHolds jsony file ds) (hreplay : replayAll s ds = .ok t) :
    ∃ replayed, replayWal jsony path file s = .ok replayed ∧ replayed.state = t ∧
      (replayed.validBytes = 0 ∧ ds = [] ∧ replayed.file.getD [] = [] ∨
        replayed.validBytes = (walOf jsony ds).length ∧ replayed.file = some (walOf jsony ds) ∧
        RecordsFit jsony ds) := by
  rcases h with h | ⟨rfl, bytes, rfl, hshort⟩
  · obtain ⟨replayed, hok, hstate, -, hfile, hvalid⟩ := replayWal_of_fileHolds path h hreplay
    refine ⟨replayed, hok, hstate, ?_⟩
    rcases hvalid with ⟨hzero, rfl⟩ | ⟨hlength, hsome⟩
    · exact Or.inl ⟨hzero, h, by rw [hfile]; rfl⟩
    · obtain ⟨bytes, rfl⟩ := isSome_iff_exists.mp hsome
      exact Or.inr ⟨hlength, hfile, h.1⟩
  · cases hreplay
    exact ⟨_, replayWal_of_short s hshort, rfl, Or.inl ⟨rfl, rfl, rfl⟩⟩

/-- The sealed log, if there is one, holds the older deltas. -/
def SealedLive (jsony : Jsony) (file : Option LogFile) (older : List StateDelta) : Prop :=
  ∃ ds, Logged ds older ∧ match file with
    | none => ds = []
    | some file => LiveLog jsony file ds

/-- The active log holds the newer deltas. -/
def ActiveLive (jsony : Jsony) (file : Option LogFile) (newer : List StateDelta) : Prop :=
  ∃ log ds, file = some log ∧ LiveLog jsony log ds ∧ Logged ds newer

lemma SealedLive.fileHolds {file : Option LogFile} {older : List StateDelta}
      (h : SealedLive jsony file older) :
    ∃ ds, FileHolds jsony (file.map LogFile.bytes) ds ∧ Logged ds older := by
  obtain ⟨ds, hlog, hfile⟩ := h
  refine ⟨ds, ?_, hlog⟩
  cases file with
  | none => exact hfile
  | some file => exact LiveLog.holds hfile

lemma ActiveLive.activeHolds {file : Option LogFile} {newer : List StateDelta}
      (h : ActiveLive jsony file newer) :
    ∃ ds, ActiveHolds jsony (file.map LogFile.bytes) ds ∧ Logged ds newer := by
  obtain ⟨log, ds, rfl, hlive, hlog⟩ := h
  exact ⟨ds, Or.inl hlive.holds, hlog⟩

lemma Disk.files_ofFiles (files : Files) : (Disk.ofFiles files).files = files := by
  obtain ⟨checkpoint, sealedWal, wal⟩ := files
  cases sealedWal <;> cases wal <;> rfl

/-- What the two replays of `Persistence::open` lead to. -/
structure Recovered (jsony : Jsony) (files files' : Files) (replayed : Replayed)
    (base : MemoryState) (older newer : List StateDelta) : Prop where
  same : SameDelivery (applyAll base (older ++ newer)) replayed.state
  inv : StoreInv replayed.state
  replay : ∃ c log, loadCheckpoint jsony files.checkpoint = .ok c ∧
    Logged log (older ++ newer) ∧ replayAll c log = .ok replayed.state
  checkpoint : files'.checkpoint = files.checkpoint
  sealedWal : SealedLive jsony (Disk.ofFiles files').sealedWal older
  wal : replayed.validBytes = 0 ∧ Logged [] newer ∧ files'.wal.getD [] = [] ∨
    ActiveLive jsony (Disk.ofFiles files').wal newer ∧
      replayed.validBytes = (files'.wal.getD []).length ∧ replayed.validBytes ≠ 0

namespace DownInv

variable {files : Files} {log older newer : List StateDelta} {base : MemoryState}

section

variable (h : DownInv jsony files log base older newer)

include h

/-- The records of both logs lead from the checkpoint to the end of the history. -/
lemma replays {ws ww : List StateDelta} (hws : Logged ws older) (hww : Logged ww newer) :
    ∃ c u y, loadCheckpoint jsony files.checkpoint = .ok c ∧ replayAll c ws = .ok u ∧
      replayAll u ww = .ok y ∧ SameDelivery (applyAll base (older ++ newer)) y ∧ StoreInv y := by
  obtain ⟨covered, later, heq, c, hload, hsame, hinv⟩ := h.checkpoint
  have hlog : Logged (ws ++ ww) (covered ++ later) := heq ▸ hws.append hww
  have hhistory : History base (covered ++ later) := heq ▸ h.history
  obtain ⟨y, hreplay, hy, hyinv⟩ := replay_recovers hlog hhistory.base_inv hhistory.admitted
    hhistory.left.ids hsame hinv
  rw [replayAll_append, bind_eq_ok] at hreplay
  obtain ⟨u, hu, hy'⟩ := hreplay
  exact ⟨c, u, y, hload, hu, hy', heq ▸ hy, hyinv⟩

lemma recoverSealed :
    ∃ replayed files', recoverSealed jsony files = .ok (replayed, files') ∧
    files'.checkpoint = files.checkpoint ∧ files'.wal = files.wal ∧
      SealedLive jsony (Disk.ofFiles files').sealedWal older ∧
      (∃ c ws, loadCheckpoint jsony files.checkpoint = .ok c ∧ Logged ws older ∧
        replayAll c ws = .ok replayed.state) ∧
      ∀ ww, Logged ww newer → ∃ y, replayAll replayed.state ww = .ok y ∧
      SameDelivery (applyAll base (older ++ newer)) y ∧ StoreInv y := by
  obtain ⟨ws, hfile, hws⟩ := h.sealedWal
  obtain ⟨ww, -, hww⟩ := h.wal
  obtain ⟨c, u, -, hload, hu, -⟩ := h.replays hws hww
  obtain ⟨replayed, hok, rfl, hholds, heq, -⟩ := replayWal_of_fileHolds sealedWalPath hfile hu
  refine ⟨replayed, { files with sealedWal := replayed.file }, ?_, rfl, rfl, ⟨ws, hws, ?_⟩,
    ⟨c, ws, hload, hws, hu⟩, ?_⟩
  · unfold Chatt.recoverSealed
    simp only [hload, hok]
  · unfold Disk.ofFiles
    rw [heq]
    cases hsealed : files.sealedWal with
    | none => rw [hsealed] at hfile; exact hfile
    | some bytes =>
      rw [hsealed] at hfile
      exact LiveLog.ofBytes hfile.1
  · intro ww hww
    obtain ⟨c', u', y, hload', hu', hy, hsame, hinv⟩ := h.replays hws hww
    rw [hload] at hload'
    cases hload'
    rw [hu] at hu'
    cases hu'
    exact ⟨y, hy, hsame, hinv⟩

lemma recoverWal :
    ∃ replayed files', recoverWal jsony files = .ok (replayed, files') ∧
    Recovered jsony files files' replayed base older newer := by
  obtain ⟨first, files₁, hfirst, hcheckpoint, hwal₁, hsealed,
    ⟨c, ws, hload, hws, hfirstReplay⟩, hrest⟩ := h.recoverSealed
  obtain ⟨ww, hactive, hww⟩ := h.wal
  obtain ⟨y, hy, hsame, hinv⟩ := hrest ww hww
  obtain ⟨replayed, hok, rfl, hwal⟩ := replayWal_of_activeHolds walPath hactive hy
  refine ⟨{ replayed with records := first.records + replayed.records }, 
    { files₁ with wal := replayed.file }, ?_, hsame, hinv,
    ⟨c, ws ++ ww, hload, hws.append hww, ?_⟩, hcheckpoint, hsealed, ?_⟩
  · unfold Chatt.recoverWal
    rw [← hwal₁] at hok
    simp only [hfirst, hok]
  · rw [replayAll_append, hfirstReplay]
    exact hy
  · rcases hwal with ⟨hzero, rfl, hempty⟩ | ⟨hvalid, hfile, hfit⟩
    · exact Or.inl ⟨hzero, hww, hempty⟩
    refine Or.inr ⟨⟨.ofBytes (walOf jsony ww), ww, ?_, LiveLog.ofBytes hfit, hww⟩, ?_, ?_⟩
    · unfold Disk.ofFiles
      simp only [hfile, map_some]
    · simp only [hfile, getD_some]
      exact hvalid
    · show replayed.validBytes ≠ 0
      rw [hvalid, length_walOf]
      simp [walHeaderBytes]

/-- The cursors of the recovered state are the expected ones, moved on. -/
lemma moved {files' : Files} {replayed : Replayed}
    (hrecovered : Recovered jsony files files' replayed base older newer)
    {κ ν : Type} (m : CursorMap κ ν) (k : κ) :
    m.Moved (m.expected log k) (m.read replayed.state k) := by
  obtain ⟨c, records, hload, hlogged, hreplay⟩ := hrecovered.replay
  rw [m.read_replayAll hreplay]
  exact h.cursors m c hload records hlogged k

end

end DownInv

end Chatt
