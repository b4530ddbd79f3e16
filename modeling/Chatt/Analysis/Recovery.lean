import Chatt.Analysis.StorageRun

/-!
# Every crash is recovered from

The invariant of the whole system over its runs, and the run in which a reused event id makes
a data directory unreadable.
-/

namespace Chatt

open Chatt.Lib Option

variable {jsony : Jsony} {a : StorageAction}

/-! ## Steps -/

lemma Process.next_inv {disk : Disk} {p : Process} {log : List StateDelta} {y : Storage}
    (h : Up jsony disk p log) (hissued : ∀ op, a = .plan op → op.Issued p.store.state)
    (hfresh : ∀ op, a = .plan op → ∀ id ∈ p.newIds op,
      id ∉ logLabels MlsDeliveryEvent.eventId? (disk.files.records jsony))
    (hnext : p.next jsony disk log a = some y) : StorageInv jsony y := by
  cases a
  all_goals
    simp only [Process.next, ite_none_left_eq_some, not_not, some.injEq, reduceCtorEq] at hnext
  case plan op =>
    obtain ⟨hidle, rfl⟩ := hnext
    exact h.plan hidle (hissued op rfl) (hfresh op rfl)
  case sync =>
    split at hnext
    next d hworker =>
      cases hnext
      exact h.sync hworker
    · cases hnext
  case failAppend =>
    split at hnext
    next d durable hworker =>
      cases hnext
      exact h.failAppend hworker
    · cases hnext
  case apply =>
    split at hnext
    next d hworker =>
      cases hnext
      exact h.applyUnsynced hworker
    next d hworker =>
      cases hnext
      exact h.applyAppended hworker
    · cases hnext
  case acknowledge | acknowledgeWelcome =>
    split at hnext
    · cases hnext
      exact h.readHandle rfl trivial
    · cases hnext
      exact h.readHandle rfl trivial
    · cases hnext
  case sealWal =>
    obtain ⟨hidle, hnext⟩ := hnext
    split_ifs at hnext with hsealed
    · cases hnext
      exact h
    · cases hnext
      exact h.sealWal hidle (not_isSome_iff_eq_none.mp hsealed)
  case createWal =>
    obtain ⟨hworker, rfl⟩ := hnext
    exact h.createWal hworker
  case finishSeal =>
    obtain ⟨hworker, rfl⟩ := hnext
    exact h.finishSeal hworker
  case startSnapshot =>
    obtain ⟨hbusy, hnext⟩ := hnext
    split at hnext
    · cases hnext
    next bytes hbytes =>
    cases hnext
    have hsealed : disk.sealedWal.isSome := by
      have hnone := (not_or.mp hbusy).2
      rw [isNone_iff_eq_none] at hnone
      exact isSome_iff_ne_none.mpr hnone
    exact h.startSnapshot hsealed hbytes
  case writeSnapshot =>
    split at hnext
    next bytes retired hsnapshot =>
      cases hnext
      exact h.writeSnapshot hsnapshot
    · cases hnext
  case retireSealed =>
    split at hnext
    next retired hsnapshot =>
      cases hnext
      exact h.retireSealed hsnapshot
    · cases hnext
  case failSnapshot =>
    cases hnext
    exact h.failSnapshot
  case compact =>
    obtain ⟨hidle, rfl⟩ := hnext
    exact h.compact hidle
  case failFlush =>
    obtain ⟨hworker, rfl⟩ := hnext
    exact h.failFlush hworker
  case writeCompaction =>
    obtain ⟨hbusy, hnext⟩ := hnext
    split at hnext
    · cases hnext
    next bytes hbytes =>
    cases hnext
    rw [not_or, not_or, not_not, not_not, not_isSome_iff_eq_none] at hbusy
    exact h.writeCompaction hbusy.1 hbusy.2.1 hbusy.2.2 hbytes
  case resetWal =>
    obtain ⟨hworker, rfl⟩ := hnext
    exact h.resetWal hworker
  case finishCompaction =>
    obtain ⟨hworker, rfl⟩ := hnext
    exact h.finishCompaction hworker
  case crash sealedCut walCut =>
    split at hnext
    · cases hnext
    next files hsurvive =>
    cases hnext
    show Down jsony (Disk.ofFiles files).files _
    rw [Disk.files_ofFiles]
    exact h.crash hsurvive

lemma Storage.start_inv {x y : Storage} (h : Down jsony x.disk.files x.log)
    (hprocess : x.process = none) (hstart : x.start jsony a = some y) : StorageInv jsony y := by
  unfold Storage.start at hstart
  split at hstart
  · -- the start ends after the sealed log
    split at hstart
    · cases hstart
    rename_i replayed files hok
    cases hstart
    unfold StorageInv
    simp only [hprocess, Disk.files_ofFiles]
    exact h.interruptSealed hok
  · -- the start ends after the active log
    rename_i written
    split at hstart
    · cases hstart
    rename_i replayed files hok
    cases hstart
    unfold StorageInv
    simp only [hprocess, Disk.files_ofFiles]
    exact h.interruptWal hok written
  · obtain ⟨opened, hok, -, -, -, hup⟩ := h.openFiles
    simp only [hok, some.injEq] at hstart
    subst hstart
    exact hup
  · cases hstart

/-- The condition on the operations of a run. -/
def Storage.Fresh (jsony : Jsony) (x : Storage) (a : StorageAction) : Prop :=
  x.Issued a ∧ x.FreshIds jsony a

instance decidableFresh (jsony : Jsony) (x : Storage) (a : StorageAction) :
    Decidable (x.Fresh jsony a) :=
  inferInstanceAs (Decidable (x.Issued a ∧ x.FreshIds jsony a))

lemma StorageInv.step {x y : Storage} (h : StorageInv jsony x) (hfresh : x.Fresh jsony a)
    (hnext : x.next jsony a = some y) : StorageInv jsony y := by
  unfold Storage.next at hnext
  unfold StorageInv at h
  split at hnext
  · rename_i p hprocess
    simp only [hprocess] at h
    refine Process.next_inv h ?_ ?_ hnext
    · rintro op rfl
      exact hfresh.1 p hprocess
    · rintro op rfl
      exact hfresh.2 p hprocess
  · rename_i hprocess
    simp only [hprocess] at h
    exact Storage.start_inv h hprocess hnext

/-! ## Runs -/

/-- A durable operation of the worker from its plan to its application. -/
def durably (op : StoreOp) : List StorageAction := [.plan op, .sync, .apply]

/-- The only device of room 7 sends an application event under the given id. -/
def sampleSend (id : Fin 256) : StoreOp :=
  .appendApplication 7 (sampleDevice 1) 1 (ByteArr.replicate 16 id) [] [1] 4

/-- A room is created, an event is sent, acknowledged and pruned, and a second event is sent
under the given id.  The process crashes after a compaction has written its checkpoint. -/
def sampleCompaction (id : Fin 256) : List StorageAction :=
  [.openStore] ++
  durably (.createRoom GlobalRecord.initial (sampleRoom 7 1 1 [sampleDevice 1])
  (.commit 1 0 1 [] [9]) none) ++
  durably (sampleSend 3) ++ [.acknowledge 7 (sampleDevice 1) 2 5] ++ durably (.cleanup 6 10) ++
  durably (sampleSend id) ++
  [.compact, .writeCompaction, .crash ⟨false, 0⟩ ⟨false, 10000⟩]

end Chatt
