import Chatt.Analysis.RoomHistory

/-!
# The log of a room while it is written

`LogInv log all trimmed`: the room has retained `all`, of which the window no longer holds
`trimmed`.  What is trimmed is on disk, because the window is trimmed only when the event loop
has heard of every write.
-/

namespace Chatt.RoomHistory

open List

/-- The completion of one write. -/
def EventOk (active : List HistoryRecord) (record : HistoryRecord) (event : RoomLogEvent) : Prop :=
  event = ⟨active ++ [record], none⟩ ∨
    ∃ firstId, activeFirstId (active ++ [record]) = some firstId ∧
    event = ⟨[], some ⟨firstId, active ++ [record]⟩⟩

/-- The completions from the active log the event loop knows of to the one the writer has, and
the records they are of. -/
def EventsOk (written : List HistoryRecord) :
    List HistoryRecord → List RoomLogEvent → List HistoryRecord → Prop
  | active, [], unheard => unheard = [] ∧ written = active
  | active, event :: events, unheard =>
    ∃ record rest, unheard = record :: rest ∧ EventOk active record event ∧
      EventsOk written event.active events rest

lemma EventsOk.snoc {written active unheard : List HistoryRecord} {events : List RoomLogEvent}
      (h : EventsOk written active events unheard) {record : HistoryRecord}
    {event : RoomLogEvent} (hevent : EventOk written record event) :
    EventsOk event.active active (events ++ [event]) (unheard ++ [record]) := by
  induction events generalizing active unheard with
  | nil =>
    obtain ⟨rfl, rfl⟩ := h
    exact ⟨record, [], rfl, hevent, rfl, rfl⟩
  | cons first rest ih =>
    obtain ⟨head, tail, rfl, hfirst, hrest⟩ := h
    exact ⟨head, tail ++ [record], rfl, hfirst, ih hrest⟩

structure LogInv (log : DurableLog) (all trimmed : List HistoryRecord) : Prop where
  ascending : Ascending all
  bounded : ∀ record ∈ all, record.messageId < u64Max
  segments : ∀ segment ∈ log.segments, segment.records.head?.map HistoryRecord.messageId =
    some segment.firstId
  window : all = trimmed ++ log.history
  on_disk : trimmed.length ≤ log.durable.length
  pending : ∃ unheard, all = log.durable ++ (unheard ++ log.writes) ∧
    EventsOk log.written log.active log.events unheard ∧
    log.pendingLogWrites = unheard.length + log.writes.length
  fits : ∀ record ∈ log.writes, record.bytes.length ≤ maxLogRecordBytes

namespace LogInv

variable {log log' : DurableLog} {all trimmed : List HistoryRecord} {record : HistoryRecord}
  {tuning : StoreTuning}

section

variable (h : LogInv log all trimmed)

include h

lemma durable_isPrefix : log.durable <+: all := by
  obtain ⟨unheard, hall, -⟩ := h.pending
  exact ⟨_, hall.symm⟩

lemma history_ascending : Ascending log.history := by
  have hascending := h.ascending
  rw [h.window] at hascending
  exact (pairwise_append.mp hascending).2.1

lemma history_bounded : ∀ record ∈ log.history, record.messageId < u64Max := by
  intro record hmem
  apply h.bounded
  rw [h.window]
  exact mem_append_right _ hmem

lemma filesOk : FilesOk log where
  ascending := h.ascending.sublist h.durable_isPrefix.sublist
  segments := h.segments

/-- What was trimmed is the first part of what is on disk. -/
lemma exists_durable :
    ∃ kept waiting, log.durable = trimmed ++ kept ∧ log.history = kept ++ waiting ∧
    all = log.durable ++ waiting := by
  obtain ⟨unheard, hall, -⟩ := h.pending
  have hsame : trimmed ++ log.history = log.durable ++ (unheard ++ log.writes) :=
    h.window.symm.trans hall
  obtain ⟨kept, hkept⟩ : trimmed <+: log.durable :=
    List.prefix_of_prefix_length_le ⟨_, hsame⟩ ⟨_, rfl⟩ h.on_disk
  refine ⟨kept, unheard ++ log.writes, hkept.symm, ?_, hall⟩
  rw [← hkept, append_assoc] at hsame
  exact append_cancel_left hsame

lemma retained_eq : log.retained = all := by
  obtain ⟨kept, waiting, hdurable, hhistory, hall⟩ := h.exists_durable
  have hnodup := h.ascending.nodup
  rw [hall] at hnodup
  have hdisjoint := (nodup_append.mp hnodup).2.2
  have hkept : kept.filter (fun record => record ∉ log.durable) = [] := by
    rw [filter_eq_nil_iff]
    intro record hmem
    rw [hdurable]
    simp [hmem]
  have hwaiting : waiting.filter (fun record => record ∉ log.durable) = waiting := by
    rw [filter_eq_self]
    intro record hmem
    rw [decide_eq_true_eq]
    exact fun hdisk => hdisjoint record hdisk record hmem rfl
  rw [DurableLog.retained, hhistory, filter_append, hkept, hwaiting, nil_append, hall]

end

/-! ## Steps -/

lemma of_opened (h : log.Opened) : ∃ trimmed, LogInv log log.durable trimmed := by
  obtain ⟨trimmed, htrimmed⟩ := h.window
  refine ⟨trimmed, h.ascending, h.bounded, h.segments, htrimmed.symm, ?_, ?_, ?_⟩
  · rw [← htrimmed, length_append]
    omega
  · refine ⟨[], ?_, ?_, ?_⟩
    · rw [h.idle.1, append_nil, append_nil]
    · rw [h.idle.2.1]
      exact ⟨rfl, h.written⟩
    · rw [h.idle.1, h.idle.2.2]
      rfl
  · rw [h.idle.1]
    exact fun _ hmem => absurd hmem not_mem_nil

section

variable (h : LogInv log all trimmed)

include h

lemma append (hnew : ∀ other ∈ all, other.messageId < record.messageId)
      (hbound : record.messageId < u64Max) (hfits : record.bytes.length ≤ maxLogRecordBytes) :
    LogInv (log.append record) (all ++ [record]) trimmed where
  ascending := by
    apply pairwise_append.mpr
    refine ⟨h.ascending, pairwise_singleton _ _, fun other hother last hlast => ?_⟩
    rw [mem_singleton.mp hlast]
    exact hnew other hother
  bounded := by exact forall_mem_append.mpr ⟨h.bounded, forall_mem_singleton.mpr hbound⟩
  segments := h.segments
  window := by
    rw [h.window, append_assoc]
    rfl
  on_disk := h.on_disk
  pending := by
    obtain ⟨unheard, hall, hevents, hcount⟩ := h.pending
    refine ⟨unheard, ?_, hevents, ?_⟩
    · rw [hall]
      simp [DurableLog.append, DurableLog.durable]
    · simp only [DurableLog.append, hcount, length_append, length_singleton]
      omega
  fits := by exact forall_mem_append.mpr ⟨h.fits, forall_mem_singleton.mpr hfits⟩

/-- A write reaches the active log, which may be rotated after it. -/
lemma write_cases (hwrite : log.write tuning = some log') :
    ∃ record writes event, log.writes = record :: writes ∧ EventOk log.written record event ∧
      log' = { log with writes, written := event.active, events := log.events ++ [event] } := by
  unfold DurableLog.write at hwrite
  split at hwrite
  · cases hwrite
  next record writes hwrites =>
  have hfits : ¬ record.bytes.length > maxLogRecordBytes :=
    not_lt.mpr (h.fits record (hwrites ▸ mem_cons_self))
  simp only [if_neg hfits] at hwrite
  split at hwrite
  next firstId hfirst =>
    split_ifs at hwrite
    · cases hwrite
      exact ⟨record, writes, _, hwrites, Or.inr ⟨firstId, hfirst, rfl⟩, rfl⟩
    · cases hwrite
      exact ⟨record, writes, _, hwrites, Or.inl rfl, rfl⟩
  next hfirst => simp [activeFirstId] at hfirst

lemma write (hwrite : log.write tuning = some log') :
    LogInv log' all trimmed ∧ log'.durable = log.durable := by
  obtain ⟨record, writes, event, hwrites, hevent, rfl⟩ := h.write_cases hwrite
  refine ⟨{ h with pending := ?_, fits := ?_ }, rfl⟩
  · obtain ⟨unheard, hall, hevents, hcount⟩ := h.pending
    refine ⟨unheard ++ [record], ?_, hevents.snoc hevent, ?_⟩
    · rw [hall, hwrites]
      simp [DurableLog.durable]
    · rw [hwrites] at hcount
      simp only [hcount, length_append, length_cons, length_nil]
      omega
  · intro other hother
    exact h.fits other (hwrites ▸ mem_cons_of_mem _ hother)

/-- The event loop hears of a write: it is on disk, and the window is trimmed if it was the
last. -/
lemma drain (hdrain : log.drainLogEvent tuning = some log') :
    ∃ trimmed', LogInv log' all trimmed' ∧ log.durable <+: log'.durable ∧
    (trimmed' = trimmed ∨ log'.durable = all) := by
  unfold DurableLog.drainLogEvent at hdrain
  obtain ⟨unheard, hall, hevents, hcount⟩ := h.pending
  split at hdrain
  · cases hdrain
  next event events hqueue =>
  rw [hqueue] at hevents
  cases hdrain
  obtain ⟨record, rest, rfl, hevent, hevents⟩ := hevents
  have hdurable : (log.segments ++ event.rotated.toList).flatMap Segment.records ++ event.active =
      log.durable ++ [record] := by
    rcases hevent with rfl | ⟨firstId, -, rfl⟩ <;> simp [DurableLog.durable]
  have hsegments : ∀ segment ∈ log.segments ++ event.rotated.toList,
      segment.records.head?.map HistoryRecord.messageId = some segment.firstId := by
    intro segment hmem
    rcases mem_append.mp hmem with hmem | hmem
    · exact h.segments segment hmem
    rcases hevent with rfl | ⟨firstId, hfirst, rfl⟩
    · cases hmem
    · rw [Option.toList_some, mem_singleton] at hmem
      rw [hmem]
      exact hfirst
  have hpending : log.pendingLogWrites - 1 = rest.length + log.writes.length := by
    rw [hcount, length_cons]
    omega
  have hlength := h.on_disk
  -- the part of the window that is dropped is on disk, because then everything is
  obtain ⟨dropped, hdropped⟩ : ∃ dropped, log.history = dropped ++
      (if log.pendingLogWrites - 1 = 0 then trimToLimit tuning.maxResidentMessages log.history
        else log.history) ∧ (dropped = [] ∨ log.pendingLogWrites - 1 = 0) := by
    split_ifs with hzero
    · obtain ⟨front, hfront⟩ := exists_trimToLimit tuning.maxResidentMessages log.history
      exact ⟨front, hfront, Or.inr hzero⟩
    · exact ⟨[], rfl, Or.inl rfl⟩
  have hwhole : log.pendingLogWrites - 1 = 0 → log.durable ++ [record] = all := by
    intro hzero
    have hrest : rest = [] := length_eq_zero_iff.mp (by omega)
    have hwrites : log.writes = [] := length_eq_zero_iff.mp (by omega)
    rw [hall, hrest, hwrites, append_nil]
  refine ⟨trimmed ++ dropped, ?_, ?_, ?_⟩
  · constructor
    case ascending => exact h.ascending
    case bounded => exact h.bounded
    case segments => exact hsegments
    case window => rw [append_assoc, ← hdropped.1, ← h.window]
    case on_disk =>
      show (trimmed ++ dropped).length ≤
        ((log.segments ++ event.rotated.toList).flatMap Segment.records ++ event.active).length
      rw [hdurable]
      rcases hdropped.2 with rfl | hzero
      · rw [append_nil, length_append]
        omega
      have hsplit := congrArg List.length h.window
      have hhistory := congrArg List.length hdropped.1
      simp only [length_append] at hsplit hhistory ⊢
      have hall' := congrArg List.length (hwhole hzero)
      simp only [length_append] at hall'
      omega
    case pending =>
      refine ⟨rest, ?_, hevents, hpending⟩
      show all = (log.segments ++ event.rotated.toList).flatMap Segment.records ++ event.active ++
        (rest ++ log.writes)
      rw [hdurable, hall]
      simp
    case fits => exact h.fits
  · exact ⟨[record], hdurable.symm⟩
  · rcases hdropped.2 with rfl | hzero
    · exact Or.inl (append_nil _)
    · exact Or.inr (hdurable.trans (hwhole hzero))

end

end LogInv

end Chatt.RoomHistory
