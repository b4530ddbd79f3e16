import Chatt.Model.ResidentHistory

/-!
# The resident history is a queue of records

The live entries tile the buffer from `first_byte` to its end.  Every operation keeps that and does
to
the records what the model of a room does to its list of records.
-/

namespace Chatt.RoomHistory

open List

inductive HistoryStep
  | append (record : HistoryRecord)
  | rollback
  | extend (other : ResidentHistory)
  | trim (limit : ℕ)
  | compact

def ResidentHistory.next (history : ResidentHistory) : HistoryStep → ResidentHistory
  | .append record => history.appendKnownRecord record.messageId record.bytes
  -- `rollback_append` is given the start of the last entry (its assertion); without an entry it is
  -- not called
  | .rollback => history.live.getLast?.elim history fun entry => history.rollbackAppend entry.start
  | .extend other => history.extend other
  | .trim limit => history.trimToLimit limit
  | .compact => history.compactIfWorthwhile

/-- The same step of a queue. -/
def queueNext (queue : List HistoryRecord) : HistoryStep → List HistoryRecord
  | .append record => queue ++ [record]
  | .extend other => queue ++ other.contents
  | .rollback => queue.dropLast
  | .trim limit => trimToLimit limit queue
  | .compact => queue

/-- The entries of records that lie one after another from `start` on. -/
def place (start : ℕ) : List HistoryRecord → List HistoryEntry
  | [] => []
  | record :: rest =>
    ⟨record.messageId, start, record.bytes.length⟩ :: place (start + record.bytes.length) rest

/-- The live entries tile the buffer from `first_byte` to its end, and the bytes are the records'.
-/
structure Holds (history : ResidentHistory) (records : List HistoryRecord) : Prop where
  first_le : history.firstEntry ≤ history.entries.length
  live_eq : history.live = place history.firstByte records
  bytes_eq : ∃ dead : Bytes, dead.length = history.firstByte ∧
    history.bytes = dead ++ records.flatMap (·.bytes)

variable {history : ResidentHistory} {records : List HistoryRecord}

lemma place_concat (start : ℕ) (records : List HistoryRecord) (record : HistoryRecord) :
    place start (records ++ [record]) = place start records ++
      [⟨record.messageId, start + (records.flatMap (·.bytes)).length, record.bytes.length⟩] := by
  induction records generalizing start with
  | nil => rfl
  | cons first rest ih =>
    rw [cons_append, place, place, ih, cons_append, flatMap_cons, length_append, Nat.add_assoc]

lemma length_place (start : ℕ) (records : List HistoryRecord) :
    (place start records).length = records.length := by
  induction records generalizing start with
  | nil => rfl
  | cons first rest ih => rw [place, length_cons, ih, length_cons]

/-- The places in a buffer that has lost its first `dead` bytes. -/
lemma map_place {start dead : ℕ} (records : List HistoryRecord) (h : dead ≤ start) :
    (place start records).map (fun entry => { entry with start := entry.start - dead }) =
      place (start - dead) records := by
  induction records generalizing start with
  | nil => rfl
  | cons first rest ih => rw [place, map_cons, ih (by omega), Nat.sub_add_comm h, place]

namespace Holds

lemma contents (h : Holds history records) : history.contents = records := by
  obtain ⟨-, hlive, dead, hdead, hbytes⟩ := h
  unfold ResidentHistory.contents ResidentHistory.record
  rw [hlive, hbytes, ← hdead]
  clear hlive hbytes hdead
  induction records generalizing dead with
  | nil => rfl
  | cons first rest ih =>
    have hrest := ih (dead ++ first.bytes)
    rw [append_assoc, length_append] at hrest
    rw [place, map_cons, flatMap_cons, hrest, drop_left, take_left]

lemma append (h : Holds history records) (record : HistoryRecord) :
    Holds (history.appendKnownRecord record.messageId record.bytes) (records ++ [record]) := by
  obtain ⟨hfirst, hlive, dead, hdead, hbytes⟩ := h
  refine ⟨hfirst.trans (by simp [ResidentHistory.appendKnownRecord]), ?_, dead, hdead, ?_⟩
  · refine (drop_append_of_le_length hfirst).trans ?_
    rw [place_concat, hbytes, length_append, hdead]
    exact congrArg (· ++ _) hlive
  · simp [ResidentHistory.appendKnownRecord, hbytes]

lemma rollback (h : Holds history records) : Holds (history.next .rollback) records.dropLast := by
  rw [ResidentHistory.next]
  rcases eq_nil_or_concat' records with rfl | ⟨older, last, rfl⟩
  · rw [h.live_eq]
    exact h
  obtain ⟨-, hlive, dead, hdead, hbytes⟩ := h
  rw [place_concat] at hlive
  have hcount := congrArg length hlive
  rw [ResidentHistory.live, length_drop, length_append, length_singleton] at hcount
  rw [hlive, getLast?_concat, dropLast_concat]
  refine ⟨?_, ?_, dead, hdead, ?_⟩
  · show history.firstEntry ≤ history.entries.dropLast.length
    rw [length_dropLast]
    omega
  · show history.entries.dropLast.drop history.firstEntry = place history.firstByte older
    rw [← dropLast_drop_eq_drop_dropLast, ← ResidentHistory.live, hlive, dropLast_concat]
  · show history.bytes.take (history.firstByte + (older.flatMap (·.bytes)).length) = _
    rw [hbytes, flatMap_append, ← append_assoc, ← hdead, ← length_append, take_left]

lemma extend (h : Holds history records) (other : ResidentHistory) :
    Holds (history.extend other) (records ++ other.contents) := by
  unfold ResidentHistory.extend ResidentHistory.contents
  induction other.live generalizing history records with
  | nil => rwa [map_nil, append_nil]
  | cons entry rest ih =>
    have hrest := ih (h.append ⟨entry.messageId, other.record entry⟩)
    rwa [append_assoc] at hrest

lemma compact (h : Holds history records) : Holds history.compactIfWorthwhile records := by
  obtain ⟨hfirst, hlive, dead, hdead, hbytes⟩ := h
  unfold ResidentHistory.compactIfWorthwhile
  dsimp only
  split_ifs with _ hall
  · exact ⟨hfirst, hlive, dead, hdead, hbytes⟩
  · -- no entry is live
    have hnone : records = [] := by
      rw [ResidentHistory.live, hall, drop_length] at hlive
      cases records with
      | nil => rfl
      | cons first rest => cases hlive
    rw [hnone]
    exact ⟨le_rfl, rfl, [], rfl, rfl⟩
  · refine ⟨Nat.zero_le _, ?_, [], rfl, ?_⟩
    · rw [hlive, map_place records le_rfl, Nat.sub_self]
      rfl
    · rw [hbytes, ← hdead, drop_left, nil_append]
  · exact ⟨hfirst, hlive, dead, hdead, hbytes⟩

lemma dropOldest (h : Holds history records) (limit : ℕ) :
    Holds (ResidentHistory.dropOldest limit history.live history) (trimToLimit limit records) := by
  induction records generalizing history with
  | nil =>
    rw [h.live_eq, place, ResidentHistory.dropOldest, trimToLimit, drop_nil]
    exact h
  | cons first rest ih =>
    obtain ⟨hfirst, hlive, dead, hdead, hbytes⟩ := h
    rw [hlive, place, ResidentHistory.dropOldest, length_cons, length_place,
      trimToLimit, length_cons]
    split_ifs with hlimit
    · have hrest : Holds { history with
          firstByte := history.firstByte + first.bytes.length
          firstEntry := history.firstEntry + 1 } rest := by
        refine ⟨?_, ?_, dead ++ first.bytes, by rw [length_append, hdead], by simp [hbytes]⟩
        · have hcount := congrArg length hlive
          rw [ResidentHistory.live, length_drop, place, length_cons] at hcount
          show history.firstEntry + 1 ≤ history.entries.length
          omega
        · exact (drop_drop ..).symm.trans (congrArg (drop 1) hlive)
      have htrim := ih hrest
      rw [hrest.live_eq] at htrim
      rwa [Nat.succ_sub (by omega), drop_succ_cons]
    · rw [Nat.sub_eq_zero_of_le (by omega)]
      exact ⟨hfirst, hlive, dead, hdead, hbytes⟩

lemma next (h : Holds history records) (step : HistoryStep) :
    Holds (history.next step) (queueNext records step) := by
  cases step with
  | append record => exact h.append record
  | rollback => exact h.rollback
  | extend other => exact h.extend other
  | trim limit => exact (h.dropOldest limit).compact
  | compact => exact h.compact

end Holds

/-- After any steps the history tiles its buffer and reads back as the queue. -/
theorem resident_history_is_queue (steps : List HistoryStep) :
    Holds (steps.foldl ResidentHistory.next {}) (steps.foldl queueNext []) ∧
      (steps.foldl ResidentHistory.next {}).contents = steps.foldl queueNext [] := by
  have run : Holds (steps.foldl ResidentHistory.next {}) (steps.foldl queueNext []) := by
    induction steps using reverseRecOn with
    | nil => exact ⟨le_rfl, rfl, [], rfl, rfl⟩
    | append_singleton steps step ih =>
      rw [foldl_concat, foldl_concat]
      exact ih.next step
  exact ⟨run, run.contents⟩

end Chatt.RoomHistory
