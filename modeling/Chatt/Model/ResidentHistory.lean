import Chatt.Model.RoomHistory

/-!
# The resident history in its buffer

`ResidentHistory` (crates/server/src/room_store.rs:530-612, 752-792): the records of a room in one
byte buffer, with the place of each.  `append_message` appends the record that `write_message`
writes.
-/

namespace Chatt.RoomHistory

structure HistoryEntry where
  messageId : ℕ
  start : ℕ
  len : ℕ

structure ResidentHistory where
  bytes : Bytes := []
  entries : List HistoryEntry := []
  firstEntry : ℕ := 0
  firstByte : ℕ := 0

namespace ResidentHistory

variable (history : ResidentHistory)

/-- `entries()`, whose length is `len()` -/
def live : List HistoryEntry := history.entries.drop history.firstEntry

def record (entry : HistoryEntry) : Bytes := (history.bytes.drop entry.start).take entry.len

def appendKnownRecord (messageId : ℕ) (record : Bytes) : ResidentHistory :=
  { history with
    bytes := history.bytes ++ record
    entries := history.entries ++ [⟨messageId, history.bytes.length, record.length⟩] }

def rollbackAppend (start : ℕ) : ResidentHistory :=
  { history with bytes := history.bytes.take start, entries := history.entries.dropLast }

def extend (other : ResidentHistory) : ResidentHistory :=
  other.live.foldl (fun history entry =>
    history.appendKnownRecord entry.messageId (other.record entry))
    history

def compactIfWorthwhile : ResidentHistory :=
  let deadBytes := history.firstByte
  let deadEntries := history.firstEntry
  if deadEntries = 0 then history
  else if deadEntries = history.entries.length then {}
  else if (64 * 1024 ≤ deadBytes ∧ history.bytes.length ≤ deadBytes * 2) ∨
      (1024 ≤ deadEntries ∧ history.entries.length ≤ deadEntries * 2) then
    { bytes := history.bytes.drop deadBytes
      entries := history.live.map fun entry => { entry with start := entry.start - deadBytes } }
  else history

/-- The loop of `trim_to_limit`; the list is `entries()`. -/
def dropOldest (limit : ℕ) : List HistoryEntry → ResidentHistory → ResidentHistory
  | entry :: rest, history =>
    if limit < (entry :: rest).length then
      dropOldest limit rest
        { history with firstByte := entry.start + entry.len, firstEntry := history.firstEntry + 1 }
    else history
  | [], history => history

def trimToLimit (limit : ℕ) : ResidentHistory :=
  (dropOldest limit history.live history).compactIfWorthwhile

/-- The records as they are read back. -/
def contents : List HistoryRecord :=
  history.live.map fun entry => ⟨entry.messageId, history.record entry⟩

end ResidentHistory

end Chatt.RoomHistory
