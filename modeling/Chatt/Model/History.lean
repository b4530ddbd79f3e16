import Chatt.Model.Identity

/-!
# History records and chunks

The binary form of chat history (crates/rpc/src/history.rs:1-319).  A `str` is a byte string that
`str::from_utf8` accepts; what that function reports of other byte strings is a parameter.  The
reading cursor is the bytes that are left, so the `raw` slice of a record is the part of the
bytes it started with that is no longer left.
-/

namespace Chatt.History

open Lib

/-- The error text of `str::from_utf8`, `none` for UTF-8. -/
abbrev Utf8Check := Bytes → Option String

/-- A `str`. -/
def Str (utf8 : Utf8Check) := {b : Bytes // utf8 b = none}

instance decidableEqStr (utf8 : Utf8Check) : DecidableEq (Str utf8) :=
  inferInstanceAs (DecidableEq {b : Bytes // utf8 b = none})

variable {utf8 : Utf8Check}

def edited : Byte := 1

def deleted : Byte := 2

/-- `MessageFlags::is_valid`: no unknown bits, and not both bits. -/
def flagsValid (flags : Byte) : Bool := flags.val &&& 252 = 0 && flags.val ≠ 3

structure ChatMessage (utf8 : Utf8Check) where
  messageId : UInt64
  roomId : UInt32
  sender : UInt64
  senderName : Str utf8
  timestampMs : UInt64
  body : Str utf8
  fileTransferId : Option UInt64
  flags : Byte
  target : Option UInt64
  deriving DecidableEq

/-- A record as it was read: its message, and the bytes it was read from. -/
structure HistoryMessageRef (utf8 : Utf8Check) where
  message : ChatMessage utf8
  raw : Bytes
  deriving DecidableEq

structure HistoryChunkRef (utf8 : Utf8Check) where
  roomId : UInt32
  before : Option UInt64
  messages : List (HistoryMessageRef utf8)
  atStart : Bool
  complete : Bool
  deriving DecidableEq

def recordVersion : Byte := 4

def recordBaseBytes : ℕ := 1 + 8 + 4 + 8 + 8 + 1 + 1 + 8 + 4 + 4

def chunkMagic : Bytes := ascii "CHH1"

def chunkFlagAtStart : ℕ := 1

def chunkFlagComplete : ℕ := 2

def chunkFlagHasBefore : ℕ := 4

/-! ## Writing -/

def encodedMessageLen (value : ChatMessage utf8) : ℕ :=
  let target := if value.target.isSome then 8 else 0
  recordBaseBytes + target + value.senderName.val.length + value.body.val.length

/-- The source panics on a length that does not fit `u32`. -/
def writeStr (value : Str utf8) : Bytes := putWord (UInt32.ofNat value.val.length) ++ value.val

def writeTarget : Option UInt64 → Bytes
  | some target => putWord target
  | none => []

def writeFileTransferId : Option UInt64 → Bytes
  | some fileTransferId => 1 :: putWord fileTransferId
  | none => 0 :: putWord (0 : UInt64)

def writeMessage (value : ChatMessage utf8) : Bytes :=
  recordVersion :: (putWord value.messageId ++ putWord value.roomId ++ putWord value.sender ++
    putWord value.timestampMs ++ value.flags :: (writeTarget value.target ++
    writeFileTransferId value.fileTransferId ++ writeStr value.senderName ++ writeStr value.body))

def chunkFlags (atStart complete hasBefore : Bool) : Byte :=
  Fin.ofNat 256 ((if atStart then chunkFlagAtStart else 0) |||
    (if complete then chunkFlagComplete else 0) ||| (if hasBefore then chunkFlagHasBefore else 0))

def writeChunkHeader (roomId : UInt32) (before : Option UInt64) (atStart complete : Bool)
    (messageCount : ℕ) : Except String Bytes :=
  if messageCount < 2 ^ 16 then
    .ok (chunkMagic ++ putWord roomId ++ chunkFlags atStart complete before.isSome ::
      (putWord (UInt16.ofNat messageCount) ++ putWord (before.getD 0)))
  else .error "history chunk has too many messages"

/-! ## Reading -/

def ended : String := "history payload ended early"

def fromUtf8 (bytes : Bytes) : Reader (Str utf8) := fun left =>
  if h : utf8 bytes = none then .ok (⟨bytes, h⟩, left)
  else .error ("history string is not UTF-8: " ++ (utf8 bytes).getD "")

def readStr : Reader (Str utf8) := do
  let len ← Reader.word ended UInt32
  let bytes ← Reader.take ended len.toNat
  fromUtf8 bytes

def readTarget (flags : Byte) : Reader (Option UInt64) :=
  if flags ≠ 0 then do
    let target ← Reader.word ended UInt64
    return some target
  else return none

def readFileTransferId : Reader (Option UInt64) := do
  let tag ← Reader.byte ended
  let fileTransferId ← (if tag = 0 ∨ tag = 1 then Reader.word ended UInt64
    else throw "history message file-transfer tag is invalid")
  return (if tag = 1 then some fileTransferId else none)

/-- The fields of a record. -/
def readFields : Reader (ChatMessage utf8) := do
  let version ← Reader.byte ended
  Reader.refuse (version ≠ recordVersion) "history message version is unsupported"
  let messageId ← Reader.word ended UInt64
  let roomId ← Reader.word ended UInt32
  let sender ← Reader.word ended UInt64
  let timestampMs ← Reader.word ended UInt64
  let flags ← Reader.byte ended
  Reader.refuse (¬ flagsValid flags) "history message flags are invalid"
  let target ← readTarget flags
  let fileTransferId ← readFileTransferId
  Reader.refuse (target.isSome ∧ fileTransferId.isSome)
    "history mutation record carries a file transfer"
  let senderName ← readStr
  let body ← readStr
  return { messageId, roomId, sender, senderName, timestampMs, body, fileTransferId, flags, target }

def readMessage : Reader (HistoryMessageRef utf8) := do
  let start ← get
  let message ← readFields
  let left ← get
  return { message, raw := start.take (start.length - left.length) }

/-- The loop of `decode_chunk_ref`. -/
def readMessages (roomId : UInt32) : ℕ → Reader (List (HistoryMessageRef utf8))
  | 0 => return []
  | count + 1 => do
    let message ← readMessage
    Reader.refuse (message.message.roomId ≠ roomId) "history message room does not match chunk room"
    let messages ← readMessages roomId count
    return message :: messages

def finish : Reader Unit := do
  let left ← get
  Reader.refuse (left ≠ []) "history payload has trailing bytes"

/-- What follows the magic. -/
def readChunk : Reader (HistoryChunkRef utf8) := do
  let roomId ← Reader.word ended UInt32
  let flags ← Reader.byte ended
  Reader.refuse (flags.val &&& 248 ≠ 0) "history chunk flags are invalid"
  let count ← Reader.word ended UInt16
  let before ← Reader.word ended UInt64
  let messages ← readMessages roomId count.toNat
  finish
  return {
    roomId
    before := if flags.val &&& chunkFlagHasBefore ≠ 0 then some before else none
    messages
    atStart := flags.val &&& chunkFlagAtStart ≠ 0
    complete := flags.val &&& chunkFlagComplete ≠ 0 }

def decodeChunkRef (bytes : Bytes) : Except String (Option (HistoryChunkRef utf8)) :=
  if bytes.take chunkMagic.length ≠ chunkMagic then .ok none
  else do
    let (chunk, _) ← readChunk (bytes.drop chunkMagic.length)
    return some chunk

end Chatt.History
