import Chatt.Model.Media

/-!
# File transfers on the wire

The size classes and bounds of a file transfer (crates/rpc/src/control.rs, crates/rpc/src/mls.rs)
and the frames of a sealed one.  Sizes and offsets are natural numbers: a file is far shorter
than `u64::MAX`, and the saturating operations of the bounds are kept.
-/

namespace Chatt.FileTransfer

open Lib

abbrev FileTransferId := ℕ

inductive FileContentEncoding
  | identity
  | zstd
  | sealed
  deriving DecidableEq, Repr

def maxFileChunkBytes : ℕ := 192 * 1024

/-- `4 + TAG_LEN` -/
def fileChunkOverhead : ℕ := 4 + tagLen

/-- The longest payload of one sealed chunk. -/
def maxSealedPayload : ℕ := maxFileChunkBytes - fileChunkOverhead

/-- The Padmé length of a stream: the low `e - s` bits are rounded up, where `e` is the exponent
of the length and `s` the number of bits of `e`. -/
def padmeLen (len : ℕ) : ℕ :=
  if len < 2 then len
  else
    let e := Nat.log2 len
    let s := Nat.log2 e + 1
    let mask := 2 ^ (e - s) - 1
    (len + mask) / 2 ^ (e - s) * 2 ^ (e - s)

/-- The number of zero bits above the highest set bit. -/
def leadingZeros (word : UInt64) : UInt64 := if word = 0 then 64 else 63 - word.log2

/-- `padme_len` on the machine words of the source. -/
def padmeLenU64 (len : UInt64) : UInt64 :=
  if len < 2 then len
  else
    let e := 63 - leadingZeros len
    let s := 64 - leadingZeros e
    let mask := 1 <<< (e - s) - 1
    (len + mask) &&& ~~~mask

def maxZstdWireBytes (originalSize : ℕ) : ℕ :=
  saturatingAdd (saturatingAdd originalSize (originalSize / 128)) (64 * 1024)

def maxFileWireBytes (encoding : FileContentEncoding) (originalSize : ℕ) : ℕ :=
  match encoding with
  | .identity => originalSize
  | .zstd => maxZstdWireBytes originalSize
  | .sealed =>
    let stream := maxZstdWireBytes originalSize
    let stream := saturatingAdd stream (stream / 8)
    let chunks := stream / maxSealedPayload + 2
    saturatingAdd stream (saturatingMul chunks fileChunkOverhead)

/-! ## The frames of a sealed transfer -/

/-- What a frame is bound to besides its key and index. -/
structure FileChunkScope where
  roomId : RoomId
  sender : UserId
  eventId : EventId
  transferId : FileTransferId
  totalSize : ℕ
  digest : Digest
  deriving DecidableEq

def fileChunkAad (scope : FileChunkScope) : Bytes :=
  ascii "chatt mls file chunk v1" ++ leBytes 4 scope.roomId ++ leBytes 8 scope.sender ++
    scope.eventId.val ++ leBytes 8 scope.transferId ++ leBytes 8 scope.totalSize ++
    scope.digest.val

/-- The plaintext of a frame: the length of the payload, the payload, `padLen` zeros. -/
def frameOf (payload : Bytes) (padLen : ℕ) : Bytes :=
  leBytes 4 payload.length ++ payload ++ List.replicate padLen 0

def fileKeyMaterial (fileKey : ByteArr 32) : KeyMaterial := { id := 1, bytes := fileKey }

/-- What `seal_file_chunk` hands to the AEAD, with the key and the index it derives the nonce from.
-/
structure SealCall where
  fileKey : ByteArr 32
  index : UInt64
  aad : Bytes
  plaintext : Bytes
  deriving DecidableEq

/-- The frame that the call seals. -/
def SealCall.run (call : SealCall) (aead : Aead) : Except CryptoError Bytes :=
  (Media.sealInPlaceAppendTag aead (fileKeyMaterial call.fileKey) call.index call.aad 0
    call.plaintext).map Prod.fst

/-- The frame, and the call that sealed it. -/
def sealFileChunk (aead : Aead) (fileKey : ByteArr 32) (scope : FileChunkScope) (index : UInt64)
    (payload : Bytes) (padLen : ℕ) : Except CryptoError (Bytes × SealCall) := do
  let call : SealCall :=
    { fileKey, index, aad := fileChunkAad scope, plaintext := frameOf payload padLen }
  let frame ← call.run aead
  return (frame, call)

/-! ## Relaying a file

The server's side of one upload (crates/server/src/lib.rs, `receive_file_chunk` and
`complete_file_upload`). -/

abbrev SessionId := ℕ

structure ServerUpload where
  serverTransferId : FileTransferId
  roomId : RoomId
  encoding : FileContentEncoding
  originalSize : ℕ
  wireReceived : ℕ
  fileName : Bytes
  recipients : List SessionId
  declinedNotified : Bool
  deriving DecidableEq

/-- The checks of `receive_file_chunk`, and the upload with the chunk counted. -/
def ServerUpload.receiveChunk (upload : ServerUpload) (offset : ℕ) (data : Bytes) :
    Except String ServerUpload := do
  reject (data.length > maxFileChunkBytes) "file chunk exceeds maximum length"
  reject (upload.wireReceived ≠ offset) "file chunk offset mismatch"
  let stop := saturatingAdd offset data.length
  reject (stop > maxFileWireBytes upload.encoding upload.originalSize)
    "file chunk exceeds allowed relay size"
  return { upload with wireReceived := stop }

def uploadCompletionIsValid (encoding : FileContentEncoding) (originalSize wireReceived : ℕ) :
    Bool :=
  match encoding with
  | .identity => wireReceived = originalSize
  | .zstd | .sealed => originalSize = 0 || wireReceived ≠ 0

end Chatt.FileTransfer
