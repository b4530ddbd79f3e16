import Chatt.Lib.Codec
import Chatt.Model.MemoryState

/-!
# Binary encodings

The rows of the checkpoint file (mls_store.rs:233-310) and the encodings the store takes
from the `jsony` crate.  The crate is not part of this repository: `Jsony` is any family of
codecs that decode what they encode.  `Jsony.stream` is one such family, built from the
stream codecs, on which the model can be evaluated.
-/

namespace Chatt

open Chatt.Lib

/-! ## Checkpoint rows -/

structure EventCheckpoint where
  sequence : ℕ
  storedAtUnixMs : ℕ
  payloadOffset : ℕ
  roomId : RoomId
  payloadLen : ℕ
  deriving DecidableEq

structure CursorCheckpoint where
  highestContiguousSequence : ℕ
  startingSequence : ℕ
  lastAckUnixMs : ℕ
  rejoinRequiredThrough : ℕ
  deviceId : DeviceId
  roomId : RoomId
  deriving DecidableEq

structure WelcomeCheckpoint where
  deliveryId : ℕ
  sequence : ℕ
  storedAtUnixMs : ℕ
  payloadOffset : ℕ
  payloadLen : ℕ
  deriving DecidableEq

/-- `CheckpointEncode` and `CheckpointDecode`, which differ only in borrowing. -/
structure Checkpoint where
  global : GlobalRecord
  rooms : List RoomRecord
  events : List EventCheckpoint
  cursors : List CursorCheckpoint
  welcomes : List WelcomeCheckpoint
  deviceWelcomes : List DeviceWelcomeCheckpoint
  welcomeCursors : List WelcomeCursorCheckpoint
  payloads : Bytes
  deriving DecidableEq

/-- The encodings the store uses. -/
structure Jsony where
  event : Codec MlsDeliveryEvent
  bundle : Codec MlsWelcomeBundle
  checkpoint : Codec Checkpoint
  delta : Codec StateDelta

/-! ## A family of codecs to evaluate the model on -/

namespace StreamCodecs

open StreamCodec

def bytes : StreamCodec Bytes := list byte

def byteArr (n : ℕ) : StreamCodec (ByteArr n) := vector byte n

def certificateBody : StreamCodec DeviceCertificateBody :=
  (pair nat (pair (byteArr 32)
    (pair (byteArr 32) (pair (byteArr 16) (pair string (pair bytes bytes)))))).via
    (fun v => (v.userId, v.accountId, v.authorityPublicKey, v.deviceId, v.deviceName, v.mlsClientId,
      v.mlsSignaturePublicKey))
    (fun (a, b, c, d, e, f, g) => some ⟨a, b, c, d, e, f, g⟩) (fun _ => rfl)

def certificate : StreamCodec SignedDeviceCertificate :=
  (pair certificateBody bytes).via (fun v => (v.body, v.authoritySignature))
    (fun (a, b) => some ⟨a, b⟩) (fun _ => rfl)

def rosterBody : StreamCodec DeviceRosterBody :=
  (pair nat (pair (byteArr 32) (pair (byteArr 32) (pair nat (list certificate))))).via
    (fun v => (v.userId, v.accountId, v.authorityPublicKey, v.revision, v.activeDevices))
    (fun (a, b, c, d, e) => some ⟨a, b, c, d, e⟩) (fun _ => rfl)

def roster : StreamCodec SignedDeviceRoster :=
  (pair rosterBody bytes).via (fun v => (v.body, v.authoritySignature))
    (fun (a, b) => some ⟨a, b⟩) (fun _ => rfl)

def descriptor : StreamCodec EncryptedRoomDescriptor :=
  (pair nat (pair bytes (pair (byteArr 32) (pair (list (byteArr 32)) (pair nat nat))))).via
    (fun v => (v.roomId, v.mlsGroupId, v.creator, v.memberAccounts, v.createdAtMs,
      v.protocolVersion))
    (fun (a, b, c, d, e, f) => some ⟨a, b, c, d, e, f⟩) (fun _ => rfl)

def publicState : StreamCodec PublicGroupState :=
  (pair nat (pair bytes (pair bytes (pair bytes (pair (list bytes) bytes))))).via
    (fun v => (v.epoch, v.groupId, v.treeHash, v.transcriptHash, v.memberClientIds, v.snapshot))
    (fun (a, b, c, d, e, f) => some ⟨a, b, c, d, e, f⟩) (fun _ => rfl)

def event : StreamCodec MlsDeliveryEvent :=
  (either (pair nat (pair nat (pair nat (pair (list roster) bytes))))
    (pair nat (pair nat (pair (byteArr 16) (pair (list roster) bytes))))).via
    (fun
      | .commit a b c d e => .inl (a, b, c, d, e)
      | .application a b c d e => .inr (a, b, c, d, e))
    (fun
      | .inl (a, b, c, d, e) => some (.commit a b c d e)
      | .inr (a, b, c, d, e) => some (.application a b c d e))
    (by rintro (_ | _) <;> rfl)

def bundle : StreamCodec MlsWelcomeBundle :=
  (pair (list (byteArr 16)) (pair descriptor bytes)).via
    (fun v => (v.deviceIds, v.descriptor, v.welcome)) (fun (a, b, c) => some ⟨a, b, c⟩)
    (fun _ => rfl)

def credential : StreamCodec DeviceCredential :=
  (pair nat (pair (byteArr 16) string)).via (fun v => (v.userId, v.deviceId, v.tokenHash))
    (fun (a, b, c) => some ⟨a, b, c⟩) (fun _ => rfl)

def global : StreamCodec GlobalRecord :=
  (pair (list nat) (pair (list (pair nat roster)) (pair (list (pair (byteArr 16) (list bytes)))
    (pair (list (byteArr 32)) (pair (list bytes) (pair (list bytes) (pair (list bytes)
      (pair nat (pair (list credential) (list (pair (byteArr 16) nat))))))))))).via
    (fun v => (v.initializedAccounts, v.rosters, v.keyPackages, v.retiredKeyPackages,
      v.issuedKeyPackages, v.usedKeyPackages, v.lastResortKeyPackages, v.nextWelcomeDeliveryId,
      v.credentials, v.deviceOwners))
    (fun (a, b, c, d, e, f, g, h, i, j) => some ⟨a, b, c, d, e, f, g, h, i, j⟩) (fun _ => rfl)

def room : StreamCodec RoomRecord :=
  (pair descriptor (pair publicState (pair bytes (pair bool (pair nat (pair nat (pair nat
    (pair nat (list (byteArr 16)))))))))).via
    (fun v => (v.descriptor, v.publicState, v.groupInfo, v.revocationPending, v.headSequence,
      v.oldestAvailableSequence, v.lastEventTimeUnixMs, v.retentionDays, v.requiredDevices))
    (fun (a, b, c, d, e, f, g, h, i) => some ⟨a, b, c, d, e, f, g, h, i⟩) (fun _ => rfl)

def eventRow : StreamCodec EventCheckpoint :=
  (pair nat (pair nat (pair nat (pair nat nat)))).via
    (fun v => (v.sequence, v.storedAtUnixMs, v.payloadOffset, v.roomId, v.payloadLen))
    (fun (a, b, c, d, e) => some ⟨a, b, c, d, e⟩) (fun _ => rfl)

def cursorRow : StreamCodec CursorCheckpoint :=
  (pair nat (pair nat (pair nat (pair nat (pair (byteArr 16) nat))))).via
    (fun v => (v.highestContiguousSequence, v.startingSequence, v.lastAckUnixMs,
      v.rejoinRequiredThrough, v.deviceId, v.roomId))
    (fun (a, b, c, d, e, f) => some ⟨a, b, c, d, e, f⟩) (fun _ => rfl)

def welcomeRow : StreamCodec WelcomeCheckpoint :=
  (pair nat (pair nat (pair nat (pair nat nat)))).via
    (fun v => (v.deliveryId, v.sequence, v.storedAtUnixMs, v.payloadOffset, v.payloadLen))
    (fun (a, b, c, d, e) => some ⟨a, b, c, d, e⟩) (fun _ => rfl)

def targetRow : StreamCodec DeviceWelcomeCheckpoint :=
  (pair nat (byteArr 16)).via (fun v => (v.deliveryId, v.deviceId))
    (fun (a, b) => some ⟨a, b⟩) (fun _ => rfl)

def welcomeCursorRow : StreamCodec WelcomeCursorCheckpoint :=
  (pair nat (byteArr 16)).via (fun v => (v.deliveryId, v.deviceId))
    (fun (a, b) => some ⟨a, b⟩) (fun _ => rfl)

def checkpoint : StreamCodec Checkpoint :=
  (pair global (pair (list room) (pair (list eventRow) (pair (list cursorRow)
    (pair (list welcomeRow) (pair (list targetRow) (pair (list welcomeCursorRow) bytes))))))).via
    (fun v => (v.global, v.rooms, v.events, v.cursors, v.welcomes, v.deviceWelcomes,
      v.welcomeCursors, v.payloads))
    (fun (a, b, c, d, e, f, g, h) => some ⟨a, b, c, d, e, f, g, h⟩) (fun _ => rfl)

def cursor : StreamCodec DeviceCursor :=
  (pair nat (pair nat (pair nat (option nat)))).via
    (fun v => (v.highestContiguousSequence, v.startingSequence, v.lastAckUnixMs,
      v.rejoinRequiredThrough))
    (fun (a, b, c, d) => some ⟨a, b, c, d⟩) (fun _ => rfl)

def walEvent : StreamCodec WalEvent :=
  (pair nat (pair nat event)).via (fun v => (v.roomId, v.storedAtUnixMs, v.event))
    (fun (a, b, c) => some ⟨a, b, c⟩) (fun _ => rfl)

def walCursor : StreamCodec WalCursor :=
  (pair nat (pair (byteArr 16) cursor)).via (fun v => (v.roomId, v.deviceId, v.cursor))
    (fun (a, b, c) => some ⟨a, b, c⟩) (fun _ => rfl)

def walWelcome : StreamCodec WalWelcome :=
  (pair nat (pair nat (pair nat bundle))).via
    (fun v => (v.deliveryId, v.sequence, v.storedAtUnixMs, v.bundle))
    (fun (a, b, c, d) => some ⟨a, b, c, d⟩) (fun _ => rfl)

def eventKey : StreamCodec EventKey :=
  (pair nat nat).via (fun v => (v.sequence, v.roomId)) (fun (a, b) => some ⟨a, b⟩)
    (fun _ => rfl)

def cursorKey : StreamCodec CursorKey :=
  (pair (byteArr 16) nat).via (fun v => (v.deviceId, v.roomId)) (fun (a, b) => some ⟨a, b⟩)
    (fun _ => rfl)

def delta : StreamCodec StateDelta :=
  (pair (option global) (pair (list room) (pair (list walEvent) (pair (list eventKey)
    (pair (list walCursor) (pair (list cursorKey) (pair (list walWelcome)
      (pair (list targetRow) (list welcomeCursorRow))))))))).via
    (fun v => (v.global, v.rooms, v.events, v.deletedEvents, v.cursors, v.deletedCursors,
      v.welcomes, v.deletedWelcomeTargets, v.welcomeCursors))
    (fun (a, b, c, d, e, f, g, h, i) => some ⟨a, b, c, d, e, f, g, h, i⟩) (fun _ => rfl)

end StreamCodecs

def Jsony.stream : Jsony where
  event := StreamCodecs.event.toCodec
  bundle := StreamCodecs.bundle.toCodec
  checkpoint := StreamCodecs.checkpoint.toCodec
  delta := StreamCodecs.delta.toCodec

end Chatt
