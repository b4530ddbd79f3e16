import Chatt.Lib.Wire

/-!
# Identifiers and machine integers

The identifiers of `crates/ids` and the few integer operations whose overflow the program
decides on.  A `u16`, `u32` or `u64` is a natural number; where the source uses a checked
or a saturating operation, so does the model.  Fixed-size byte arrays carry their length,
and compare as the source's derived `Ord` does, byte by byte from the front.
-/

namespace Chatt

abbrev Byte := Fin 256

abbrev Bytes := List Byte

abbrev ByteArr (n : ℕ) := {b : Bytes // b.length = n}

/-- The array that repeats one byte, the source's `[b; n]`. -/
def ByteArr.replicate (n : ℕ) (b : Byte) : ByteArr n := ⟨List.replicate n b, List.length_replicate⟩

/-! ## Identifiers -/

abbrev UserId := ℕ

abbrev RoomId := ℕ

abbrev DeviceId := ByteArr 16

abbrev EventId := ByteArr 16

abbrev AccountId := ByteArr 32

abbrev Digest := ByteArr 32

/-! ## Integer limits and the checked and saturating operations -/

def u64Max : ℕ := 2 ^ 64 - 1

def u32Max : ℕ := 2 ^ 32 - 1

def u16Max : ℕ := 2 ^ 16 - 1

def checkedAdd (a b : ℕ) : Option ℕ := if a + b ≤ u64Max then some (a + b) else none

def saturatingAdd (a b : ℕ) : ℕ := min (a + b) u64Max

def saturatingMul (a b : ℕ) : ℕ := min (a * b) u64Max

lemma saturatingAdd_of_le {a b : ℕ} (h : a + b ≤ u64Max) : saturatingAdd a b = a + b :=
  min_eq_left h

lemma lt_saturatingAdd {a b : ℕ} (h : a < u64Max) (hb : 0 < b) : a < saturatingAdd a b :=
  lt_min (Nat.lt_add_of_pos_right hb) h

lemma checkedAdd_eq_some {a b c : ℕ} : checkedAdd a b = some c ↔ c = a + b ∧ a + b ≤ u64Max := by
  unfold checkedAdd
  split_ifs with h <;> simp [h, eq_comm]

/-! ## Socket addresses -/

/-- `std::net::SocketAddr`: two IPv6 addresses with different scopes are different. -/
inductive SocketAddr
  | v4 (ip : ByteArr 4) (port : UInt16)
  | v6 (ip : ByteArr 16) (port : UInt16) (flowinfo scopeId : UInt32)
  deriving DecidableEq

/-! ## Device rosters (identity.rs:28-62)

From here on the records of `crates/rpc/src/identity.rs`, `crates/rpc/src/mls.rs` and
`crates/mls/src/server.rs` that the delivery service stores and forwards. -/

structure DeviceCertificateBody where
  userId : UserId
  accountId : AccountId
  authorityPublicKey : ByteArr 32
  deviceId : DeviceId
  deviceName : String
  mlsClientId : Bytes
  mlsSignaturePublicKey : Bytes
  deriving DecidableEq

structure SignedDeviceCertificate where
  body : DeviceCertificateBody
  authoritySignature : Bytes
  deriving DecidableEq

structure DeviceRosterBody where
  userId : UserId
  accountId : AccountId
  authorityPublicKey : ByteArr 32
  revision : ℕ
  activeDevices : List SignedDeviceCertificate
  deriving DecidableEq

structure SignedDeviceRoster where
  body : DeviceRosterBody
  authoritySignature : Bytes
  deriving DecidableEq

/-! ## Rooms and their public group state (rpc/src/mls.rs:38-47, mls/src/server.rs:26-35) -/

structure EncryptedRoomDescriptor where
  roomId : RoomId
  mlsGroupId : Bytes
  creator : AccountId
  memberAccounts : List AccountId
  createdAtMs : ℕ
  protocolVersion : ℕ
  deriving DecidableEq

structure PublicGroupState where
  epoch : ℕ
  groupId : Bytes
  treeHash : Bytes
  transcriptHash : Bytes
  memberClientIds : List Bytes
  snapshot : Bytes
  deriving DecidableEq

/-! ## Delivery events (rpc/src/mls.rs:250-275) -/

inductive MlsDeliveryEvent where
  | commit (sequence parentEpoch epoch : ℕ) (rosters : List SignedDeviceRoster) (commit : Bytes)
  | application (sequence epoch : ℕ) (eventId : EventId) (rosters : List SignedDeviceRoster)
      (ciphertext : Bytes)
  deriving DecidableEq

def MlsDeliveryEvent.sequence : MlsDeliveryEvent → ℕ
  | .commit sequence .. => sequence
  | .application sequence .. => sequence

/-- The event id an application is indexed under. -/
def MlsDeliveryEvent.eventId? : MlsDeliveryEvent → Option EventId
  | .commit .. => none
  | .application _ _ eventId _ _ => some eventId

/-- The parent epoch a commit is indexed under. -/
def MlsDeliveryEvent.parentEpoch? : MlsDeliveryEvent → Option ℕ
  | .commit _ parentEpoch _ _ _ => some parentEpoch
  | .application .. => none

/-! ## Welcomes and commit bundles (rpc/src/mls.rs:207-241) -/

structure MlsWelcomeBundle where
  deviceIds : List DeviceId
  descriptor : EncryptedRoomDescriptor
  welcome : Bytes
  deriving DecidableEq

structure MlsWelcome where
  deliveryId : ℕ
  sequence : ℕ
  deviceId : DeviceId
  descriptor : EncryptedRoomDescriptor
  welcome : Bytes
  deriving DecidableEq

def maxMlsWelcomesPerCommit : ℕ := 64

end Chatt
