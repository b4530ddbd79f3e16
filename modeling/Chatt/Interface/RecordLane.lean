import Chatt.Interface.IdealCrypto
import Chatt.Lib.Run
import Chatt.Model.Records

/-!
# A record lane under attack

One end seals plaintexts, an adversary feeds any frames to the other end.
-/

namespace Chatt.Records

open Lib

/-- A plaintext that was sealed, with its counter and channel. -/
structure SealedRecord where
  counter : UInt64
  channel : Byte
  plaintext : Bytes
  deriving DecidableEq

structure Lane where
  sender : RecordProtection
  receiver : RecordProtection
  /-- the records sealed, in order -/
  records : List SealedRecord
  /-- the calls of the AEAD that sealing them has made -/
  seals : List AeadSeal
  /-- the plaintexts accepted, in order -/
  accepted : List Bytes

/-- A fresh encrypted lane: what the sender seals with is what the receiver opens with. -/
def Lane.initial (key back back' : KeyMaterial) : Lane where
  sender := .aead (.new key back)
  receiver := .aead (.new back' key)
  records := []
  seals := []
  accepted := []

inductive LaneAction
  | sealNext (channel : Byte) (plaintext out : Bytes)
  | openNext (channel : Byte) (frame : Bytes)
  | openNextInPlace (channel : Byte) (frame : Bytes)

/-- The counter the next frame is sealed under. -/
def RecordProtection.counter : RecordProtection → UInt64
  | .aead cipher => cipher.nextSendCounter
  | .clear => 0

/-- The counter the next frame has to carry. -/
def RecordProtection.recvCounter : RecordProtection → UInt64
  | .aead cipher => cipher.nextRecvCounter
  | .clear => 0

/-- Records an outcome of opening. -/
def Lane.opened (l : Lane) (receiver : RecordProtection) : Except CryptoError Bytes → Lane
  | .error _ => { l with receiver }
  | .ok plaintext => { l with receiver, accepted := l.accepted ++ [plaintext] }

section

variable (aead : Aead)

def Lane.next (l : Lane) : LaneAction → Option Lane
  | .sealNext channel plaintext out =>
    match l.sender.sealNextInto aead channel plaintext out with
    | (sender, _, .error _) => some { l with sender }
    | (sender, _, .ok call) =>
      some { l with
        sender
        records := l.records ++ [⟨l.sender.counter, channel, plaintext⟩]
        seals := l.seals ++ call.toList }
  | .openNext channel frame =>
    match l.receiver.openNext aead channel frame with
    | (receiver, outcome) => some (l.opened receiver outcome)
  | .openNextInPlace channel frame =>
    match l.receiver.openNextInPlace aead channel frame with
    | (receiver, _, outcome) => some (l.opened receiver outcome)

variable (key : KeyMaterial)

/-- The frame is no forgery, measured against the calls that sealing has made. -/
def AuthenticFrame (l : Lane) (channel : Byte) (frame : Bytes) : Prop :=
  aead.Authentic key.bytes l.seals (nonceFromCounter (wordAt UInt64 frame 4))
    (transportAad channel (frame.take transportHeaderLen)) (frame.drop transportHeaderLen)

/-- The adversary does not forge the AEAD. -/
def Unforged (l : Lane) : LaneAction → Prop
  | .sealNext _ _ _ => True
  | .openNext channel frame => AuthenticFrame aead key l channel frame
  | .openNextInPlace channel frame => AuthenticFrame aead key l channel frame

instance decidableUnforged (l : Lane) (a : LaneAction) : Decidable (Unforged aead key l a) := by
  cases a <;> dsimp only [Unforged, AuthenticFrame] <;> infer_instance

end

end Chatt.Records
