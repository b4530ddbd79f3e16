import Chatt.Model.Ids

/-!
# Keys, nonces and the AEAD

The parts of crates/rpc/src/crypto.rs that the record lanes and the media path share.  The
AEAD itself (ChaCha20-Poly1305) is a parameter that works on a buffer in place, as the library
the program calls does.  A key has 32 bytes, so `UnboundKey::new` accepts it and the
`InvalidKey` exits of the sealing and opening functions are not taken.
-/

namespace Chatt

open Lib

inductive CryptoError
  | random
  | invalidHandshake
  | invalidSignature
  | invalidKey
  | invalidEncoding
  | unsupportedVersion (version : UInt16)
  | wrongKeyId
  | counterMismatch
  | replay
  | counterExhausted
  | cipher
  | bindProofMismatch
  deriving DecidableEq, Repr

structure KeyMaterial where
  id : UInt32
  bytes : ByteArr 32
  deriving DecidableEq

/-- How a session's payloads travel. -/
inductive TransportMode
  | encrypted
  | plaintext
  deriving DecidableEq, Repr

def TransportMode.wireId : TransportMode → Byte
  | .encrypted => 1
  | .plaintext => 2

def TransportMode.fromWireId (id : Byte) : Option TransportMode :=
  if id = 1 then some .encrypted else if id = 2 then some .plaintext else none

lemma TransportMode.fromWireId_wireId (mode : TransportMode) :
    TransportMode.fromWireId mode.wireId = some mode := by
  cases mode <;> rfl

def tagLen : ℕ := 16

def transportHeaderLen : ℕ := 12

def channelControl : Byte := 1

def channelMedia : Byte := 2

/-- `u64::MAX - (1 << 4)` -/
def rejectAfterMessages : UInt64 := 18446744073709551599

/-- ChaCha20-Poly1305.  Both operations work in place: they return the buffer as they leave it,
with the tag, or with the length of the plaintext at its front, if they succeed. -/
structure Aead where
  sealInPlace : (key : ByteArr 32) → (nonce aad buffer : Bytes) → Bytes × Option (ByteArr 16)
  openInPlace : (key : ByteArr 32) → (nonce aad buffer : Bytes) → Bytes × Option ℕ
  length_seal : ∀ key nonce aad buffer, (sealInPlace key nonce aad buffer).1.length = buffer.length
  length_open : ∀ key nonce aad buffer, (openInPlace key nonce aad buffer).1.length = buffer.length
  open_le : ∀ key nonce aad buffer len, (openInPlace key nonce aad buffer).2 = some len →
    len ≤ buffer.length

/-- One call of the AEAD's seal operation. -/
structure AeadSeal where
  key : ByteArr 32
  nonce : Bytes
  aad : Bytes
  plaintext : Bytes
  deriving DecidableEq

/-- The call on the buffer that holds the plaintext. -/
def AeadSeal.run (call : AeadSeal) (aead : Aead) : Bytes × Option (ByteArr 16) :=
  aead.sealInPlace call.key call.nonce call.aad call.plaintext

/-- The plaintext that opening a buffer yields. -/
def Aead.opened (aead : Aead) (key : ByteArr 32) (nonce aad buffer : Bytes) : Option Bytes :=
  (aead.openInPlace key nonce aad buffer).2.map (aead.openInPlace key nonce aad buffer).1.take

def nonceFromCounter (counter : UInt64) : Bytes := List.replicate 4 0 ++ putWord counter

def transportAad (channel : Byte) (header : Bytes) : Bytes := channel :: header

lemma nonceFromCounter_inj {a b : UInt64} (h : nonceFromCounter a = nonceFromCounter b) : a = b :=
  putWord_inj.mp (List.append_cancel_left h)

end Chatt
