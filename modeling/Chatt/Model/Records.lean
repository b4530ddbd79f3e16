import Chatt.Model.Crypto

/-!
# Record protection

`TransportCipher` and `RecordProtection` (crates/rpc/src/crypto.rs:693-918, 979-1028): the
framing of the control and video lanes.  A frame is the key id and the counter, then the
ciphertext and its tag.
-/

namespace Chatt.Records

open Lib

structure TransportCipher where
  send : KeyMaterial
  recv : KeyMaterial
  nextSendCounter : UInt64
  nextRecvCounter : UInt64
  deriving DecidableEq

def TransportCipher.new (send recv : KeyMaterial) : TransportCipher :=
  { send, recv, nextSendCounter := 0, nextRecvCounter := 0 }

/-- `checked_add(1)` -/
def checkedSucc (counter : UInt64) : Option UInt64 :=
  if counter.toNat + 1 < 2 ^ 64 then some (counter + 1) else none

/-! ## Frames -/

variable (aead : Aead)

/-- The buffer `out` as it is left, and the outcome: the call of the AEAD behind the frame. -/
def sealWithKeyInto (key : KeyMaterial) (channel : Byte) (counter : UInt64)
    (plaintext out : Bytes) : Bytes × Except CryptoError AeadSeal :=
  if counter ≥ rejectAfterMessages then (out, .error .counterExhausted)
  else
    let base := out.length
    let out := out ++ putWord key.id ++ putWord counter ++ plaintext
    let bodyStart := base + transportHeaderLen
    let call : AeadSeal :=
      { key := key.bytes
        nonce := nonceFromCounter counter
        aad := transportAad channel (slice out base transportHeaderLen)
        plaintext := out.drop bodyStart }
    match call.run aead with
    | (buffer, none) => ((out.take bodyStart ++ buffer).take base, .error .cipher)
    | (buffer, some tag) => (out.take bodyStart ++ buffer ++ tag.val, .ok call)

/-- The body as it is left, and the counter with the length of the plaintext. -/
def openBodyInPlace (key : KeyMaterial) (channel : Byte) (header body : Bytes) :
    Bytes × Except CryptoError (UInt64 × ℕ) :=
  let keyId := wordAt UInt32 header 0
  if keyId ≠ key.id then (body, .error .wrongKeyId)
  else
    let counter := wordAt UInt64 header 4
    if counter ≥ rejectAfterMessages then (body, .error .counterExhausted)
    else
      match aead.openInPlace key.bytes (nonceFromCounter counter)
        (transportAad channel header) body with
      | (body, none) => (body, .error .cipher)
      | (body, some len) => (body, .ok (counter, len))

def openWithKey (key : KeyMaterial) (channel : Byte) (frame : Bytes) :
    Except CryptoError (UInt64 × Bytes) :=
  if frame.length < transportHeaderLen + tagLen then .error .cipher
  else
    match openBodyInPlace aead key channel (frame.take transportHeaderLen)
        (frame.drop transportHeaderLen) with
    | (_, .error e) => .error e
    | (body, .ok (counter, plaintextLen)) => .ok (counter, body.take plaintextLen)

/-- The frame as it is left, and the counter with the length of the plaintext. -/
def openWithKeyInPlace (key : KeyMaterial) (channel : Byte) (frame : Bytes) :
    Bytes × Except CryptoError (UInt64 × ℕ) :=
  if frame.length < transportHeaderLen + tagLen then (frame, .error .cipher)
  else
    let (body, opened) := openBodyInPlace aead key channel (frame.take transportHeaderLen)
      (frame.drop transportHeaderLen)
    (frame.take transportHeaderLen ++ body, opened)

/-! ## Ciphers -/

namespace TransportCipher

/-- The send counter is taken before the frame is sealed. -/
def sealNextInto (c : TransportCipher) (channel : Byte) (plaintext out : Bytes) :
    TransportCipher × Bytes × Except CryptoError AeadSeal :=
  let counter := c.nextSendCounter
  if counter ≥ rejectAfterMessages then (c, out, .error .counterExhausted)
  else
    match checkedSucc c.nextSendCounter with
    | none => (c, out, .error .counterExhausted)
    | some nextSendCounter =>
      ({ c with nextSendCounter }, sealWithKeyInto aead c.send channel counter plaintext out)

def checkRecvCounter (c : TransportCipher) (counter : UInt64) :
    TransportCipher × Except CryptoError Unit :=
  if counter ≠ c.nextRecvCounter then (c, .error .counterMismatch)
  else
    match checkedSucc c.nextRecvCounter with
    | none => (c, .error .counterExhausted)
    | some nextRecvCounter => ({ c with nextRecvCounter }, .ok ())

def openNext (c : TransportCipher) (channel : Byte) (frame : Bytes) :
    TransportCipher × Except CryptoError Bytes :=
  match openWithKey aead c.recv channel frame with
  | .error e => (c, .error e)
  | .ok (counter, plaintext) =>
    match c.checkRecvCounter counter with
    | (c, .error e) => (c, .error e)
    | (c, .ok ()) => (c, .ok plaintext)

/-- The frame as it is left, and the plaintext's slice of it. -/
def openNextInPlace (c : TransportCipher) (channel : Byte) (frame : Bytes) :
    TransportCipher × Bytes × Except CryptoError Bytes :=
  match openWithKeyInPlace aead c.recv channel frame with
  | (frame, .error e) => (c, frame, .error e)
  | (frame, .ok (counter, plaintextLen)) =>
    match c.checkRecvCounter counter with
    | (c, .error e) => (c, frame, .error e)
    | (c, .ok ()) => (c, frame, .ok (slice frame transportHeaderLen plaintextLen))

end TransportCipher

/-! ## Lanes -/

inductive RecordProtection
  | aead (cipher : TransportCipher)
  | clear
  deriving DecidableEq

namespace RecordProtection

/-- The lane, the buffer as it is left, and the call of the AEAD, which a clear lane does not make.
-/
def sealNextInto (aead : Aead) (p : RecordProtection) (channel : Byte) (plaintext out : Bytes) :
    RecordProtection × Bytes × Except CryptoError (Option AeadSeal) :=
  match p with
  | .aead cipher =>
    let (cipher, out, outcome) := cipher.sealNextInto aead channel plaintext out
    (.aead cipher, out, outcome.map some)
  | .clear => (.clear, out ++ plaintext, .ok none)

def openNext (aead : Aead) (p : RecordProtection) (channel : Byte) (frame : Bytes) :
    RecordProtection × Except CryptoError Bytes :=
  match p with
  | .aead cipher =>
    let (cipher, outcome) := cipher.openNext aead channel frame
    (.aead cipher, outcome)
  | .clear => (.clear, .ok frame)

def openNextInPlace (aead : Aead) (p : RecordProtection) (channel : Byte) (frame : Bytes) :
    RecordProtection × Bytes × Except CryptoError Bytes :=
  match p with
  | .aead cipher =>
    let (cipher, frame, outcome) := cipher.openNextInPlace aead channel frame
    (.aead cipher, frame, outcome)
  | .clear => (.clear, frame, .ok frame)

end RecordProtection

end Chatt.Records
