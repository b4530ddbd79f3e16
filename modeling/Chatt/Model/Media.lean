import Chatt.Model.AntiReplay
import Chatt.Model.Identity
import Chatt.Model.MediaPayload

/-!
# Media datagrams

Sealing and opening of session media (crates/rpc/src/media.rs:222-543, 617-647, with the AEAD
helpers of crates/rpc/src/crypto.rs:924-981).  Opening ends with the update of the replay
window, so everything before it is one function and `updateReplay` is the update.
-/

namespace Chatt.Media

open Lib

def udpVersion : Byte := 4

def udpHeaderLen : ℕ := 14

def safeUdpPayloadBytes : ℕ := 1200

def authProofLen : ℕ := 16

structure UdpHeader where
  version : Byte
  kind : Byte
  routeId : UInt32
  counter : UInt64
  deriving DecidableEq, Repr

inductive MediaProtection
  | aead (routeId : UInt32) (send recv : KeyMaterial)
  | clear (routeId : UInt32) (bindKey : ByteArr 32)
  deriving DecidableEq

def MediaProtection.routeId : MediaProtection → UInt32
  | .aead routeId _ _ => routeId
  | .clear routeId _ => routeId

inductive AddressProof
  | authenticatedDatagram
  | authenticatedAddressClaim
  | none
  deriving DecidableEq, Repr

structure OpenedMedia where
  header : UdpHeader
  payload : MediaPayload
  addressProof : AddressProof
  deriving DecidableEq, Repr

def bindProofMessage (routeId : UInt32) (kind : Byte) (counter : UInt64) : Bytes :=
  ascii "chatt media bind proof v1" ++ putWord routeId ++ kind :: putWord counter ++
    [TransportMode.plaintext.wireId]

/-! ## The primitives -/

/-- The MAC of the bind proof, `crypto::auth_proof`: HMAC-SHA256 cut to 16 bytes. -/
abbrev AuthProof := ByteArr 32 → Bytes → ByteArr 16

def authProofVerify (authProof : AuthProof) (key : ByteArr 32) (message tag : Bytes) : Bool :=
  tag.length = authProofLen && (authProof key message).val = tag

/-- The buffer with the tag behind it, and the call of the AEAD that sealed it. -/
def sealInPlaceAppendTag (aead : Aead) (key : KeyMaterial) (counter : UInt64) (aad : Bytes)
    (cipherStart : ℕ) (out : Bytes) : Except CryptoError (Bytes × AeadSeal) :=
  if counter ≥ rejectAfterMessages then .error .counterExhausted
  else
    let call : AeadSeal :=
      { key := key.bytes, nonce := nonceFromCounter counter, aad, plaintext :=
        out.drop cipherStart }
    match call.run aead with
    | (_, none) => .error .cipher
    | (buffer, some tag) => .ok (out.take cipherStart ++ buffer ++ tag.val, call)

/-- The buffer as it is left, and the length of the plaintext. -/
def openInPlaceWithAad (aead : Aead) (key : KeyMaterial) (counter : UInt64) (aad body : Bytes) :
    Bytes × Except CryptoError ℕ :=
  if counter ≥ rejectAfterMessages then (body, .error .counterExhausted)
  else
    match aead.openInPlace key.bytes (nonceFromCounter counter) aad body with
    | (buffer, none) => (buffer, .error .cipher)
    | (buffer, some len) => (buffer, .ok len)

/-- The associated data: the channel, then the route id and the counter of the header. -/
def mediaAad (packet : Bytes) : Bytes := channelMedia :: slice packet 2 12

/-! ## Sealing -/

def udpHeader (kind : Byte) (routeId : UInt32) (counter : UInt64) : Bytes :=
  udpVersion :: kind :: (putWord routeId ++ putWord counter)

/-- A sealed packet with the calls it was made by: of the AEAD, or of the MAC with its key and
message. -/
structure SealedMedia where
  packet : Bytes
  aeadSeal : Option AeadSeal
  proof : Option (ByteArr 32 × Bytes)
  deriving DecidableEq

/-- `seal_media_ref_into`, for the packet it leaves in its cleared buffer. -/
def sealMedia (aead : Aead) (authProof : AuthProof) (protection : MediaProtection)
    (counter : UInt64) (payload : MediaPayload) : Except MediaError SealedMedia := do
  let kind := payload.kind
  let scratch ← encodePayload payload
  reject (scratch.length > safeUdpPayloadBytes) .payloadTooLarge
  let header := udpHeader kind protection.routeId counter
  let packet := header ++ scratch
  match protection with
  | .aead _ send _ =>
    let (packet, call) ←
      (sealInPlaceAppendTag aead send counter (mediaAad packet) udpHeaderLen packet).mapError
        .crypto
    return { packet, aeadSeal := some call, proof := none }
  | .clear routeId bindKey =>
    if kind = kindBind then
      let message := bindProofMessage routeId kind counter
      let packet := packet ++ (authProof bindKey message).val
      return { packet, aeadSeal := none, proof := some (bindKey, message) }
    else return { packet, aeadSeal := none, proof := none }

/-! ## Opening -/

def isKnownKind (kind : Byte) : Bool :=
  kind ∈ [kindBind, kindVoice, kindPing, kindPong, kindPeerVoice, kindNatProbe, kindVoiceFeedback,
    kindPeerVoiceFeedback, kindVoiceFeedbackFrom]

def parseHeader (bytes : Bytes) : Except MediaError (UdpHeader × Bytes) := do
  reject (bytes.length < udpHeaderLen) .tooShort
  let version := byteAt bytes 0
  reject (version ≠ udpVersion) (.unsupportedVersion version)
  let kind := byteAt bytes 1
  reject (¬ isKnownKind kind) (.unknownKind kind)
  return ({ version, kind, routeId := wordAt UInt32 bytes 2, counter := wordAt UInt64 bytes 6 },
    bytes.drop udpHeaderLen)

/-- The plaintext session: a bind is authenticated by its proof, the other kinds are not
authenticated at all. -/
def openClear (authProof : AuthProof) (bindKey : ByteArr 32) (header : UdpHeader) (body : Bytes) :
    Except MediaError OpenedMedia := do
  if header.kind = kindBind then
    reject (body.length < authProofLen) .invalidPayload
    let split := body.length - authProofLen
    let message := bindProofMessage header.routeId header.kind header.counter
    reject (¬ authProofVerify authProof bindKey message (body.drop split))
      (.crypto .bindProofMismatch)
    let payload ← decodePayload header.kind (body.take split)
    return { header, payload, addressProof := .authenticatedAddressClaim }
  else
    let payload ← decodePayload header.kind body
    return { header, payload, addressProof := .none }

/-- `open_media` up to the update of the replay window. -/
def openMediaChecked (aead : Aead) (authProof : AuthProof) (protection : MediaProtection)
    (bytes : Bytes) : Except MediaError OpenedMedia := do
  let (header, body) ← parseHeader bytes
  reject (header.routeId ≠ protection.routeId) (.crypto .wrongKeyId)
  match protection with
  | .aead _ _ recv =>
    let (buf, opened) := openInPlaceWithAad aead recv header.counter (mediaAad bytes) body
    let plaintextLen ← opened.mapError .crypto
    let payload ← decodePayload header.kind (buf.take plaintextLen)
    return { header, payload, addressProof := .authenticatedDatagram }
  | .clear _ bindKey => openClear authProof bindKey header body

/-- `open_media_in_place` up to the update of the replay window, with the receive buffer as it
is left. -/
def openMediaInPlaceChecked (aead : Aead) (authProof : AuthProof) (protection : MediaProtection)
    (bytes : Bytes) : Bytes × Except MediaError OpenedMedia :=
  match parseHeader bytes with
  | .error e => (bytes, .error e)
  | .ok (header, _) =>
    if header.routeId ≠ protection.routeId then (bytes, .error (.crypto .wrongKeyId))
    else
      match protection with
      | .aead _ _ recv =>
        let (body, opened) := openInPlaceWithAad aead recv header.counter (mediaAad bytes)
          (bytes.drop udpHeaderLen)
        let bytes := bytes.take udpHeaderLen ++ body
        match opened with
        | .error e => (bytes, .error (.crypto e))
        | .ok plaintextLen =>
          match decodePayload header.kind (slice bytes udpHeaderLen plaintextLen) with
          | .error e => (bytes, .error e)
          | .ok payload => (bytes, .ok { header, payload, addressProof := .authenticatedDatagram })
      | .clear _ bindKey => (bytes, openClear authProof bindKey header (bytes.drop udpHeaderLen))

/-- The end of both functions: an authenticated datagram has to pass the replay window. -/
def updateReplay (replay : AntiReplay) :
    Except MediaError OpenedMedia → AntiReplay × Except MediaError OpenedMedia
  | .error e => (replay, .error e)
  | .ok opened =>
    if opened.addressProof = .none then (replay, .ok opened)
    else
      match replay.update opened.header.counter with
      | (replay, false) => (replay, .error .replay)
      | (replay, true) => (replay, .ok opened)

def openMedia (aead : Aead) (authProof : AuthProof) (protection : MediaProtection)
    (replay : AntiReplay) (bytes : Bytes) : AntiReplay × Except MediaError OpenedMedia :=
  updateReplay replay (openMediaChecked aead authProof protection bytes)

def openMediaInPlace (aead : Aead) (authProof : AuthProof) (protection : MediaProtection)
    (replay : AntiReplay) (bytes : Bytes) : AntiReplay × Except MediaError OpenedMedia :=
  updateReplay replay (openMediaInPlaceChecked aead authProof protection bytes).2

end Chatt.Media
