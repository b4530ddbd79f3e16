import Chatt.Model.Crypto

/-!
# Media payloads

The payloads of a media datagram and their wire form (crates/rpc/src/media.rs:37-221,
822-1113).  The borrowed and the owned payload types of the source hold the same data and are
one type here.
-/

namespace Chatt.Media

open Lib

def maxVoicePayloadBytes : ℕ := 1024

def kindBind : Byte := 1

def kindVoice : Byte := 2

def kindPing : Byte := 3

def kindPong : Byte := 4

def kindPeerVoice : Byte := 5

def kindNatProbe : Byte := 6

def kindVoiceFeedback : Byte := 7

def kindPeerVoiceFeedback : Byte := 8

def kindVoiceFeedbackFrom : Byte := 9

def voicePayloadOpus : Byte := 0

def voicePayloadSilence : Byte := 1

inductive MediaError
  | tooShort
  | unsupportedVersion (version : Byte)
  | unknownKind (kind : Byte)
  | payloadTooLarge
  | invalidPayload
  | crypto (error : CryptoError)
  | replay
  deriving DecidableEq, Repr

inductive VoicePayload
  | opus (opus : Bytes)
  | silence
  deriving DecidableEq, Repr

structure VoiceFeedback where
  highestContiguousSequence : UInt32
  expectedPackets : UInt16
  lostPackets : UInt16
  latePackets : UInt16
  duplicatePackets : UInt16
  reorderedPackets : UInt16
  windowMs : UInt16
  maxOutputRingMs : UInt16
  maxNeteqTargetMs : UInt16
  maxNeteqPlayoutDelayMs : UInt16
  maxNeteqPacketBufferMs : UInt16
  maxInterarrivalJitterMs : UInt16
  deriving DecidableEq, Repr

/-- The fields of a voice packet that both voice payloads carry. -/
structure VoiceFrame where
  streamId : UInt32
  sequence : UInt32
  timestamp : UInt32
  flags : Byte
  payload : VoicePayload
  deriving DecidableEq, Repr

inductive MediaPayload
  | bind
  | natProbe (probeId : Byte)
  | voice (frame : VoiceFrame)
  | peerVoice (connectionId : UInt64) (frame : VoiceFrame)
  | voiceFeedback (streamId : UInt32) (feedback : VoiceFeedback)
  | peerVoiceFeedback (connectionId : UInt64) (streamId : UInt32) (feedback : VoiceFeedback)
  | voiceFeedbackFrom (reporter : UInt64) (streamId : UInt32) (feedback : VoiceFeedback)
  | ping (nonce : UInt64) (observedRttMs : Option UInt16)
  | pong (nonce : UInt64)
  deriving DecidableEq, Repr

def MediaPayload.kind : MediaPayload → Byte
  | .bind => kindBind
  | .natProbe _ => kindNatProbe
  | .voice _ => kindVoice
  | .peerVoice _ _ => kindPeerVoice
  | .voiceFeedback _ _ => kindVoiceFeedback
  | .peerVoiceFeedback _ _ _ => kindPeerVoiceFeedback
  | .voiceFeedbackFrom _ _ _ => kindVoiceFeedbackFrom
  | .ping _ _ => kindPing
  | .pong _ => kindPong

/-! ## Encoding -/

def encodeVoiceFeedback (f : VoiceFeedback) : Bytes :=
  putWord f.highestContiguousSequence ++ putWord f.expectedPackets ++ putWord f.lostPackets ++
    putWord f.latePackets ++ putWord f.duplicatePackets ++ putWord f.reorderedPackets ++
    putWord f.windowMs ++ putWord f.maxOutputRingMs ++ putWord f.maxNeteqTargetMs ++
    putWord f.maxNeteqPlayoutDelayMs ++ putWord f.maxNeteqPacketBufferMs ++
    putWord f.maxInterarrivalJitterMs

/-- A length within `MAX_VOICE_PAYLOAD_BYTES` fits `u16`, so the conversion that follows the
check does not fail. -/
def encodeVoicePayload : VoicePayload → Except MediaError Bytes
  | .opus opus =>
    if opus.isEmpty ∨ opus.length > maxVoicePayloadBytes then .error .payloadTooLarge
    else .ok (voicePayloadOpus :: putWord (UInt16.ofNat opus.length) ++ opus)
  | .silence => .ok (voicePayloadSilence :: putWord (0 : UInt16))

def encodeVoiceFrame (f : VoiceFrame) : Except MediaError Bytes := do
  let payload ← encodeVoicePayload f.payload
  return putWord f.streamId ++ putWord f.sequence ++ putWord f.timestamp ++ f.flags :: payload

/-- The bytes after the kind. -/
def encodePayloadBody : MediaPayload → Except MediaError Bytes
  | .bind => .ok []
  | .natProbe probeId => .ok [probeId]
  | .voice frame => encodeVoiceFrame frame
  | .peerVoice connectionId frame => do
    let frame ← encodeVoiceFrame frame
    return putWord connectionId ++ frame
  | .voiceFeedback streamId feedback => .ok (putWord streamId ++ encodeVoiceFeedback feedback)
  | .peerVoiceFeedback connectionId streamId feedback =>
    .ok (putWord connectionId ++ putWord streamId ++ encodeVoiceFeedback feedback)
  | .voiceFeedbackFrom reporter streamId feedback =>
    .ok (putWord reporter ++ putWord streamId ++ encodeVoiceFeedback feedback)
  | .ping nonce observedRttMs =>
    match observedRttMs with
    | some rttMs => .ok (putWord nonce ++ 1 :: putWord rttMs)
    | none => .ok (putWord nonce ++ [0])
  | .pong nonce => .ok (putWord nonce)

/-- The bytes `encode_payload_ref_into` appends to its buffer. -/
def encodePayload (payload : MediaPayload) : Except MediaError Bytes := do
  let body ← encodePayloadBody payload
  return payload.kind :: body

/-! ## Decoding -/

variable (bytes : Bytes)

def decodeVoicePayload : Except MediaError VoicePayload :=
  if bytes.length < 3 then .error .invalidPayload
  else
    let len := (wordAt UInt16 bytes 1).toNat
    if byteAt bytes 0 = voicePayloadOpus then
      if len = 0 ∨ len > maxVoicePayloadBytes ∨ bytes.length ≠ 3 + len then .error .invalidPayload
      else .ok (.opus (bytes.drop 3))
    else if byteAt bytes 0 = voicePayloadSilence then
      if len ≠ 0 ∨ bytes.length ≠ 3 then .error .invalidPayload
      else .ok .silence
    else .error .invalidPayload

def decodeVoiceFeedback : Except MediaError VoiceFeedback :=
  if bytes.length ≠ 26 then .error .invalidPayload
  else .ok {
    highestContiguousSequence := wordAt UInt32 bytes 0
    expectedPackets := wordAt UInt16 bytes 4
    lostPackets := wordAt UInt16 bytes 6
    latePackets := wordAt UInt16 bytes 8
    duplicatePackets := wordAt UInt16 bytes 10
    reorderedPackets := wordAt UInt16 bytes 12
    windowMs := wordAt UInt16 bytes 14
    maxOutputRingMs := wordAt UInt16 bytes 16
    maxNeteqTargetMs := wordAt UInt16 bytes 18
    maxNeteqPlayoutDelayMs := wordAt UInt16 bytes 20
    maxNeteqPacketBufferMs := wordAt UInt16 bytes 22
    maxInterarrivalJitterMs := wordAt UInt16 bytes 24 }

/-- A voice frame whose fields start at `start`. -/
def decodeVoiceFrame (start : ℕ) : Except MediaError VoiceFrame := do
  let payload ← decodeVoicePayload (bytes.drop (start + 13))
  return {
    streamId := wordAt UInt32 bytes start
    sequence := wordAt UInt32 bytes (start + 4)
    timestamp := wordAt UInt32 bytes (start + 8)
    flags := byteAt bytes (start + 12)
    payload }

/-! The arms of `decode_payload_ref`, one for each kind. -/

def decodeBind : Except MediaError MediaPayload :=
  if ¬ bytes.isEmpty then .error .invalidPayload else .ok .bind

def decodeNatProbe : Except MediaError MediaPayload :=
  if bytes.length ≠ 1 then .error .invalidPayload else .ok (.natProbe (byteAt bytes 0))

def decodeVoice : Except MediaError MediaPayload :=
  if bytes.length < 16 then .error .invalidPayload
  else do
    let frame ← decodeVoiceFrame bytes 0
    return .voice frame

def decodePeerVoice : Except MediaError MediaPayload :=
  if bytes.length < 24 then .error .invalidPayload
  else do
    let frame ← decodeVoiceFrame bytes 8
    return .peerVoice (wordAt UInt64 bytes 0) frame

def decodeVoiceFeedbackPayload : Except MediaError MediaPayload :=
  if bytes.length ≠ 30 then .error .invalidPayload
  else do
    let feedback ← decodeVoiceFeedback (bytes.drop 4)
    return .voiceFeedback (wordAt UInt32 bytes 0) feedback

/-- Feedback with a connection or a reporter in front of the stream. -/
def decodeAddressedFeedback (payload : UInt64 → UInt32 → VoiceFeedback → MediaPayload)
    (bytes : Bytes) : Except MediaError MediaPayload :=
  if bytes.length ≠ 38 then .error .invalidPayload
  else do
    let feedback ← decodeVoiceFeedback (bytes.drop 12)
    return payload (wordAt UInt64 bytes 0) (wordAt UInt32 bytes 8) feedback

def decodePeerVoiceFeedback : Bytes → Except MediaError MediaPayload :=
  decodeAddressedFeedback .peerVoiceFeedback

def decodeVoiceFeedbackFrom : Bytes → Except MediaError MediaPayload :=
  decodeAddressedFeedback .voiceFeedbackFrom

def decodePing : Except MediaError MediaPayload :=
  if bytes.length ≠ 9 ∧ bytes.length ≠ 11 then .error .invalidPayload
  else if byteAt bytes 8 = 0 ∧ bytes.length = 9 then .ok (.ping (wordAt UInt64 bytes 0) none)
  else if byteAt bytes 8 = 1 ∧ bytes.length = 11 then
    .ok (.ping (wordAt UInt64 bytes 0) (some (wordAt UInt16 bytes 9)))
  else .error .invalidPayload

def decodePong : Except MediaError MediaPayload :=
  if bytes.length ≠ 8 then .error .invalidPayload else .ok (.pong (wordAt UInt64 bytes 0))

/-- The match of `decode_payload_ref` on the kind. -/
def decodePayloadBody (kind : Byte) (bytes : Bytes) : Except MediaError MediaPayload :=
  if kind = kindBind then decodeBind bytes
  else if kind = kindNatProbe then decodeNatProbe bytes
  else if kind = kindVoice then decodeVoice bytes
  else if kind = kindPeerVoice then decodePeerVoice bytes
  else if kind = kindVoiceFeedback then decodeVoiceFeedbackPayload bytes
  else if kind = kindPeerVoiceFeedback then decodePeerVoiceFeedback bytes
  else if kind = kindVoiceFeedbackFrom then decodeVoiceFeedbackFrom bytes
  else if kind = kindPing then decodePing bytes
  else if kind = kindPong then decodePong bytes
  else .error (.unknownKind kind)

/-- `decode_payload` and `decode_payload_ref` -/
def decodePayload (kind : Byte) : Bytes → Except MediaError MediaPayload
  | [] => .error .invalidPayload
  | payloadKind :: bytes =>
    if payloadKind ≠ kind then .error .invalidPayload else decodePayloadBody kind bytes

end Chatt.Media
