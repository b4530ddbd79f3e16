import Chatt.Interface.IdealCrypto
import Chatt.Lib.Run
import Chatt.Model.Media

/-!
# A media session under attack

One end seals payloads under counters of its choice, an adversary delivers any byte strings to
the other end.
-/

namespace Chatt.Media

open Lib

/-- The two ends of a session: what one sends the other receives. -/
def Peers : MediaProtection → MediaProtection → Prop
  | .aead route send _, .aead route' _ recv' => route = route' ∧ send = recv'
  | .clear route bindKey, .clear route' bindKey' => route = route' ∧ bindKey = bindKey'
  | _, _ => False

structure MediaState where
  /-- the counters and payloads the sender has sealed, latest first -/
  sealed : List (UInt64 × MediaPayload)
  /-- the calls of the AEAD that sealing them has made -/
  seals : List AeadSeal
  /-- the keys and messages the MAC was called with for bind proofs -/
  proofs : List (ByteArr 32 × Bytes)
  /-- the receiver's replay window -/
  replay : AntiReplay
  /-- what the receiver has accepted, latest first -/
  accepted : List OpenedMedia

def MediaState.initial : MediaState :=
  { sealed := [], seals := [], proofs := [], replay := AntiReplay.new, accepted := [] }

inductive MediaAction
  | sealPayload (counter : UInt64) (payload : MediaPayload)
  | deliver (bytes : Bytes) (inPlace : Bool)

section

variable (aead : Aead) (authProof : AuthProof) (sender receiver : MediaProtection)

/-- Opening by either function. -/
def receive (inPlace : Bool) (replay : AntiReplay) (bytes : Bytes) :
    AntiReplay × Except MediaError OpenedMedia :=
  if inPlace then openMediaInPlace aead authProof receiver replay bytes
  else openMedia aead authProof receiver replay bytes

def MediaState.next (s : MediaState) : MediaAction → Option MediaState
  | .sealPayload counter payload =>
    match sealMedia aead authProof sender counter payload with
    | .error _ => some s
    | .ok result =>
      some { s with
        sealed := (counter, payload) :: s.sealed
        seals := result.aeadSeal.toList ++ s.seals
        proofs := result.proof.toList ++ s.proofs }
  | .deliver bytes inPlace =>
    match receive aead authProof receiver inPlace s.replay bytes with
    | (replay, .error _) => some { s with replay }
    | (replay, .ok opened) => some { s with replay, accepted := opened :: s.accepted }

/-- The adversary forges neither the AEAD nor the MAC: what opens or verifies in the delivered
datagram was sealed or signed before. -/
def Unforged (s : MediaState) : MediaAction → Prop
  | .sealPayload _ _ => True
  | .deliver bytes _ =>
    match receiver with
    | .aead _ _ recv =>
      aead.Authentic recv.bytes s.seals
        (nonceFromCounter (wordAt UInt64 bytes 6)) (mediaAad bytes) (bytes.drop udpHeaderLen)
    | .clear _ bindKey =>
      let message := bindProofMessage (wordAt UInt32 bytes 2) (byteAt bytes 1)
        (wordAt UInt64 bytes 6)
      authProofVerify authProof bindKey message (bytes.drop (bytes.length - authProofLen)) = true →
        (bindKey, message) ∈ s.proofs

instance decidableUnforged (s : MediaState) (a : MediaAction) :
    Decidable (Unforged aead authProof receiver s a) := by
  cases a <;> cases receiver <;> dsimp only [Unforged] <;> infer_instance

end

end Chatt.Media
