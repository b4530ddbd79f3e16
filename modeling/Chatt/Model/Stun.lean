import Chatt.Lib.Utf8
import Chatt.Model.Identity

/-!
# STUN messages

Encoding, decoding and the integrity check of Binding messages (crates/p2p/src/stun.rs:1-452).
`MessageKind` has the one value `Binding` and is left out.  The keyed hash is a parameter.
-/

namespace Chatt.Stun

open Lib

def magicCookie : Bytes := [0x21, 0x12, 0xa4, 0x42]

def headerLen : ℕ := 20

def bindingRequest : UInt16 := 0x0001

def bindingSuccess : UInt16 := 0x0101

def attrUsername : UInt16 := 0x0006

def attrMessageIntegritySha256 : UInt16 := 0x001c

def attrXorMappedAddress : UInt16 := 0x0020

def attrPriority : UInt16 := 0x0024

def attrUseCandidate : UInt16 := 0x0025

def attrFingerprint : UInt16 := 0x8028

def attrSoftware : UInt16 := 0x8022

def attrIceControlled : UInt16 := 0x8029

def attrIceControlling : UInt16 := 0x802a

def integrityAttrLen : ℕ := 4 + 32

def fingerprintAttrLen : ℕ := 4 + 4

def fingerprintXor : UInt32 := 0x5354554e

abbrev TransactionId := ByteArr 12

inductive MessageClass
  | request
  | successResponse
  deriving DecidableEq

inductive RoleAttribute
  | controlling (tieBreaker : UInt64)
  | controlled (tieBreaker : UInt64)
  deriving DecidableEq

structure StunMessage where
  messageClass : MessageClass
  transactionId : TransactionId
  username : Option (List Char)
  priority : Option UInt32
  role : Option RoleAttribute
  useCandidate : Bool
  xorMappedAddress : Option SocketAddr
  deriving DecidableEq

inductive StunError
  | tooShort
  | notStun
  | lengthMismatch
  | unknownMessageType (typ : UInt16)
  | invalidAttribute
  | invalidAddressFamily (family : Byte)
  | integrityFailure
  deriving DecidableEq

/-- `stun_integrity`, an HMAC with a key of 32 bytes -/
abbrev StunIntegrity := ByteArr 32 → Bytes → ByteArr 32

/-- A call of `stun_integrity`. -/
structure IntegrityCall where
  key : ByteArr 32
  message : Bytes
  deriving DecidableEq

/-- The tag that the call returns. -/
def IntegrityCall.run (stunIntegrity : StunIntegrity) (call : IntegrityCall) : ByteArr 32 :=
  stunIntegrity call.key call.message

def stunVerify (stunIntegrity : StunIntegrity) (key : ByteArr 32) (message tag : Bytes) : Bool :=
  (stunIntegrity key message).val = tag

namespace StunMessage

def bindingRequest (transactionId : TransactionId) (username : Option (List Char))
    (priority : UInt32) (role : RoleAttribute) (useCandidate : Bool) : StunMessage where
  messageClass := .request
  transactionId := transactionId
  username := username
  priority := some priority
  role := some role
  useCandidate := useCandidate
  xorMappedAddress := none

def bindingSuccess (transactionId : TransactionId) (mapped : SocketAddr) : StunMessage where
  messageClass := .successResponse
  transactionId := transactionId
  username := none
  priority := none
  role := none
  useCandidate := false
  xorMappedAddress := some mapped

end StunMessage

/-! ## Mapped addresses -/

/-- A byte string under a mask. -/
def xorBytes (bytes mask : Bytes) : Bytes := List.zipWith (· ^^^ ·) bytes mask

def addressMask (transactionId : TransactionId) : Bytes := magicCookie ++ transactionId.val

/-- The port under the high half of the cookie. -/
def maskPort (port : UInt16) : UInt16 := port ^^^ 0x2112

def encodeXorMapped (addr : SocketAddr) (transactionId : TransactionId) : Bytes :=
  match addr with
  | .v4 ip port => 0 :: 1 :: (putWordBe (maskPort port) ++ xorBytes ip.val magicCookie)
  | .v6 ip port _ _ =>
    0 :: 2 :: (putWordBe (maskPort port) ++ xorBytes ip.val (addressMask transactionId))

/-- An address of the given number of bytes, taken from a value whose length was checked. -/
def toArr (n : ℕ) (bytes : Bytes) : ByteArr n :=
  if h : bytes.length = n then ⟨bytes, h⟩ else ByteArr.replicate n 0

def decodeXorMapped (value : Bytes) (transactionId : TransactionId) : Except StunError SocketAddr :=
  if value.length < 8 ∨ byteAt value 0 ≠ 0 then .error .invalidAttribute
  else
    let family := byteAt value 1
    let port := maskPort (wordBe UInt16 (slice value 2 2))
    if family = 1 then
      if value.length ≠ 8 then .error .invalidAttribute
      else .ok (.v4 (toArr 4 (xorBytes (value.drop 4) magicCookie)) port)
    else if family = 2 then
      if value.length ≠ 20 then .error .invalidAttribute
      else .ok (.v6 (toArr 16 (xorBytes (value.drop 4) (addressMask transactionId))) port 0 0)
    else .error (.invalidAddressFamily family)

/-! ## Encoding -/

/-- `(len + 3) & !3` -/
def paddedLen (len : ℕ) : ℕ := (len + 3) / 4 * 4

/-- What `append_attr` appends. -/
def attr (attrType : UInt16) (value : Bytes) : Bytes :=
  putWordBe attrType ++ putWordBe (UInt16.ofNat value.length) ++ value ++
    List.replicate (paddedLen value.length - value.length) 0

def messageType : MessageClass → UInt16
  | .request => bindingRequest
  | .successResponse => bindingSuccess

def parseMessageType (value : UInt16) : Except StunError MessageClass :=
  if value = bindingRequest then .ok .request
  else if value = bindingSuccess then .ok .successResponse
  else .error (.unknownMessageType value)

/-- CRC-32 (IEEE 802.3) -/
def crc32 (data : Bytes) : UInt32 :=
  let shift (crc : UInt32) : UInt32 := (crc >>> 1) ^^^ (if crc &&& 1 = 1 then 0xedb88320 else 0)
  let step (crc : UInt32) (byte : Byte) : UInt32 := shift^[8] (crc ^^^ UInt32.ofNat byte.val)
  ~~~data.foldl step 0xffffffff

namespace StunMessage

def roleAttr : RoleAttribute → Bytes
  | .controlling value => attr attrIceControlling (putWordBe value)
  | .controlled value => attr attrIceControlled (putWordBe value)

/-- The attributes that `encode` writes before it signs. -/
def attrs (m : StunMessage) : Bytes :=
  m.username.elim [] (fun username => attr attrUsername (utf8 username)) ++
  (m.priority.elim [] (fun priority => attr attrPriority (putWordBe priority)) ++
  (m.role.elim [] roleAttr ++
  ((if m.useCandidate then attr attrUseCandidate [] else []) ++
  (m.xorMappedAddress.elim [] (fun mapped =>
  attr attrXorMappedAddress (encodeXorMapped mapped m.transactionId)) ++
  attr attrSoftware (ascii "chatt-p2p")))))

/-- The header; `length as u16` wraps. -/
def header (m : StunMessage) (length : ℕ) : Bytes :=
  putWordBe (messageType m.messageClass) ++ putWordBe (UInt16.ofNat length) ++ magicCookie ++
    m.transactionId.val

def assemble (m : StunMessage) (attrs : Bytes) : Bytes := m.header attrs.length ++ attrs

/-- The bytes of the message, with the call that signs it: the header that is signed counts the
integrity attribute. -/
def encode (stunIntegrity : StunIntegrity) (m : StunMessage) (key : Option (ByteArr 32)) :
    Bytes × Option IntegrityCall :=
  match key with
  | none => (m.assemble m.attrs, none)
  | some key =>
    let call : IntegrityCall := ⟨key, m.header (m.attrs.length + integrityAttrLen) ++ m.attrs⟩
    let attrs := m.attrs ++ attr attrMessageIntegritySha256 (call.run stunIntegrity).val
    let crc := crc32 (m.header (attrs.length + fingerprintAttrLen) ++ attrs) ^^^ fingerprintXor
    (m.assemble (attrs ++ attr attrFingerprint (putWordBe crc)), some call)

/-! ## Decoding -/

/-- What an attribute does to the message that is being decoded. -/
def setAttr (m : StunMessage) (attrType : UInt16) (value : Bytes) : Except StunError StunMessage :=
  if attrType = attrUsername then
    match fromUtf8 value with
    | none => .error .invalidAttribute
    | some username => .ok { m with username := some username }
  else if attrType = attrPriority then
    if value.length ≠ 4 then .error .invalidAttribute
    else .ok { m with priority := some (wordBe UInt32 value) }
  else if attrType = attrIceControlling then
    if value.length ≠ 8 then .error .invalidAttribute
    else .ok { m with role := some (.controlling (wordBe UInt64 value)) }
  else if attrType = attrIceControlled then
    if value.length ≠ 8 then .error .invalidAttribute
    else .ok { m with role := some (.controlled (wordBe UInt64 value)) }
  else if attrType = attrUseCandidate then
    if value ≠ [] then .error .invalidAttribute
    else .ok { m with useCandidate := true }
  else if attrType = attrXorMappedAddress then
    match decodeXorMapped value m.transactionId with
    | .error e => .error e
    | .ok mapped => .ok { m with xorMappedAddress := some mapped }
  else .ok m

end StunMessage

/-- The attribute at the front of the bytes that are left, and the bytes behind its padding. -/
def splitAttr (rest : Bytes) : Option (UInt16 × Bytes × Bytes) :=
  if rest.length < 4 then none
  else
    let attrLen := (wordBe UInt16 (slice rest 2 2)).toNat
    if rest.length < 4 + attrLen then none
    else some (wordBe UInt16 (slice rest 0 2), slice rest 4 attrLen,
      rest.drop (4 + paddedLen attrLen))

namespace StunMessage

/-- The loop over the attributes, for a number of rounds. -/
def decodeAttrs : ℕ → StunMessage → Bytes → Except StunError StunMessage
  | 0, m, _ => .ok m
  | rounds + 1, m, rest =>
    if rest = [] then .ok m
    else
      match splitAttr rest with
      | none => .error .invalidAttribute
      | some (attrType, value, rest) =>
        match m.setAttr attrType value with
        | .error e => .error e
        | .ok m => decodeAttrs rounds m rest

/-- The length that the header announces. -/
def announced (bytes : Bytes) : ℕ := (wordBe UInt16 (slice bytes 2 2)).toNat

/-- Every attribute takes at least four bytes, so as many rounds as there are bytes are enough. -/
def decode (bytes : Bytes) : Except StunError StunMessage :=
  if bytes.length < headerLen then .error .tooShort
  else if (byteAt bytes 0).val &&& 0b11000000 ≠ 0 then .error .notStun
  else if bytes.length < headerLen + announced bytes then .error .lengthMismatch
  else if slice bytes 4 4 ≠ magicCookie then .error .notStun
  else
    match parseMessageType (wordBe UInt16 (slice bytes 0 2)) with
    | .error e => .error e
    | .ok messageClass =>
      decodeAttrs (announced bytes)
        { messageClass, transactionId := toArr 12 (slice bytes 8 12), username := none
          priority := none, role := none, useCandidate := false, xorMappedAddress := none }
        (slice bytes headerLen (announced bytes))

/-- The loop of `find_attr`, for a number of rounds. -/
def findAttrFrom (attrType : UInt16) : ℕ → ℕ → Bytes → Option ℕ
  | 0, _, _ => none
  | rounds + 1, offset, rest =>
    if rest.length < 4 then none
    else if wordBe UInt16 (slice rest 0 2) = attrType then some offset
    else
      let step := 4 + paddedLen (wordBe UInt16 (slice rest 2 2)).toNat
      findAttrFrom attrType rounds (offset + step) (rest.drop step)

def findAttr (bytes : Bytes) (attrType : UInt16) : Option ℕ :=
  if bytes.length < headerLen then none
  else findAttrFrom attrType (announced bytes) headerLen (slice bytes headerLen (announced bytes))

/-- The bytes in front of the integrity attribute, with the length they were signed with. -/
def signedPart (bytes : Bytes) (integrityOffset : ℕ) : Bytes :=
  bytes.take 2 ++ putWordBe (UInt16.ofNat (integrityOffset + integrityAttrLen - headerLen)) ++
    (bytes.take integrityOffset).drop 4

def decodeAndVerify (stunIntegrity : StunIntegrity) (bytes : Bytes) (key : ByteArr 32) :
    Except StunError StunMessage :=
  match decode bytes with
  | .error e => .error e
  | .ok message =>
    match findAttr bytes attrMessageIntegritySha256 with
    | none => .error .integrityFailure
    | some integrityOffset =>
      if bytes.length < integrityOffset + 4 + 32 then .error .integrityFailure
      else if stunVerify stunIntegrity key (signedPart bytes integrityOffset)
          (slice bytes (integrityOffset + 4) 32) then .ok message
      else .error .integrityFailure

end StunMessage

end Chatt.Stun
