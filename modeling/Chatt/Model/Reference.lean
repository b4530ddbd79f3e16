import Chatt.Lib.BitBuffer
import Chatt.Model.Tokenizer

/-!
# Codes of message references

The code after `@@` is two LEB128 numbers and a checksum in Crockford's base32
(crates/message-format/src/reference.rs).  Bytes and values that are not text are numbers.
-/

namespace Chatt.MessageFormat

open Lib

def alphabet : Source := ascii "0123456789abcdefghjkmnpqrstvwxyz"

structure MessageRef where
  roomId : UInt32
  messageId : UInt64
deriving DecidableEq, Repr

def encodeValue (value : ℕ) : Fin 256 := alphabet.getD (value % 32) 0

/-- The letter of the alphabet that a letter of a code stands for. -/
def canonical (byte : Fin 256) : Fin 256 :=
  let byte := toAsciiLowercase byte
  if byte = chr 'i' ∨ byte = chr 'l' then chr '1' else if byte = chr 'o' then chr '0' else byte

def decodeValue (byte : Fin 256) : Option ℕ := alphabet.idxOf? (canonical byte)

/-- The `while` loop of `encode_base32` -/
def pushGroups (s : BitBuffer) : BitBuffer :=
  if 5 ≤ s.bits then pushGroups (s.push 5) else s
termination_by s.bits
decreasing_by
  simp only [BitBuffer.push]
  omega

def takeByte (s : BitBuffer) (byte : ℕ) : BitBuffer := pushGroups (s.shiftIn 8 byte)

/-- The values whose letters `encode_base32` pushes, the last filled up with zero bits -/
def base32Values (bytes : List ℕ) : List ℕ :=
  let s := bytes.foldl takeByte {}
  if 0 < s.bits then ((s.shiftIn (5 - s.bits) 0).push 5).out else s.out

def encodeBase32 (bytes : List ℕ) : Source := (base32Values bytes).map encodeValue

def takeValue (s : BitBuffer) (value : ℕ) : BitBuffer :=
  let s := s.shiftIn 5 value
  if 8 ≤ s.bits then s.push 8 else s

/-- The loop of `decode` -/
def decodeBase32 (values : List ℕ) : List ℕ := (values.foldl takeValue {}).out

def checksum (payload : List ℕ) : ℕ := payload.foldl (fun sum byte => (sum + byte) % 256) 0 % 32

/-- What `push_leb128` pushes. -/
def pushLeb128 (value : ℕ) : List ℕ :=
  if value / 128 = 0 then [value % 128] else (value % 128 + 128) :: pushLeb128 (value / 128)

/-- The number read and the bytes from `pos` on. -/
def readLeb128 (value shift : ℕ) : List ℕ → Option (ℕ × List ℕ)
  | [] => none
  | byte :: rest =>
    if shift = 63 ∧ 1 < byte then none
    else
      let value := value ||| (byte % 128) <<< shift
      if byte < 128 then some (value, rest)
      else if 63 < shift + 7 then none
      else readLeb128 value (shift + 7) rest

/-! ## The same base32 for bytes of any length (crates/rpc/src/base32.rs) -/

namespace Base32

def encode (bytes : List ℕ) : Source := encodeBase32 bytes

def takeValue (s : BitBuffer) (value : ℕ) : BitBuffer :=
  let s := s.shiftIn 5 value
  if 8 ≤ s.bits then { s.push 8 with acc := s.acc % 2 ^ (s.bits - 8) } else s

def decode (value : Source) : Option (List ℕ) := do
  let values ← value.mapM decodeValue
  let s := values.foldl takeValue {}
  guard ¬(0 < s.bits ∧ s.acc ≠ 0)
  return s.out

end Base32

/-! ## References -/

namespace MessageRef

def payload (r : MessageRef) : List ℕ := pushLeb128 r.roomId.toNat ++ pushLeb128 r.messageId.toNat

def encode (r : MessageRef) : Source := encodeBase32 r.payload ++ [encodeValue (checksum r.payload)]

def decode (code : Source) : Option MessageRef := do
  guard (minCodeLen ≤ code.length ∧ code.length ≤ maxCodeLen)
  let values ← code.mapM decodeValue
  let check ← values.getLast?
  let payload := decodeBase32 values.dropLast
  guard (checksum payload = check)
  let (roomId, rest) ← readLeb128 0 0 payload
  guard (roomId < 2 ^ 32)
  let (messageId, rest) ← readLeb128 0 0 rest
  guard (rest = [])
  let decoded : MessageRef := ⟨.ofNat roomId, .ofNat messageId⟩
  guard (decoded.encode = values.map encodeValue)
  return decoded

end MessageRef

end Chatt.MessageFormat
