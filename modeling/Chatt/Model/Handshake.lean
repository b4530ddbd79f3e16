import Chatt.Model.Crypto
import Chatt.Model.Identity

/-!
# The signed handshake

Client and server hellos, their transcripts and the derivation of the session
(crates/rpc/src/crypto.rs:98-185, 252-285, 340-620; hellos from crates/rpc/src/control.rs:64-93).
X25519, Ed25519, SHA-256 and HKDF are parameters.  What the random generator draws is an
argument, `none` where it fails.
-/

namespace Chatt.Handshake

open Lib

def protocolVersion : UInt16 := 27

structure SessionSecrets where
  controlSend : KeyMaterial
  controlRecv : KeyMaterial
  mediaSend : KeyMaterial
  mediaRecv : KeyMaterial
  deriving DecidableEq

structure SessionTransport where
  mode : TransportMode
  secrets : SessionSecrets
  routeId : UInt32
  bindKey : ByteArr 32
  videoAuthKey : ByteArr 32
  deriving DecidableEq

structure ClientHello where
  version : UInt16
  modes : Bytes
  clientNonce : Bytes
  clientEphemeral : Bytes
  mac1 : ByteArr 16
  deriving DecidableEq

structure ServerHello where
  version : UInt16
  mode : Byte
  serverNonce : Bytes
  serverEphemeral : Bytes
  serverPublicKey : Bytes
  signature : Bytes
  deriving DecidableEq

/-- The primitives: X25519, Ed25519, SHA-256, HMAC and HKDF. -/
structure Primitives (Private SigningKey : Type) where
  computePublicKey : Private → ByteArr 32
  agreeEphemeral : Private → Bytes → Option Bytes
  publicKey : SigningKey → ByteArr 32
  sign : SigningKey → Bytes → Bytes
  verifySig : Bytes → Bytes → Bytes → Bool
  sha256 : Bytes → ByteArr 32
  hmac : Bytes → Bytes → ByteArr 32
  extract : Bytes → Bytes → Bytes
  expandKey : Bytes → Bytes → ByteArr 32

variable {Private SigningKey : Type} (prim : Primitives Private SigningKey)

/-- A client's ephemeral key and the hello that announces it. -/
structure ClientHandshake where
  priv : Private
  hello : ClientHello
  announced : hello.clientEphemeral = (prim.computePublicKey priv).val

structure ServerHandshake where
  hello : ServerHello
  transport : SessionTransport
  deriving DecidableEq

/-! ## The client's hello -/

def labelMac1 : Bytes := ascii "chatt mac1 v1"

def clientHelloMac1 (serverPublicKey : ByteArr 32) (hello : ClientHello) : ByteArr 16 :=
  let macKey := prim.sha256 (labelMac1 ++ serverPublicKey.val)
  let tag := prim.hmac macKey.val (labelMac1 ++ putWord hello.version ++
    putWord (UInt32.ofNat hello.modes.length) ++ hello.modes ++
    putWord (UInt32.ofNat hello.clientNonce.length) ++ hello.clientNonce ++
    putWord (UInt32.ofNat hello.clientEphemeral.length) ++ hello.clientEphemeral)
  ⟨tag.val.take 16, by simp [tag.property]⟩

def supportedWireIds : Bytes := [TransportMode.encrypted.wireId, TransportMode.plaintext.wireId]

def generateClientHello (priv : Option Private) (nonce : Option (ByteArr 32))
    (serverPublicKey : Option (ByteArr 32)) : Except CryptoError (ClientHandshake prim) := do
  let priv ← require priv .random
  let nonce ← require nonce .random
  let hello : ClientHello := {
    version := protocolVersion
    modes := supportedWireIds
    clientNonce := nonce.val
    clientEphemeral := (prim.computePublicKey priv).val
    mac1 := ByteArr.replicate 16 0 }
  match serverPublicKey with
  | none => return { priv, hello, announced := rfl }
  | some key =>
    return { priv, hello := { hello with mac1 := clientHelloMac1 prim key hello }, announced := rfl }

/-! ## Transcripts -/

def validateClientHello (hello : ClientHello) : Except CryptoError Unit := do
  reject (hello.version ≠ protocolVersion) (.unsupportedVersion hello.version)
  reject (hello.clientNonce.length ≠ 32 ∨ hello.clientEphemeral.length ≠ 32 ∨ hello.modes.isEmpty)
    .invalidHandshake

def validateServerHello (hello : ServerHello) : Except CryptoError Unit := do
  reject (hello.version ≠ protocolVersion) (.unsupportedVersion hello.version)
  reject (TransportMode.fromWireId hello.mode = none ∨ hello.serverNonce.length ≠ 32 ∨
    hello.serverEphemeral.length ≠ 32 ∨ hello.serverPublicKey.length ≠ 32 ∨
    hello.signature.isEmpty) .invalidHandshake

def serverTranscript (clientHello : ClientHello) (serverVersion : UInt16) (mode : Byte)
    (serverNonce serverEphemeral serverPublicKey : Bytes) : Bytes :=
  ascii "chatt server hello v3" ++ putWord clientHello.version ++ putWord serverVersion ++ [mode] ++
    clientHello.clientNonce ++ clientHello.clientEphemeral ++ serverNonce ++ serverEphemeral ++
    serverPublicKey

/-- The bytes that `full_transcript` hashes. -/
def transcriptBytes (clientHello : ClientHello) (serverHello : ServerHello)
    (serverPublicKey : Bytes) : Bytes :=
  serverTranscript clientHello serverHello.version serverHello.mode serverHello.serverNonce
    serverHello.serverEphemeral serverPublicKey ++ serverHello.signature

def fullTranscript (clientHello : ClientHello) (serverHello : ServerHello)
    (serverPublicKey : Bytes) : Except CryptoError Bytes := do
  validateClientHello clientHello
  validateServerHello serverHello
  return (prim.sha256 (transcriptBytes clientHello serverHello serverPublicKey)).val

/-! ## The session -/

inductive Role
  | client
  | server
  deriving DecidableEq

/-- `u32::from_le_bytes(..).max(1)` -/
def keyId (ids : ByteArr 32) (start : ℕ) : UInt32 := max (wordAt UInt32 ids.val start) 1

def deriveSessionTransport (role : Role) (mode : TransportMode) (shared transcriptHash : Bytes) :
    SessionTransport :=
  let prk := prim.extract transcriptHash shared
  let ids := prim.expandKey prk (ascii "chatt transport key ids v1")
  let clientControl : KeyMaterial :=
    ⟨keyId ids 0, prim.expandKey prk (ascii "chatt client control key v1")⟩
  let serverControl : KeyMaterial :=
    ⟨keyId ids 4, prim.expandKey prk (ascii "chatt server control key v1")⟩
  let clientMedia : KeyMaterial :=
    ⟨keyId ids 8, prim.expandKey prk (ascii "chatt client media key v1")⟩
  let serverMedia : KeyMaterial :=
    ⟨keyId ids 12, prim.expandKey prk (ascii "chatt server media key v1")⟩
  let secrets : SessionSecrets :=
    match role with
    | .client => ⟨clientControl, serverControl, clientMedia, serverMedia⟩
    | .server => ⟨serverControl, clientControl, serverMedia, clientMedia⟩
  { mode
    secrets
    routeId := keyId (prim.expandKey prk (ascii "chatt media route id v1")) 0
    bindKey := prim.expandKey prk (ascii "chatt media bind key v1")
    videoAuthKey := prim.expandKey prk (ascii "chatt video auth key v1") }

/-! ## The two ends -/

def respondToClientHello (priv : Option Private) (nonce : Option (ByteArr 32)) (key : SigningKey)
    (clientHello : ClientHello) (mode : TransportMode) : Except CryptoError ServerHandshake := do
  validateClientHello clientHello
  reject (mode.wireId ∉ clientHello.modes) .invalidHandshake
  let priv ← require priv .random
  let ephemeral := (prim.computePublicKey priv).val
  let nonce ← require nonce .random
  let shared ← require (prim.agreeEphemeral priv clientHello.clientEphemeral) .invalidHandshake
  let serverPublicKey := (prim.publicKey key).val
  let unsigned := serverTranscript clientHello protocolVersion mode.wireId nonce.val ephemeral
    serverPublicKey
  let hello : ServerHello := {
    version := protocolVersion
    mode := mode.wireId
    serverNonce := nonce.val
    serverEphemeral := ephemeral
    serverPublicKey
    signature := prim.sign key unsigned }
  let transcript ← fullTranscript prim clientHello hello serverPublicKey
  return { hello, transport := deriveSessionTransport prim .server mode shared transcript }

def resolveServerPublicKey (serverHello : ServerHello) (pinned : Option (ByteArr 32)) :
    Except CryptoError Bytes := do
  let presented := serverHello.serverPublicKey
  reject (presented.length ≠ 32) .invalidHandshake
  match pinned with
  | some key => if key.val ≠ presented then .error .invalidSignature else .ok presented
  | none => .ok presented

def completeClientTransportHandshake (handshake : ClientHandshake prim) (serverHello : ServerHello)
    (pinned : Option (ByteArr 32)) : Except CryptoError (SessionTransport × Bytes) := do
  validateServerHello serverHello
  let mode ← require (TransportMode.fromWireId serverHello.mode) .invalidHandshake
  reject (serverHello.mode ∉ handshake.hello.modes) .invalidHandshake
  let trusted ← resolveServerPublicKey serverHello pinned
  let transcript ← fullTranscript prim handshake.hello serverHello trusted
  reject (¬ prim.verifySig trusted
    (serverTranscript handshake.hello serverHello.version serverHello.mode serverHello.serverNonce
      serverHello.serverEphemeral trusted) serverHello.signature) .invalidSignature
  let shared ← require (prim.agreeEphemeral handshake.priv serverHello.serverEphemeral)
    .invalidHandshake
  return (deriveSessionTransport prim .client mode shared transcript, trusted)

end Chatt.Handshake
