import Chatt.Model.Handshake

/-!
# Agreement of the two ends

The transcript is a concatenation of parts of fixed length, so it determines every field it is
built from; a client that accepts a signature over its own view of the transcript shares that
view with the server, and the session is derived from it.
-/

namespace Chatt.Handshake

open Lib List

variable {Private SigningKey : Type} {prim : Primitives Private SigningKey} {sh : ServerHello}

/-! ## Valid hellos -/

lemma validateClientHello_eq_ok {hello : ClientHello} {u : Unit} :
    validateClientHello hello = .ok u ↔ hello.version = protocolVersion ∧
    hello.clientNonce.length = 32 ∧ hello.clientEphemeral.length = 32 ∧ hello.modes ≠ [] := by
  unfold validateClientHello
  simp only [bind_eq_ok, reject_eq_ok, not_not, not_or, ne_eq, List.isEmpty_iff]
  constructor
  · rintro ⟨-, version, nonce, ephemeral, modes⟩
    exact ⟨version, nonce, ephemeral, modes⟩
  · rintro ⟨version, nonce, ephemeral, modes⟩
    exact ⟨(), version, nonce, ephemeral, modes⟩

/-- The hello a client generates passes the server's check, whatever key its MAC is for. -/
lemma validate_generateClientHello {priv : Option Private} {nonce key : Option (ByteArr 32)}
    {handshake : ClientHandshake prim}
    (ok : generateClientHello prim priv nonce key = .ok handshake) :
    validateClientHello handshake.hello = .ok () := by
  obtain ⟨drawn, _, ok⟩ := bind_eq_ok.mp ok
  obtain ⟨random, _, ok⟩ := bind_eq_ok.mp ok
  cases key with
  | none | some key =>
    cases ok
    exact validateClientHello_eq_ok.mpr
      ⟨rfl, random.property, (prim.computePublicKey drawn).property, cons_ne_nil _ _⟩

lemma validateServerHello_eq_ok {hello : ServerHello} {u : Unit} :
    validateServerHello hello = .ok u ↔ hello.version = protocolVersion ∧
    TransportMode.fromWireId hello.mode ≠ none ∧ hello.serverNonce.length = 32 ∧
      hello.serverEphemeral.length = 32 ∧ hello.serverPublicKey.length = 32 ∧
      hello.signature ≠ [] := by
  unfold validateServerHello
  simp only [bind_eq_ok, reject_eq_ok, not_not, not_or, ne_eq, List.isEmpty_iff]
  constructor
  · rintro ⟨-, version, rest⟩
    exact ⟨version, rest⟩
  · rintro ⟨version, rest⟩
    exact ⟨(), version, rest⟩

/-! ## Transcripts -/

/-- The fields of the client's hello that the transcript covers. -/
def ClientHello.SameCovered (h h' : ClientHello) : Prop :=
  h.version = h'.version ∧ h.clientNonce = h'.clientNonce ∧ h.clientEphemeral = h'.clientEphemeral

lemma serverTranscript_inj {h h' : ClientHello} {version version' : UInt16} {mode mode' : Byte}
      {nonce nonce' ephemeral ephemeral' key key' rest rest' : Bytes}
    (clientNonce : h.clientNonce.length = h'.clientNonce.length)
    (clientEphemeral : h.clientEphemeral.length = h'.clientEphemeral.length)
    (serverNonce : nonce.length = nonce'.length)
    (serverEphemeral : ephemeral.length = ephemeral'.length) (keys : key.length = key'.length)
    (same : serverTranscript h version mode nonce ephemeral key ++ rest =
      serverTranscript h' version' mode' nonce' ephemeral' key' ++ rest') :
    h.SameCovered h' ∧ version = version' ∧ mode = mode' ∧ nonce = nonce' ∧ ephemeral = ephemeral' ∧
    key = key' ∧ rest = rest' := by
  simp only [serverTranscript, append_assoc] at same
  have words : ∀ a b : UInt16, (putWord a).length = (putWord b).length := by simp
  obtain ⟨clientVersion, same⟩ := append_inj (append_cancel_left same) (words _ _)
  obtain ⟨serverVersion, same⟩ := append_inj same (words _ _)
  obtain ⟨modes, same⟩ := append_inj same rfl
  obtain ⟨clientNonces, same⟩ := append_inj same clientNonce
  obtain ⟨clientEphemerals, same⟩ := append_inj same clientEphemeral
  obtain ⟨serverNonces, same⟩ := append_inj same serverNonce
  obtain ⟨serverEphemerals, same⟩ := append_inj same serverEphemeral
  obtain ⟨keys, rests⟩ := append_inj same keys
  exact ⟨⟨putWord_inj.mp clientVersion, clientNonces, clientEphemerals⟩,
    putWord_inj.mp serverVersion, singleton_inj.mp modes, serverNonces,
    serverEphemerals, keys, rests⟩

lemma fullTranscript_eq_ok {h : ClientHello} {key t : Bytes}
      (ok : fullTranscript prim h sh key = .ok t) :
    validateClientHello h = .ok () ∧ validateServerHello sh = .ok () ∧
    t = (prim.sha256 (transcriptBytes h sh key)).val := by
  obtain ⟨_, client, ok⟩ := bind_eq_ok.mp ok
  obtain ⟨_, server, ok⟩ := bind_eq_ok.mp ok
  cases ok
  exact ⟨client, server, rfl⟩

/-- Two transcripts with the same bytes have the same covered fields. -/
lemma transcriptBytes_inj {h h' : ClientHello} {sh' : ServerHello}
      (client : validateClientHello h = .ok ())
    (client' : validateClientHello h' = .ok ()) (server : validateServerHello sh = .ok ())
    (server' : validateServerHello sh' = .ok ())
    (same : transcriptBytes h sh sh.serverPublicKey = transcriptBytes h' sh' sh'.serverPublicKey) :
    h.SameCovered h' ∧ sh = sh' := by
  obtain ⟨-, nonce, ephemeral, -⟩ := validateClientHello_eq_ok.mp client
  obtain ⟨-, nonce', ephemeral', -⟩ := validateClientHello_eq_ok.mp client'
  obtain ⟨-, -, serverNonce, serverEphemeral, key, -⟩ := validateServerHello_eq_ok.mp server
  obtain ⟨-, -, serverNonce', serverEphemeral', key', -⟩ := validateServerHello_eq_ok.mp server'
  obtain ⟨covered, versions, modes, nonces, ephemerals, keys, signatures⟩ := serverTranscript_inj
    (nonce.trans nonce'.symm) (ephemeral.trans ephemeral'.symm)
    (serverNonce.trans serverNonce'.symm) (serverEphemeral.trans serverEphemeral'.symm)
    (key.trans key'.symm) same
  refine ⟨covered, ?_⟩
  cases sh
  cases sh'
  simp only [ServerHello.mk.injEq]
  exact ⟨versions, modes, nonces, ephemerals, keys, signatures⟩

/-! ## The server's end -/

variable (prim) in
/-- A response of the server: the hello it was given, what it drew, and what it answered. -/
structure ServerRun (key : SigningKey) where
  clientHello : ClientHello
  priv : Private
  nonce : ByteArr 32
  mode : TransportMode
  response : ServerHandshake
  responded : respondToClientHello prim (some priv) (some nonce) key clientHello mode = .ok response

/-- The bytes the server signed in a run. -/
def ServerRun.unsigned {key : SigningKey} (r : ServerRun prim key) : Bytes :=
  serverTranscript r.clientHello r.response.hello.version r.response.hello.mode
    r.response.hello.serverNonce r.response.hello.serverEphemeral (prim.publicKey key).val

/-- What a response consists of. -/
lemma ServerRun.spec {key : SigningKey} (r : ServerRun prim key) :
    validateClientHello r.clientHello = .ok () ∧ validateServerHello r.response.hello = .ok () ∧
    r.response.hello.mode = r.mode.wireId ∧
      r.response.hello.serverEphemeral = (prim.computePublicKey r.priv).val ∧
      r.response.hello.serverPublicKey = (prim.publicKey key).val ∧
      r.response.hello.signature = prim.sign key r.unsigned ∧
      ∃ shared, prim.agreeEphemeral r.priv r.clientHello.clientEphemeral = some shared ∧
        r.response.transport = deriveSessionTransport prim .server r.mode shared
          (prim.sha256
            (transcriptBytes r.clientHello r.response.hello (prim.publicKey key).val)).val := by
  obtain ⟨clientHello, priv, nonce, mode, response, responded⟩ := r
  obtain ⟨_, client, responded⟩ := bind_eq_ok.mp responded
  obtain ⟨_, _, responded⟩ := bind_eq_ok.mp responded
  obtain ⟨_, drawn, responded⟩ := bind_eq_ok.mp responded
  cases require_eq_ok.mp drawn
  obtain ⟨_, drawn, responded⟩ := bind_eq_ok.mp responded
  cases require_eq_ok.mp drawn
  obtain ⟨shared, agreed, responded⟩ := bind_eq_ok.mp responded
  obtain ⟨t, transcript, responded⟩ := bind_eq_ok.mp responded
  cases responded
  obtain ⟨-, server, rfl⟩ := fullTranscript_eq_ok transcript
  exact ⟨client, server, rfl, rfl, rfl, rfl, shared, require_eq_ok.mp agreed, rfl⟩

/-! ## The client's end -/

/-- What an accepted response has passed. -/
lemma complete_eq_ok {handshake : ClientHandshake prim} {pinned : Option (ByteArr 32)}
      {transport : SessionTransport}
    {trusted : Bytes}
    (ok : completeClientTransportHandshake prim handshake sh pinned = .ok (transport, trusted)) :
    validateClientHello handshake.hello = .ok () ∧ validateServerHello sh = .ok () ∧
    trusted = sh.serverPublicKey ∧ (∀ key, pinned = some key → trusted = key.val) ∧
      prim.verifySig trusted
        (serverTranscript handshake.hello sh.version sh.mode sh.serverNonce sh.serverEphemeral
        trusted) sh.signature = true ∧
      ∃ mode shared, TransportMode.fromWireId sh.mode = some mode ∧
      prim.agreeEphemeral handshake.priv sh.serverEphemeral = some shared ∧
        transport = deriveSessionTransport prim .client mode shared
          (prim.sha256 (transcriptBytes handshake.hello sh trusted)).val := by
  obtain ⟨_, server, ok⟩ := bind_eq_ok.mp ok
  obtain ⟨mode, wire, ok⟩ := bind_eq_ok.mp ok
  obtain ⟨_, _, ok⟩ := bind_eq_ok.mp ok
  obtain ⟨key, resolved, ok⟩ := bind_eq_ok.mp ok
  obtain ⟨t, transcript, ok⟩ := bind_eq_ok.mp ok
  obtain ⟨_, verified, ok⟩ := bind_eq_ok.mp ok
  obtain ⟨shared, agreed, ok⟩ := bind_eq_ok.mp ok
  cases ok
  obtain ⟨client, -, rfl⟩ := fullTranscript_eq_ok transcript
  have resolved : trusted = sh.serverPublicKey ∧ ∀ key, pinned = some key → trusted = key.val := by
    obtain ⟨_, _, resolved⟩ := bind_eq_ok.mp resolved
    cases pinned with
    | none =>
      cases resolved
      exact ⟨rfl, by simp⟩
    | some pin =>
      simp only at resolved
      split at resolved
      · cases resolved
      next same =>
      cases resolved
      refine ⟨rfl, fun key eq => ?_⟩
      cases eq
      exact (not_not.mp same).symm
  exact ⟨client, server, resolved.1, resolved.2, not_not.mp (reject_eq_ok.mp verified), mode,
    shared, require_eq_ok.mp wire, require_eq_ok.mp agreed, rfl⟩

/-! ## Agreement -/

/-- The two ends hold one session: the same mode, route and shared keys, and each sends with what
the other receives with. -/
structure Mirrored (client server : SessionTransport) : Prop where
  mode : client.mode = server.mode
  routeId : client.routeId = server.routeId
  bindKey : client.bindKey = server.bindKey
  videoAuthKey : client.videoAuthKey = server.videoAuthKey
  controlUp : client.secrets.controlSend = server.secrets.controlRecv
  controlDown : client.secrets.controlRecv = server.secrets.controlSend
  mediaUp : client.secrets.mediaSend = server.secrets.mediaRecv
  mediaDown : client.secrets.mediaRecv = server.secrets.mediaSend

lemma mirrored_derive (mode : TransportMode) (shared transcript : Bytes) :
    Mirrored (deriveSessionTransport prim .client mode shared transcript)
      (deriveSessionTransport prim .server mode shared transcript) :=
  ⟨rfl, rfl, rfl, rfl, rfl, rfl, rfl, rfl⟩

/-- The signature the client checks is no forgery: if it verifies under the server's key, it is the
answer of `sign` to those bytes, which the server signed in one of its runs. -/
def SignatureUnforged (prim : Primitives Private SigningKey) (key : SigningKey)
    (runs : List (ServerRun prim key)) (message signature : Bytes) : Prop :=
  prim.verifySig (prim.publicKey key).val message signature = true →
    ∃ r ∈ runs, message = r.unsigned ∧ signature = prim.sign key message

lemma complete_agrees {key : SigningKey} {runs : List (ServerRun prim key)}
      {handshake : ClientHandshake prim}
    {pinned : Option (ByteArr 32)} {transport : SessionTransport} {trusted : Bytes}
    (agree : ∀ a b, prim.agreeEphemeral a (prim.computePublicKey b).val =
      prim.agreeEphemeral b (prim.computePublicKey a).val)
    (unforged : SignatureUnforged prim key runs
      (serverTranscript handshake.hello sh.version sh.mode sh.serverNonce sh.serverEphemeral
        (prim.publicKey key).val) sh.signature)
    (known : pinned = some (prim.publicKey key) ∨ sh.serverPublicKey = (prim.publicKey key).val)
    (ok : completeClientTransportHandshake prim handshake sh pinned = .ok (transport, trusted)) :
    ∃ r ∈ runs, handshake.hello.SameCovered r.clientHello ∧ sh = r.response.hello ∧
    Mirrored transport r.response.transport := by
  obtain ⟨client, server, presented, pin, verified, mode, shared, wire, agreed, rfl⟩ :=
    complete_eq_ok ok
  have identity : trusted = (prim.publicKey key).val := by
    rcases known with pinned | same
    · exact pin _ pinned
    · rw [presented, same]
  subst identity
  obtain ⟨r, mem, message, signature⟩ := unforged verified
  obtain ⟨rClient, rServer, rMode, rEphemeral, rKey, rSigned, rShared, rAgreed, rTransport⟩ :=
    r.spec
  -- equal transcripts and equal signatures: the client and the server saw the same hellos
  have bytes : transcriptBytes handshake.hello sh sh.serverPublicKey =
      transcriptBytes r.clientHello r.response.hello r.response.hello.serverPublicKey := by
    rw [← presented, rKey, transcriptBytes, transcriptBytes, rSigned, signature, message]
    rfl
  obtain ⟨covered, rfl⟩ := transcriptBytes_inj client rClient server rServer bytes
  refine ⟨r, mem, covered, rfl, ?_⟩
  have modes : mode = r.mode := by
    rw [rMode, TransportMode.fromWireId_wireId] at wire
    exact (Option.some.inj wire).symm
  have secret : shared = rShared := by
    rw [rEphemeral, agree, ← handshake.announced, covered.2.2, rAgreed] at agreed
    exact (Option.some.inj agreed).symm
  rw [rKey] at bytes
  rw [rTransport, modes, secret, bytes]
  exact mirrored_derive _ _ _

/-- With ideal signatures and Diffie-Hellman: a client that accepts a response under the server's
key shares one session with a run of the server, in which no field of the server's hello was
altered and none of the client's that the transcript covers (its version, nonce and ephemeral
key); and transcripts of valid hellos that differ in a covered field differ. -/
theorem handshake_agreement (prim : Primitives Private SigningKey)
    (agree : ∀ a b, prim.agreeEphemeral a (prim.computePublicKey b).val =
      prim.agreeEphemeral b (prim.computePublicKey a).val)
    (key : SigningKey) (runs : List (ServerRun prim key)) (handshake : ClientHandshake prim)
    (sh : ServerHello)
    (pinned : Option (ByteArr 32))
    (unforged : SignatureUnforged prim key runs
      (serverTranscript handshake.hello sh.version sh.mode sh.serverNonce sh.serverEphemeral
        (prim.publicKey key).val) sh.signature)
    (known : pinned = some (prim.publicKey key) ∨ sh.serverPublicKey = (prim.publicKey key).val) :
    (∀ transport trusted, completeClientTransportHandshake prim handshake sh pinned =
      .ok (transport, trusted) →
      ∃ r ∈ runs, handshake.hello.SameCovered r.clientHello ∧ sh = r.response.hello ∧
      Mirrored transport r.response.transport) ∧
    ∀ h h' sh sh', validateClientHello h = .ok () → validateClientHello h' = .ok () →
      validateServerHello sh = .ok () → validateServerHello sh' = .ok () →
      transcriptBytes h sh sh.serverPublicKey = transcriptBytes h' sh' sh'.serverPublicKey →
      h.SameCovered h' ∧ sh = sh' :=
  ⟨fun _ _ ok => complete_agrees agree unforged known ok,
    fun _ _ _ _ client client' server server' same =>
      transcriptBytes_inj client client' server server' same⟩

/-! Primitives to run examples with: everything is the bytes it is made of, cut to its length. -/

def cut (n : ℕ) (bytes : Bytes) : ByteArr n := ⟨(bytes ++ List.replicate n 0).take n, by simp⟩

def samplePrimitives : Primitives Byte Byte where
  computePublicKey priv := ByteArr.replicate 32 priv
  agreeEphemeral priv peer := some [priv + byteAt peer 0]
  publicKey key := ByteArr.replicate 32 key
  sign key message := key :: message
  verifySig key message signature := signature = byteAt key 0 :: message
  sha256 := cut 32
  hmac key message := cut 32 (key ++ message)
  extract salt secret := secret ++ salt
  expandKey prk label := cut 32 (label ++ prk)

def sampleClient : ClientHandshake samplePrimitives where
  priv := 3
  hello := {
    version := protocolVersion
    modes := supportedWireIds
    clientNonce := List.replicate 32 1
    clientEphemeral := List.replicate 32 3
    mac1 := ByteArr.replicate 16 0 }
  announced := rfl

/-- The client's hello with one of its two modes and its MAC changed on the way. -/
def alteredHello : ClientHello :=
  { sampleClient.hello with modes := [1], mac1 := ByteArr.replicate 16 9 }

def sampleResponse : ServerHandshake :=
  match respondToClientHello samplePrimitives (some 5) (some (ByteArr.replicate 32 2))
    7 alteredHello
      .encrypted with
  | .ok response => response
  | .error _ =>
    ⟨⟨0, 0, [], [], [], []⟩, deriveSessionTransport samplePrimitives .server .encrypted [] []⟩

def sampleRun : ServerRun samplePrimitives 7 where
  clientHello := alteredHello
  priv := 5
  nonce := ByteArr.replicate 32 2
  mode := .encrypted
  response := sampleResponse
  responded := by decide +kernel

theorem handshake_agreement_sample :
    ∃ transport trusted, completeClientTransportHandshake samplePrimitives sampleClient
        sampleResponse.hello none = .ok (transport, trusted) ∧
      Mirrored transport sampleResponse.transport := by
  have accepted : (completeClientTransportHandshake samplePrimitives sampleClient
      sampleResponse.hello none).isOk = true := by decide +kernel
  obtain ⟨⟨transport, trusted⟩, ok⟩ := exists_of_isOk accepted
  obtain ⟨r, mem, -, -, mirrored⟩ := (handshake_agreement samplePrimitives
    (fun a b => congrArg some (congrArg (fun x => [x]) (add_comm a b))) 7 [sampleRun] sampleClient
    sampleResponse.hello none
    (fun _ => ⟨sampleRun, mem_singleton.mpr rfl, by decide +kernel, by decide +kernel⟩)
    (Or.inr (by decide +kernel))).1 transport trusted ok
  rw [mem_singleton.mp mem] at mirrored
  exact ⟨transport, trusted, ok, mirrored⟩

/-- The modes and the MAC of the client's hello are not covered: both were altered on the way,
the transcript is the same, and the client accepts. -/
theorem altered_modes_accepted :
    alteredHello.modes ≠ sampleClient.hello.modes ∧ alteredHello.mac1 ≠ sampleClient.hello.mac1 ∧
      respondToClientHello samplePrimitives (some 5) (some (ByteArr.replicate 32 2)) 7 alteredHello
        .encrypted = .ok sampleResponse ∧
      transcriptBytes alteredHello sampleResponse.hello sampleResponse.hello.serverPublicKey =
        transcriptBytes sampleClient.hello sampleResponse.hello
          sampleResponse.hello.serverPublicKey ∧
      (completeClientTransportHandshake samplePrimitives sampleClient sampleResponse.hello
        (some (samplePrimitives.publicKey 7))).isOk = true := by
  decide +kernel

end Chatt.Handshake
