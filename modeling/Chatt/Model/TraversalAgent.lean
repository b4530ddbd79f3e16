import Chatt.Model.Stun

/-!
# The traversal agent

The ICE agent of one peer (crates/p2p/src/agent.rs:30-875).  Instants and durations are numbers of
nanoseconds, and `duration_since` saturates.  The keyed hash and the product of a duration and a
floating-point factor are parameters.
-/

namespace Chatt.P2p

open Lib Stun

/-! ## Candidates (crates/p2p/src/candidate.rs), with the fields that the agent reads -/

inductive NatKind
  | unknown
  | cone
  | symmetric
  deriving DecidableEq

inductive CandidateKind
  | host
  | serverReflexive
  | peerReflexive
  | portMapped
  | relay
  deriving DecidableEq

def CandidateKind.typePreference : CandidateKind → ℕ
  | .host => 126
  | .peerReflexive => 110
  | .portMapped => 105
  | .serverReflexive => 100
  | .relay => 0

inductive NetworkFamily
  | ipv4
  | ipv6
  deriving DecidableEq

def NetworkFamily.of : SocketAddr → NetworkFamily
  | .v4 _ _ => .ipv4
  | .v6 _ _ _ _ => .ipv6

def otherFamily : NetworkFamily → NetworkFamily
  | .ipv4 => .ipv6
  | .ipv6 => .ipv4

/-- `addr.ip().is_unspecified()` -/
def isUnspecified : SocketAddr → Bool
  | .v4 ip _ => ip.val.all (· = 0)
  | .v6 ip _ _ _ => ip.val.all (· = 0)

structure Candidate where
  id : UInt32
  kind : CandidateKind
  addr : SocketAddr
  /-- a `u32` -/
  priority : ℕ
  deriving DecidableEq

namespace Candidate

def family (c : Candidate) : NetworkFamily := NetworkFamily.of c.addr

def isDirect (c : Candidate) : Bool := c.kind ≠ .relay

/-- `Candidate::new`, which prefers IPv6 -/
def new (id : UInt32) (kind : CandidateKind) (addr : SocketAddr) : Candidate :=
  let localPreference := match NetworkFamily.of addr with
    | .ipv6 => 65535
    | .ipv4 => 65534
  { id, kind, addr, priority := kind.typePreference * 2 ^ 24 + localPreference * 2 ^ 8 + 255 }

def canPairWith (c remote : Candidate) : Bool :=
  c.family = remote.family ∧ c.isDirect ∧ remote.isDirect ∧ ¬isUnspecified c.addr ∧
    ¬isUnspecified remote.addr

end Candidate

structure CandidatePairId where
  localId : UInt32
  remoteId : UInt32
  deriving DecidableEq

def pairPriority (c remote : Candidate) (controlling : Bool) : ℕ :=
  let g := if controlling then c.priority else remote.priority
  let d := if controlling then remote.priority else c.priority
  (2 ^ 32 - 1) * min g d + 2 * max g d + if g > d then 1 else 0

inductive IceRole
  | controlling
  | controlled
  deriving DecidableEq

structure Primitives where
  stunIntegrity : StunIntegrity
  /-- `Duration::mul_f64`, by a factor in thousandths -/
  mulF64 : ℕ → ℕ → ℕ

structure AgentConfig where
  key : ByteArr 32
  transactionSalt : ByteArr 32
  username : Option (List Char)
  minCheckInterval : ℕ
  handshakeMinDuration : ℕ
  checkDeadline : ℕ
  initialRto : ℕ
  maxRto : ℕ
  keepaliveInterval : ℕ
  restartAfterIdle : ℕ
  disconnectAfterIdle : ℕ
  consentTimeout : ℕ
  maxCheckAttempts : ℕ

inductive FallbackReason
  | relayCandidateAvailable
  | symmetricSymmetric
  | noCommonAddressFamily
  | directChecksFailed
  deriving DecidableEq

structure SelectedPair where
  localCandidateId : Option UInt32
  remoteCandidateId : Option UInt32
  remoteAddr : SocketAddr
  peerReflexive : Bool
  deriving DecidableEq

inductive Action
  | useRelay (relay : Option SocketAddr) (reason : FallbackReason)
  | sendStun (dest : SocketAddr) (bytes : Bytes) (transactionId : TransactionId)
      (pair : CandidatePairId) (retransmit : Bool)
  | sendStunResponse (dest : SocketAddr) (bytes : Bytes) (transactionId : TransactionId)
  | sendKeepalive (dest : SocketAddr) (bytes : Bytes) (transactionId : TransactionId)
  | directReady (selected : SelectedPair)
  | migrated (selected : SelectedPair)
  /-- `RestartReason` has the one value `Idle` -/
  | iceRestart
  | disconnected
  | consentExpired
  deriving DecidableEq

inductive PairState
  | waiting
  | inProgress
  | succeeded
  | failed
  deriving DecidableEq

structure CandidatePair where
  id : CandidatePairId
  localIndex : ℕ
  remoteIndex : ℕ
  priority : ℕ
  state : PairState
  transactionId : Option TransactionId
  firstSentAt : Option ℕ
  nextDueAt : Option ℕ
  rto : ℕ
  attempts : ℕ

structure TraversalAgent where
  config : AgentConfig
  role : IceRole
  tieBreaker : UInt64
  localNat : NatKind
  remoteNat : NatKind
  localCandidates : List Candidate
  remoteCandidates : List Candidate
  pairs : List CandidatePair
  /-- the pair of each transaction, by its index -/
  transactions : OrdMap TransactionId ℕ
  start : ℕ
  nextCheckAt : ℕ
  lastCheckFamily : Option NetworkFamily
  transactionCounter : UInt64
  nextCandidateId : UInt32
  relayAnnounced : Bool
  directFailedAnnounced : Bool
  peerReflexiveSeen : Bool
  selected : Option SelectedPair
  lastRxAt : Option ℕ
  lastConsentResponse : Option ℕ
  nextKeepaliveAt : Option ℕ
  keepaliveCounter : UInt64
  restartAnnounced : Bool
  disconnectedAnnounced : Bool
  consentExpiredAnnounced : Bool

/-- `wrapping_add(1).max(1)` -/
def nextId (id : UInt32) : UInt32 := max (id + 1) 1

namespace TraversalAgent

/-! ## Pairs -/

section

variable (agent : TraversalAgent)

def isControlling : Bool := agent.role = .controlling

/-- The pair of two candidates that has no entry yet, appended. -/
def addPair (localIndex : ℕ) (c : Candidate) (remoteIndex : ℕ)
    (remote : Candidate) : TraversalAgent :=
  let id : CandidatePairId := ⟨c.id, remote.id⟩
  if c.canPairWith remote ∧ id ∉ agent.pairs.map (·.id) then
    { agent with
      pairs := agent.pairs ++ [{
        id, localIndex, remoteIndex
        priority := pairPriority c remote agent.isControlling
        state := .waiting
        transactionId := none
        firstSentAt := none
        nextDueAt := none
        rto := agent.config.initialRto
        attempts := 0 }] }
  else agent

def rebuildPairs : TraversalAgent :=
  agent.localCandidates.zipIdx.foldl
    (fun agent (c, localIndex) => agent.remoteCandidates.zipIdx.foldl
      (fun agent (remote, remoteIndex) => agent.addPair localIndex c remoteIndex remote) agent)
    agent

def new (now : ℕ) (config : AgentConfig) (role : IceRole) (tieBreaker : UInt64)
    (localNat remoteNat : NatKind) (localCandidates remoteCandidates : List Candidate) :
    TraversalAgent :=
  rebuildPairs {
    config, role, tieBreaker, localNat, remoteNat, localCandidates, remoteCandidates
    pairs := []
    transactions := .empty
    start := now
    nextCheckAt := now
    lastCheckFamily := none
    transactionCounter := 1
    nextCandidateId := nextId (((localCandidates ++ remoteCandidates).map (·.id)).foldl max 0)
    relayAnnounced := false
    directFailedAnnounced := false
    peerReflexiveSeen := false
    selected := none
    lastRxAt := none
    lastConsentResponse := none
    nextKeepaliveAt := none
    keepaliveCounter := 0
    restartAnnounced := false
    disconnectedAnnounced := false
    consentExpiredAnnounced := false }

def addRemoteCandidate (candidate : Candidate) : TraversalAgent :=
  rebuildPairs { agent with
    nextCandidateId := max agent.nextCandidateId (nextId candidate.id)
    remoteCandidates := agent.remoteCandidates ++ [candidate] }

def relayAddr : Option SocketAddr :=
  ((agent.remoteCandidates ++ agent.localCandidates).find? (·.kind = .relay)).map (·.addr)

def allPairsFailed : Bool := agent.pairs ≠ [] ∧ agent.pairs.all (·.state = .failed)

/-- Whether the round of `mark_expired_pairs` gives up the pair. -/
def pairExpired (now : ℕ) (pair : CandidatePair) : Bool :=
  pair.state = .inProgress ∧ agent.config.maxCheckAttempts ≤ pair.attempts ∧
    pair.firstSentAt.any fun firstSentAt => decide (agent.config.checkDeadline ≤ now - firstSentAt)

def markExpiredPairs (now : ℕ) : TraversalAgent :=
  if now - agent.start < agent.config.handshakeMinDuration then agent
  else
    { agent with
      transactions := (agent.pairs.filter (agent.pairExpired now)).foldl
        (fun transactions pair => pair.transactionId.elim transactions transactions.erase)
        agent.transactions
      pairs := agent.pairs.map fun pair =>
        if agent.pairExpired now pair then
          { pair with state := .failed, nextDueAt := none, transactionId := none }
        else pair }

def recomputePairPriorities : TraversalAgent :=
  { agent with
    pairs := agent.pairs.map fun pair =>
      match agent.localCandidates[pair.localIndex]?, agent.remoteCandidates[pair.remoteIndex]? with
      | some c, some remote => { pair with priority := pairPriority c remote agent.isControlling }
      | _, _ => pair }

def resolveRoleConflict (message : StunMessage) : TraversalAgent :=
  match agent.role, message.role with
  | .controlling, some (.controlling remote) =>
    if remote > agent.tieBreaker then
      recomputePairPriorities { agent with role := .controlled }
    else agent
  | .controlled, some (.controlled remote) =>
    if agent.tieBreaker > remote then
      recomputePairPriorities { agent with role := .controlling }
    else agent
  | _, _ => agent

def roleAttribute : RoleAttribute :=
  match agent.role with
  | .controlling => .controlling agent.tieBreaker
  | .controlled => .controlled agent.tieBreaker

end

section

variable (prims : Primitives) (agent : TraversalAgent)

/-- `TransactionId::from_salt` -/
def transactionIdFromSalt (salt : ByteArr 32) (counter : UInt64) : TransactionId :=
  toArr 12 (ascii "tc" ++ (prims.stunIntegrity salt (putWordBe counter)).val.take 10)

def nextTransactionId : TransactionId × TraversalAgent :=
  (transactionIdFromSalt prims agent.config.transactionSalt agent.transactionCounter,
    { agent with transactionCounter := max (agent.transactionCounter + 1) 1 })

/-- `consent_jitter` in thousandths -/
def consentJitter (salt : ByteArr 32) (n : UInt64) : ℕ :=
  800 + leValue ((prims.stunIntegrity salt (putWordBe n)).val.take 8) % 401

def pairIsAllowed (pair : CandidatePair) : Bool :=
  if agent.localNat = .cone ∧ agent.remoteNat = .symmetric ∧ ¬agent.peerReflexiveSeen then
    (agent.remoteCandidates[pair.remoteIndex]?).all fun remote =>
      decide (remote.kind ≠ .serverReflexive ∧ remote.kind ≠ .peerReflexive)
  else true

def pairIsEligible (pair : CandidatePair) : Bool := pair.state = .waiting ∧ agent.pairIsAllowed pair

def pairFamily (pair : CandidatePair) : Option NetworkFamily :=
  (agent.localCandidates[pair.localIndex]?).map (·.family)

/-- The first of the pairs with the highest priority. -/
def firstBest : List (CandidatePair × ℕ) → Option (CandidatePair × ℕ)
  | [] => none
  | entry :: rest =>
    some (rest.foldl (fun best entry => if entry.1.priority > best.1.priority then entry
      else best) entry)

/-- The last of the pairs with the highest priority, as `max_by_key` has it. -/
def lastBest : List (CandidatePair × ℕ) → Option (CandidatePair × ℕ)
  | [] => none
  | entry :: rest =>
    some (rest.foldl (fun best entry => if entry.1.priority ≥ best.1.priority then entry
      else best) entry)

def nextWaitingPair : Option (CandidatePair × ℕ) :=
  let eligible := agent.pairs.zipIdx.filter fun entry => agent.pairIsEligible entry.1
  let has (family : NetworkFamily) : Bool := eligible.any fun entry =>
    agent.pairFamily entry.1 = some family
  let preferredFamily :=
    if has .ipv4 && has .ipv6 then agent.lastCheckFamily.map otherFamily else none
  firstBest (eligible.filter fun entry =>
    preferredFamily.all fun family => agent.pairFamily entry.1 = some family)

def nextDueRetransmission (now : ℕ) : Option (CandidatePair × ℕ) :=
  lastBest (agent.pairs.zipIdx.filter fun entry =>
    entry.1.state = .inProgress ∧ entry.1.nextDueAt.any (fun dueAt => decide (dueAt ≤ now)) ∧
      entry.1.attempts < agent.config.maxCheckAttempts)

/-- The transaction of a check: the old one for a retransmission. -/
def checkTransaction (pair : CandidatePair) (retransmit : Bool) : TransactionId × TraversalAgent :=
  match retransmit, pair.transactionId with
  | true, some transactionId => (transactionId, agent)
  | _, _ => agent.nextTransactionId prims

/-- `send_check`; the indices of a pair are always in range. -/
def sendCheck (now : ℕ) (pair : CandidatePair) (pairIndex : ℕ)
    (retransmit : Bool) : TraversalAgent × List Action :=
  let (transactionId, agent) := agent.checkTransaction prims pair retransmit
  match agent.localCandidates[pair.localIndex]?, agent.remoteCandidates[pair.remoteIndex]? with
  | some c, some remote =>
    let bytes := ((StunMessage.bindingRequest transactionId agent.config.username
      (UInt32.ofNat c.priority) agent.roleAttribute agent.isControlling).encode prims.stunIntegrity
      (some agent.config.key)).1
    let sent : CandidatePair := { pair with
      state := .inProgress
      transactionId := some transactionId
      firstSentAt := some (pair.firstSentAt.getD now)
      attempts := min (pair.attempts + 1) 255
      nextDueAt := some (now + pair.rto)
      rto := min (pair.rto * 2) agent.config.maxRto }
    ({ agent with
        pairs := agent.pairs.set pairIndex sent
        transactions := agent.transactions.insert transactionId pairIndex },
      [.sendStun remote.addr bytes transactionId pair.id retransmit])
  | _, _ => (agent, [])

def nextCheckAction (now : ℕ) : TraversalAgent × List Action :=
  match agent.nextDueRetransmission now with
  | some (pair, pairIndex) => agent.sendCheck prims now pair pairIndex true
  | none =>
    match agent.nextWaitingPair with
    | none => (agent, [])
    | some (pair, pairIndex) =>
      { agent with lastCheckFamily := agent.pairFamily pair }.sendCheck prims now pair pairIndex
        false

/-! ## The selected pair -/

/-- The keepalive that is due. -/
def keepalive (now : ℕ) (selected : SelectedPair) : TraversalAgent × List Action :=
  if agent.nextKeepaliveAt.any fun nextKeepaliveAt => decide (nextKeepaliveAt ≤ now) then
    let (transactionId, agent) := agent.nextTransactionId prims
    let factor := consentJitter prims agent.config.transactionSalt agent.keepaliveCounter
    let agent := { agent with
      keepaliveCounter := agent.keepaliveCounter + 1
      nextKeepaliveAt := some (now + prims.mulF64 agent.config.keepaliveInterval factor) }
    let bytes := ((StunMessage.bindingRequest transactionId agent.config.username 0
      agent.roleAttribute false).encode prims.stunIntegrity (some agent.config.key)).1
    (agent, [.sendKeepalive selected.remoteAddr bytes transactionId])
  else (agent, [])

/-- Consent to send has run out. -/
def consentOver (now : ℕ) : Bool :=
  agent.lastConsentResponse.any fun responded =>
    decide (agent.config.consentTimeout ≤ now - responded)

def pollSelected (now : ℕ) (selected : SelectedPair) : TraversalAgent × List Action :=
  if agent.consentOver now then
    ({ agent with consentExpiredAnnounced := true, selected := none, nextKeepaliveAt := none },
      [.consentExpired])
  else
    match agent.lastRxAt with
    | none => agent.keepalive prims now selected
    | some lastRxAt =>
      let idle := now - lastRxAt
      if agent.config.disconnectAfterIdle ≤ idle then
        if agent.disconnectedAnnounced then (agent, [])
        else ({ agent with disconnectedAnnounced := true }, [.disconnected])
      else if agent.config.restartAfterIdle ≤ idle ∧ ¬agent.restartAnnounced then
        let (agent, actions) := { agent with restartAnnounced := true }.keepalive prims now selected
        (agent, .iceRestart :: actions)
      else agent.keepalive prims now selected

/-- The announcement of the relay, and whether `poll` ends with it. -/
def announceRelay : TraversalAgent × List Action × Bool :=
  let announced (reason : FallbackReason) : List Action := [.useRelay agent.relayAddr reason]
  if agent.relayAnnounced then (agent, [], false)
  else if agent.localNat = .symmetric ∧ agent.remoteNat = .symmetric then
    ({ agent with relayAnnounced := true }, announced .symmetricSymmetric, true)
  else if agent.pairs = [] then
    ({ agent with relayAnnounced := true }, announced .noCommonAddressFamily, true)
  else if agent.relayAddr.isSome then
    ({ agent with relayAnnounced := true }, announced .relayCandidateAvailable, false)
  else (agent, [], false)

/-- The part of `poll` without a selected pair. -/
def pollChecks (now : ℕ) : TraversalAgent × List Action :=
  match agent.announceRelay with
  | (agent, actions, true) => (agent, actions)
  | (agent, actions, false) =>
    if agent.allPairsFailed ∧ agent.config.handshakeMinDuration ≤ now - agent.start ∧
      ¬agent.directFailedAnnounced then
      ({ agent with directFailedAnnounced := true },
        actions ++ [.useRelay agent.relayAddr .directChecksFailed])
    else if now < agent.nextCheckAt then (agent, actions)
    else
      match agent.nextCheckAction prims now with
      | (agent, []) => (agent, actions)
      | (agent, checks) =>
        ({ agent with nextCheckAt := now + agent.config.minCheckInterval }, actions ++ checks)

def poll (now : ℕ) : TraversalAgent × List Action :=
  let agent := agent.markExpiredPairs now
  match agent.selected with
  | some selected => agent.pollSelected prims now selected
  | none => agent.pollChecks prims now

/-! ## Inbound packets -/

def refreshConsent (now : ℕ) : TraversalAgent :=
  { agent with lastConsentResponse := some now, consentExpiredAnnounced := false }

def installSelected (now : ℕ) (selected : SelectedPair) : TraversalAgent :=
  refreshConsent { agent with
    selected := some selected
    lastRxAt := some now
    nextKeepaliveAt := some (now + agent.config.keepaliveInterval)
    restartAnnounced := false
    disconnectedAnnounced := false } now

/-- The candidate with the address of a peer, made up if there is none. -/
def remoteCandidateFor (src : SocketAddr) : UInt32 × TraversalAgent :=
  match agent.remoteCandidates.find? (·.addr = src) with
  | some candidate => (candidate.id, agent)
  | none =>
    (agent.nextCandidateId,
      { agent with
        nextCandidateId := nextId agent.nextCandidateId
        remoteCandidates :=
          agent.remoteCandidates ++ [Candidate.new agent.nextCandidateId .peerReflexive src] })

/-- Whether the selected pair leads to the address. -/
def isSelected (src : SocketAddr) : Bool :=
  agent.selected.any fun selected => selected.remoteAddr = src

def selectPeerReflexive (src : SocketAddr) : TraversalAgent × SelectedPair :=
  match agent.selected.filter fun selected => selected.remoteAddr = src with
  | some selected => (agent, selected)
  | none =>
    let (remoteCandidateId, agent) := agent.remoteCandidateFor src
    let localCandidateId :=
      (agent.localCandidates.find? (·.family = NetworkFamily.of src)).map (·.id)
    let selected : SelectedPair :=
      { localCandidateId, remoteCandidateId := some remoteCandidateId, remoteAddr := src
        peerReflexive := true }
    (agent.installSelected (agent.lastRxAt.getD agent.start) selected, selected)

def acceptsUsername (username : Option (List Char)) : Bool :=
  match agent.config.username, username with
  | some expected, some actual => expected = actual
  | some _, none => false
  | _, _ => true

/-- The message that `handle_inbound` processes: it has passed the integrity check and the filter
on its username. -/
def admitted (bytes : Bytes) : Except StunError (Option StunMessage) :=
  match StunMessage.decodeAndVerify prims.stunIntegrity bytes agent.config.key with
  | .error .integrityFailure => .ok none
  | .error e => .error e
  | .ok message =>
    if message.messageClass = .request ∧ ¬agent.acceptsUsername message.username then .ok none
    else .ok (some message)

/-- `last_rx_at` and the latches, when something authenticated has come. -/
def heard (now : ℕ) : TraversalAgent :=
  { agent with lastRxAt := some now, restartAnnounced := false, disconnectedAnnounced := false }

def handleRequest (src : SocketAddr) (message : StunMessage) : TraversalAgent × List Action :=
  let agent := { agent with peerReflexiveSeen := true }
  let alreadySelected := agent.isSelected src
  let (agent, selected) := agent.selectPeerReflexive src
  let bytes := ((StunMessage.bindingSuccess message.transactionId src).encode prims.stunIntegrity
    (some agent.config.key)).1
  (agent, .sendStunResponse src bytes message.transactionId :: if alreadySelected then []
    else [.directReady selected])

def handleSuccess (now : ℕ) (src : SocketAddr) (message : StunMessage) :
    TraversalAgent × List Action :=
  match agent.transactions.get? message.transactionId with
  | none => (agent, [])
  | some pairIndex =>
    let agent := { agent with transactions := agent.transactions.erase message.transactionId }
    match agent.pairs[pairIndex]? with
    | none => (agent, [])
    | some pair =>
      let agent := { agent with
        pairs := agent.pairs.set pairIndex { pair with state := .succeeded, nextDueAt := none } }
      let selected : SelectedPair :=
        { localCandidateId := some pair.id.localId
          remoteCandidateId := some pair.id.remoteId
          remoteAddr := src
          peerReflexive := (agent.remoteCandidates[pair.remoteIndex]?).any (·.addr ≠ src) }
      (agent.installSelected now selected, [.directReady selected])

def processMessage (now : ℕ) (src : SocketAddr) (message : StunMessage) :
    TraversalAgent × List Action :=
  let agent := agent.heard now
  let agent :=
    if message.messageClass = .successResponse ∧ agent.isSelected src then agent.refreshConsent now
    else agent
  let agent := agent.resolveRoleConflict message
  match message.messageClass with
  | .request => agent.handleRequest prims src message
  | .successResponse => agent.handleSuccess now src message

def handleInbound (now : ℕ) (src : SocketAddr) (bytes : Bytes) :
    TraversalAgent × Except StunError (List Action) :=
  match agent.admitted prims bytes with
  | .error e => (agent, .error e)
  | .ok none => (agent, .ok [])
  | .ok (some message) =>
    let (agent, actions) := agent.processMessage prims now src message
    (agent, .ok actions)

end

def observeAuthenticatedPacket (agent : TraversalAgent) (now : ℕ) (src : SocketAddr) :
    TraversalAgent × Option Action :=
  let agent := agent.heard now
  match agent.selected with
  | some selected =>
    if selected.remoteAddr = src then (agent.refreshConsent now, none)
    else
      let selected := { selected with remoteAddr := src, peerReflexive := true }
      (agent.installSelected now selected, some (.migrated selected))
  | none =>
    let (agent, selected) := agent.selectPeerReflexive src
    (agent, some (.directReady selected))

end TraversalAgent

end Chatt.P2p
