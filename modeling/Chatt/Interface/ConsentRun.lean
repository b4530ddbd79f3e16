import Chatt.Lib.Run
import Chatt.Model.TraversalAgent

/-!
# Runs of a traversal agent

The owner of the agent polls it, gives it packets from anywhere and reports authenticated media, at
times that never go back.  The log keeps what matters for consent; no step reads it.
-/

namespace Chatt.P2p

open Lib Stun

inductive ConsentEvent
  /-- integrity-checked traffic from the address was processed -/
  | heard (time : ℕ) (src : SocketAddr)
  | keepalive (time : ℕ) (dest : SocketAddr)
  | consentExpired (time : ℕ)
  deriving DecidableEq

structure AgentRun where
  agent : TraversalAgent
  clock : ℕ
  log : List ConsentEvent

inductive AgentInput
  | poll (now : ℕ)
  | inbound (now : ℕ) (src : SocketAddr) (bytes : Bytes)
  | observe (now : ℕ) (src : SocketAddr)
  | addCandidate (now : ℕ) (candidate : Candidate)

def AgentInput.now : AgentInput → ℕ
  | .poll now | .inbound now _ _ | .observe now _ | .addCandidate now _ => now

/-- What an action of the agent means for consent. -/
def consentEvent (now : ℕ) : Action → Option ConsentEvent
  | .sendKeepalive dest _ _ => some (.keepalive now dest)
  | .consentExpired => some (.consentExpired now)
  | _ => none

namespace AgentRun

def initial (agent : TraversalAgent) : AgentRun := { agent, clock := agent.start, log := [] }

/-- Time does not go back. -/
def Ok (s : AgentRun) (input : AgentInput) : Prop := s.clock ≤ input.now

instance decidableOk (s : AgentRun) (input : AgentInput) : Decidable (s.Ok input) :=
  inferInstanceAs (Decidable (s.clock ≤ input.now))

/-- The agent after an input, and what the input adds to the log. -/
def take (prims : Primitives) (agent : TraversalAgent) :
    AgentInput → TraversalAgent × List ConsentEvent
  | .poll now =>
    let out := agent.poll prims now
    (out.1, out.2.filterMap (consentEvent now))
  | .inbound now src bytes =>
    let out := agent.handleInbound prims now src bytes
    (out.1, (match agent.admitted prims bytes with
      | .ok (some _) => [.heard now src]
      | _ => []) ++ (match out.2 with
      | .ok actions => actions.filterMap (consentEvent now)
      | .error _ => []))
  | .observe now src =>
    let out := agent.observeAuthenticatedPacket now src
    (out.1, .heard now src :: out.2.toList.filterMap (consentEvent now))
  | .addCandidate _ candidate => (agent.addRemoteCandidate candidate, [])

def next (prims : Primitives) (s : AgentRun) (input : AgentInput) : Option AgentRun :=
  let out := take prims s.agent input
  some { agent := out.1, clock := input.now, log := s.log ++ out.2 }

end AgentRun

/-- Consent was there for every keepalive: the address had been heard less than the timeout before,
and again after the last time that consent had expired. -/
structure Consented (consentTimeout : ℕ) (log : List ConsentEvent) : Prop where
  recent : ∀ before after time dest, log = before ++ .keepalive time dest :: after →
    ∃ t, .heard t dest ∈ before ∧ t ≤ time ∧ time < t + consentTimeout
  renewed : ∀ before between after expired time dest,
    log = before ++ .consentExpired expired :: (between ++ .keepalive time dest :: after) →
    ∃ t, .heard t dest ∈ between

end Chatt.P2p
