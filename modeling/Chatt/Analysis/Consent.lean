import Chatt.Analysis.Stun
import Chatt.Interface.ConsentRun

/-!
# Consent to send

What the inputs of an agent do to the selected address and to its consent clock, and from it that
every keepalive has consent.
-/

namespace Chatt.P2p

open Lib Stun List Option

namespace TraversalAgent

variable {agent agent' : TraversalAgent} {prims : Primitives} {now : ℕ} {src : SocketAddr}

/-! ## What leaves consent alone -/

/-- The fields that consent depends on. -/
def consentView (agent : TraversalAgent) :
    AgentConfig × Option SelectedPair × Option ℕ × Option ℕ :=
  (agent.config, agent.selected, agent.lastConsentResponse, agent.lastRxAt)

lemma addPair_view (agent : TraversalAgent) (localIndex : ℕ) (c : Candidate) (remoteIndex : ℕ)
      (remote : Candidate) :
    (agent.addPair localIndex c remoteIndex remote).consentView = agent.consentView := by
  unfold addPair
  dsimp only
  split <;> rfl

/-- A loop that leaves the view alone in every round leaves it alone. -/
lemma foldl_view {α : Type} {f : TraversalAgent → α → TraversalAgent}
      (h : ∀ agent a, (f agent a).consentView = agent.consentView) (l : List α)
    (agent : TraversalAgent) : (l.foldl f agent).consentView = agent.consentView := by
  induction l generalizing agent with
  | nil => rfl
  | cons a rest ih => rw [foldl_cons, ih, h]

lemma rebuildPairs_view (agent : TraversalAgent) :
    agent.rebuildPairs.consentView = agent.consentView := by
  apply foldl_view
  intro agent entry
  apply foldl_view
  intro agent entry
  exact addPair_view agent _ _ _ _

lemma new_view (start : ℕ) (config : AgentConfig) (role : IceRole) (tieBreaker : UInt64)
    (localNat remoteNat : NatKind) (localCandidates remoteCandidates : List Candidate) :
    (new start config role tieBreaker localNat remoteNat localCandidates
      remoteCandidates).consentView = (config, none, none, none) :=
  rebuildPairs_view _

lemma addRemoteCandidate_view (agent : TraversalAgent) (candidate : Candidate) :
    (agent.addRemoteCandidate candidate).consentView = agent.consentView :=
  rebuildPairs_view _

lemma markExpiredPairs_view (agent : TraversalAgent) (now : ℕ) :
    (agent.markExpiredPairs now).consentView = agent.consentView := by
  unfold markExpiredPairs
  split <;> rfl

lemma resolveRoleConflict_view (agent : TraversalAgent) (message : StunMessage) :
    (agent.resolveRoleConflict message).consentView = agent.consentView := by
  unfold resolveRoleConflict
  repeat' split
  all_goals rfl

lemma checkTransaction_view (prims : Primitives) (agent : TraversalAgent) (pair : CandidatePair)
      (retransmit : Bool) :
    (agent.checkTransaction prims pair retransmit).2.consentView = agent.consentView := by
  unfold checkTransaction
  split <;> rfl

/-- A check says nothing about consent. -/
lemma sendCheck_view (prims : Primitives) (agent : TraversalAgent) (now : ℕ) (pair : CandidatePair)
      (pairIndex : ℕ) (retransmit : Bool) :
    (agent.sendCheck prims now pair pairIndex retransmit).1.consentView = agent.consentView ∧
      (agent.sendCheck prims now pair pairIndex retransmit).2.filterMap (consentEvent now) =
        [] := by
  have hview := checkTransaction_view prims agent pair retransmit
  unfold sendCheck
  dsimp only
  split
  · exact ⟨hview, rfl⟩
  · exact ⟨hview, rfl⟩

lemma nextCheckAction_view (prims : Primitives) (agent : TraversalAgent) (now : ℕ) :
    (agent.nextCheckAction prims now).1.consentView = agent.consentView ∧
    (agent.nextCheckAction prims now).2.filterMap (consentEvent now) = [] := by
  unfold nextCheckAction
  split
  · exact sendCheck_view prims agent now _ _ true
  · split
    · exact ⟨rfl, rfl⟩
    · exact sendCheck_view prims _ now _ _ false

lemma announceRelay_view (agent : TraversalAgent) (now : ℕ) :
    agent.announceRelay.1.consentView = agent.consentView ∧
    agent.announceRelay.2.1.filterMap (consentEvent now) = [] := by
  unfold announceRelay
  repeat' split
  all_goals exact ⟨rfl, rfl⟩

/-- Without a selected pair, `poll` says nothing about consent. -/
lemma pollChecks_view (prims : Primitives) (agent : TraversalAgent) (now : ℕ) :
    (agent.pollChecks prims now).1.consentView = agent.consentView ∧
    (agent.pollChecks prims now).2.filterMap (consentEvent now) = [] := by
  obtain ⟨hview, hevents⟩ := announceRelay_view agent now
  unfold pollChecks
  rcases hrelay : agent.announceRelay with ⟨relayed, actions, ends⟩
  rw [hrelay] at hview hevents
  cases ends with
  | true => exact ⟨hview, hevents⟩
  | false =>
    dsimp only
    split
    · refine ⟨hview, ?_⟩
      simp only [filterMap_append, hevents]
      rfl
    split
    · exact ⟨hview, hevents⟩
    obtain ⟨hcheck, hcheckEvents⟩ := nextCheckAction_view prims relayed now
    split
    · next heq =>
      rw [heq] at hcheck
      exact ⟨hcheck.trans hview, hevents⟩
    · next heq =>
      rw [heq] at hcheck hcheckEvents
      refine ⟨hcheck.trans hview, ?_⟩
      simp only [filterMap_append, hevents, hcheckEvents, append_nil]

/-! ## What a poll does -/

lemma keepalive_view (prims : Primitives) (agent : TraversalAgent) (now : ℕ)
      (selected : SelectedPair) :
    (agent.keepalive prims now selected).1.consentView = agent.consentView ∧
      ((agent.keepalive prims now selected).2.filterMap (consentEvent now) = [] ∨
        (agent.keepalive prims now selected).2.filterMap (consentEvent now) =
          [.keepalive now selected.remoteAddr]) := by
  unfold keepalive
  split
  · exact ⟨rfl, Or.inr rfl⟩
  · exact ⟨rfl, Or.inl rfl⟩

/-- A poll ends the consent that has run out, or it leaves consent alone and may send a keepalive
to the selected address. -/
inductive Polled (agent agent' : TraversalAgent) (now : ℕ) (events : List ConsentEvent) : Prop
  | expired (hconfig : agent'.config = agent.config) (hselected : agent'.selected = none)
      (hevents : events = [.consentExpired now])
  | quiet (hview : agent'.consentView = agent.consentView) (hevents : events = [])
  | kept (hview : agent'.consentView = agent.consentView) (selected : SelectedPair)
      (hselected : agent.selected = some selected) (hconsent : agent.consentOver now = false)
      (hevents : events = [.keepalive now selected.remoteAddr])

lemma polled_keepalive (hconsent : agent.consentOver now = false) {selected : SelectedPair}
    (hselected : agent.selected = some selected) (hview : agent'.consentView = agent.consentView) :
    Polled agent (agent'.keepalive prims now selected).1 now
      ((agent'.keepalive prims now selected).2.filterMap (consentEvent now)) := by
  obtain ⟨hkeep, hevents⟩ := keepalive_view prims agent' now selected
  obtain hnone | hsome := hevents
  · exact .quiet (hkeep.trans hview) hnone
  · exact .kept (hkeep.trans hview) selected hselected hconsent hsome

lemma polled_pollSelected (prims : Primitives) {selected : SelectedPair}
      (hselected : agent.selected = some selected) (now : ℕ) :
    Polled agent (agent.pollSelected prims now selected).1 now
      ((agent.pollSelected prims now selected).2.filterMap (consentEvent now)) := by
  unfold pollSelected
  split
  · exact .expired rfl rfl rfl
  next hconsent =>
  rw [Bool.not_eq_true] at hconsent
  split
  · exact polled_keepalive hconsent hselected rfl
  dsimp only
  split
  · split
    · exact .quiet rfl rfl
    · exact .quiet rfl rfl
  · split
    · exact polled_keepalive hconsent hselected rfl
    · exact polled_keepalive hconsent hselected rfl

lemma consentOver_view (hview : agent'.consentView = agent.consentView) (now : ℕ) :
    agent'.consentOver now = agent.consentOver now := by
  simp only [consentView, Prod.mk.injEq] at hview
  simp only [consentOver, hview]

lemma polled (prims : Primitives) (agent : TraversalAgent) (now : ℕ) :
    Polled agent (agent.poll prims now).1 now
      ((agent.poll prims now).2.filterMap (consentEvent now)) := by
  have hmark := markExpiredPairs_view agent now
  unfold poll
  generalize agent.markExpiredPairs now = marked at hmark
  have hfields := hmark
  simp only [consentView, Prod.mk.injEq] at hfields
  obtain ⟨hconfig, hselected, -, -⟩ := hfields
  dsimp only
  split
  · next selected hsome =>
    obtain hexpired | ⟨hview, hevents⟩ | ⟨hview, kept, hkept, hconsent, hevents⟩ :=
      polled_pollSelected prims hsome now
    · next hgone hevents => exact .expired (hexpired.trans hconfig) hgone hevents
    · exact .quiet (hview.trans hmark) hevents
    · refine .kept (hview.trans hmark) kept (hselected ▸ hkept) ?_ hevents
      rwa [← consentOver_view hmark]
  · obtain ⟨hview, hevents⟩ := pollChecks_view prims marked now
    exact .quiet (hview.trans hmark) hevents

/-! ## What authenticated traffic does -/

/-- Traffic from an address leaves consent alone, or it gives consent for that address. -/
def Heard (agent agent' : TraversalAgent) (now : ℕ) (src : SocketAddr) : Prop :=
  agent'.config = agent.config ∧
    ((agent'.selected = agent.selected ∧ agent'.lastConsentResponse = agent.lastConsentResponse) ∨
      ∃ selected, agent'.selected = some selected ∧ selected.remoteAddr = src ∧
      agent'.lastConsentResponse = some now)

lemma heard_installSelected {agent agent' : TraversalAgent}
      (hconfig : agent'.config = agent.config) (now : ℕ)
    (selected : SelectedPair) :
    Heard agent (agent'.installSelected now selected) now selected.remoteAddr :=
  ⟨hconfig, Or.inr ⟨selected, rfl, rfl, rfl⟩⟩

lemma remoteCandidateFor_view (agent : TraversalAgent) (src : SocketAddr) :
    (agent.remoteCandidateFor src).2.consentView = agent.consentView := by
  unfold remoteCandidateFor
  split <;> rfl

lemma heard_selectPeerReflexive (hrx : agent.lastRxAt = some now) (src : SocketAddr) :
    Heard agent (agent.selectPeerReflexive src).1 now src := by
  unfold selectPeerReflexive
  split
  · exact ⟨rfl, Or.inl ⟨rfl, rfl⟩⟩
  have hview := remoteCandidateFor_view agent src
  simp only [consentView, Prod.mk.injEq] at hview
  obtain ⟨hconfig, -, -, hlast⟩ := hview
  dsimp only
  rw [hlast, hrx, getD_some]
  exact heard_installSelected hconfig now _

lemma Heard.trans {agent'' : TraversalAgent} (h : Heard agent agent' now src)
    (h' : Heard agent' agent'' now src) : Heard agent agent'' now src := by
  obtain ⟨hconfig, hfirst⟩ := h
  obtain ⟨hconfig', ⟨hselected, hresponse⟩ | hnew⟩ := h'
  · refine ⟨hconfig'.trans hconfig, ?_⟩
    rwa [hselected, hresponse]
  · exact ⟨hconfig'.trans hconfig, Or.inr hnew⟩

lemma heard_of_view (hview : agent'.consentView = agent.consentView) :
    Heard agent agent' now src := by
  simp only [consentView, Prod.mk.injEq] at hview
  obtain ⟨hconfig, hselected, hresponse, -⟩ := hview
  exact ⟨hconfig, Or.inl ⟨hselected, hresponse⟩⟩

lemma heard_heard (agent : TraversalAgent) (now : ℕ) (src : SocketAddr) :
    Heard agent (agent.heard now) now src :=
  ⟨rfl, Or.inl ⟨rfl, rfl⟩⟩

/-- Consent is renewed for the selected address. -/
lemma heard_refreshConsent (hselected : agent.isSelected src = true) (now : ℕ) :
    Heard agent (agent.refreshConsent now) now src := by
  simp only [isSelected, Option.any_eq_true, decide_eq_true_eq] at hselected
  obtain ⟨selected, hsome, hsrc⟩ := hselected
  exact ⟨rfl, Or.inr ⟨selected, hsome, hsrc, rfl⟩⟩

lemma heard_handleRequest (prims : Primitives) (hrx : agent.lastRxAt = some now) (src : SocketAddr)
    (message : StunMessage) : Heard agent (agent.handleRequest prims src message).1 now src :=
  @heard_selectPeerReflexive { agent with peerReflexiveSeen := true } now hrx src

lemma heard_handleSuccess (agent : TraversalAgent) (now : ℕ) (src : SocketAddr)
    (message : StunMessage) : Heard agent (agent.handleSuccess now src message).1 now src := by
  unfold handleSuccess
  split
  · exact ⟨rfl, Or.inl ⟨rfl, rfl⟩⟩
  dsimp only
  split
  · exact ⟨rfl, Or.inl ⟨rfl, rfl⟩⟩
  · exact heard_installSelected rfl now _

lemma heard_processMessage (prims : Primitives) (agent : TraversalAgent) (now : ℕ)
      (src : SocketAddr)
    (message : StunMessage) :
    Heard agent (agent.processMessage prims now src message).1 now src := by
  have hfirst := heard_heard agent now src
  have hrenewed : ∀ b : TraversalAgent, b.lastRxAt = some now →
      Heard b (if message.messageClass = .successResponse ∧ b.isSelected src then
        b.refreshConsent now else b) now src ∧
      (if message.messageClass = .successResponse ∧ b.isSelected src then
        b.refreshConsent now else b).lastRxAt = some now := by
    intro b hrx
    split
    · next h => exact ⟨heard_refreshConsent h.2 now, hrx⟩
    · exact ⟨heard_of_view rfl, hrx⟩
  obtain ⟨hsecond, hrx⟩ := hrenewed (agent.heard now) rfl
  unfold processMessage
  dsimp only
  generalize (if message.messageClass = .successResponse ∧ (agent.heard now).isSelected src = true
    then (agent.heard now).refreshConsent now else agent.heard now) = renewed at hsecond hrx
  have hview := resolveRoleConflict_view renewed message
  have hrole : (renewed.resolveRoleConflict message).lastRxAt = some now := by
    simp only [consentView, Prod.mk.injEq] at hview
    rw [hview.2.2.2, hrx]
  have hthird := (hfirst.trans hsecond).trans (heard_of_view hview)
  split
  · exact hthird.trans (heard_handleRequest prims hrole src message)
  · exact hthird.trans (heard_handleSuccess _ now src message)

lemma heard_observe (agent : TraversalAgent) (now : ℕ) (src : SocketAddr) :
    Heard agent (agent.observeAuthenticatedPacket now src).1 now src := by
  have hfirst := heard_heard agent now src
  unfold observeAuthenticatedPacket
  dsimp only
  split
  · next selected hselected =>
    split
    · next hsrc =>
      have hthere : (agent.heard now).isSelected src = true := by simp [isSelected, hselected, hsrc]
      exact hfirst.trans (heard_refreshConsent hthere now)
    · exact hfirst.trans (heard_installSelected rfl now _)
  · exact hfirst.trans (heard_selectPeerReflexive rfl src)

/-! ## What the actions say -/

lemma processMessage_events (prims : Primitives) (agent : TraversalAgent) (now : ℕ)
      (src : SocketAddr)
    (message : StunMessage) :
    (agent.processMessage prims now src message).2.filterMap (consentEvent now) = [] := by
  unfold processMessage handleRequest handleSuccess
  dsimp only
  repeat' split
  all_goals rfl

lemma observe_events (agent : TraversalAgent) (now : ℕ) (src : SocketAddr) :
    (agent.observeAuthenticatedPacket now src).2.toList.filterMap (consentEvent now) = [] := by
  unfold observeAuthenticatedPacket
  dsimp only
  repeat' split
  all_goals rfl

end TraversalAgent

/-! ## Logs -/

variable {consentTimeout : ℕ} {log : List ConsentEvent}

lemma consented_nil : Consented consentTimeout [] where
  recent before after time dest h := by simp at h
  renewed before between after expired time dest h := by simp at h

/-- A log with one more event: the other events keep what they had. -/
lemma Consented.snoc (h : Consented consentTimeout log) {event : ConsentEvent}
    (hnew : ∀ time dest, event = .keepalive time dest →
      ∃ t before after, log = before ++ .heard t dest :: after ∧
      (∀ expired, .consentExpired expired ∉ after) ∧ t ≤ time ∧ time < t + consentTimeout) :
    Consented consentTimeout (log ++ [event]) where
  recent before after time dest heq := by
    rcases eq_nil_or_concat after with rfl | ⟨rest, last, rfl⟩
    · obtain ⟨rfl, hevent⟩ := append_inj' heq rfl
      obtain ⟨t, front, back, rfl, -, hle, hlt⟩ := hnew time dest (singleton_inj.mp hevent)
      exact ⟨t, by simp, hle, hlt⟩
    · rw [concat_eq_append, ← cons_append, ← append_assoc] at heq
      exact h.recent before rest time dest (append_inj' heq rfl).1
  renewed before between after expired time dest heq := by
    rcases eq_nil_or_concat after with rfl | ⟨rest, last, rfl⟩
    · rw [← cons_append, ← append_assoc] at heq
      obtain ⟨hlog, hevent⟩ := append_inj' heq rfl
      obtain ⟨t, front, back, hfront, hno, -, -⟩ := hnew time dest (singleton_inj.mp hevent)
      refine ⟨t, ?_⟩
      -- the address was heard after consent had expired, or consent expired after it was heard
      rw [hlog, append_eq_append_iff] at hfront
      obtain ⟨c, -, hc⟩ | ⟨c, -, hc⟩ := hfront
      · cases c with
        | nil => simp at hc
        | cons x c =>
          rw [(cons_eq_cons.mp hc).2]
          simp
      · cases c with
        | nil => simp at hc
        | cons x c =>
          have hback := (cons_eq_cons.mp hc).2
          exact absurd (by rw [hback]; simp) (hno expired)
    · rw [concat_eq_append, ← cons_append, ← append_assoc, ← cons_append, ← append_assoc] at heq
      exact h.renewed before between rest expired time dest
        (by simpa using (append_inj' heq rfl).1)

/-! ## Runs -/

/-- What holds in every run: whoever is selected was heard when the consent clock was set, and
consent has not expired since. -/
structure ConsentInv (config : AgentConfig) (s : AgentRun) : Prop where
  sameConfig : s.agent.config = config
  past : ∀ t src, .heard t src ∈ s.log → t ≤ s.clock
  selected : ∀ selected, s.agent.selected = some selected →
    ∃ t before after, s.agent.lastConsentResponse = some t ∧
    s.log = before ++ .heard t selected.remoteAddr :: after ∧
      ∀ expired, .consentExpired expired ∉ after
  consented : Consented config.consentTimeout s.log

variable {config : AgentConfig} {s : AgentRun} {agent : TraversalAgent} {now : ℕ}

section

variable (h : ConsentInv config s)

include h

lemma ConsentInv.later (hnow : s.clock ≤ now) {t : ℕ} {src : SocketAddr}
    (hheard : .heard t src ∈ s.log) : t ≤ now :=
  le_trans (h.past t src hheard) hnow

/-- An input that consent does not see. -/
lemma ConsentInv.quiet (hnow : s.clock ≤ now) (hview : agent.consentView = s.agent.consentView) :
    ConsentInv config { agent, clock := now, log := s.log } := by
  simp only [TraversalAgent.consentView, Prod.mk.injEq] at hview
  obtain ⟨hconfig, hselected, hresponse, -⟩ := hview
  refine ⟨hconfig.trans h.sameConfig, fun t src hheard => h.later hnow hheard, ?_, h.consented⟩
  intro selected hsome
  simp only [hresponse]
  exact h.selected selected (hselected ▸ hsome)

/-- Traffic that is processed. -/
lemma ConsentInv.heard (hnow : s.clock ≤ now) {src : SocketAddr}
      (hheard : TraversalAgent.Heard s.agent agent now src) :
    ConsentInv config { agent, clock := now, log := s.log ++ [.heard now src] } := by
  obtain ⟨hconfig, hcases⟩ := hheard
  refine ⟨hconfig.trans h.sameConfig, ?_, ?_, ?_⟩
  · intro t other hmem
    simp only [mem_append, mem_singleton, ConsentEvent.heard.injEq] at hmem
    obtain hold | ⟨rfl, -⟩ := hmem
    · exact h.later hnow hold
    · exact le_rfl
  · intro selected hsome
    obtain ⟨hselected, hresponse⟩ | ⟨new, hnew, hsrc, hresponse⟩ := hcases
    · obtain ⟨t, before, after, hclock, hlog, hno⟩ := h.selected selected (hselected ▸ hsome)
      refine ⟨t, before, after ++ [.heard now src], hresponse.trans hclock, ?_, ?_⟩
      · simp [hlog]
      · simpa using hno
    · obtain rfl : selected = new := some.inj (hsome.symm.trans hnew)
      exact ⟨now, s.log, [], hresponse, by rw [hsrc], by simp⟩
  · exact h.consented.snoc nofun

lemma ConsentInv.polled (hnow : s.clock ≤ now) {events : List ConsentEvent}
      (hpolled : TraversalAgent.Polled s.agent agent now events) :
    ConsentInv config { agent, clock := now, log := s.log ++ events } := by
  obtain ⟨hconfig, hselected, rfl⟩ | ⟨hview, rfl⟩ | ⟨hview, selected, hselected, hconsent, rfl⟩ :=
    hpolled
  · refine ⟨hconfig.trans h.sameConfig, ?_, ?_, ?_⟩
    · intro t src hmem
      exact h.later hnow (by simpa using hmem)
    · intro selected hsome
      rw [hselected] at hsome
      cases hsome
    · exact h.consented.snoc nofun
  · rw [append_nil]
    exact h.quiet hnow hview
  · have hquiet := h.quiet hnow hview
    obtain ⟨t, before, after, hclock, hlog, hno⟩ := h.selected selected hselected
    have hle : t ≤ now := by
      have hmem : .heard t selected.remoteAddr ∈ s.log := by simp [hlog]
      exact h.later hnow hmem
    have hlt : now < t + config.consentTimeout := by
      simp only [TraversalAgent.consentOver, hclock, any_some, decide_eq_false_iff_not, not_le,
        h.sameConfig] at hconsent
      omega
    refine ⟨hquiet.sameConfig, ?_, ?_, ?_⟩
    · intro t src hmem
      exact h.later hnow (by simpa using hmem)
    · intro other hsome
      obtain ⟨t, before, after, hclock, hlog, hno⟩ := hquiet.selected other hsome
      refine ⟨t, before, after ++ [.keepalive now selected.remoteAddr], hclock, ?_, ?_⟩
      · simp only at hlog
        simp [hlog]
      · simpa using hno
    · apply h.consented.snoc
      intro time dest heq
      obtain ⟨rfl, rfl⟩ := ConsentEvent.keepalive.inj heq
      exact ⟨t, before, after, hlog, hno, hle, hlt⟩

lemma ConsentInv.next {prims : Primitives} {s' : AgentRun} {input : AgentInput} (hok : s.Ok input)
    (hnext : s.next prims input = some s') : ConsentInv config s' := by
  obtain rfl := some.inj hnext
  cases input with
  | poll now => exact h.polled hok (TraversalAgent.polled prims s.agent now)
  | inbound now src bytes =>
    simp only [AgentRun.take, TraversalAgent.handleInbound]
    cases hadmission : s.agent.admitted prims bytes with
    | error e => simpa using h.quiet hok rfl
    | ok admitted =>
      cases admitted with
      | none => simpa using h.quiet hok rfl
      | some message =>
        simp only [TraversalAgent.processMessage_events, append_nil]
        exact h.heard hok (TraversalAgent.heard_processMessage prims s.agent now src message)
  | observe now src =>
    simp only [AgentRun.take, TraversalAgent.observe_events]
    exact h.heard hok (TraversalAgent.heard_observe s.agent now src)
  | addCandidate now candidate =>
    simp only [AgentRun.take, append_nil]
    exact h.quiet hok (TraversalAgent.addRemoteCandidate_view s.agent candidate)

end

/-- In every run of an agent, every keepalive has consent. -/
theorem keepalives_have_consent (prims : Primitives) (start : ℕ) (config : AgentConfig)
      (role : IceRole)
    (tieBreaker : UInt64) (localNat remoteNat : NatKind)
    (localCandidates remoteCandidates : List Candidate)
    (run : Reachable (AgentRun.next prims) AgentRun.Ok (.initial (.new start config role tieBreaker
      localNat remoteNat localCandidates remoteCandidates)) s) :
      Consented config.consentTimeout s.log := by
  have hinv : ConsentInv config s := by
    apply run.invariant
    · have hview := TraversalAgent.new_view start config role tieBreaker localNat remoteNat
        localCandidates remoteCandidates
      simp only [TraversalAgent.consentView, Prod.mk.injEq] at hview
      refine ⟨hview.1, by simp [AgentRun.initial], ?_, consented_nil⟩
      intro selected hsome
      simp [AgentRun.initial, hview.2.1] at hsome
    · intro x y input h hok hnext
      exact h.next hok hnext
  exact hinv.consented

/-! An agent that hears media from an address, keeps it alive, loses consent and hears it again. -/

def samplePrims : Primitives :=
  { stunIntegrity := StunMessage.sampleIntegrity, mulF64 := fun interval factor =>
    interval * factor / 1000 }

def sampleConfig : AgentConfig where
  key := StunMessage.sampleKey
  transactionSalt := StunMessage.sampleKey
  username := none
  minCheckInterval := 25
  handshakeMinDuration := 3000
  checkDeadline := 5000
  initialRto := 100
  maxRto := 800
  keepaliveInterval := 1000
  restartAfterIdle := 5000
  disconnectAfterIdle := 15000
  consentTimeout := 3000
  maxCheckAttempts := 5

def sampleAddr : SocketAddr := .v4 (ByteArr.replicate 4 10) 5000

def sampleInputs : List AgentInput :=
  [.observe 10 sampleAddr, .poll 1500, .poll 4000, .poll 6000, .observe 7000 sampleAddr, .poll 8500]

def sampleAgent : TraversalAgent :=
  .new 0 sampleConfig .controlling 1 .cone .cone [.new 1 .host sampleAddr] []

theorem keepalives_have_consent_sample :
    (after (AgentRun.next samplePrims) (.initial sampleAgent) sampleInputs).log =
      [.heard 10 sampleAddr, .keepalive 1500 sampleAddr, .consentExpired 4000,
        .heard 7000 sampleAddr, .keepalive 8500 sampleAddr] ∧
    Consented 3000 (after (AgentRun.next samplePrims) (.initial sampleAgent) sampleInputs).log :=
  ⟨by decide +kernel,
    keepalives_have_consent samplePrims 0 sampleConfig .controlling 1 .cone .cone
      [.new 1 .host sampleAddr] [] (reachable_after (by decide +kernel))⟩

end Chatt.P2p
