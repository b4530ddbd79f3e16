import Chatt.Analysis.VoiceRelay
import Chatt.Interface.IdealCrypto

/-!
# Runs of the voice relay, and who hears a voice packet
-/

namespace Chatt.VoiceRelay.Relay

open Lib Media List OrdMap Option

variable {r r' : Relay} {id : SessionId} {session : VoiceSession} {lane : Lane} (io : Io)

/-! ## Registration -/

lemma setRoute_routeToSession (r : Relay) (id : SessionId) (route : Option SessionRoute) :
    (r.setRoute id route).routeToSession = r.routeToSession := by
  unfold Relay.setRoute
  split
  · rfl
  next session _ =>
  obtain ⟨rooms, streamOwners, hleft⟩ := clearRoute_eq r id session
  split
  · rfl
  · rw [hleft]
    cases route <;> rfl

lemma detachTcpConn_routeToSession (r : Relay) (lane : Lane) :
    (r.detachTcpConn lane).routeToSession = r.routeToSession := by
  unfold Relay.detachTcpConn
  grind [Relay.setTcpConn, Relay.setSession]

lemma get?_detachTcpConn_eq_none (h : r.sessions.get? id = none) :
    (r.detachTcpConn lane).sessions.get? id = none := by
  unfold Relay.detachTcpConn
  split
  · exact h
  dsimp only
  split
  · exact h
  next other _ =>
  split
  · exact h
  next session hsession =>
  split
  · have hne : id ≠ other := by
      rintro rfl
      exact some_ne_none session (hsession.symm.trans h)
    exact (get?_insert_ne _ _ hne).trans h
  · exact h

/-- A removed session is gone, and no media route has come. -/
lemma removeSession_spec (r : Relay) (id : SessionId) :
    (r.removeSession id).sessions.get? id = none ∧
      ∀ routeId other, (r.removeSession id).routeToSession.get? routeId = some other →
      r.routeToSession.get? routeId = some other := by
  unfold Relay.removeSession
  rw [← setRoute_routeToSession r id none]
  generalize r.setRoute id none = r'
  rcases eq_none_or_eq_some (r'.sessions.get? id) with hs | ⟨session, hs⟩
  · simp [hs]
  simp only [hs]
  have hroutes : ∀ routeId other, (r'.routeToSession.erase session.routeId).get? routeId =
      some other → r'.routeToSession.get? routeId = some other := by
    exact fun _ _ hget => (get?_erase_eq_some.mp hget).2
  split
  · exact ⟨get?_erase_self _ _, hroutes⟩
  · refine ⟨get?_detachTcpConn_eq_none (get?_erase_self _ _), ?_⟩
    rwa [detachTcpConn_routeToSession]

/-- A new session, whose slot and media route were free. -/
lemma Linked.install (h : r.Linked) (hid : r.sessions.get? id = none)
      (hslot : r.sessionSlots.get session.slot = none)
    (hrouteId : r.routeToSession.get? session.routeId = none) (hroute : session.route = none)
    (hconn : session.tcpConn = none) :
    { r with
      sessionSlots := put r.sessionSlots session.slot (some id)
      routeToSession := r.routeToSession.insert session.routeId id
      sessions := r.sessions.insert id session }.Linked := by
  have hnone : ∀ p, ¬r.SessionIs id p := by simp [SessionIs, hid]
  have hnew : ∀ id' (p : VoiceSession → Prop),
      (∃ other, (r.sessions.insert id session).get? id' = some other ∧ p other) ↔
      (id' = id ∧ p session) ∨ r.SessionIs id' p := by
    intro id' p
    refine (sessionIs_setSession r id id' session p).trans (or_congr_right ?_)
    refine ⟨fun h => h.2, fun his => ⟨?_, his⟩⟩
    rintro rfl
    exact hnone p his
  refine ⟨?_, ?_, h.occupied, ?_, ?_, ?_⟩
  · intro slot id'
    refine Iff.trans ?_ (hnew id' _).symm
    rw [get_put, ← h.slots slot id']
    by_cases heq : slot = session.slot
    · subst heq
      simp [hslot, eq_comm]
    · simp [heq, Ne.symm heq]
  · intro roomId slot
    refine (h.members roomId slot).trans (exists_congr fun id' => ?_)
    refine Iff.trans ?_ (hnew id' _).symm
    simp [RoutedTo, hroute]
  · intro routeId id'
    refine Iff.trans ?_ (hnew id' _).symm
    rw [get?_insert, ← h.routes routeId id']
    by_cases heq : routeId = session.routeId
    · subst heq
      simp [hrouteId, eq_comm]
    · simp [heq, Ne.symm heq]
  · intro route id' howner
    exact (hnew id' _).mpr (Or.inr (h.owners route id' howner))
  · intro l id'
    refine (h.lanes l id').trans (Iff.trans ?_ (hnew id' _).symm)
    simp [hconn]

lemma Linked.registerSession (h : r.Linked) (id : SessionId) (userId : UInt64)
    (protection : MediaProtection) : (r.registerSession id userId protection).Linked := by
  unfold Relay.registerSession
  split
  · exact h
  next hfree =>
  -- a media route of the session itself is gone once the session is
  obtain ⟨r', hlinked, hid, hroute, heq⟩ : ∃ r', r'.Linked ∧ r'.sessions.get? id = none ∧
    r'.routeToSession.get? protection.routeId.toNat = none ∧
      (if r.sessions.contains id then r.removeSession id else r) = r' := by
    simp only [Option.any_eq_true, decide_eq_true_eq, not_exists, not_and, not_not] at hfree
    split
    · obtain ⟨hgone, hroutes⟩ := removeSession_spec r id
      have hlinked := h.removeSession id
      refine ⟨_, hlinked, hgone, ?_, rfl⟩
      rcases eq_none_or_eq_some
        ((r.removeSession id).routeToSession.get? protection.routeId.toNat) with hn | ⟨other, ho⟩
      · exact hn
      · rw [hfree other (hroutes _ _ ho), hlinked.routes] at ho
        obtain ⟨session, hs, -⟩ := ho
        exact absurd (hs.symm.trans hgone) (some_ne_none session)
    · next hlive =>
      have hgone := contains_eq_false_iff.mp (Bool.not_eq_true _ ▸ hlive)
      refine ⟨_, h, hgone, ?_, rfl⟩
      rcases eq_none_or_eq_some (r.routeToSession.get? protection.routeId.toNat)
        with hn | ⟨other, ho⟩
      · exact hn
      · rw [hfree other ho, h.routes] at ho
        obtain ⟨session, hs, -⟩ := ho
        exact absurd (hs.symm.trans hgone) (some_ne_none session)
  dsimp only
  rw [heq]
  unfold Relay.installSession
  split
  · exact hlinked
  · next slot hslot => exact hlinked.install hid (get_firstFree hslot) hroute rfl rfl

/-! ## Sending -/

/-- What sending to a session can do: lanes are lost, and no other session or its lane changes. -/
structure Served (id : SessionId) (r r' : Relay) : Prop where
  linked : r'.Linked
  lanes : ∀ lane id', r'.LaneOf lane id' → r.LaneOf lane id'
  others : ∀ id', id' ≠ id → r'.sessions.get? id' = r.sessions.get? id'
  queues : ∀ lane id', id' ≠ id → r.LaneOf lane id' → r'.tcpConns.get lane = r.tcpConns.get lane

lemma Served.refl (h : r.Linked) : Served id r r where
  linked := h
  lanes _ _ := fun h => h
  others _ _ := rfl
  queues _ _ _ _ := rfl

lemma Served.trans {r₁ r₂ r₃ : Relay} (h : Served id r₁ r₂) (h' : Served id r₂ r₃) :
    Served id r₁ r₃ where
  linked := h'.linked
  lanes l id' := fun hl => h.lanes l id' (h'.lanes l id' hl)
  others id' hne := (h'.others id' hne).trans (h.others id' hne)
  queues l id' hne hl := by
    have hfirst := h.queues l id' hne hl
    have hl₂ : r₂.LaneOf l id' := by rwa [LaneOf, hfirst]
    exact (h'.queues l id' hne hl₂).trans hfirst

/-- The lane is bound to no other session. -/
def Serves (r : Relay) (lane : Lane) (id : SessionId) : Prop := ∀ id', r.LaneOf lane id' → id' = id

lemma exists_serves (r : Relay) (lane : Lane) : ∃ id, r.Serves lane id := by
  by_cases hbound : ∃ id, r.LaneOf lane id
  · obtain ⟨id, hid⟩ := hbound
    exact ⟨id, fun id' hid' => hid.unique hid'⟩
  · exact ⟨0, fun id' hid' => absurd ⟨id', hid'⟩ hbound⟩

/-- A lane of another session is another lane. -/
lemma Serves.get_setTcpConn (hlane : r.Serves lane id) (conn : Option TcpVoiceConn) {l : Lane}
    {id' : SessionId} (hne : id' ≠ id) (hl : r.LaneOf l id') :
    (r.setTcpConn lane conn).tcpConns.get l = r.tcpConns.get l := by
  have hother : l ≠ lane := by
    rintro rfl
    exact hne (hlane id' hl)
  rw [setTcpConn, get_put, if_neg hother]

lemma Served.serves (h : Served id r r') (hlane : r.Serves lane id) : r'.Serves lane id :=
  fun id' hl => hlane id' (h.lanes lane id' hl)

section

variable (h : r.Linked)

include h

lemma Served.detachTcpConn (hlane : r.Serves lane id) : Served id r (r.detachTcpConn lane) := by
  have hlinked := h.detachTcpConn lane
  obtain ⟨-, heq | heq⟩ | ⟨owner, session, howner, hs, -, heq⟩ := h.detachTcpConn_cases lane
  · rw [heq]
    exact Served.refl h
  · rw [heq] at hlinked ⊢
    refine ⟨hlinked, ?_, fun _ _ => rfl, fun l id' => hlane.get_setTcpConn none⟩
    intro l id' hl
    rw [laneOf_setTcpConn] at hl
    exact (hl.resolve_left (by simp)).2
  · rw [heq] at hlinked ⊢
    refine ⟨hlinked, ?_, ?_, fun l id' => hlane.get_setTcpConn none⟩
    · intro l id' hl
      have hl := (laneOf_setTcpConn r lane l none id').mp hl
      exact (hl.resolve_left (by simp)).2
    · rw [hlane owner howner]
      intro id' hne
      exact get?_insert_ne _ _ hne

lemma Served.setTcpConn (hlane : r.Serves lane id) {conn : Option TcpVoiceConn}
    (hsame : conn.bind (·.session) = (r.tcpConns.get lane).bind (·.session)) :
    Served id r (r.setTcpConn lane conn) := by
  refine ⟨h.setTcpConn hsame, ?_, fun _ _ => rfl, fun l id' => hlane.get_setTcpConn conn⟩
  intro l id' hl
  rw [laneOf_setTcpConn, hsame] at hl
  obtain ⟨rfl, hl⟩ | ⟨-, hl⟩ := hl
  · exact hl
  · exact hl

/-- A lane changes in its queue. -/
lemma Served.setConn (hlane : r.Serves lane id) {conn conn' : TcpVoiceConn}
    (hconn : r.tcpConns.get lane = some conn) (hsame : conn'.session = conn.session) :
    Served id r (r.setTcpConn lane (some conn')) :=
  Served.setTcpConn h hlane (by rw [hconn, bind_some, bind_some, hsame])

lemma Served.setSession {old new : VoiceSession} (hold : r.sessions.get? id = some old)
      (hseat : seat new = seat old) (hconn : new.tcpConn = old.tcpConn) :
    Served id r (r.setSession id new) where
  linked := h.setSession hold hseat hconn
  lanes _ _ := fun hl => hl
  others _ hne := get?_insert_ne _ _ hne
  queues _ _ _ _ := rfl

lemma Served.detachStaleTcpBacklog (hlane : r.Serves lane id) (now : ℕ) :
    Served id r (r.detachStaleTcpBacklog lane now).1 := by
  unfold Relay.detachStaleTcpBacklog
  dsimp only
  split
  · exact Served.detachTcpConn h hlane
  · exact Served.refl h

lemma Served.flushTcp (hlane : r.Serves lane id) (io : Io) : Served id r (r.flushTcp io lane) := by
  unfold Relay.flushTcp
  split
  · exact Served.refl h
  next conn hconn =>
  split
  · exact Served.refl h
  split
  · exact Served.detachTcpConn h hlane
  · exact Served.detachTcpConn h hlane
  have hwrote : ∀ conn', conn'.session = conn.session →
      Served id r ((r.setTcpConn lane (some conn')).detachStaleTcpBacklog lane io.now).1 := by
    intro conn' hsame
    have hset := Served.setConn h hlane hconn hsame
    exact hset.trans (Served.detachStaleTcpBacklog hset.linked (hset.serves hlane) io.now)
  exact hwrote _ rfl

lemma Served.admitTcpSend (hlane : r.Serves lane id) (io : Io) :
    Served id r (r.admitTcpSend io lane).1 := by
  have hstale := Served.detachStaleTcpBacklog h hlane io.now
  unfold Relay.admitTcpSend
  split
  · next heq => rwa [heq] at hstale
  next heq =>
  rw [heq] at hstale
  split
  · exact hstale
  · split
    · exact hstale
    · exact hstale.trans (Served.detachTcpConn hstale.linked (hstale.serves hlane))

lemma Served.sendTcpSealed (hlane : r.Serves lane id) (io : Io) (packet : Bytes) :
    Served id r (r.sendTcpSealed io lane packet) := by
  unfold Relay.sendTcpSealed
  split
  · exact Served.refl h
  next conn hconn =>
  have hqueued : ∀ conn', conn'.session = conn.session →
      Served id r ((r.setTcpConn lane (some conn')).flushTcp io lane) := by
    intro conn' hsame
    have hset := Served.setConn h hlane hconn hsame
    exact hset.trans (Served.flushTcp hset.linked (hset.serves hlane) io)
  exact hqueued _ rfl

end

section

variable (aead : Aead) (authProof : AuthProof)

lemma Served.sealForSession (h : r.Linked) (id : SessionId) (payload : MediaPayload) :
    Served id r (r.sealForSession aead authProof id payload).1 := by
  unfold Relay.sealForSession
  split
  · exact Served.refl h
  · next session hs => exact Served.setSession h hs rfl rfl

lemma Served.sendPayload (h : r.Linked) (io : Io) (id : SessionId) (payload : MediaPayload) :
    Served id r (r.sendPayload aead authProof io id payload).1 := by
  unfold Relay.sendPayload
  split
  · exact Served.refl h
  next session hs =>
  split
  · next lane hconn =>
    have hlane : r.Serves lane id := by
      have hmine : r.LaneOf lane id := (h.lanes lane id).mpr ((sessionIs_self hs).mpr hconn)
      exact fun id' hid' => hmine.unique hid'
    have hadmission := Served.admitTcpSend h hlane io
    split
    · next heq => rwa [heq] at hadmission
    next r' heq =>
    rw [heq] at hadmission
    have hseal := hadmission.trans (Served.sealForSession aead authProof hadmission.linked id payload)
    split
    · next heq' => rwa [heq'] at hseal
    · next heq' =>
      rw [heq'] at hseal
      exact hseal.trans (Served.sendTcpSealed hseal.linked (hseal.serves hlane) io _)
  · split
    · exact Served.refl h
    have hseal := Served.sealForSession aead authProof h id payload
    split
    · next heq' => rwa [heq'] at hseal
    · next heq' => rwa [heq'] at hseal

lemma Linked.sendAll {r : Relay} (h : r.Linked) (io : Io) (payload : MediaPayload)
    (ids : List SessionId) : (sendAll aead authProof io payload ids r).1.Linked := by
  induction ids generalizing r with
  | nil => exact h
  | cons id rest ih => exact ih (Served.sendPayload aead authProof h io id payload).linked

lemma sendAll_ids (payload : MediaPayload) (ids : List SessionId) (r : Relay) :
    (sendAll aead authProof io payload ids r).2.map Prod.fst = ids := by
  induction ids generalizing r with
  | nil => rfl
  | cons id rest ih => simp [Relay.sendAll, ih]

/-- What `admit_tcp_send` answers, from the lane as it was before. -/
lemma admitTcpSend_eq {conn : TcpVoiceConn} (hconn : r.tcpConns.get lane = some conn) :
    (r.Congested io.now lane → (r.admitTcpSend io lane).2 = false) ∧
    (¬ r.Congested io.now lane → r.admitTcpSend io lane = (r, true)) := by
  have hroom : conn.queued ≤ voiceTcpWriteCapBytes - voiceTcpMaxWireFrameBytes ↔
      ¬ voiceTcpWriteCapBytes < conn.queued + voiceTcpMaxWireFrameBytes := by
    have hfits : voiceTcpMaxWireFrameBytes ≤ voiceTcpWriteCapBytes := by decide
    omega
  have hlane : r.Congested io.now lane ↔
      (∃ since, conn.backlogSince = some since ∧ voiceTcpStaleBacklog ≤ io.now - since) ∨
        voiceTcpWriteCapBytes < conn.queued + voiceTcpMaxWireFrameBytes := by
    simp [Congested, hconn]
  simp only [hlane, Relay.admitTcpSend, Relay.detachStaleTcpBacklog, hconn, bind_some]
  rcases eq_none_or_eq_some conn.backlogSince with hsince | ⟨since, hsince⟩
  · simp only [hsince, any_none]
    grind
  · by_cases hstale : voiceTcpStaleBacklog ≤ io.now - since
    · simp [hsince, hstale]
    · simp only [hsince, hstale, any_some, decide_false]
      grind

lemma sealForSession_eq (hs : r.sessions.get? id = some session) (payload : MediaPayload) :
    r.sealForSession aead authProof id payload =
      (r.setSession id { session with sendCounter := session.sendCounter + 1 },
        sealedFor aead authProof session payload) := by
  simp only [Relay.sealForSession, hs, sealedFor]

lemma sendPayload_carries (h : r.Linked) (payload : MediaPayload)
    (hs : r.sessions.get? id = some session) :
    Carries aead authProof r io.now session payload
      (r.sendPayload aead authProof io id payload).2 := by
  unfold Relay.sendPayload Carries
  simp only [hs]
  rcases eq_none_or_eq_some session.tcpConn with hconn | ⟨lane, hconn⟩
  · simp only [hconn, sealForSession_eq aead authProof hs]
    rcases eq_none_or_eq_some session.udpAddr with haddr | ⟨addr, haddr⟩
    · simp [haddr]
    · simp only [haddr, bind_some]
      cases sealedFor aead authProof session payload <;> rfl
  · simp only [hconn]
    -- the lane of a live session is an open one
    have hmine : r.LaneOf lane id := (h.lanes lane id).mpr ((sessionIs_self hs).mpr hconn)
    obtain ⟨conn, hopen, -⟩ := bind_eq_some_iff.mp hmine
    obtain ⟨hrefused, hadmitted⟩ := admitTcpSend_eq io hopen
    constructor
    · intro hcongested
      have hno := hrefused hcongested
      rcases hadmission : r.admitTcpSend io lane with ⟨r', admitted⟩
      rw [hadmission] at hno
      obtain rfl : admitted = false := hno
      rfl
    · intro hfree
      rw [hadmitted hfree]
      simp only [sealForSession_eq aead authProof hs]
      cases sealedFor aead authProof session payload <;> rfl

/-- What is carried to a session depends on its own lane only. -/
lemma Carries.congr {payload : MediaPayload} {sent : Option Sent}
    (hlane : ∀ lane, session.tcpConn = some lane → r'.tcpConns.get lane = r.tcpConns.get lane)
    (h : Carries aead authProof r' io.now session payload sent) :
    Carries aead authProof r io.now session payload sent := by
  unfold Carries at h ⊢
  rcases eq_none_or_eq_some session.tcpConn with hconn | ⟨lane, hconn⟩
  · simpa only [hconn] using h
  · simpa only [hconn, Congested, hlane lane hconn] using h

/-- A recipient is served from the state the packet came in. -/
lemma sendAll_carries (payload : MediaPayload) {ids : List SessionId} {r : Relay} (h : r.Linked)
      (hnodup : ids.Nodup) {sent : Option Sent}
    (hsent : (id, sent) ∈ (sendAll aead authProof io payload ids r).2)
    (hs : r.sessions.get? id = some session) :
    Carries aead authProof r io.now session payload sent := by
  induction ids generalizing r with
  | nil => simp [Relay.sendAll] at hsent
  | cons first rest ih =>
    obtain ⟨hnot, hrest⟩ := nodup_cons.mp hnodup
    have hserved := Served.sendPayload aead authProof h io first payload
    rw [Relay.sendAll, mem_cons] at hsent
    obtain heq | hlater := hsent
    · obtain ⟨rfl, rfl⟩ := Prod.mk.inj heq
      exact sendPayload_carries io aead authProof h payload hs
    have hne : id ≠ first := by
      rintro rfl
      have hmem := mem_map_of_mem hlater (f := Prod.fst)
      rw [sendAll_ids] at hmem
      exact hnot hmem
    have hcarried := ih hserved.linked hrest hlater ((hserved.others id hne).trans hs)
    refine hcarried.congr io aead authProof fun lane hconn => ?_
    exact hserved.queues lane id hne ((h.lanes lane id).mpr ((sessionIs_self hs).mpr hconn))

end

/-! ## Who hears a packet -/

/-- What the fan-out takes from a slot. -/
lemma recipientAt_eq_some (h : r.Linked) (sender : SessionId) (n : ℕ) (id : SessionId) :
    r.recipientAt sender n = some id ↔ id ≠ sender ∧ r.SessionIs id fun session =>
    session.slot.val = n := by
  have hread : ∀ slot : Slot, r.sessionSlots[slot.val]? = some (r.sessionSlots.get slot) := by
    intro slot
    simp [Vector.get_eq_getElem]
  unfold recipientAt
  by_cases hn : n < maxSessions
  · have hslot := h.slots ⟨n, hn⟩ id
    simp only [Fin.ext_iff] at hslot
    rw [← hslot, hread ⟨n, hn⟩]
    rcases eq_none_or_eq_some (r.sessionSlots.get ⟨n, hn⟩) with hnone | ⟨other, hother⟩
    · simp [hnone]
    · grind
  · have hnone : r.sessionSlots[n]? = none := by simpa using hn
    rw [hnone]
    simp only [reduceCtorEq, false_iff, not_and]
    rintro - ⟨session, -, rfl⟩
    exact hn session.slot.isLt

lemma mem_recipients (h : r.Linked) (sender : SessionId) (roomId : RoomId) (id : SessionId) :
    id ∈ r.recipients sender roomId ↔ id ≠ sender ∧ r.SessionIs id (RoutedTo roomId) := by
  have hmembers : id ∈ r.recipients sender roomId ↔ ∃ slot : Slot, r.Member roomId slot ∧
      r.recipientAt sender slot.val = some id := by
    unfold recipients Member
    rcases eq_none_or_eq_some (r.rooms.get? roomId) with hroom | ⟨room, hroom⟩
    · simp [hroom]
    simp only [hroom, mem_filterMap, VoiceRoom.mem_slots, some.injEq, exists_eq_left']
    constructor
    · rintro ⟨n, ⟨slot, rfl, hhas⟩, hat⟩
      exact ⟨slot, hhas, hat⟩
    · rintro ⟨slot, hhas, hat⟩
      exact ⟨slot.val, ⟨slot, rfl, hhas⟩, hat⟩
  rw [hmembers]
  constructor
  · rintro ⟨slot, hmember, hat⟩
    obtain ⟨hne, session, hs, hslot⟩ := (recipientAt_eq_some h sender slot.val id).mp hat
    refine ⟨hne, session, hs, ?_⟩
    rw [← Fin.ext hslot] at hmember
    exact (h.member_self hs roomId).mp hmember
  · rintro ⟨hne, session, hs, hrouted⟩
    refine ⟨session.slot, (h.member_self hs roomId).mpr hrouted, ?_⟩
    exact (recipientAt_eq_some h sender session.slot.val id).mpr ⟨hne, session, hs, rfl⟩

lemma nodup_recipients (h : r.Linked) (sender : SessionId) (roomId : RoomId) :
    (r.recipients sender roomId).Nodup := by
  unfold recipients
  split
  · exact nodup_nil
  next room _ =>
  apply List.Nodup.filterMap _ room.nodup_slots
  intro n n' id hn hn'
  obtain ⟨-, session, hs, hslot⟩ := (recipientAt_eq_some h sender n id).mp hn
  obtain ⟨-, session', hs', hslot'⟩ := (recipientAt_eq_some h sender n' id).mp hn'
  rw [hs] at hs'
  rw [← hslot, ← hslot', some.inj hs']

section

variable (aead : Aead) (authProof : AuthProof)

/-- A voice packet goes to the others in the room, once to each. -/
lemma relayVoice_spec (h : r.Linked) (io : Io) (sender : SessionId) (frame : VoiceFrame) :
    (∀ id, id ∈ (r.relayVoice aead authProof io sender frame).2.map Prod.fst ↔
      r.Hears sender frame.streamId.toNat id) ∧
    ((r.relayVoice aead authProof io sender frame).2.map Prod.fst).Nodup ∧
    ∀ id session sent, (id, sent) ∈ (r.relayVoice aead authProof io sender frame).2 →
    r.sessions.get? id = some session →
      Carries aead authProof r io.now session (.voice frame) sent := by
  unfold relayVoice Hears
  rcases eq_none_or_eq_some ((r.sessions.get? sender).bind (·.route)) with hroute | ⟨route, hroute⟩
  · simp only [hroute]
    refine ⟨?_, nodup_nil, by simp⟩
    rintro id
    simp only [map_nil, not_mem_nil, false_iff]
    rintro ⟨-, route, ⟨session, hs, hsession⟩, -⟩
    simp [hs, hsession] at hroute
  · have hsender : ∀ other, r.SessionIs sender (·.route = some other) ↔ other = route := by
      intro other
      obtain ⟨session, hs, hsession⟩ := bind_eq_some_iff.mp hroute
      rw [sessionIs_self hs, hsession, some_inj, eq_comm]
    simp only [hroute, hsender, exists_eq_left]
    split
    · next hstream =>
      refine ⟨?_, ?_, ?_⟩
      · intro id
        rw [sendAll_ids, mem_recipients h]
        simp [hstream]
      · rw [sendAll_ids]
        exact nodup_recipients h sender route.roomId
      · intro id session sent hsent hs
        exact sendAll_carries io aead authProof _ h (nodup_recipients h sender route.roomId) hsent
          hs
    · next hstream => simp [hstream]

/-! ## Runs -/

lemma Linked.next {action : VoiceAction} (h : r.Linked)
    (hnext : r.next aead authProof action = some r') : r'.Linked := by
  cases action with
  | registerSession id userId protection =>
    obtain rfl := some.inj hnext
    exact h.registerSession id userId protection
  | setRoute id route =>
    obtain rfl := some.inj hnext
    exact h.setRoute id route
  | removeSession id =>
    obtain rfl := some.inj hnext
    exact h.removeSession id
  | attachTcp registered =>
    obtain rfl := some.inj hnext
    exact h.attachTcpConn registered
  | bindTcp lane id =>
    simp only [Relay.next, ite_none_right_eq_some, some.injEq] at hnext
    obtain ⟨hlive, rfl⟩ := hnext
    exact h.bindTcpConn lane hlive
  | detachTcp lane =>
    obtain rfl := some.inj hnext
    exact h.detachTcpConn lane
  | flushTcp io lane =>
    obtain rfl := some.inj hnext
    obtain ⟨id, hlane⟩ := exists_serves r lane
    exact (Served.flushTcp h hlane io).linked
  | unblockTcp lane =>
    obtain rfl := some.inj hnext
    unfold Relay.unblockTcp
    split
    · exact h
    · next conn hconn => exact h.setTcpConn (by rw [hconn]; rfl)
  | bindUdp id bindIndex src =>
    obtain rfl := some.inj hnext
    unfold Relay.bindUdp
    split
    · exact h
    · next session hs => exact h.setSession hs rfl rfl
  | voice io sender frame =>
    obtain rfl := some.inj hnext
    unfold Relay.relayVoice
    split
    · exact h
    · split
      · exact h.sendAll aead authProof io _ _
      · exact h
  | feedback io reporter streamId feedback =>
    obtain rfl := some.inj hnext
    unfold Relay.relayFeedback
    repeat' split
    all_goals first | exact h | exact h.sendAll aead authProof io _ _

end

/-! Two sessions in one room and one in another, after a session that took a used media route, one
that changed rooms and one that came back under its id. -/

def sampleProof : AuthProof := fun _ _ => ByteArr.replicate 16 0

def sampleProtection (routeId : UInt32) : MediaProtection := .clear routeId (ByteArr.replicate 32 0)

def sampleIo : Io := { now := 0, write := fun _ => .wrote 0 false }

lemma sampleLane_lt : 0 < maxTcpVoiceConns := by decide

def sampleLane : Lane := ⟨0, sampleLane_lt⟩

def sampleActions : List VoiceAction :=
  [.registerSession 1 10 (sampleProtection 7), .registerSession 2 20 (sampleProtection 7),
    .registerSession 2 20 (sampleProtection 8), .registerSession 3 30 (sampleProtection 9),
    .setRoute 1 (some ⟨5, 1⟩), .setRoute 2 (some ⟨6, 1⟩), .setRoute 3 (some ⟨6, 2⟩),
    .setRoute 2 (some ⟨5, 2⟩), .registerSession 1 10 (sampleProtection 7),
    .setRoute 1 (some ⟨5, 1⟩), .attachTcp true, .bindTcp sampleLane 2]

def sampleRelay : Relay := after (next .sample sampleProof) initial sampleActions

def sampleFrame : VoiceFrame :=
  { streamId := 1, sequence := 0, timestamp := 0, flags := 0, payload := .silence }

/-- A frame waits on the lane for 250 ms. -/
def staleRelay : Relay :=
  after (next .sample sampleProof) sampleRelay
    [.voice { now := 0, write := fun _ => .wrote 100 true } 1 sampleFrame]

lemma staleRelay_reachable :
    Reachable (next .sample sampleProof) (fun _ _ => True) initial staleRelay := by
  have hrun : Reachable (next .sample sampleProof) (fun _ _ => True) initial sampleRelay :=
    reachable_after (by decide +kernel)
  exact hrun.trans (reachable_after (by decide +kernel))

end Chatt.VoiceRelay.Relay
