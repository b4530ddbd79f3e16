import Chatt.Analysis.VoiceRooms

/-!
# The tables of the voice relay agree

Every command and every packet keeps `Linked`.  A change is taken apart into a few moves (a session
or a lane that changes in a field no table speaks about, a lane that is given up, a session that
leaves or enters a room, is removed or installed), and each move keeps `Linked`.
-/

namespace Chatt.VoiceRelay.Relay

open Lib Media OrdMap Option

variable {r r' : Relay} {id id' : SessionId} {session old new : VoiceSession} {lane : Lane}

/-! ## Lookups -/

lemma sessionIs_setSession (r : Relay) (id id' : SessionId) (new : VoiceSession)
      (p : VoiceSession → Prop) :
    (r.setSession id new).SessionIs id' p ↔ (id' = id ∧ p new) ∨
    (id' ≠ id ∧ r.SessionIs id' p) := by
  unfold SessionIs setSession
  rw [get?_insert]
  by_cases h : id' = id <;> simp [h]

/-- A changed session keeps every property the change keeps. -/
lemma sessionIs_keep (hold : r.sessions.get? id = some old) {p : VoiceSession → Prop}
      (hp : p new ↔ p old)
    (id' : SessionId) : (r.setSession id new).SessionIs id' p ↔ r.SessionIs id' p := by
  rw [sessionIs_setSession]
  by_cases h : id' = id
  · subst h
    simp [SessionIs, hold, hp]
  · simp [h]

lemma sessionIs_self (hs : r.sessions.get? id = some session) {p : VoiceSession → Prop} :
    r.SessionIs id p ↔ p session := by
  simp [SessionIs, hs]

lemma laneOf_setTcpConn (r : Relay) (lane l : Lane) (conn : Option TcpVoiceConn) (id : SessionId) :
    (r.setTcpConn lane conn).LaneOf l id ↔ (l = lane ∧ conn.bind (·.session) = some id) ∨
    (l ≠ lane ∧ r.LaneOf l id) := by
  unfold LaneOf setTcpConn
  rw [get_put]
  by_cases h : l = lane <;> simp [h]

lemma LaneOf.unique (h : r.LaneOf lane id) (h' : r.LaneOf lane id') : id' = id :=
  some.inj (h'.symm.trans h)

/-- A slot belongs to one session. -/
lemma Linked.slot_unique (h : r.Linked) {slot : Slot} (hid : r.SessionIs id (·.slot = slot))
    (hid' : r.SessionIs id' (·.slot = slot)) : id' = id := by
  have h1 := (h.slots slot id).mpr hid
  have h2 := (h.slots slot id').mpr hid'
  exact some.inj (h2.symm.trans h1)

lemma ownerKey_inj {a b : SessionRoute} : ownerKey a = ownerKey b ↔ a = b := by
  cases a
  cases b
  simp [ownerKey]

lemma linked_initial : initial.Linked where
  slots := by simp [initial, SessionIs]
  members := by simp [initial, SessionIs, Member]
  occupied := by simp [initial]
  routes := by simp [initial, SessionIs]
  owners := by simp [initial]
  lanes := by simp [initial, SessionIs, LaneOf]

/-! ## Changes that leave every session in its seat -/

/-- What the tables other than the lanes say about a session. -/
def seat (session : VoiceSession) : Slot × ℕ × Option SessionRoute :=
  (session.slot, session.routeId, session.route)

/-- No session of `r` has another seat in `r'`. -/
def SameSeats (r r' : Relay) : Prop :=
  ∀ id, (r'.sessions.get? id).map seat = (r.sessions.get? id).map seat

lemma SameSeats.sessionIs (h : SameSeats r r') (id : SessionId)
      (q : Slot × ℕ × Option SessionRoute → Prop) :
    (r.SessionIs id fun session => q (seat session)) ↔ r'.SessionIs id fun session =>
    q (seat session) := by
  have hid := h id
  unfold SessionIs
  rcases eq_none_or_eq_some (r.sessions.get? id) with hr | ⟨x, hr⟩ <;>
    rcases eq_none_or_eq_some (r'.sessions.get? id) with hr' | ⟨y, hr'⟩ <;> simp_all

lemma sameSeats_setSession (hold : r.sessions.get? id = some old) (hseat : seat new = seat old) :
    SameSeats r (r.setSession id new) := by
  intro id'
  unfold Relay.setSession
  rw [get?_insert]
  by_cases hid : id' = id
  · subst hid
    simp [hold, hseat]
  · simp [hid]

section

variable (h : r.Linked)

include h

/-- Only the lanes have to be looked at again. -/
lemma Linked.of_seats (hseats : SameSeats r r') (hslots : r'.sessionSlots = r.sessionSlots)
      (hrooms : r'.rooms = r.rooms)
    (hroutes : r'.routeToSession = r.routeToSession) (howners : r'.streamOwners = r.streamOwners)
    (hlanes : ∀ lane id, r'.LaneOf lane id ↔ r'.SessionIs id (·.tcpConn = some lane)) :
    r'.Linked where
  slots slot id := by
    rw [hslots, h.slots slot id]
    exact hseats.sessionIs id fun seat => seat.1 = slot
  members roomId slot := by
    have hmember : r'.Member roomId slot ↔ r.Member roomId slot := by rw [Member, hrooms, Member]
    rw [hmember, h.members roomId slot]
    exact exists_congr fun id => hseats.sessionIs id fun seat => seat.1 = slot ∧
      seat.2.2.map (·.roomId) = some roomId
  occupied roomId room hroom := h.occupied roomId room (hrooms ▸ hroom)
  routes routeId id := by
    rw [hroutes, h.routes routeId id]
    exact hseats.sessionIs id fun seat => seat.2.1 = routeId
  owners route id howner := by
    rw [howners] at howner
    exact (hseats.sessionIs id fun seat => seat.2.2 = some route).mp (h.owners route id howner)
  lanes := hlanes

lemma Linked.setSession (hold : r.sessions.get? id = some old) (hseat : seat new = seat old)
    (hconn : new.tcpConn = old.tcpConn) : (r.setSession id new).Linked := by
  refine h.of_seats (sameSeats_setSession hold hseat) rfl rfl rfl rfl ?_
  intro l id'
  rw [sessionIs_keep hold (by rw [hconn])]
  exact h.lanes l id'

lemma Linked.setTcpConn {conn : Option TcpVoiceConn}
    (hsame : conn.bind (·.session) = (r.tcpConns.get lane).bind (·.session)) :
    (r.setTcpConn lane conn).Linked := by
  refine h.of_seats (fun _ => rfl) rfl rfl rfl rfl ?_
  intro l id'
  refine Iff.trans ?_ (h.lanes l id')
  rw [laneOf_setTcpConn, hsame]
  by_cases hl : l = lane
  · simp [hl, LaneOf]
  · simp [hl]

/-! ## Lanes -/

/-- A session gives up its lane. -/
lemma Linked.unbind (hs : r.sessions.get? id = some session) (hconn : session.tcpConn = some lane) :
    ((r.setTcpConn lane none).setSession id { session with tcpConn := none }).Linked := by
  have hs' : (r.setTcpConn lane none).sessions.get? id = some session := hs
  refine h.of_seats (sameSeats_setSession hs' rfl) rfl rfl rfl rfl ?_
  intro l id'
  have howner : r.LaneOf lane id := (h.lanes lane id).mpr ((sessionIs_self hs).mpr hconn)
  have hbefore := h.lanes l id'
  rw [sessionIs_setSession]
  refine (laneOf_setTcpConn r lane l none id').trans ?_
  simp only [bind_none, reduceCtorEq, and_false, false_or]
  constructor
  · rintro ⟨hl, hlane⟩
    refine ⟨?_, hbefore.mp hlane⟩
    rintro rfl
    have hother := (sessionIs_self hs).mp (hbefore.mp hlane)
    exact hl (some.inj (hother.symm.trans hconn))
  · rintro ⟨hne, his⟩
    refine ⟨?_, hbefore.mpr his⟩
    rintro rfl
    exact hne (howner.unique (hbefore.mpr his))

/-- A session takes a lane, and has no other. -/
lemma Linked.bind (hs : r.sessions.get? id = some session)
      {conns : Vector (Option TcpVoiceConn) maxTcpVoiceConns}
    (hconns : ∀ l id', (conns.get l).bind (·.session) = some id' ↔ (l = lane ∧ id' = id) ∨
      (id' ≠ id ∧ r.LaneOf l id')) :
    ({ r with tcpConns := conns }.setSession id { session with tcpConn := some lane }).Linked := by
  have hs' : { r with tcpConns := conns }.sessions.get? id = some session := hs
  refine h.of_seats (sameSeats_setSession hs' rfl) rfl rfl rfl rfl ?_
  intro l id'
  rw [sessionIs_setSession]
  refine (hconns l id').trans ?_
  rw [h.lanes l id', some_inj, and_comm, @eq_comm _ lane l]
  rfl

/-- The lanes of a session that takes another one: the old one is detached. -/
lemma Linked.bindTcpConn (lane : Lane) (hlive : r.sessions.contains id = true) :
    (r.bindTcpConn lane id).Linked := by
  obtain ⟨session, hs⟩ := contains_iff.mp hlive
  unfold Relay.bindTcpConn
  rcases eq_none_or_eq_some (r.tcpConns.get lane) with hconn | ⟨conn, hconn⟩
  · simpa only [hconn] using h
  rcases eq_none_or_eq_some conn.session with hfree | ⟨other, hbound⟩
  swap
  · simpa only [hconn, hbound, isSome_some, if_true] using h
  have hno : ∀ id, ¬r.LaneOf lane id := by simp [LaneOf, hconn, hfree]
  have hs' : (r.setTcpConn lane (some { conn with session := some id })).sessions.get? id =
      some session := hs
  have hlanes := fun l => h.lanes l id
  simp only [sessionIs_self hs] at hlanes
  have hmine {l : Lane} {id' : SessionId} (hl : r.LaneOf l id') : l ≠ lane ∧
      (id' = id ↔ session.tcpConn = some l) := by
    refine ⟨?_, ?_, fun hl' => LaneOf.unique ((hlanes l).mpr hl') hl⟩
    · rintro rfl
      exact hno id' hl
    · rintro rfl
      exact (hlanes l).mp hl
  simp only [hconn, hfree, isSome_none, Bool.false_eq_true, if_false, hs']
  rcases eq_none_or_eq_some session.tcpConn with hnone | ⟨previous, hprevious⟩
  · simp only [hnone]
    apply h.bind hs
    intro l id'
    refine (laneOf_setTcpConn r lane l (some { conn with session := some id }) id').trans ?_
    simp only [hnone, reduceCtorEq, iff_false] at hmine
    have hkept := @hmine l id'
    simp only [bind_some, some.injEq, @eq_comm _ id id']
    tauto
  have hne : previous ≠ lane := by
    rintro rfl
    exact hno id ((hlanes previous).mpr hprevious)
  obtain ⟨held, hheld, hid⟩ := bind_eq_some_iff.mp ((hlanes previous).mpr hprevious)
  have hget : (put r.tcpConns lane (some { conn with session := some id })).get previous =
      some held := by
    rw [get_put, if_neg hne, hheld]
  simp only [hprevious, ne_eq, hne, not_false_eq_true, if_true, Relay.detachTcpConn,
    Relay.setSession,
    Relay.setTcpConn, hget, hid, get?_insert_self, some.injEq, hne.symm, if_false]
  have hbind := @Linked.bind r id session lane h hs
    (put (put r.tcpConns lane (some { conn with session := some id })) previous none)
  apply hbind
  intro l id'
  rw [get_put, get_put]
  simp only [hprevious, some.injEq] at hmine
  have hkept := @hmine l id'
  by_cases hl : l = previous
  · subst hl
    simp only [if_true, bind_none, reduceCtorEq, hne, false_and, false_or, false_iff]
    tauto
  · by_cases hl' : l = lane
    · subst hl'
      simp only [hl, if_false, if_true, bind_some, some.injEq, true_and, @eq_comm _ id id']
      tauto
    · simp only [hl, hl', if_false, false_and, false_or]
      tauto

/-- What `detach_tcp_conn` does: the lane is gone, and its session, if it has one, has no lane. -/
lemma Linked.detachTcpConn_cases (lane : Lane) :
    ((∀ id, ¬r.LaneOf lane id) ∧
      (r.detachTcpConn lane = r ∨ r.detachTcpConn lane = r.setTcpConn lane none)) ∨
    ∃ id session, r.LaneOf lane id ∧ r.sessions.get? id = some session ∧
    session.tcpConn = some lane ∧
      r.detachTcpConn lane = (r.setTcpConn lane none).setSession id
        { session with tcpConn := none } := by
  unfold detachTcpConn
  rcases eq_none_or_eq_some (r.tcpConns.get lane) with hconn | ⟨conn, hconn⟩
  · left
    simp [LaneOf, hconn]
  rcases eq_none_or_eq_some conn.session with hid | ⟨id, hid⟩
  · left
    simp [LaneOf, hconn, hid]
  right
  have hlane : r.LaneOf lane id := by simp [LaneOf, hconn, hid]
  obtain ⟨session, hs, htcp⟩ := (h.lanes lane id).mp hlane
  have hs' : (r.setTcpConn lane none).sessions.get? id = some session := hs
  refine ⟨id, session, hlane, hs, htcp, ?_⟩
  simp only [hconn, hid, hs', htcp, if_true]

omit h in
lemma Linked.no_lane (h : ∀ id, ¬r.LaneOf lane id) :
    (r.tcpConns.get lane).bind (·.session) = none := by
  rcases eq_none_or_eq_some ((r.tcpConns.get lane).bind (·.session)) with hnone | ⟨id, hid⟩
  · exact hnone
  · exact absurd hid (h id)

lemma Linked.detachTcpConn (lane : Lane) : (r.detachTcpConn lane).Linked := by
  obtain ⟨hno, heq | heq⟩ | ⟨id, session, -, hs, htcp, heq⟩ := h.detachTcpConn_cases lane
  · rwa [heq]
  · rw [heq]
    exact h.setTcpConn (by rw [Linked.no_lane hno]; rfl)
  · rw [heq]
    exact h.unbind hs htcp

lemma Linked.attachTcpConn (registered : Bool) : (r.attachTcpConn registered).Linked := by
  unfold Relay.attachTcpConn
  split
  · exact h
  next lane hfree =>
  split
  · exact h.setTcpConn (by rw [get_firstFree hfree]; rfl)
  · exact h

end

/-! ## Routes -/

variable {route : SessionRoute}

/-- Leaving takes the one slot out of the one room. -/
lemma member_leave (r : Relay) (id : SessionId) (slot : Slot) (old : SessionRoute)
      (roomId : RoomId) (s : Slot) :
    (r.leave id slot old).Member roomId s ↔ r.Member roomId s ∧
    ¬(roomId = old.roomId ∧ s = slot) := by
  simp only [Member, leave]
  rcases eq_none_or_eq_some (r.rooms.get? old.roomId) with hroom | ⟨room, hroom⟩
  · simp only [hroom]
    constructor
    · rintro ⟨other, hother, hhas⟩
      refine ⟨⟨other, hother, hhas⟩, ?_⟩
      rintro ⟨rfl, -⟩
      simp [hroom] at hother
    · exact fun h => h.1
  · simp only [hroom]
    by_cases hid : roomId = old.roomId
    · subst hid
      have hremove := room.has_remove slot s
      split
      · next hempty =>
        rw [room.remove slot |>.isEmpty_iff] at hempty
        simp [hroom]
        grind
      · simp [hroom, hremove]
    · split <;> simp [hid, get?_erase, get?_insert]

lemma occupied_leave (h : r.Linked) (id : SessionId) (slot : Slot) (old : SessionRoute)
      (roomId : RoomId)
    (room : VoiceRoom) (hroom : (r.leave id slot old).rooms.get? roomId = some room) :
    room.isEmpty = false := by
  simp only [leave] at hroom
  split at hroom
  · exact h.occupied roomId room hroom
  split at hroom
  · exact h.occupied roomId room (get?_erase_eq_some.mp hroom).2
  next hne =>
  rw [get?_insert] at hroom
  split at hroom
  · simpa [← some.inj hroom] using hne
  · exact h.occupied roomId room hroom

lemma owner_leave {r : Relay} {id : SessionId} {slot : Slot} {old route : SessionRoute}
      (h : (r.leave id slot old).streamOwners.get? (ownerKey route) = some id') :
    r.streamOwners.get? (ownerKey route) = some id' ∧ ¬(route = old ∧ id' = id) := by
  simp only [leave] at h
  split at h
  · obtain ⟨hne, h⟩ := get?_erase_eq_some.mp h
    exact ⟨h, fun heq => hne (ownerKey_inj.mpr heq.1)⟩
  next hother =>
  refine ⟨h, ?_⟩
  rintro ⟨rfl, rfl⟩
  exact hother h

/-- The room and owner tables once the session is in no room: what `set_route` has done when it
installs the new route. -/
structure Cleared (r : Relay) (id : SessionId) (slot : Slot) (r' : Relay) : Prop where
  members : ∀ roomId s, r'.Member roomId s ↔ s ≠ slot ∧ r.Member roomId s
  occupied : ∀ roomId room, r'.rooms.get? roomId = some room → room.isEmpty = false
  owners : ∀ route id', r'.streamOwners.get? (ownerKey route) = some id' → id' ≠ id ∧
    r.SessionIs id' (·.route = some route)

/-- The rooms with the slot of a session are the one it is routed to. -/
lemma Linked.member_self (h : r.Linked) (hs : r.sessions.get? id = some session) (roomId : RoomId) :
    r.Member roomId session.slot ↔ RoutedTo roomId session := by
  rw [h.members]
  constructor
  · rintro ⟨id', his⟩
    obtain ⟨other, hother, hslot, hrouted⟩ := his
    have hsame : id' = id := h.slot_unique ⟨session, hs, rfl⟩ ⟨other, hother, hslot⟩
    subst hsame
    rwa [some.inj (hs.symm.trans hother)]
  · intro hrouted
    exact ⟨id, session, hs, rfl, hrouted⟩

lemma clearRoute_eq (r : Relay) (id : SessionId) (session : VoiceSession) :
    ∃ rooms streamOwners, r.clearRoute id session = { r with rooms, streamOwners } := by
  unfold clearRoute
  split
  · exact ⟨r.rooms, r.streamOwners, rfl⟩
  · exact ⟨_, _, rfl⟩

lemma Linked.cleared (h : r.Linked) (hs : r.sessions.get? id = some session) :
    Cleared r id session.slot (r.clearRoute id session) := by
  have hself := h.member_self hs
  unfold clearRoute
  rcases eq_none_or_eq_some session.route with hroute | ⟨old, hroute⟩
  · simp only [hroute]
    refine ⟨?_, h.occupied, ?_⟩
    · intro roomId s
      have hnot : s = session.slot → ¬r.Member roomId s := by
        rintro rfl
        simp [hself, RoutedTo, hroute]
      tauto
    · intro route id' howner
      have his := h.owners route id' howner
      refine ⟨?_, his⟩
      rintro rfl
      simp [sessionIs_self hs, hroute] at his
  · simp only [hroute]
    refine ⟨?_, occupied_leave h id session.slot old, ?_⟩
    · intro roomId s
      have hthere : s = session.slot → r.Member roomId s → roomId = old.roomId := by
        rintro rfl hmember
        rw [hself, RoutedTo, hroute] at hmember
        exact (some.inj hmember).symm
      rw [member_leave]
      tauto
    · intro route id' howner
      obtain ⟨howner, hne⟩ := owner_leave howner
      have his := h.owners route id' howner
      refine ⟨?_, his⟩
      rintro rfl
      rw [sessionIs_self hs, hroute, some.injEq] at his
      exact hne ⟨his.symm, rfl⟩

/-- A session whose old room is cleared gets another route. -/
lemma Linked.reroute (h : r.Linked) (hs : r.sessions.get? id = some session)
      {rooms : OrdMap RoomId VoiceRoom}
    {streamOwners : OrdMap (RoomId ×ₗ StreamId) SessionId} (route : Option SessionRoute)
    (hmembers : ∀ roomId s, { r with rooms, streamOwners }.Member roomId s ↔
      (s = session.slot ∧ route.map (·.roomId) = some roomId) ∨
      (s ≠ session.slot ∧ r.Member roomId s))
    (hoccupied : ∀ roomId room, rooms.get? roomId = some room → room.isEmpty = false)
    (howners : ∀ other id', streamOwners.get? (ownerKey other) = some id' →
      (id' = id ∧ route = some other) ∨ (id' ≠ id ∧ r.SessionIs id' (·.route = some other))) :
    ({ r with rooms, streamOwners }.setSession id { session with route }).Linked where
  slots slot id' := by
    refine (h.slots slot id').trans ?_
    exact (@sessionIs_keep { r with rooms, streamOwners } id session { session with route } hs
      (·.slot = slot) Iff.rfl id').symm
  members roomId s := by
    refine (hmembers roomId s).trans ?_
    simp only [sessionIs_setSession, h.members roomId s, exists_or, exists_eq_left]
    refine or_congr ?_ ?_
    · simp only [RoutedTo, @eq_comm _ s session.slot]
    constructor
    · rintro ⟨hne, id', his⟩
      refine ⟨id', ?_, his⟩
      rintro rfl
      exact hne ((sessionIs_self hs).mp his).1.symm
    · rintro ⟨id', hne, his⟩
      refine ⟨?_, id', his⟩
      rintro rfl
      obtain ⟨other, hother, hslot, -⟩ := his
      exact hne (h.slot_unique ⟨session, hs, rfl⟩ ⟨other, hother, hslot⟩)
  occupied := hoccupied
  routes routeId id' := by
    refine (h.routes routeId id').trans ?_
    exact (@sessionIs_keep { r with rooms, streamOwners } id session { session with route } hs
      (·.routeId = routeId) Iff.rfl id').symm
  owners other id' howner := by
    rw [sessionIs_setSession]
    exact howners other id' howner
  lanes l id' := by
    refine (h.lanes l id').trans ?_
    exact (@sessionIs_keep { r with rooms, streamOwners } id session { session with route } hs
      (·.tcpConn = some l) Iff.rfl id').symm

lemma member_enter (r : Relay) (id : SessionId) (slot : Slot) (route : SessionRoute)
      (roomId : RoomId) (s : Slot) :
    (r.enter id slot route).Member roomId s ↔ (s = slot ∧ roomId = route.roomId) ∨
    r.Member roomId s := by
  simp only [Member, enter]
  by_cases hid : roomId = route.roomId
  · subst hid
    rcases eq_none_or_eq_some (r.rooms.get? route.roomId) with hroom | ⟨room, hroom⟩ <;>
      simp [hroom, VoiceRoom.has_insert, VoiceRoom.has_empty, or_comm]
  · simp [hid, get?_insert]

lemma occupied_enter (h : ∀ roomId room, r'.rooms.get? roomId = some room → room.isEmpty = false)
      (id : SessionId) (slot : Slot) (route : SessionRoute)
    (roomId : RoomId) (room : VoiceRoom)
    (hroom : (r'.enter id slot route).rooms.get? roomId = some room) : room.isEmpty = false := by
  simp only [enter] at hroom
  rw [get?_insert] at hroom
  split at hroom
  · rw [← some.inj hroom, ← Bool.not_eq_true, VoiceRoom.isEmpty_iff]
    intro hnone
    have hslot := hnone slot
    simp [VoiceRoom.has_insert] at hslot
  · exact h roomId room hroom

lemma Linked.setRoute (h : r.Linked) (id : SessionId) (route : Option SessionRoute) :
    (r.setRoute id route).Linked := by
  unfold Relay.setRoute
  rcases eq_none_or_eq_some (r.sessions.get? id) with hs | ⟨session, hs⟩
  · simpa only [hs] using h
  simp only [hs]
  split
  · exact h
  have hcleared := h.cleared hs
  obtain ⟨rooms, streamOwners, hleft⟩ := clearRoute_eq r id session
  rw [hleft] at hcleared ⊢
  cases route with
  | none =>
    apply h.reroute hs none _ hcleared.occupied
    · intro other id' howner
      exact Or.inr (hcleared.owners other id' howner)
    · intro roomId s
      simp [hcleared.members roomId s]
  | some route =>
    refine @Linked.reroute r id session h hs
      ({ r with rooms, streamOwners }.enter id session.slot route).rooms
      ({ r with rooms, streamOwners }.enter id session.slot route).streamOwners (some route)
      ?_ ?_ ?_
    · intro roomId s
      refine (member_enter _ id session.slot route roomId s).trans ?_
      rw [hcleared.members roomId s]
      simp [eq_comm]
    · exact occupied_enter hcleared.occupied id session.slot route
    · intro other id' howner
      simp only [enter] at howner
      rw [get?_insert] at howner
      split at howner
      · next hkey =>
        rw [ownerKey_inj.mp hkey]
        exact Or.inl ⟨(some.inj howner).symm, rfl⟩
      · exact Or.inr (hcleared.owners other id' howner)

/-! ## Sessions that come and go -/

/-- `set_route` changes the route of the session and of no other. -/
lemma get?_setRoute (r : Relay) (id : SessionId) (route : Option SessionRoute) (id' : SessionId) :
    (r.setRoute id route).sessions.get? id' = (r.sessions.get? id').map fun session =>
      if id' = id then { session with route } else session := by
  unfold Relay.setRoute
  rcases eq_none_or_eq_some (r.sessions.get? id) with hs | ⟨session, hs⟩
  · simp only [hs]
    by_cases hid : id' = id
    · simp [hid, hs]
    · simp [hid]
  simp only [hs]
  obtain ⟨rooms, streamOwners, hleft⟩ := clearRoute_eq r id session
  split
  · next hroute =>
    by_cases hid : id' = id
    · subst hid
      simp [hs, ← hroute]
    · simp [hid]
  · have hset : ((r.clearRoute id session).setSession id { session with route }).sessions.get? id' =
        (r.sessions.get? id').map fun session =>
          if id' = id then { session with route } else session := by
      rw [hleft, Relay.setSession, get?_insert]
      by_cases hid : id' = id
      · subst hid
        simp [hs]
      · simp [hid]
    cases route <;> exact hset

/-- The session of a relay in which it has no room is removed, and its lane with it. -/
lemma Linked.erase (h : r.Linked) (hs : r.sessions.get? id = some session)
      (hroute : session.route = none) {conns : Vector (Option TcpVoiceConn) maxTcpVoiceConns}
    (hconns : ∀ l id', (conns.get l).bind (·.session) = some id' ↔ id' ≠ id ∧ r.LaneOf l id') :
    { r with
      sessions := r.sessions.erase id
      sessionSlots := put r.sessionSlots session.slot none
      routeToSession := r.routeToSession.erase session.routeId
      tcpConns := conns }.Linked := by
  have hrest : ∀ id' (p : VoiceSession → Prop),
      (∃ other, (r.sessions.erase id).get? id' = some other ∧ p other) ↔ id' ≠ id ∧
      r.SessionIs id' p := by
    intro id' p
    rw [get?_erase]
    by_cases hid : id' = id <;> simp [hid, SessionIs]
  refine ⟨?_, ?_, h.occupied, ?_, ?_, ?_⟩
  · intro slot id'
    refine Iff.trans ?_ (hrest id' _).symm
    rw [get_put, ← h.slots slot id']
    have hmine := h.slots session.slot id
    rw [sessionIs_self hs] at hmine
    by_cases hslot : slot = session.slot
    · subst hslot
      simp [hmine.mpr rfl, eq_comm]
    have hne : r.sessionSlots.get slot = some id' → id' ≠ id := by
      rintro hid rfl
      rw [h.slots slot id', sessionIs_self hs] at hid
      exact hslot hid.symm
    simp only [hslot, if_false]
    tauto
  · intro roomId slot
    refine (h.members roomId slot).trans (exists_congr fun id' => ?_)
    refine Iff.trans ?_ (hrest id' _).symm
    have hne : (r.SessionIs id' fun session => session.slot = slot ∧ RoutedTo roomId session) →
        id' ≠ id := by
      rintro his rfl
      simp [sessionIs_self hs, RoutedTo, hroute] at his
    tauto
  · intro routeId id'
    refine Iff.trans ?_ (hrest id' _).symm
    rw [get?_erase, ← h.routes routeId id']
    have hmine := h.routes session.routeId id
    rw [sessionIs_self hs] at hmine
    by_cases hrouteId : routeId = session.routeId
    · subst hrouteId
      simp [hmine.mpr rfl, eq_comm]
    have hne : r.routeToSession.get? routeId = some id' → id' ≠ id := by
      rintro hid rfl
      rw [h.routes routeId id', sessionIs_self hs] at hid
      exact hrouteId hid.symm
    simp only [hrouteId, if_false]
    tauto
  · intro route id' howner
    have his := h.owners route id' howner
    refine (hrest id' _).mpr ⟨?_, his⟩
    rintro rfl
    simp [sessionIs_self hs, hroute] at his
  · intro l id'
    refine Iff.trans ?_ (hrest id' _).symm
    rw [← h.lanes l id']
    exact hconns l id'

lemma Linked.removeSession (h : r.Linked) (id : SessionId) : (r.removeSession id).Linked := by
  have hrouted := h.setRoute id none
  have hget := get?_setRoute r id none id
  unfold Relay.removeSession
  generalize r.setRoute id none = r' at hrouted hget
  rcases eq_none_or_eq_some (r'.sessions.get? id) with hs | ⟨session, hs⟩
  · simpa only [hs] using hrouted
  have hroute : session.route = none := by
    rw [hs] at hget
    obtain ⟨before, -, hbefore⟩ := map_eq_some_iff.mp hget.symm
    rw [← hbefore, if_pos rfl]
  have hlanes := fun l => hrouted.lanes l id
  simp only [sessionIs_self hs] at hlanes
  simp only [hs]
  rcases eq_none_or_eq_some session.tcpConn with hconn | ⟨lane, hconn⟩
  · simp only [hconn]
    apply hrouted.erase hs hroute
    intro l id'
    have hmine : r'.LaneOf l id' → id' ≠ id := by
      rintro hl rfl
      exact some_ne_none l (((hlanes l).mp hl).symm.trans hconn)
    exact ⟨fun hl => ⟨hmine hl, hl⟩, fun hl => hl.2⟩
  · have hlane := (hlanes lane).mpr hconn
    obtain ⟨conn, hheld, hid⟩ := bind_eq_some_iff.mp hlane
    simp only [hconn, Relay.detachTcpConn, hheld, hid, Relay.setTcpConn, get?_erase_self]
    apply @Linked.erase r' id session hrouted hs hroute (put r'.tcpConns lane none)
    intro l id'
    rw [get_put]
    by_cases hl : l = lane
    · subst hl
      have hmine : r'.LaneOf l id' → id' = id := fun h => hlane.unique h
      simp only [if_true, bind_none, reduceCtorEq, false_iff]
      tauto
    · have hmine : r'.LaneOf l id' → id' ≠ id := by
        rintro h rfl
        exact hl (some.inj (((hlanes l).mp h).symm.trans hconn))
      simp only [hl, if_false]
      exact ⟨fun h => ⟨hmine h, h⟩, fun h => h.2⟩

end Chatt.VoiceRelay.Relay
