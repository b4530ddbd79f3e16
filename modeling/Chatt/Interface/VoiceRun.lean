import Chatt.Lib.Run
import Chatt.Model.VoiceRelay

/-!
# Runs of the voice relay

The relay takes its commands and the packets of its sessions one at a time, in any order.  Lanes
come, are bound to a live session by its first packet, fail and block at any time.
-/

namespace Chatt.VoiceRelay

open Lib Media

inductive VoiceAction
  | registerSession (sessionId : SessionId) (userId : UInt64) (protection : MediaProtection)
  | setRoute (sessionId : SessionId) (route : Option SessionRoute)
  | removeSession (sessionId : SessionId)
  | attachTcp (registered : Bool)
  /-- the first authenticated packet on a lane -/
  | bindTcp (lane : Lane) (sessionId : SessionId)
  | detachTcp (lane : Lane)
  | flushTcp (io : Relay.Io) (lane : Lane)
  | unblockTcp (lane : Lane)
  | bindUdp (sessionId : SessionId) (bindIndex : ℕ) (src : SocketAddr)
  | voice (io : Relay.Io) (sender : SessionId) (frame : VoiceFrame)
  | feedback (io : Relay.Io) (reporter : SessionId) (streamId : UInt32) (feedback : VoiceFeedback)

namespace Relay

/-- A lane is bound only to a session that `handle_media_packet` has found. -/
def next (aead : Aead) (authProof : AuthProof) (r : Relay) : VoiceAction → Option Relay
  | .registerSession sessionId userId protection =>
  some (r.registerSession sessionId userId protection)
  | .setRoute sessionId route => some (r.setRoute sessionId route)
  | .removeSession sessionId => some (r.removeSession sessionId)
  | .attachTcp registered => some (r.attachTcpConn registered)
  | .bindTcp lane sessionId =>
    if r.sessions.contains sessionId then some (r.bindTcpConn lane sessionId) else none
  | .detachTcp lane => some (r.detachTcpConn lane)
  | .flushTcp io lane => some (r.flushTcp io lane)
  | .unblockTcp lane => some (r.unblockTcp lane)
  | .bindUdp sessionId bindIndex src => some (r.bindUdp sessionId bindIndex src)
  | .voice io sender frame => some (r.relayVoice aead authProof io sender frame).1
  | .feedback io reporter streamId feedback =>
    some (r.relayFeedback aead authProof io reporter streamId feedback).1

end Relay

/-! ## What the tables say about each other -/

/-- The bit of the slot is set. -/
def VoiceRoom.has (room : VoiceRoom) (slot : Slot) : Bool :=
  (room.members.get (VoiceRoom.word slot)).toNat.testBit (slot.val % 64)

namespace Relay

/-- The session is live and has the property. -/
def SessionIs (r : Relay) (sessionId : SessionId) (p : VoiceSession → Prop) : Prop :=
  ∃ session, r.sessions.get? sessionId = some session ∧ p session

/-- The slot is a member of the room. -/
def Member (r : Relay) (roomId : RoomId) (slot : Slot) : Prop :=
  ∃ room, r.rooms.get? roomId = some room ∧ room.has slot = true

/-- The lane is bound to the session. -/
def LaneOf (r : Relay) (lane : Lane) (sessionId : SessionId) : Prop :=
  (r.tcpConns.get lane).bind (·.session) = some sessionId

def RoutedTo (roomId : RoomId) (session : VoiceSession) : Prop :=
  session.route.map (·.roomId) = some roomId

structure Linked (r : Relay) : Prop where
  /-- the slot table and the session map are inverse to each other -/
  slots : ∀ slot sessionId, r.sessionSlots.get slot = some sessionId ↔
    r.SessionIs sessionId (·.slot = slot)
  /-- the members of a room are the slots of the sessions routed there -/
  members : ∀ roomId slot, r.Member roomId slot ↔
    ∃ sessionId, r.SessionIs sessionId fun session => session.slot = slot ∧ RoutedTo roomId session
  occupied : ∀ roomId room, r.rooms.get? roomId = some room → room.isEmpty = false
  /-- a media route leads to the one live session that uses it -/
  routes : ∀ routeId sessionId, r.routeToSession.get? routeId = some sessionId ↔
    r.SessionIs sessionId (·.routeId = routeId)
  owners : ∀ route sessionId, r.streamOwners.get? (ownerKey route) = some sessionId →
    r.SessionIs sessionId (·.route = some route)
  lanes : ∀ lane sessionId, r.LaneOf lane sessionId ↔ r.SessionIs sessionId (·.tcpConn = some lane)

/-- The session is another one in the room that the sender speaks to. -/
def Hears (r : Relay) (sender : SessionId) (streamId : StreamId) (sessionId : SessionId) : Prop :=
  sessionId ≠ sender ∧ ∃ route, r.SessionIs sender (·.route = some route) ∧
    route.streamId = streamId ∧ r.SessionIs sessionId (RoutedTo route.roomId)

/-- The lane has waited for its socket too long, or another frame may not fit its queue. -/
def Congested (r : Relay) (now : ℕ) (lane : Lane) : Prop :=
  ∃ conn, r.tcpConns.get lane = some conn ∧
    ((∃ since, conn.backlogSince = some since ∧ voiceTcpStaleBacklog ≤ now - since) ∨
      voiceTcpWriteCapBytes < conn.queued + voiceTcpMaxWireFrameBytes)

section

variable (aead : Aead) (authProof : AuthProof)

/-- The packet as it is sealed for the session. -/
def sealedFor (session : VoiceSession) (payload : MediaPayload) : Option Bytes :=
  (sealMedia aead authProof session.protection session.sendCounter payload).toOption.map
    SealedMedia.packet

/-- What goes out to a session: a datagram to its address or, if it has a lane, a frame on the
lane, unless the lane is congested. -/
def Carries (r : Relay) (now : ℕ) (session : VoiceSession) (payload : MediaPayload)
    (sent : Option Sent) : Prop :=
  match session.tcpConn with
  | none => sent = session.udpAddr.bind fun addr =>
    (sealedFor aead authProof session payload).map (.udp session.udpBindIndex addr)
  | some lane =>
    (r.Congested now lane → sent = none) ∧
    (¬ r.Congested now lane → sent = (sealedFor aead authProof session payload).map (.tcp lane))

end

end Relay

end Chatt.VoiceRelay
