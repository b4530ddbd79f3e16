import Chatt.Lib.BitScan
import Chatt.Lib.SlotTable
import Chatt.Model.Media

/-!
# The voice relay

The tables of the relay thread and the commands that change them, the TCP lanes of the sessions,
and what is sent for a voice packet and a feedback report (crates/server/src/voice_relay.rs:697-753,
944-1170, 1227-1257, 1564-1700, 1783-1832).  Time is in milliseconds.
-/

namespace Chatt.VoiceRelay

open Lib Media

/-- `MAX_CLIENTS` -/
def maxSessions : ℕ := 1024

def sessionWords : ℕ := (maxSessions + 63) / 64

def maxTcpVoiceConns : ℕ := maxSessions

/-- `VOICE_TCP_MAX_FRAME_BYTES` is a header, a payload and a tag, behind a length of four bytes. -/
def voiceTcpMaxWireFrameBytes : ℕ := 4 + (udpHeaderLen + safeUdpPayloadBytes + 16)

def voiceTcpWriteCapBytes : ℕ := 32 * 1024

def voiceTcpStaleBacklog : ℕ := 250

abbrev SessionId := ℕ

abbrev StreamId := ℕ

abbrev Slot := Fin maxSessions

abbrev Lane := Fin maxTcpVoiceConns

structure SessionRoute where
  roomId : RoomId
  streamId : StreamId
  deriving DecidableEq

structure VoiceSession where
  slot : Slot
  userId : UInt64
  protection : MediaProtection
  sendCounter : UInt64
  udpAddr : Option SocketAddr
  udpBindIndex : ℕ
  tcpConn : Option Lane
  route : Option SessionRoute

/-- The key of a session in the table of routes. -/
def VoiceSession.routeId (session : VoiceSession) : ℕ := session.protection.routeId.toNat

structure TcpVoiceConn where
  session : Option SessionId
  /-- the bytes in the write queue -/
  queued : ℕ
  writeBlocked : Bool
  backlogSince : Option ℕ

/-! ## Rooms -/

structure VoiceRoom where
  members : Vector UInt64 sessionWords

namespace VoiceRoom

lemma word_lt (slot : Slot) : slot.val / 64 < sessionWords := by
  have := slot.isLt
  unfold maxSessions at this
  unfold sessionWords maxSessions
  omega

def word (slot : Slot) : Fin sessionWords := ⟨slot.val / 64, word_lt slot⟩

def bit (slot : Slot) : UInt64 := 1 <<< UInt64.ofNat (slot.val % 64)

/-- `VoiceRoom::default()` -/
def empty : VoiceRoom := { members := Vector.replicate sessionWords 0 }

def insert (room : VoiceRoom) (slot : Slot) : VoiceRoom :=
  { members := put room.members (word slot) (room.members.get (word slot) ||| bit slot) }

def remove (room : VoiceRoom) (slot : Slot) : VoiceRoom :=
  { members := put room.members (word slot) (room.members.get (word slot) &&& ~~~bit slot) }

def isEmpty (room : VoiceRoom) : Bool := room.members.all (· == 0)

/-- The slots of the set bits, as `relay_voice` visits them. -/
def slots (room : VoiceRoom) : List ℕ :=
  (List.finRange sessionWords).flatMap fun index =>
    (scanBits 64 64 (room.members.get index).toNat).map fun bit => index.val * 64 + bit

end VoiceRoom

/-! ## The tables -/

structure Relay where
  sessions : OrdMap SessionId VoiceSession
  routeToSession : OrdMap ℕ SessionId
  rooms : OrdMap RoomId VoiceRoom
  streamOwners : OrdMap (RoomId ×ₗ StreamId) SessionId
  sessionSlots : Vector (Option SessionId) maxSessions
  tcpConns : Vector (Option TcpVoiceConn) maxTcpVoiceConns

namespace Relay

def initial : Relay where
  sessions := .empty
  routeToSession := .empty
  rooms := .empty
  streamOwners := .empty
  sessionSlots := Vector.replicate maxSessions none
  tcpConns := Vector.replicate maxTcpVoiceConns none

/-- The key of a route in `stream_owners`. -/
def ownerKey (route : SessionRoute) : RoomId ×ₗ StreamId := toLex (route.roomId, route.streamId)

section

variable (r : Relay)

def setSession (sessionId : SessionId) (session : VoiceSession) : Relay :=
  { r with sessions := r.sessions.insert sessionId session }

def setTcpConn (lane : Lane) (conn : Option TcpVoiceConn) : Relay :=
  { r with tcpConns := put r.tcpConns lane conn }

def detachTcpConn (lane : Lane) : Relay :=
  match r.tcpConns.get lane with
  | none => r
  | some conn =>
    let r := r.setTcpConn lane none
    match conn.session with
    | none => r
    | some sessionId =>
      match r.sessions.get? sessionId with
      | none => r
      | some session =>
        if session.tcpConn = some lane then
          r.setSession sessionId { session with tcpConn := none }
        else r

/-- The old room and the stream are given up. -/
def leave (sessionId : SessionId) (slot : Slot) (old : SessionRoute) : Relay :=
  let rooms :=
    match r.rooms.get? old.roomId with
    | none => r.rooms
    | some room =>
      if (room.remove slot).isEmpty then r.rooms.erase old.roomId
      else r.rooms.insert old.roomId (room.remove slot)
  let streamOwners :=
    if r.streamOwners.get? (ownerKey old) = some sessionId then r.streamOwners.erase (ownerKey old)
    else r.streamOwners
  { r with rooms, streamOwners }

/-- The first half of `set_route`. -/
def clearRoute (sessionId : SessionId) (session : VoiceSession) : Relay :=
  match session.route with
  | none => r
  | some old => r.leave sessionId session.slot old

/-- The second half of `set_route`: the session enters the new room. -/
def enter (sessionId : SessionId) (slot : Slot) (route : SessionRoute) : Relay :=
  let room := (r.rooms.get? route.roomId).getD VoiceRoom.empty
  { r with
    rooms := r.rooms.insert route.roomId (room.insert slot)
    streamOwners := r.streamOwners.insert (ownerKey route) sessionId }

def setRoute (sessionId : SessionId) (route : Option SessionRoute) : Relay :=
  match r.sessions.get? sessionId with
  | none => r
  | some session =>
    if session.route = route then r
    else
      let r := (r.clearRoute sessionId session).setSession sessionId { session with route }
      match route with
      | none => r
      | some route => r.enter sessionId session.slot route

def removeSession (sessionId : SessionId) : Relay :=
  let r := r.setRoute sessionId none
  match r.sessions.get? sessionId with
  | none => r
  | some session =>
    let r := { r with
      sessions := r.sessions.erase sessionId
      sessionSlots := put r.sessionSlots session.slot none
      routeToSession := r.routeToSession.erase session.routeId }
    match session.tcpConn with
    | none => r
    | some lane => r.detachTcpConn lane

/-- The end of `register_session`, once the route is known to be free. -/
def installSession (sessionId : SessionId) (userId : UInt64)
    (protection : MediaProtection) : Relay :=
  match firstFree r.sessionSlots with
  | none => r
  | some slot =>
    let session : VoiceSession :=
      { slot, userId, protection, sendCounter := 0, udpAddr := none, udpBindIndex := 0
        tcpConn := none, route := none }
    { r with
      sessionSlots := put r.sessionSlots slot (some sessionId)
      routeToSession := r.routeToSession.insert session.routeId sessionId
      sessions := r.sessions.insert sessionId session }

def registerSession (sessionId : SessionId) (userId : UInt64)
    (protection : MediaProtection) : Relay :=
  if (r.routeToSession.get? protection.routeId.toNat).any (· ≠ sessionId) then r
  else
    let r := if r.sessions.contains sessionId then r.removeSession sessionId else r
    r.installSession sessionId userId protection

/-! ## TCP lanes -/

/-- `attach_tcp_conn`; the poll may refuse the socket. -/
def attachTcpConn (registered : Bool) : Relay :=
  match firstFree r.tcpConns with
  | none => r
  | some lane =>
    if registered then
      r.setTcpConn lane
        (some { session := none, queued := 0, writeBlocked := false, backlogSince := none })
    else r

def bindTcpConn (lane : Lane) (sessionId : SessionId) : Relay :=
  match r.tcpConns.get lane with
  | none => r
  | some conn =>
    if conn.session.isSome then r
    else
      let r := r.setTcpConn lane (some { conn with session := some sessionId })
      match r.sessions.get? sessionId with
      | none => r
      | some session =>
        let r := r.setSession sessionId { session with tcpConn := some lane }
        match session.tcpConn with
        | none => r
        | some previous => if previous ≠ lane then r.detachTcpConn previous else r

/-- What the socket of a lane does with its queue. -/
inductive WriteOutcome
  | wrote (left : ℕ) (blocked : Bool)
  | wroteZero
  | failed

/-- The clock and the sockets while a packet is handled. -/
structure Io where
  now : ℕ
  write : Lane → WriteOutcome

/-- `detach_stale_tcp_backlog`, and whether the lane was detached -/
def detachStaleTcpBacklog (lane : Lane) (now : ℕ) : Relay × Bool :=
  let stale := ((r.tcpConns.get lane).bind (·.backlogSince)).any fun since =>
    decide (voiceTcpStaleBacklog ≤ now - since)
  (if stale then r.detachTcpConn lane else r, stale)

def flushTcp (io : Io) (lane : Lane) : Relay :=
  match r.tcpConns.get lane with
  | none => r
  | some conn =>
    if conn.writeBlocked ∨ conn.queued = 0 then r
    else
      match io.write lane with
      | .failed => r.detachTcpConn lane
      | .wroteZero => r.detachTcpConn lane
      | .wrote left blocked =>
        let queued := min left conn.queued
        let conn := { conn with
          queued
          backlogSince := if queued = 0 then none else conn.backlogSince
          writeBlocked := conn.writeBlocked || blocked }
        ((r.setTcpConn lane (some conn)).detachStaleTcpBacklog lane io.now).1

/-- The lane can be written again. -/
def unblockTcp (lane : Lane) : Relay :=
  match r.tcpConns.get lane with
  | none => r
  | some conn => r.setTcpConn lane (some { conn with writeBlocked := false })

/-- `admit_tcp_send`, and its answer -/
def admitTcpSend (io : Io) (lane : Lane) : Relay × Bool :=
  match r.detachStaleTcpBacklog lane io.now with
  | (r, true) => (r, false)
  | (r, false) =>
    match r.tcpConns.get lane with
    | none => (r, false)
    | some conn =>
      if conn.queued ≤ voiceTcpWriteCapBytes - voiceTcpMaxWireFrameBytes then (r, true)
      else (r.detachTcpConn lane, false)

def sendTcpSealed (io : Io) (lane : Lane) (packet : Bytes) : Relay :=
  match r.tcpConns.get lane with
  | none => r
  | some conn =>
    let conn := { conn with
      queued := conn.queued + (4 + packet.length)
      backlogSince := some (conn.backlogSince.getD io.now) }
    (r.setTcpConn lane (some conn)).flushTcp io lane

/-! ## Sending -/

/-- A sealed packet and the way it takes. -/
inductive Sent
  | udp (bindIndex : ℕ) (addr : SocketAddr) (packet : Bytes)
  | tcp (lane : Lane) (packet : Bytes)
  deriving DecidableEq

end

section

variable (aead : Aead) (authProof : AuthProof) (r : Relay)

def sealForSession (sessionId : SessionId) (payload : MediaPayload) : Relay × Option Bytes :=
  match r.sessions.get? sessionId with
  | none => (r, none)
  | some session =>
    (r.setSession sessionId { session with sendCounter := session.sendCounter + 1 },
      (sealMedia aead authProof session.protection session.sendCounter payload).toOption.map
        SealedMedia.packet)

def sendPayload (io : Io) (sessionId : SessionId) (payload : MediaPayload) : Relay × Option Sent :=
  match r.sessions.get? sessionId with
  | none => (r, none)
  | some session =>
    match session.tcpConn with
    | some lane =>
      match r.admitTcpSend io lane with
      | (r, false) => (r, none)
      | (r, true) =>
        match r.sealForSession aead authProof sessionId payload with
        | (r, none) => (r, none)
        | (r, some packet) => (r.sendTcpSealed io lane packet, some (.tcp lane packet))
    | none =>
      match session.udpAddr with
      | none => (r, none)
      | some addr =>
        match r.sealForSession aead authProof sessionId payload with
        | (r, none) => (r, none)
        | (r, some packet) => (r, some (.udp session.udpBindIndex addr packet))

/-- The loop over the recipients, with what went out to each. -/
def sendAll (io : Io) (payload : MediaPayload) :
    List SessionId → Relay → Relay × List (SessionId × Option Sent)
  | [], r => (r, [])
  | recipient :: rest, r =>
    let first := r.sendPayload aead authProof io recipient payload
    let others := sendAll io payload rest first.1
    (others.1, (recipient, first.2) :: others.2)

/-- The session of a slot, the sender's own apart. -/
def recipientAt (sender : SessionId) (slot : ℕ) : Option SessionId :=
  match r.sessionSlots[slot]? with
  | some (some recipient) => if recipient ≠ sender then some recipient else none
  | _ => none

def recipients (sender : SessionId) (roomId : RoomId) : List SessionId :=
  match r.rooms.get? roomId with
  | none => []
  | some room => room.slots.filterMap (r.recipientAt sender)

def relayVoice (io : Io) (sender : SessionId) (frame : VoiceFrame) :
    Relay × List (SessionId × Option Sent) :=
  match (r.sessions.get? sender).bind (·.route) with
  | none => (r, [])
  | some route =>
    if route.streamId = frame.streamId.toNat then
      sendAll aead authProof io (.voice frame) (r.recipients sender route.roomId) r
    else (r, [])

def relayFeedback (io : Io) (reporterSession : SessionId) (streamId : UInt32)
    (feedback : VoiceFeedback) : Relay × List (SessionId × Option Sent) :=
  match r.sessions.get? reporterSession with
  | none => (r, [])
  | some session =>
    match session.route with
    | none => (r, [])
    | some route =>
      match r.streamOwners.get? (ownerKey ⟨route.roomId, streamId.toNat⟩) with
      | none => (r, [])
      | some owner =>
        if owner = reporterSession then (r, [])
        else
          sendAll aead authProof io (.voiceFeedbackFrom session.userId streamId feedback) [owner] r

end

/-- An authenticated datagram moves the session's address (a part of `handle_media_packet`). -/
def bindUdp (r : Relay) (sessionId : SessionId) (bindIndex : ℕ) (src : SocketAddr) : Relay :=
  match r.sessions.get? sessionId with
  | none => r
  | some session =>
    r.setSession sessionId { session with udpAddr := some src, udpBindIndex := bindIndex }

end Relay

end Chatt.VoiceRelay
