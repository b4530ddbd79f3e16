import Chatt.Lib.Run
import Chatt.Model.DirectMessages

/-!
# Runs that create rooms for direct messages

Users ask for rooms, the state writer works at its own pace and may fail, the event loop hears of
it, logs appear for the rooms there are, and the server is restarted at any point, with any
configured rooms.  `reported` is every room whose creation a requester was told of, and no step
reads it.
-/

namespace Chatt.DirectMessages

open Lib

inductive DmAction where
  /-- a request; the outcome is that of the state writer if it is waited for -/
  | openDm (first second nowMs : UInt64) (outcome : Server.WriteOutcome)
  | enableAsync
  /-- the state writer receives what is queued; with no room queued, other writes -/
  | receive
  /-- the transaction of the state writer ends -/
  | finish (outcome : Server.WriteOutcome)
  /-- the event loop hears of completions -/
  | drain
  /-- the log of a room is created -/
  | createLog (room : RoomId)
  /-- the process ends, at any point, and is started again -/
  | restart (configured : ConfiguredRooms)

structure DmRun where
  server : Server
  reported : List DmRoom
  deriving DecidableEq

/-- The rooms of the server. -/
def Server.roomIds (s : Server) : List RoomId := s.configured.ids ++ s.dmRooms.map DmRoom.roomId

/-- The rooms that were given an id. -/
def Server.assigned (s : Server) : List DmRoom := s.dmRooms ++ s.pendingDm.toList.map PendingDm.room

namespace DmRun

/-- The rooms of an answered request: the room it created, if it waited for it. -/
def createdBy (before after : Server) : List DmRoom := after.dmRooms.drop before.dmRooms.length

def next (s : DmRun) : DmAction → Option DmRun
  | .openDm first second nowMs outcome =>
    if s.server.stopped then none
    else
      let server := (s.server.beginOpenDm first second nowMs outcome).1
      some { server, reported := s.reported ++ createdBy s.server server }
  | .enableAsync =>
    if s.server.stopped then none
    else some { s with server := s.server.enableAsyncStateWrites }
  | .receive =>
    if s.server.writing = none ∧ s.server.terminalError = none then
      some { s with server := { s.server with writing := some s.server.queued, queued := [] } }
    else none
  | .finish outcome =>
    match s.server.writing with
    | some write => some { s with server := s.server.finishWrite write outcome }
    | none => none
  | .drain =>
    if s.server.stopped then none
    else
      match s.server.drainDmCompletions with
      | (server, .ok completed) =>
        some { server, reported := s.reported ++ completed.map DmCompletion.room }
      | (server, .error _) => some { s with server := { server with stopped := true } }
  | .createLog room =>
    if s.server.stopped ∨ room ∉ s.server.roomIds then none
    else some { s with server := { s.server with logs := s.server.logs ++ [room] } }
  | .restart configured =>
    match Server.tryOpen configured s.server.db s.server.logs with
    | .ok server => some { s with server }
    | .error _ => none

end DmRun

/-- Any configured rooms and any logs, and a state database that was just created. -/
def DmRun.Started (s : DmRun) : Prop :=
  ∃ configured logs, Server.tryOpen configured StateDb.initial logs = .ok s.server ∧ s.reported = []

/-- The rooms are of the same two users. -/
def SamePair (a b : DmRoom) : Prop := a.pairs b.userA b.userB

end Chatt.DirectMessages
