import Chatt.Model.HistoryDelivery

/-!
# Runs of requests for history

Clients connect, ask for pages and leave, rooms change, the reader thread works on its queue and
the event loop delivers.  Sends may fail or drop the connection, files may be unreadable, and the
encoder of a planned chunk may fail in any way.
-/

namespace Chatt.RoomHistory

open Lib

/-- A chunk that is encoded has the mark of its plan.  It may also fail to be. -/
def KeepsComplete (encode : Encode) : Prop :=
  ∀ room (plan : HistoryFetchPlan) index chunk, encode room plan index = .ok chunk →
    plan.chunks[index]?.map HistoryChunkSpec.complete = some chunk.complete

namespace Server

/-- The pages that are not delivered yet and the reads that are outstanding: the request of each
and its session. -/
def outstanding (s : Server) : List (ℕ × SessionId) :=
  s.deliveries.map (fun delivery => (delivery.request, delivery.sessionId)) ++
  (s.readerQueue.map (fun job => (job.request, job.read.sessionId)) ++
  (s.reading.toList.map (fun job => (job.request, job.read.sessionId)) ++
  s.replies.map fun reply => (reply.request, reply.sessionId)))

/-- The chunks queued for a request, in order. -/
def chunksOf (s : Server) (request : ℕ) : List HistoryChunk :=
  (s.sent.filter fun entry => entry.1 = request).map Prod.snd

def Drained (s : Server) : Prop :=
  s.deliveries = [] ∧ s.readerQueue = [] ∧ s.reading = none ∧ s.replies = []

instance decidableDrained (s : Server) : Decidable s.Drained :=
  inferInstanceAs (Decidable (_ ∧ _ ∧ _ ∧ _))

/-- The reader thread, or the event loop with something to deliver, takes a step. -/
def Works (encode : Encode) (s t : Server) : Prop :=
  s.next encode .take = some t ∨
  (∃ sources, s.next encode (.reply sources) = some t) ∨
  ((s.deliveries ≠ [] ∨ s.replies ≠ []) ∧ ∃ send, s.next encode (.drainReplies send) = some t)

end Server

def HistoryAction.IsFetch : HistoryAction → Prop
  | .fetch _ _ _ _ _ => True
  | _ => False

/-- No request comes any more, and as long as something is outstanding, the reader thread or the
event loop works on it sooner or later. -/
structure FairDrain (encode : Encode) (trace : ℕ → Server) : Prop where
  step : ∀ n, ∃ action : HistoryAction, ¬ action.IsFetch ∧
    (trace n).next encode action = some (trace (n + 1))
  fair : ∀ n, ¬ (trace n).Drained → ∃ m ≥ n, (trace m).Works encode (trace (m + 1))

end Chatt.RoomHistory
