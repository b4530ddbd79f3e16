import Chatt.Model.MlsStore

/-!
# A client's side of the event delivery

The handler of `MlsEvents` (src/client_net/mls_actor.rs:1049-1160) with the loop over
`process_delivery`
(crates/mls/src/persistent.rs:965-1205), and `mark_outgoing_delivered` (844-911) for the outcome of
the
client's own submission.  The rosters, the pending commit and the descriptor that the handler looks
for
first only decide whether a batch is handled at all; an outcome that the outbox refuses changes no
cursor.
-/

namespace Chatt

/-- The MLS message of a delivery. -/
def MlsDeliveryEvent.encoded : MlsDeliveryEvent → Bytes
  | .commit _ _ _ _ bytes => bytes
  | .application _ _ _ _ bytes => bytes

/-- A client's cursor in a room, and the sequences and messages the cursor has moved over. -/
structure RoomClient where
  cursor : ℕ
  processed : List (ℕ × Bytes) := []
  deriving DecidableEq

inductive DeliveryError
  | exhausted
  | gap (expected received : ℕ)
  | refused
  deriving DecidableEq

inductive Handled
  | historyExpired
  | refetch (after : ℕ)
  | finished (error : Option DeliveryError)
  deriving DecidableEq

namespace RoomClient

def advance (client : RoomClient) (sequence : ℕ) (message : Bytes) : RoomClient :=
  { cursor := sequence, processed := client.processed ++ [(sequence, message)] }

def markOutgoingDelivered (client : RoomClient) (sequence : ℕ) (ciphertext : Bytes) : RoomClient :=
  if checkedAdd client.cursor 1 = some sequence then client.advance sequence ciphertext else client

/-- `works` says which messages the MLS group takes. -/
def processDelivery (works : MlsDeliveryEvent → Bool) (client : RoomClient)
    (event : MlsDeliveryEvent) : Except DeliveryError RoomClient :=
  if event.sequence ≤ client.cursor then .ok client
  else
    match checkedAdd client.cursor 1 with
    | none => .error .exhausted
    | some expected =>
      if event.sequence ≠ expected then .error (.gap expected event.sequence)
      else if works event then .ok (client.advance event.sequence event.encoded)
      else .error .refused

/-- What was processed before an error stays. -/
def processAll (works : MlsDeliveryEvent → Bool) :
    RoomClient → List MlsDeliveryEvent → RoomClient × Option DeliveryError
  | client, [] => (client, none)
  | client, event :: rest =>
    match client.processDelivery works event with
    | .error error => (client, some error)
    | .ok client => processAll works client rest

def handleMlsEvents (works : MlsDeliveryEvent → Bool) (client : RoomClient) (batch : EventBatch) :
    RoomClient × Handled :=
  if saturatingAdd client.cursor 1 < batch.oldestAvailableSequence then (client, .historyExpired)
  else
    let events := (batch.events.mergeSort fun a b =>
      a.sequence ≤ b.sequence).filter (·.sequence > client.cursor)
    if events.head?.any (·.sequence ≠ saturatingAdd client.cursor 1) then (client,
      .refetch client.cursor)
    else (client.processAll works events).map id .finished

end RoomClient

end Chatt
