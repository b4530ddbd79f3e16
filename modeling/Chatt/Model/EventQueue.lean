import Mathlib

/-!
# The event queues of the server

`EventNotifier` and `EventQueue` (crates/server/src/event_queue.rs:28-87; `MlsEventQueue` is the
same) with the loop of `Server::run` (crates/server/src/lib.rs:1789-1858): one append, one access to
the ready word, one wake or one locked drain at a time.  The ready word is the set of its flags, and
a wake reaches the poll.  Where the loop stops for good, or polls without an event of the waker, the
queues stay as they are.  The voice relay keeps its newest observations and not a queue of events:
of it the model has the ready bit only.
-/

namespace Chatt.EventQueue

/-- The queues of the background workers. -/
inductive Worker
  | roomLog | roomState | history | mls | identity | bugReport | admin
  deriving DecidableEq

instance : Fintype Worker where
  elems := {.roomLog, .roomState, .history, .mls, .identity, .bugReport, .admin}
  complete worker := by cases worker <;> decide

/-- A bit of the ready word. -/
inductive EventFlag
  | voice
  | queue (worker : Worker)
  deriving DecidableEq

/-- The order in which `run` looks at the flags. -/
def EventFlag.all : List EventFlag :=
  [.voice, .queue .roomLog, .queue .roomState, .queue .history, .queue .mls, .queue .identity,
    .queue .bugReport, .queue .admin]

/-- What a caller of `signal` does next. -/
inductive Signal
  | done
  | fetchOr (flag : EventFlag)
  | wake
  deriving DecidableEq

/-- The callers of `signal` are the producers and, as `none`, the loop.  `appended` and `delivered`
are every event so far, and no step reads them. -/
structure Queues (Producer Event : Type) where
  pending : Worker → List Event := fun _ => []
  ready : Finset EventFlag := ∅
  wakePending : Bool := false
  caller : Option Producer → Signal := fun _ => .done
  /-- a poll returned the waker's event -/
  woken : Bool := false
  /-- `ready_workers`, without the flags that were looked at -/
  readyWorkers : List EventFlag := []
  appended : Worker → List Event := fun _ => []
  delivered : Worker → List Event := fun _ => []

/-- The steps of the producers and of the loop. -/
inductive Action (Producer Event : Type)
  | append (producer : Producer) (worker : Worker) (event : Event)
  /-- the voice relay has merged what it observed -/
  | submitVoice (producer : Producer)
  | signal (caller : Option Producer)
  | poll
  | takeReady
  | drainUpTo (limit : ℕ)

variable {Producer Event : Type} [DecidableEq Producer] (s : Queues Producer Event)

/-- The loop is at its `poll`. -/
def Queues.Polls : Prop := s.woken = false ∧ s.readyWorkers = [] ∧ s.caller none = .done

instance : Decidable s.Polls := inferInstanceAs (Decidable (_ ∧ _ ∧ _))

/-- A step that is not possible changes nothing. -/
def Queues.next : Action Producer Event → Queues Producer Event
  | .append producer worker event =>
    if s.caller (some producer) = .done then
      { s with
        pending := Function.update s.pending worker (s.pending worker ++ [event])
        appended := Function.update s.appended worker (s.appended worker ++ [event])
        caller := Function.update s.caller (some producer) (.fetchOr (.queue worker)) }
    else s
  | .submitVoice producer =>
    if s.caller (some producer) = .done then
      { s with caller := Function.update s.caller (some producer) (.fetchOr .voice) }
    else s
  | .signal caller =>
    match s.caller caller with
    | .fetchOr flag =>
      { s with
        ready := insert flag s.ready
        caller := Function.update s.caller caller (if s.ready = ∅ then .wake else .done) }
    | .wake => { s with wakePending := true, caller := Function.update s.caller caller .done }
    | .done => s
  | .poll => if s.Polls ∧ s.wakePending then { s with wakePending := false, woken := true } else s
  | .takeReady =>
    if s.woken then
      { s with
        ready := ∅
        woken := false
        readyWorkers := s.readyWorkers ++ EventFlag.all.filter (· ∈ s.ready) }
    else s
  | .drainUpTo limit =>
    match s.caller none, s.readyWorkers with
    | .done, .queue worker :: rest =>
      let remains := (s.pending worker).drop limit
      { s with
        pending := Function.update s.pending worker remains
        delivered := Function.update s.delivered worker
          (s.delivered worker ++ (s.pending worker).take limit)
        caller := Function.update s.caller none
          (if remains = [] then .done else .fetchOr (.queue worker))
        readyWorkers := rest }
    -- `drain_voice_events` takes all there is
    | .done, .voice :: rest => { s with readyWorkers := rest }
    | _, _ => s

/-- What the loop does next, by itself. -/
def Queues.loopAction (limit : ℕ) : Action Producer Event :=
  if s.caller none ≠ .done then .signal none
  else if s.woken then .takeReady
  else if s.readyWorkers = [] then .poll
  else .drainUpTo limit

/-- The loop goes on for some steps, with a limit for each. -/
def Queues.loopRun (s : Queues Producer Event) : List ℕ → Queues Producer Event
  | [] => s
  | limit :: rest => Queues.loopRun (s.next (s.loopAction limit)) rest

end Chatt.EventQueue
