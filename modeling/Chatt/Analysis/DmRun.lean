import Chatt.Analysis.DirectMessages

/-!
# Runs that create rooms for direct messages

Each step of the state writer and of the event loop keeps `ServerInv`: the one room that is being
created is carried by exactly one write or one answer, so the answer that is heard of is the one
to that room.
-/

namespace Chatt.DirectMessages

open Lib List Option

variable {s : Server}
variable {write : List Submission} {pending : PendingDm}

/-! ## The end of a write -/

lemma filterMap_dm (submissions : List Submission) (result : Except String Unit) :
    (submissions.map fun waiter => StateWriteEvent.dm waiter.operationId result).filterMap
      Server.answer? = submissions.map fun _ => result := by
  rw [filterMap_map]
  exact congrFun filterMap_eq_map' submissions

lemma answers_terminate (s : Server) (error : String) :
    (s.terminate error).answers = s.answers ++ s.queued.map fun _ => .error error := by
  have hfatal : (if s.asyncWrites then [StateWriteEvent.fatal error] else []).filterMap
      Server.answer? = [] := by
    split_ifs <;> rfl
  simp only [Server.answers, Server.terminate, filterMap_append, filterMap_dm, hfatal, append_nil]

variable {s' : Server} {db' : StateDb} {done : Prop}

lemma PendingOk.of_eq (h : PendingOk s pending) (hrooms : s'.dmRooms = s.dmRooms)
    (hlogs : s'.logs = s.logs) : PendingOk s' pending := by
  refine ⟨h.id, h.users, ?_, ?_, ?_⟩
  · rw [hrooms]
    exact h.newPair
  · rw [hrooms]
    exact h.newId
  · rw [hlogs]
    exact h.noLog

/-- The state writer ends, and everything submitted is answered with its error. -/
lemma ServerInv.writerEnds (h : ServerInv s) {rooms : List DmRoom} {error : String}
      (hwrote : Wrote s.db s'.db rooms done) (hrooms : s'.dmRooms = s.dmRooms)
    (hpending : s'.pendingDm = s.pendingDm) (hlogs : s'.logs = s.logs)
    (hstopped : s'.stopped = s.stopped) (hterminal : s'.terminalError ≠ none)
    (hended : s'.writing = none ∧ s'.queued = [])
    (hanswers : s'.answers = s.answers ++ s.inflight.map fun _ => .error error) : ServerInv s' := by
  have hinflight : s'.inflight = [] := by
    rw [Server.inflight, hended.1, hended.2]
    rfl
  constructor
  case db => exact hwrote.ok
  case loaded =>
    intro room hroom
    rw [hrooms] at hroom
    exact hwrote.kept room (h.loaded room hroom)
  case distinct =>
    rw [hrooms]
    exact h.distinct
  case pending =>
    intro pending hsome
    rw [hpending] at hsome
    exact (h.pending pending hsome).of_eq hrooms hlogs
  case ended => exact fun _ => hended
  case live => exact fun hlive => absurd hlive hterminal
  case progress =>
    intro hrunning
    rw [hstopped] at hrunning
    obtain ⟨hidle, hpend⟩ := h.progress hrunning
    rw [Progress, hpending]
    constructor
    · intro hnone
      obtain ⟨hnothing, hheard⟩ := hidle hnone
      rw [hanswers, hnothing, hheard]
      exact ⟨hinflight, rfl⟩
    · intro pending hsome
      right
      refine ⟨hinflight, ?_⟩
      rcases hpend pending hsome with ⟨next, operationId, hone, -, hheard, -⟩ | ⟨hnone,
        result, hone, hok⟩
      · refine ⟨.error error, ?_, by simp⟩
        rw [hanswers, hone, hheard]
        rfl
      · refine ⟨result, ?_, fun hresult => hwrote.kept _ (hok hresult)⟩
        rw [hanswers, hone, hnone]
        rfl

/-- The next room id is handed out. -/
lemma LiveOk.assign {s' : Server} {room : DmRoom} (h : LiveOk s) (hid : room.roomId = s.nextRoomId)
      (hspace : s.nextRoomId < u32Max)
    (hrunning : s'.stopped = s.stopped) (hevents : s'.events = s.events) (hlogs : s'.logs = s.logs)
    (hnext : s'.nextRoomId = s.nextRoomId + 1)
    (hassigned : s'.assigned = s.assigned ++ [room])
    (hstored : ∀ other, Stored s'.db other → Stored s.db other ∨ other ∈ [room]) : LiveOk s' := by
  refine ⟨hrunning.trans h.running, hevents ▸ h.heard, ?_, ?_,
    hnext ▸ h.dynamic.trans (Nat.le_succ _), ?_⟩
  · rw [hassigned]
    intro other hother
    exact mem_append.mpr ((hstored other hother).imp_left (h.known other))
  · rw [hassigned, hnext]
    exact forall_mem_append.mpr ⟨fun other hother =>
      (h.below other hother).trans (Nat.lt_succ_self _),
      forall_mem_singleton.mpr (hid ▸ Nat.lt_succ_self _)⟩
  · rw [hlogs, hnext]
    intro id hmem hdynamic
    rcases h.logs id hmem hdynamic with hlt | hend
    · exact .inl (hlt.trans (Nat.lt_succ_self _))
    · exact absurd hspace (by omega)

section

variable (h : ServerInv s)

include h

/-- A room is created, and the requester has waited for it. -/
lemma ServerInv.created {first second nowMs : UInt64} (hmay : MayCreate s first second)
      (hrunning : s.stopped = false)
    (hdone : done) (hwrote : Wrote s.db db' [⟨s.nextRoomId, first, second, nowMs⟩] done) :
    ServerInv { s with
      db := db'
      nextRoomId := s.nextRoomId + 1
      dmRooms := s.dmRooms ++ [⟨s.nextRoomId, first, second, nowMs⟩] } := by
  have hlive := h.live hmay.live
  have hnew := (hmay.pendingOk h 0 : PendingOk s ⟨0, ⟨s.nextRoomId, first, second, nowMs⟩, _⟩)
  constructor
  case db => exact hwrote.ok
  case loaded =>
    intro room hroom
    rcases mem_append.mp hroom with hold | hlast
    · exact hwrote.kept room (h.loaded room hold)
    · exact hwrote.all hdone room hlast
  case distinct =>
    rw [map_append, map_singleton, ← concat_eq_append]
    exact h.distinct.concat hnew.newId
  case pending =>
    intro pending hpending
    exact absurd (hpending.symm.trans hmay.idle) (by simp)
  case ended => exact h.ended
  case live =>
    intro _
    exact hlive.assign rfl hmay.space rfl rfl rfl rfl (by simp [Server.assigned, hmay.idle])
      hwrote.only
  case progress =>
    intro _
    refine ⟨fun _ => (h.progress hrunning).1 hmay.idle, ?_⟩
    intro pending hpending
    exact absurd (hpending.symm.trans hmay.idle) (by simp)

/-- A room is queued to the state writer. -/
lemma ServerInv.queued {first second nowMs : UInt64} (hmay : MayCreate s first second)
      (hrunning : s.stopped = false) (operationId n : ℕ) :
    ServerInv { s with
      nextDmOperation := n
      nextRoomId := s.nextRoomId + 1
      pendingDm := some ⟨operationId, ⟨s.nextRoomId, first, second, nowMs⟩, s.nextRoomId⟩
      queued := s.queued ++
        [⟨⟨⟨s.nextRoomId, first, second, nowMs⟩, s.nextRoomId + 1⟩, operationId⟩] } := by
  have hlive := h.live hmay.live
  obtain ⟨hinflight, hanswers⟩ := (h.progress hrunning).1 hmay.idle
  constructor
  case db => exact h.db
  case loaded => exact h.loaded
  case distinct => exact h.distinct
  case pending =>
    intro pending hpending
    obtain rfl := some.inj hpending
    exact (hmay.pendingOk h operationId).of_eq rfl rfl
  case ended => exact fun hterminal => absurd hmay.live hterminal
  case live =>
    intro _
    exact @LiveOk.assign _ _ ⟨s.nextRoomId, first, second, nowMs⟩ hlive rfl hmay.space
      rfl rfl rfl rfl
      (by simp [Server.assigned, hmay.idle]) fun _ => .inl
  case progress =>
    intro _
    constructor
    · intro hnone
      cases hnone
    intro pending hpending
    obtain rfl := some.inj hpending
    left
    refine ⟨_, operationId, ?_, hmay.space, hanswers, (hmay.insertable h).newId⟩
    rw [Server.inflight, append_eq_nil_iff] at hinflight
    rw [Server.inflight, hinflight.1, hinflight.2]
    rfl

lemma ServerInv.beginOpenDm (hrunning : s.stopped = false) (first second nowMs : UInt64)
    (outcome : Server.WriteOutcome) : ServerInv (s.beginOpenDm first second nowMs outcome).1 := by
  obtain ⟨n, hsame⟩ | ⟨hmay, hcreate⟩ := beginOpenDm_cases s first second nowMs outcome
  · rw [hsame]
    exact { h with
    pending := fun pending hpending => (h.pending pending hpending).of_eq rfl rfl
    live := fun hlive => { h.live hlive with } }
  obtain ⟨operationId, n, hqueued⟩ | ⟨db', result, hwrite, hsync⟩ := hcreate
  · rw [hqueued]
    exact h.queued hmay hrunning operationId n
  have hwrote := runWrite_new h.db (hmay.insertable h) hmay.space hwrite
  obtain ⟨hok, hcreated⟩ | ⟨error, -, hfailed⟩ := hsync
  · rw [hcreated]
    exact h.created hmay hrunning hok hwrote
  obtain ⟨hinflight, -⟩ := (h.progress hrunning).1 hmay.idle
  have hqueued : s.queued = [] := (append_eq_nil_iff.mp hinflight).2
  rw [hfailed]
  refine h.writerEnds hwrote rfl rfl rfl rfl (by simp [Server.terminate]) ⟨rfl, rfl⟩ (?_ :
    _ = s.answers ++ s.inflight.map fun _ => .error error)
  rw [answers_terminate, hinflight, hqueued]
  rfl

omit h in
lemma PendingOk.insertable (h : PendingOk s pending) (hlive : LiveOk s)
    (hpending : s.pendingDm = some pending) (hnew : s.db.dmRooms.get? pending.room.roomId = none) :
    Insertable s.db pending.room where
  newId := hnew
  bounds := h.id
  users := h.users
  newPair := by
    intro other hother
    have hknown := hlive.known other hother
    rw [Server.assigned, hpending] at hknown
    rcases mem_append.mp hknown with hroom | hroom
    · exact h.newPair other hroom
    have hsame : other = pending.room := by simpa using hroom
    have hstored := hother.1
    rw [hsame, hnew] at hstored
    cases hstored

/-- What the state writer has received: the room that is being created, or no room. -/
lemma ServerInv.write_cases (hwriting : s.writing = some write) (hrunning : s.stopped = false) :
    write = [] ∨ ∃ pending next operationId, s.pendingDm = some pending ∧
    write = [⟨⟨pending.room, next⟩, operationId⟩] ∧ s.queued = [] ∧ next ≤ u32Max ∧
      s.answers = [] ∧ s.db.dmRooms.get? pending.room.roomId = none := by
  obtain ⟨hidle, hpend⟩ := h.progress hrunning
  have hinflight : s.inflight = write ++ s.queued := by rw [Server.inflight, hwriting]; rfl
  rcases eq_none_or_eq_some s.pendingDm with hnone | ⟨pending, hsome⟩
  · have hnothing := (hidle hnone).1
    rw [hinflight] at hnothing
    exact .inl (append_eq_nil_iff.mp hnothing).1
  · rcases hpend pending hsome with ⟨next, operationId, hone, hnext, hheard, hnew⟩ | ⟨hnothing, -⟩
    · rw [hinflight] at hone
      rcases append_eq_singleton_iff.mp hone with ⟨hnil, -⟩ | ⟨hwrite, hqueued⟩
      · exact .inl hnil
      · exact .inr ⟨pending, next, operationId, hsome, hwrite, hqueued, hnext, hheard, hnew⟩
    · rw [hinflight] at hnothing
      exact .inl (append_eq_nil_iff.mp hnothing).1

omit h in
lemma finishWrite_error {outcome : Server.WriteOutcome} {error : String}
      (hwriting : s.writing = some write)
    (hrun : s.runWrite (write.map Submission.insert) outcome = (db', .error error)) :
    (s.finishWrite write outcome).answers = s.answers ++ s.inflight.map fun _ => .error error := by
  simp only [Server.finishWrite, hrun, answers_terminate]
  simp only [Server.answers, Server.inflight, hwriting, filterMap_append, filterMap_dm, getD_some,
    map_append, append_assoc]

/-- The transaction of the state writer is committed. -/
lemma ServerInv.committed (hwriting : s.writing = some write) (hworks : s.terminalError = none)
      (hdone : done)
    (hwrote : Wrote s.db db' (write.map fun w => w.insert.room) done)
    (hsame : write = [] → db' = s.db) : ServerInv { s with
      db := db'
      writing := none
      events := s.events ++ write.map fun waiter => .dm waiter.operationId (.ok ()) } := by
  have hlive := h.live hworks
  have hwrite := h.write_cases hwriting hlive.running
  have hinflight : s.inflight = write ++ s.queued := by rw [Server.inflight, hwriting]; rfl
  have hpending : ∀ room ∈ write.map fun w => w.insert.room, room ∈ s.assigned := by
    rcases hwrite with rfl | ⟨pending, next, operationId, hsome, rfl, -⟩
    · simp
    · simp [Server.assigned, hsome]
  constructor
  case db => exact hwrote.ok
  case loaded => exact fun room hroom => hwrote.kept room (h.loaded room hroom)
  case distinct => exact h.distinct
  case pending => exact fun pending hsome => (h.pending pending hsome).of_eq rfl rfl
  case ended => exact fun hended => absurd hworks hended
  case live =>
    intro _
    refine { hlive with heard := ?_, known := ?_ }
    · intro event hevent
      rcases mem_append.mp hevent with hold | hnew
      · exact hlive.heard event hold
      · obtain ⟨waiter, -, rfl⟩ := mem_map.mp hnew
        exact ⟨_, rfl⟩
    · intro room hroom
      rcases hwrote.only room hroom with hold | hnew
      · exact hlive.known room hold
      · exact hpending room hnew
  case progress =>
    intro _
    rcases hwrite with rfl | ⟨pending, next, operationId, hsome, rfl, hqueued, -, hheard, -⟩
    · exact (h.progress hlive.running).of_eq rfl hinflight.symm
        (by simp [Server.answers]) (hsame rfl)
    constructor
    · intro hnone
      exact absurd (hsome.symm.trans hnone) (by simp)
    · intro other hother
      obtain rfl := some.inj (hsome.symm.trans hother)
      refine .inr ⟨hqueued, .ok (), ?_, fun _ => hwrote.all hdone _ (by simp)⟩
      rw [Server.answers] at hheard
      simp [Server.answers, filterMap_append, hheard, Server.answer?]

/-- The transaction of the state writer ends. -/
lemma ServerInv.finishWrite (hwriting : s.writing = some write) (outcome : Server.WriteOutcome) :
    ServerInv (s.finishWrite write outcome) := by
  have hworks : s.terminalError = none := by
    by_contra hended
    rw [(h.ended hended).1] at hwriting
    cases hwriting
  have hlive := h.live hworks
  cases hrun : s.runWrite (write.map Submission.insert) outcome with
  | mk db' result =>
  have hwrote : Wrote s.db db' (write.map fun w => w.insert.room) (result = .ok ()) := by
    rcases h.write_cases hwriting hlive.running with
      rfl | ⟨pending, next, operationId, hsome, rfl, -, hnext, -, hnew⟩
    · rw [runWrite_nil hrun]
      exact Wrote.nothing h.db fun _ => rfl
    · have hpending := (h.pending pending hsome).insertable hlive hsome hnew
      exact runWrite_new h.db hpending hnext hrun
  cases result with
  | error error =>
    have hanswers := finishWrite_error hwriting hrun
    have hend : s.finishWrite write outcome = ({ s with
        db := db'
        writing := none
        events := s.events ++ write.map fun waiter => .dm waiter.operationId (.error error) } :
        Server).terminate error := by
      simp only [Server.finishWrite, hrun]
    rw [hend] at hanswers ⊢
    exact h.writerEnds hwrote rfl rfl rfl rfl (by simp [Server.terminate]) ⟨rfl, rfl⟩ hanswers
  | ok _ =>
    have hend : s.finishWrite write outcome = { s with
        db := db'
        writing := none
        events := s.events ++ write.map fun waiter => .dm waiter.operationId (.ok ()) } := by
      simp only [Server.finishWrite, hrun]
    rw [hend]
    apply h.committed hwriting hworks rfl hwrote
    intro hnil
    rw [hnil] at hrun
    exact runWrite_nil hrun

/-! ## Completions -/

/-- The event loop ends after the state writer has. -/
lemma ServerInv.stop (hended : s.terminalError ≠ none)
      (hterminal : s'.terminalError = s.terminalError) (hdb : s'.db = s.db)
    (hrooms : s'.dmRooms = s.dmRooms) (hlogs : s'.logs = s.logs)
    (hpending : s'.pendingDm = s.pendingDm ∨ s'.pendingDm = none)
    (hwriting : s'.writing = s.writing) (hqueued : s'.queued = s.queued)
    (hstopped : s'.stopped = true) : ServerInv s' := by
  constructor
  case db =>
    rw [hdb]
    exact h.db
  case loaded =>
    rw [hdb, hrooms]
    exact h.loaded
  case distinct =>
    rw [hrooms]
    exact h.distinct
  case pending =>
    intro pending hsome
    rcases hpending with hsame | hnone
    · exact (h.pending pending (hsame ▸ hsome)).of_eq hrooms hlogs
    · exact absurd (hsome.symm.trans hnone) (by simp)
  case ended =>
    intro _
    rw [hwriting, hqueued]
    exact h.ended hended
  case live =>
    rw [hterminal]
    exact fun hlive => absurd hlive hended
  case progress =>
    rw [hstopped]
    intro hrunning
    cases hrunning

/-- An error is heard of after the state writer has ended. -/
lemma ServerInv.ended_of_heard {event : StateWriteEvent} (hevent : event ∈ s.events)
    (herror : ∀ operationId, event ≠ .dm operationId (.ok ())) : s.terminalError ≠ none := by
  intro hlive
  obtain ⟨operationId, hok⟩ := (h.live hlive).heard event hevent
  exact herror operationId hok

/-- The answer to the room that is being created is heard of. -/
lemma ServerInv.pending_of_heard (hrunning : s.stopped = false) {operationId : ℕ}
      {result : Except String Unit}
    {events : List StateWriteEvent} (hevents : s.events = .dm operationId result :: events) :
    ∃ pending, s.pendingDm = some pending ∧ s.inflight = [] ∧ events.filterMap Server.answer? = [] ∧
    (result = .ok () → Stored s.db pending.room) := by
  obtain ⟨hidle, hpend⟩ := h.progress hrunning
  have hanswers : s.answers = result :: events.filterMap Server.answer? := by
    rw [Server.answers, hevents]
    rfl
  rcases eq_none_or_eq_some s.pendingDm with hnone | ⟨pending, hsome⟩
  · have hnothing := (hidle hnone).2
    rw [hanswers] at hnothing
    cases hnothing
  · refine ⟨pending, hsome, ?_⟩
    rcases hpend pending hsome with ⟨_, _, -, -, hnothing, -⟩ | ⟨hinflight, answer, hone, hok⟩
    · rw [hanswers] at hnothing
      cases hnothing
    · rw [hanswers] at hone
      obtain ⟨rfl, hrest⟩ := List.cons.inj hone
      exact ⟨hinflight, hrest, hok⟩

/-- The room that was being created becomes a room of the server. -/
lemma ServerInv.completed {events : List StateWriteEvent} (hpending : s.pendingDm = some pending)
      (hinflight : s.inflight = [])
    (hevents : ∀ event ∈ events, event ∈ s.events) (hanswers : events.filterMap Server.answer? = [])
    (hstored : Stored s.db pending.room) :
    ServerInv { s with
      pendingDm := none
      dmRooms := s.dmRooms ++ [pending.room]
      events } := by
  have hok := h.pending pending hpending
  constructor
  case db => exact h.db
  case loaded => exact forall_mem_append.mpr ⟨h.loaded, forall_mem_singleton.mpr hstored⟩
  case distinct =>
    rw [map_append, map_singleton, ← concat_eq_append]
    exact h.distinct.concat hok.newId
  case pending => exact nofun
  case ended => exact h.ended
  case live =>
    intro hworks
    have hlive := h.live hworks
    have hassigned : s.assigned = s.dmRooms ++ [pending.room] := by
      rw [Server.assigned, hpending]
      rfl
    refine ⟨hlive.running, fun event hevent => hlive.heard event (hevents event hevent), ?_, ?_,
      hlive.dynamic, hlive.logs⟩
    · intro room hroom
      rw [Server.assigned, toList_none, map_nil, append_nil, ← hassigned]
      exact hlive.known room hroom
    · intro room hroom
      rw [Server.assigned, toList_none, map_nil, append_nil, ← hassigned] at hroom
      exact hlive.below room hroom
  case progress =>
    intro _
    exact ⟨fun _ => ⟨hinflight, hanswers⟩, nofun⟩

end

variable {result : Except String (List DmCompletion)}

/-- The event loop hears of completions, until the end of the state writer. -/
lemma ServerInv.drainLoop {replies : List StateWriteEvent} {completed : List DmCompletion}
      (h : ServerInv { s with events := replies ++ s.events })
    (hrunning : s.stopped = false) (hloop : Server.drainLoop s replies completed = (s', result)) :
    (∃ heard, result = .ok (completed ++ heard) ∧ ServerInv s' ∧ s.dmRooms ⊆ s'.dmRooms ∧
      ∀ completion ∈ heard, completion.room ∈ s'.dmRooms) ∨
      ∃ error, result = .error error ∧ s.dmRooms ⊆ s'.dmRooms ∧
      ServerInv { s' with stopped := true } := by
  induction replies generalizing s completed with
  | nil =>
    cases hloop
    exact .inl ⟨[], by simp, h, List.Subset.refl _, by simp⟩
  | cons reply replies ih =>
    cases reply with
    | fatal error =>
      cases hloop
      have hended := h.ended_of_heard mem_cons_self (by simp)
      exact .inr ⟨error, rfl, List.Subset.refl _,
        h.stop hended rfl rfl rfl rfl (.inl rfl) rfl rfl rfl⟩
    | dm operationId answer =>
      obtain ⟨pending, hsome, hinflight, hanswers, hstored⟩ := h.pending_of_heard hrunning rfl
      have hpending : s.pendingDm = some pending := hsome
      cases answer with
      | error error =>
        rw [Server.drainLoop, hpending] at hloop
        cases hloop
        have hended := h.ended_of_heard mem_cons_self (by simp)
        exact .inr ⟨error, rfl, List.Subset.refl _,
          h.stop hended rfl rfl rfl rfl (.inr rfl) rfl rfl rfl⟩
      | ok _ =>
        rw [Server.drainLoop, hpending] at hloop
        let taken : Server := { s with pendingDm := none, dmRooms := s.dmRooms ++ [pending.room] }
        have htaken : ServerInv { taken with events := replies ++ taken.events } :=
          h.completed hpending hinflight
            (fun event hevent => mem_cons_of_mem _ hevent) hanswers (hstored rfl)
        rcases @ih taken _ htaken hrunning hloop with
          ⟨heard, hok, hinv, hgrown, hrooms⟩ | ⟨error, herror, hgrown, hinv⟩
        · refine .inl ⟨⟨pending.operationId, pending.room, .ok ()⟩ :: heard, ?_, hinv, ?_, ?_⟩
          · rw [hok, append_assoc]
            rfl
          · exact fun room hroom => hgrown (mem_append_left _ hroom)
          · exact forall_mem_cons.mpr ⟨hgrown (mem_append_right _ mem_cons_self), hrooms⟩
        · exact .inr ⟨error, herror, fun room hroom => hgrown (mem_append_left _ hroom), hinv⟩

lemma ServerInv.drainDmCompletions (h : ServerInv s) (hrunning : s.stopped = false)
      (hdrain : s.drainDmCompletions = (s', result)) :
    (∃ heard, result = .ok heard ∧ ServerInv s' ∧ s.dmRooms ⊆ s'.dmRooms ∧
      ∀ completion ∈ heard, completion.room ∈ s'.dmRooms) ∨
      ∃ error, result = .error error ∧ s.dmRooms ⊆ s'.dmRooms ∧
      ServerInv { s' with stopped := true } := by
  unfold Server.drainDmCompletions at hdrain
  split_ifs at hdrain
  · have htaken : ServerInv { ({ s with events := s.events.drop 16 } : Server) with
        events := s.events.take 16 ++ s.events.drop 16 } := by
      rw [take_append_drop]
      exact h
    have hdrained := ServerInv.drainLoop htaken hrunning hdrain
    simpa only [nil_append] using hdrained
  · cases hdrain
    exact .inl ⟨[], rfl, h, List.Subset.refl _, by simp⟩

/-! ## Runs -/

structure DmRunInv (s : DmRun) : Prop where
  server : ServerInv s.server
  reported : ∀ room ∈ s.reported, room ∈ s.server.dmRooms

lemma ServerInv.enableAsync (h : ServerInv s) : ServerInv s.enableAsyncStateWrites := by
  unfold Server.enableAsyncStateWrites
  split_ifs
  · exact h
  have hanswers : (s.terminalError.toList.map StateWriteEvent.fatal).filterMap Server.answer? =
      [] := by
    cases s.terminalError <;> rfl
  refine { h with
    pending := fun pending hsome => (h.pending pending hsome).of_eq rfl rfl
    live := ?_, progress := ?_ }
  · intro hworks
    have hlive := h.live hworks
    refine { hlive with heard := ?_ }
    rw [hworks]
    simpa using hlive.heard
  · intro hrunning
    refine (h.progress hrunning).of_eq ?_ ?_ ?_ ?_
    case refine_3 =>
      rw [Server.answers, filterMap_append, hanswers, append_nil]
      rfl
    all_goals rfl

lemma ServerInv.receive (h : ServerInv s) (hnone : s.writing = none)
      (hworks : s.terminalError = none) :
    ServerInv { s with writing := some s.queued, queued := [] } := by
  have hlive := h.live hworks
  refine ⟨h.db, h.loaded, h.distinct, fun pending hsome => (h.pending pending hsome).of_eq rfl rfl,
    fun hended => absurd hworks hended, fun _ => { hlive with }, ?_⟩
  intro hrunning
  refine (h.progress hrunning).of_eq ?_ ?_ ?_ ?_
  case refine_2 =>
    rw [Server.inflight, Server.inflight, hnone]
    simp
  all_goals rfl

/-- A log belongs to a room, so its id is not that of the room that is being created. -/
lemma ServerInv.createLog (h : ServerInv s) {room : RoomId} (hroom : room ∈ s.roomIds) :
    ServerInv { s with logs := s.logs ++ [room] } := by
  refine { h with pending := ?_, live := ?_ }
  · intro pending hsome
    have hok := h.pending pending hsome
    refine { hok with noLog := ?_ }
    intro hlog
    rcases mem_append.mp hlog with hold | hnew
    · exact hok.noLog hold
    rw [← mem_singleton.mp hnew] at hroom
    rcases mem_append.mp hroom with hconfigured | hdm
    · exact absurd hok.id.1 (not_le.mpr (s.configured.below _ hconfigured))
    · exact hok.newId hdm
  · intro hworks
    have hlive := h.live hworks
    refine { hlive with logs := ?_ }
    intro id hid hdynamic
    rcases mem_append.mp hid with hold | hnew
    · exact hlive.logs id hold hdynamic
    rw [← mem_singleton.mp hnew] at hroom
    rcases mem_append.mp hroom with hconfigured | hdm
    · exact absurd hdynamic (not_le.mpr (s.configured.below _ hconfigured))
    · obtain ⟨dm, hmem, rfl⟩ := mem_map.mp hdm
      exact .inl (hlive.below dm (mem_append_left _ hmem))

/-- A request creates at most one room, at the end of the rooms. -/
lemma beginOpenDm_dmRooms (s : Server) (first second nowMs : UInt64)
      (outcome : Server.WriteOutcome) :
    s.dmRooms <+: (s.beginOpenDm first second nowMs outcome).1.dmRooms := by
  obtain ⟨n, hsame⟩ | ⟨-, ⟨_, _, hqueued⟩ | ⟨_, _, -, ⟨-, hcreated⟩ | ⟨_, -, hfailed⟩⟩⟩ :=
    beginOpenDm_cases s first second nowMs outcome
  · rw [hsame]
  · rw [hqueued]
  · rw [hcreated]
    exact List.prefix_append _ _
  · rw [hfailed]
    exact List.prefix_refl _

lemma dmRooms_finishWrite (s : Server) (write : List Submission) (outcome : Server.WriteOutcome) :
    (s.finishWrite write outcome).dmRooms = s.dmRooms := by
  simp only [Server.finishWrite]
  split <;> rfl

lemma DmRunInv.next {s s' : DmRun} {action : DmAction} (h : DmRunInv s)
    (hnext : s.next action = some s') : DmRunInv s' := by
  cases action with
  | openDm first second nowMs outcome =>
    simp only [DmRun.next] at hnext
    split_ifs at hnext with hstopped
    cases hnext
    have hrunning := Bool.eq_false_iff.mpr hstopped
    obtain ⟨created, hcreated⟩ := beginOpenDm_dmRooms s.server first second nowMs outcome
    refine ⟨h.server.beginOpenDm hrunning first second nowMs outcome, ?_⟩
    intro room hroom
    rw [← hcreated]
    rw [DmRun.createdBy, ← hcreated, drop_left] at hroom
    rcases mem_append.mp hroom with hold | hnew
    · exact mem_append_left _ (h.reported room hold)
    · exact mem_append_right _ hnew
  | enableAsync =>
    simp only [DmRun.next] at hnext
    split_ifs at hnext
    cases hnext
    refine ⟨h.server.enableAsync, fun room hroom => ?_⟩
    have hmem := h.reported room hroom
    rw [Server.enableAsyncStateWrites]
    split_ifs <;> exact hmem
  | receive =>
    simp only [DmRun.next] at hnext
    split_ifs at hnext with hready
    cases hnext
    exact ⟨h.server.receive hready.1 hready.2, h.reported⟩
  | finish outcome =>
    simp only [DmRun.next] at hnext
    split at hnext
    · next write hwriting =>
      cases hnext
      refine ⟨h.server.finishWrite hwriting outcome, ?_⟩
      rw [dmRooms_finishWrite]
      exact h.reported
    · cases hnext
  | drain =>
    simp only [DmRun.next] at hnext
    split_ifs at hnext with hstopped
    have hrunning := Bool.eq_false_iff.mpr hstopped
    cases hdrain : s.server.drainDmCompletions with
    | mk server result =>
    rw [hdrain] at hnext
    rcases h.server.drainDmCompletions hrunning hdrain with
      ⟨heard, rfl, hinv, hgrown, hrooms⟩ | ⟨error, rfl, hgrown, hinv⟩
    · cases hnext
      refine ⟨hinv, fun room hroom => ?_⟩
      rcases mem_append.mp hroom with hold | hnew
      · exact hgrown (h.reported room hold)
      · obtain ⟨completion, hmem, rfl⟩ := mem_map.mp hnew
        exact hrooms completion hmem
    · cases hnext
      exact ⟨hinv, fun room hroom => hgrown (h.reported room hroom)⟩
  | createLog room =>
    simp only [DmRun.next] at hnext
    split_ifs at hnext with hguard
    cases hnext
    rw [not_or, not_not] at hguard
    exact ⟨h.server.createLog hguard.2, h.reported⟩
  | restart configured =>
    obtain ⟨server, hopen, hinv, hdb, hrooms⟩ := tryOpen_ok configured h.server.db s.server.logs
    simp only [DmRun.next, hopen] at hnext
    cases hnext
    exact ⟨hinv, fun room hroom => (hrooms room).mpr (h.server.loaded room (h.reported room hroom))⟩

/-- The rooms of the server are of different users. -/
lemma ServerInv.pairwise (h : ServerInv s) : s.dmRooms.Pairwise fun a b => ¬ SamePair a b := by
  have hnodup : s.dmRooms.Nodup := List.Nodup.of_map _ h.distinct
  refine hnodup.imp_of_mem ?_
  intro a b ha hb hne hsame
  exact hne (h.db.unique a b (h.loaded a ha) (h.loaded b hb) hsame)

lemma ServerInv.roomIds_nodup (h : ServerInv s) : s.roomIds.Nodup := by
  apply nodup_append.mpr
  refine ⟨s.configured.nodup, h.distinct, ?_⟩
  intro id hconfigured other hdm hsame
  obtain ⟨room, hroom, rfl⟩ := mem_map.mp hdm
  have hdynamic := (h.db.bounds (h.loaded room hroom)).1
  have hbelow := s.configured.below id hconfigured
  rw [hsame] at hbelow
  exact absurd hdynamic (not_le.mpr hbelow)

lemma PendingOk.unused (h : PendingOk s pending) :
    pending.room.roomId ∉ s.logs ∧ pending.room.roomId ∉ s.roomIds := by
  refine ⟨h.noLog, ?_⟩
  intro hroom
  rcases mem_append.mp hroom with hconfigured | hdm
  · exact absurd h.id.1 (not_le.mpr (s.configured.below _ hconfigured))
  · exact h.newId hdm

/-- The id a request hands out is in no use. -/
lemma ServerInv.assigned_unused (h : ServerInv s) (first second nowMs : UInt64)
      (outcome : Server.WriteOutcome) {room : DmRoom}
    (hroom : room ∈ (s.beginOpenDm first second nowMs outcome).1.assigned)
    (hnew : room ∉ s.assigned) : room.roomId ∉ s.logs ∧ room.roomId ∉ s.roomIds := by
  obtain ⟨n, hsame⟩ | ⟨hmay, hcreate⟩ := beginOpenDm_cases s first second nowMs outcome
  · rw [hsame] at hroom
    exact absurd hroom hnew
  have hunused := (hmay.pendingOk h 0 :
    PendingOk s ⟨0, ⟨s.nextRoomId, first, second, nowMs⟩, s.nextRoomId⟩).unused
  have hassigned : s.assigned = s.dmRooms := by simp [Server.assigned, hmay.idle]
  rw [hassigned] at hnew
  suffices hroom : room = ⟨s.nextRoomId, first, second, nowMs⟩ by
    rw [hroom]
    exact hunused
  obtain ⟨_, _, hqueued⟩ | ⟨_, _, -, ⟨-, hcreated⟩ | ⟨_, -, hfailed⟩⟩ := hcreate
  · rw [hqueued] at hroom
    rcases mem_append.mp hroom with hold | hlast
    · exact absurd hold hnew
    · simpa using hlast
  · rw [hcreated] at hroom
    rcases mem_append.mp hroom with hmem | hpending
    · rcases mem_append.mp hmem with hold | hlast
      · exact absurd hold hnew
      · exact mem_singleton.mp hlast
    · simp [hmay.idle] at hpending
  · rw [hfailed] at hroom
    have hold : room ∈ s.dmRooms := by
      simpa [Server.assigned, Server.terminate, hmay.idle] using hroom
    exact absurd hold hnew

/-- In every run a pair of users has at most one room, no two rooms have one id, a room that is
created gets an id of no log, and a restart finds every room that was reported. -/
theorem dm_rooms_unique (start s : DmRun) (hstart : start.Started)
      (hrun : Reachable DmRun.next (fun _ _ => True) start s) :
    s.server.dmRooms.Pairwise (fun a b => ¬ SamePair a b) ∧
    s.server.roomIds.Nodup ∧
    (∀ first second nowMs outcome,
      ∀ room ∈ (s.server.beginOpenDm first second nowMs outcome).1.assigned,
      room ∉ s.server.assigned →
        room.roomId ∉ s.server.logs ∧ room.roomId ∉ s.server.roomIds) ∧
    (∀ pending, s.server.pendingDm = some pending →
      pending.room.roomId ∉ s.server.logs ∧ pending.room.roomId ∉ s.server.roomIds) ∧
    ∀ configured, ∃ s', s.next (.restart configured) = some s' ∧
    ∀ room ∈ s.reported, room ∈ s'.server.dmRooms := by
  have h : DmRunInv s := by
    apply hrun.invariant
    · obtain ⟨configured, logs, hopen, hreported⟩ := hstart
      obtain ⟨server, hserver, hinv, -⟩ := tryOpen_ok configured DbOk.initial logs
      obtain rfl := Except.ok.inj (hopen.symm.trans hserver)
      exact ⟨hinv, by simp [hreported]⟩
    · intro x y action h _ hnext
      exact h.next hnext
  refine ⟨h.server.pairwise, h.server.roomIds_nodup, ?_, ?_, ?_⟩
  · intro first second nowMs outcome room hroom hnew
    exact h.server.assigned_unused first second nowMs outcome hroom hnew
  · exact fun pending hpending => (h.server.pending pending hpending).unused
  · intro configured
    obtain ⟨server, hopen, -, -, hrooms⟩ := tryOpen_ok configured h.server.db s.server.logs
    refine ⟨{ s with server }, by simp only [DmRun.next, hopen], ?_⟩
    exact fun room hroom => (hrooms room).mpr (h.server.loaded room (h.reported room hroom))

/-! ## A run -/

def sampleConfigured : ConfiguredRooms := ⟨[1, 2], by decide, by decide⟩

/-- A room is created while a log from before is there; a second one is lost with the process. -/
def sampleRun : List DmAction :=
  [.enableAsync, .openDm 7 8 5 .committed, .openDm 8 7 6 .committed, .receive, .finish .committed,
   .drain, .createLog 2147483652, .openDm 7 9 7 .committed, .restart sampleConfigured, .enableAsync,
   .openDm 9 7 8 .committed]

def sampleStart : DmRun where
  server := {
    configured := sampleConfigured
    nextRoomId := 2147483652
    dmRooms := []
    pendingDm := none
    nextDmOperation := 1
    asyncWrites := false
    stopped := false
    queued := []
    terminalError := none
    writing := none
    events := []
    db := StateDb.initial
    logs := [1, 2147483651] }
  reported := []

theorem dm_rooms_unique_sample :
    let s := after DmRun.next sampleStart sampleRun
    s.reported.map DmRoom.roomId = [2147483652] ∧ s.server.roomIds = [1, 2, 2147483652] ∧
    s.server.roomIds.Nodup ∧
    ∀ pending, s.server.pendingDm = some pending →
      pending.room.roomId ∉ s.server.logs ∧ pending.room.roomId ∉ s.server.roomIds := by
  have hrun : Reachable DmRun.next (fun _ _ => True) sampleStart
      (after DmRun.next sampleStart sampleRun) := by
    apply reachable_after
    decide +kernel
  have hstart : sampleStart.Started := ⟨sampleConfigured, [1, 2147483651], rfl, rfl⟩
  have h := dm_rooms_unique _ _ hstart hrun
  exact ⟨by decide +kernel, by decide +kernel, h.2.1, h.2.2.2.1⟩

end Chatt.DirectMessages
