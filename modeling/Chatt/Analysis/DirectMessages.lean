import Chatt.Interface.DmRun

/-!
# Direct-message rooms are unique

The registry in memory, the one room that is being created, the write that carries it and the
database agree on which rooms there are (`ServerInv`): while the state writer works, every
stored room is known to the event loop, so an id above all of them and above every log is new.
Once the writer has failed a stored room may be unknown, but then no room is created before the
server is opened again.
-/

namespace Chatt.DirectMessages

open Lib List OrdMap Option

variable {room : DmRoom} {db : StateDb}

/-! ## Records -/

lemma length_encodeDm (room : DmRoom) : (encodeDm room).length = dmRoomBytes := by
  simp [encodeDm, dmRoomBytes]

lemma decodeDm_encodeDm (husers : room.userA ≠ room.userB) :
    decodeDm room.roomId (encodeDm room) = .ok room := by
  have hA : wordAt UInt64 (encodeDm room) 0 = room.userA := wordAt_putWord _ _
  have hB : wordAt UInt64 (encodeDm room) 8 = room.userB := by
    rw [encodeDm, wordAt_append (by simp)]
    simp
  have hcreated : wordAt UInt64 (encodeDm room) 16 = room.createdAtMs := by
    rw [encodeDm, wordAt_append (by simp), wordAt_append (by simp)]
    simp
  rw [decodeDm, if_neg (by rw [length_encodeDm]; exact not_not.mpr rfl)]
  simp only [hA, hB, hcreated, if_neg husers]

lemma encodeDm_inj {a b : DmRoom} (hid : a.roomId = b.roomId) (ha : a.userA ≠ a.userB)
    (hb : b.userA ≠ b.userB) (h : encodeDm a = encodeDm b) : a = b := by
  have hdecode := decodeDm_encodeDm ha
  rw [h, hid, decodeDm_encodeDm hb] at hdecode
  exact (Except.ok.inj hdecode).symm

/-- The database has the room. -/
def Stored (db : StateDb) (room : DmRoom) : Prop :=
  db.dmRooms.get? room.roomId = some (encodeDm room) ∧ room.userA ≠ room.userB

structure DbOk (db : StateDb) : Prop where
  next : db.nextRoomId ≤ u32Max
  rooms : ∀ id bytes, db.dmRooms.get? id = some bytes →
    ∃ room, room.roomId = id ∧ encodeDm room = bytes ∧ room.userA ≠ room.userB ∧
    firstDynamicRoomId ≤ id ∧ id < u32Max
  unique : ∀ a b, Stored db a → Stored db b → SamePair a b → a = b

lemma DbOk.bounds (h : DbOk db) (hroom : Stored db room) :
    firstDynamicRoomId ≤ room.roomId ∧ room.roomId < u32Max := by
  obtain ⟨_, -, -, -, hbounds⟩ := h.rooms _ _ hroom.1
  exact hbounds

lemma samePair_comm {a b : DmRoom} : SamePair a b ↔ SamePair b a := by
  simp only [SamePair, DmRoom.pairs, Bool.or_eq_true, Bool.and_eq_true, decide_eq_true_eq]
  constructor
  · rintro (⟨hA, hB⟩ | ⟨hA, hB⟩)
    · exact .inl ⟨hA.symm, hB.symm⟩
    · exact .inr ⟨hB.symm, hA.symm⟩
  · rintro (⟨hA, hB⟩ | ⟨hA, hB⟩)
    · exact .inl ⟨hA.symm, hB.symm⟩
    · exact .inr ⟨hB.symm, hA.symm⟩

lemma DbOk.initial : DbOk StateDb.initial where
  next := by decide
  rooms := by
    intro id bytes h
    cases h
  unique := by
    intro a b ha
    cases ha.1

/-- A room with a new id, of two users that have none. -/
structure Insertable (db : StateDb) (room : DmRoom) : Prop where
  newId : db.dmRooms.get? room.roomId = none
  bounds : firstDynamicRoomId ≤ room.roomId ∧ room.roomId < u32Max
  users : room.userA ≠ room.userB
  newPair : ∀ other, Stored db other → ¬ SamePair other room

/-- The database with the room in it. -/
def StateDb.withRoom (db : StateDb) (room : DmRoom) (next : ℕ) : StateDb :=
  ⟨max db.nextRoomId next, db.dmRooms.insert room.roomId (encodeDm room)⟩

lemma Insertable.stored_iff {other : DmRoom} {next : ℕ} (h : Insertable db room) :
    Stored (db.withRoom room next) other ↔ other = room ∨ Stored db other := by
  unfold Stored StateDb.withRoom
  rw [get?_insert]
  split_ifs with hid
  · constructor
    · rintro ⟨hbytes, hother⟩
      exact .inl (encodeDm_inj hid hother h.users (some.inj hbytes).symm)
    · rintro (rfl | ⟨hbytes, -⟩)
      · exact ⟨rfl, h.users⟩
      · rw [hid, h.newId] at hbytes
        cases hbytes
  · constructor
    · exact .inr
    · rintro (rfl | hstored)
      · exact absurd rfl hid
      · exact hstored

lemma DbOk.withRoom (hdb : DbOk db) {next : ℕ} (h : Insertable db room) (hnext : next ≤ u32Max) :
    DbOk (db.withRoom room next) := by
  constructor
  case next => exact max_le hdb.next hnext
  case rooms =>
    intro id bytes hbytes
    rw [StateDb.withRoom, get?_insert] at hbytes
    split_ifs at hbytes with hsame
    · exact ⟨room, hsame.symm, some.inj hbytes, h.users, hsame ▸ h.bounds⟩
    · exact hdb.rooms id bytes hbytes
  case unique =>
    intro a b ha hb hsame
    rcases h.stored_iff.mp ha with hnewA | holdA
    · rcases h.stored_iff.mp hb with hnewB | holdB
      · exact hnewA.trans hnewB.symm
      · rw [hnewA] at hsame
        exact absurd (samePair_comm.mp hsame) (h.newPair b holdB)
    · rcases h.stored_iff.mp hb with hnewB | holdB
      · rw [hnewB] at hsame
        exact absurd hsame (h.newPair a holdA)
      · exact hdb.unique a b holdA holdB hsame

/-! ## Writes -/

lemma persist_new {next : ℕ} (h : Insertable db room) :
    persist db [⟨room, next⟩] = .ok (db.withRoom room next) := by
  simp only [persist, foldlM_cons, persistInsert, h.newId]
  rfl

/-- The database after a write of the rooms: it has no others, and all of them if the write was
`done`. -/
structure Wrote (db db' : StateDb) (rooms : List DmRoom) (done : Prop) : Prop where
  ok : DbOk db'
  kept : ∀ room, Stored db room → Stored db' room
  only : ∀ room, Stored db' room → Stored db room ∨ room ∈ rooms
  all : done → ∀ room ∈ rooms, Stored db' room

lemma Wrote.nothing (hdb : DbOk db) {rooms : List DmRoom} {done : Prop} (h : done → rooms = []) :
    Wrote db db rooms done where
  ok := hdb
  kept := fun _ hroom => hroom
  only := fun _ hroom => .inl hroom
  all := by
    intro hdone room hroom
    rw [h hdone] at hroom
    cases hroom

lemma Wrote.withRoom (hdb : DbOk db) {next : ℕ} {done : Prop} (h : Insertable db room)
    (hnext : next ≤ u32Max) : Wrote db (db.withRoom room next) [room] done where
  ok := hdb.withRoom h hnext
  kept := fun _ hroom => h.stored_iff.mpr (.inr hroom)
  only := by
    intro other hother
    rcases h.stored_iff.mp hother with hnew | hold
    · exact .inr (mem_singleton.mpr hnew)
    · exact .inl hold
  all := fun _ other hother => h.stored_iff.mpr (.inl (mem_singleton.mp hother))

section

variable {s : Server} {outcome : Server.WriteOutcome} {db' : StateDb} {result : Except String Unit}

lemma runWrite_nil (h : s.runWrite [] outcome = (db', result)) : db' = s.db := by
  cases outcome with
  | committed =>
    cases h
    rfl
  | failed error landed =>
    cases landed <;> cases h <;> rfl

/-- The write of a new room stores it, or fails and may have stored it. -/
lemma runWrite_new {next : ℕ} (hdb : DbOk s.db) (hroom : Insertable s.db room)
      (hnext : next ≤ u32Max)
    (h : s.runWrite [⟨room, next⟩] outcome = (db', result)) :
    Wrote s.db db' [room] (result = .ok ()) := by
  have hpersist := @persist_new room s.db next hroom
  cases outcome with
  | committed =>
    rw [Server.runWrite, hpersist] at h
    cases h
    exact Wrote.withRoom hdb hroom hnext
  | failed error landed =>
    cases landed with
    | false =>
      cases h
      exact Wrote.nothing hdb (by simp)
    | true =>
      rw [Server.runWrite, hpersist] at h
      cases h
      exact Wrote.withRoom hdb hroom hnext

end

/-! ## Loading -/

lemma mapM_decodeDm {entries : List (RoomId × Bytes)}
      (h : ∀ entry ∈ entries, ∃ room, room.roomId = entry.1 ∧ encodeDm room = entry.2 ∧
      room.userA ≠ room.userB) :
    ∃ rooms, entries.mapM (fun entry => decodeDm entry.1 entry.2) = .ok rooms ∧
    rooms.map DmRoom.roomId = entries.map Prod.fst ∧
      ∀ room, room ∈ rooms ↔ (room.roomId, encodeDm room) ∈ entries ∧ room.userA ≠ room.userB := by
  induction entries with
  | nil => exact ⟨[], rfl, rfl, by simp⟩
  | cons entry rest ih =>
    obtain ⟨first, hid, hbytes, husers⟩ := h entry mem_cons_self
    obtain ⟨rooms, hrooms, hids, hmem⟩ := ih fun entry hentry => h entry (mem_cons_of_mem _ hentry)
    have hfirst : decodeDm entry.1 entry.2 = .ok first := by
      rw [← hid, ← hbytes]
      exact decodeDm_encodeDm husers
    refine ⟨first :: rooms, ?_, ?_, fun room => ?_⟩
    · rw [mapM_cons, hfirst, hrooms]
      rfl
    · rw [map_cons, map_cons, hids, hid]
    rw [mem_cons, mem_cons, hmem room, or_and_right]
    refine or_congr_left ?_
    constructor
    · rintro rfl
      exact ⟨Prod.ext hid hbytes, husers⟩
    · rintro ⟨rfl, hroom⟩
      exact encodeDm_inj hid.symm hroom husers hbytes.symm

/-- The rooms a server loads are the stored ones. -/
lemma DbOk.load (h : DbOk db) :
    ∃ rooms, db.load = .ok (db.nextRoomId, rooms) ∧ (rooms.map DmRoom.roomId).Nodup ∧
    ∀ room, room ∈ rooms ↔ Stored db room := by
  obtain ⟨rooms, hrooms, hids, hmem⟩ := @mapM_decodeDm db.dmRooms.entries (by
    intro entry hentry
    obtain ⟨room, hid, hbytes, husers, -⟩ := h.rooms entry.1 entry.2 (mem_entries.mp hentry)
    exact ⟨room, hid, hbytes, husers⟩)
  refine ⟨rooms, ?_, ?_, fun room => ?_⟩
  · have hnext := h.next
    simp only [StateDb.load, hrooms, gt_iff_lt, not_lt.mpr hnext, if_false]
    rfl
  · rw [hids]
    exact db.dmRooms.nodup_keys
  · rw [hmem room, mem_entries, Stored]

/-! ## The server against its database -/

namespace Server

/-- Submitted and not answered. -/
def inflight (s : Server) : List Submission := s.writing.getD [] ++ s.queued

def answer? : StateWriteEvent → Option (Except String Unit)
  | .dm _ result => some result
  | .fatal _ => none

/-- The answers the event loop has not heard of. -/
def answers (s : Server) : List (Except String Unit) := s.events.filterMap answer?

end Server

/-- The room that is being created. -/
structure PendingOk (s : Server) (pending : PendingDm) : Prop where
  id : firstDynamicRoomId ≤ pending.room.roomId ∧ pending.room.roomId < u32Max
  users : pending.room.userA ≠ pending.room.userB
  newPair : ∀ other ∈ s.dmRooms, ¬ SamePair other pending.room
  newId : pending.room.roomId ∉ s.dmRooms.map DmRoom.roomId
  noLog : pending.room.roomId ∉ s.logs

/-- Its write is under way, or was answered. -/
def PendingProgress (s : Server) (pending : PendingDm) : Prop :=
  (∃ next operationId, s.inflight = [⟨⟨pending.room, next⟩, operationId⟩] ∧ next ≤ u32Max ∧
      s.answers = [] ∧ s.db.dmRooms.get? pending.room.roomId = none) ∨
    s.inflight = [] ∧ ∃ result, s.answers = [result] ∧ (result = .ok () → Stored s.db pending.room)

def Progress (s : Server) : Prop :=
  (s.pendingDm = none → s.inflight = [] ∧ s.answers = []) ∧ ∀ pending, s.pendingDm = some pending →
    PendingProgress s pending

/-- While the state writer works. -/
structure LiveOk (s : Server) : Prop where
  running : s.stopped = false
  heard : ∀ event ∈ s.events, ∃ operationId, event = .dm operationId (.ok ())
  known : ∀ room, Stored s.db room → room ∈ s.assigned
  below : ∀ room ∈ s.assigned, room.roomId < s.nextRoomId
  dynamic : firstDynamicRoomId ≤ s.nextRoomId
  logs : ∀ id ∈ s.logs, firstDynamicRoomId ≤ id → id < s.nextRoomId ∨ s.nextRoomId = u32Max

structure ServerInv (s : Server) : Prop where
  db : DbOk s.db
  loaded : ∀ room ∈ s.dmRooms, Stored s.db room
  distinct : (s.dmRooms.map DmRoom.roomId).Nodup
  pending : ∀ pending, s.pendingDm = some pending → PendingOk s pending
  ended : s.terminalError ≠ none → s.writing = none ∧ s.queued = []
  live : s.terminalError = none → LiveOk s
  progress : s.stopped = false → Progress s

lemma Progress.of_eq {s s' : Server} (h : Progress s) (hpending : s'.pendingDm = s.pendingDm)
    (hinflight : s'.inflight = s.inflight) (hanswers : s'.answers = s.answers)
    (hdb : s'.db = s.db) : Progress s' := by
  simp only [Progress, PendingProgress, hpending, hinflight, hanswers, hdb]
  exact h

/-! ## Opening -/

lemma le_foldl_max {α : Type} (f : ℕ → α → ℕ) (hf : ∀ n a, n ≤ f n a) (l : List α) (n : ℕ) :
    n ≤ l.foldl f n :=
  foldlRecOn l f le_rfl fun m ih a _ => ih.trans (hf m a)

lemma le_foldl_of_mem {α : Type} {f : ℕ → α → ℕ} (hf : ∀ n a, n ≤ f n a) {l : List α} {a : α}
      (ha : a ∈ l) {bound : ℕ}
    (hbound : ∀ n, bound ≤ f n a) (n : ℕ) : bound ≤ l.foldl f n := by
  induction l generalizing n with
  | nil => cases ha
  | cons first rest ih =>
    rcases mem_cons.mp ha with rfl | hrest
    · exact (hbound n).trans (le_foldl_max f hf rest _)
    · exact ih hrest _

lemma foldl_max_le {α : Type} {f : ℕ → α → ℕ} {bound : ℕ} (hf : ∀ n a, n ≤ bound → f n a ≤ bound)
    (l : List α) {n : ℕ} (hn : n ≤ bound) : l.foldl f n ≤ bound :=
  foldlRecOn (motive := (· ≤ bound)) l f hn fun m ih a _ => hf m a ih

lemma nextRoomIdAboveExistingLogs_le (logs : List RoomId) :
    Server.nextRoomIdAboveExistingLogs logs ≤ u32Max := by
  apply foldl_max_le
  · intro n id hn
    split_ifs
    · exact max_le hn (min_le_right _ _)
    · exact hn
  · decide

/-- An id that is not above the log is at the end of the range. -/
lemma lt_nextRoomIdAboveExistingLogs {logs : List RoomId} {id : RoomId} (hid : id ∈ logs)
    (hdynamic : firstDynamicRoomId ≤ id) :
    saturatingSucc id ≤ Server.nextRoomIdAboveExistingLogs logs := by
  apply le_foldl_of_mem _ hid
  · intro n
    rw [if_pos hdynamic]
    exact le_max_right _ _
  · intro n id
    split_ifs
    · exact le_max_left _ _
    · exact le_refl n

/-- The store opens, with the rooms of the database. -/
lemma tryOpen_ok (configured : ConfiguredRooms) (hdb : DbOk db) (logs : List RoomId) :
    ∃ s, Server.tryOpen configured db logs = .ok s ∧ ServerInv s ∧ s.db = db ∧
    ∀ room, room ∈ s.dmRooms ↔ Stored db room := by
  obtain ⟨rooms, hload, hnodup, hmem⟩ := hdb.load
  have hgrows : ∀ (next : ℕ) (entry : DmRoom), next ≤ max next (saturatingSucc entry.roomId) :=
    fun next entry => le_max_left _ _
  let above := rooms.foldl (fun next entry => max next (saturatingSucc entry.roomId))
    (max db.nextRoomId firstDynamicRoomId)
  have hdynamic : firstDynamicRoomId ≤ above :=
    (le_max_right _ _).trans (le_foldl_max _ hgrows rooms _)
  have hrooms : ∀ room ∈ rooms, saturatingSucc room.roomId ≤ above := fun room hroom =>
      le_foldl_of_mem hgrows hroom (fun _ => le_max_right _ _) _
  have htop : above ≤ u32Max := by
    apply foldl_max_le (fun n a hn => max_le hn (min_le_right _ _))
    exact max_le hdb.next (by decide)
  refine ⟨_, by simp only [Server.tryOpen, hload]; rfl, ?_, rfl, hmem⟩
  constructor
  case db => exact hdb
  case loaded => exact fun room hroom => (hmem room).mp hroom
  case distinct => exact hnodup
  case pending => exact nofun
  case ended => exact fun _ => ⟨rfl, rfl⟩
  case live =>
    intro _
    constructor
    case running => rfl
    case heard => exact nofun
    case known =>
      intro room hroom
      exact mem_append_left _ ((hmem room).mpr hroom)
    case below =>
      intro room hroom
      have hroom : room ∈ rooms := by simpa [Server.assigned] using hroom
      have hsucc := hrooms room hroom
      have hbound := (hdb.bounds ((hmem room).mp hroom)).2
      rw [saturatingSucc, min_eq_left hbound] at hsucc
      exact lt_max_of_lt_left hsucc
    case dynamic => exact hdynamic.trans (le_max_left _ _)
    case logs =>
      intro id hid hlow
      have hsucc := lt_nextRoomIdAboveExistingLogs hid hlow
      have hlogs := nextRoomIdAboveExistingLogs_le logs
      rcases Nat.lt_or_ge id u32Max with hlt | hge
      · rw [saturatingSucc, min_eq_left hlt] at hsucc
        exact .inl (lt_max_of_lt_right hsucc)
      · rw [saturatingSucc, min_eq_right (by omega)] at hsucc
        exact .inr (le_antisymm (max_le htop hlogs) (le_max_of_le_right hsucc))
  case progress =>
    intro _
    exact ⟨fun _ => ⟨rfl, rfl⟩, nofun⟩

/-! ## Requests -/

section

variable {s : Server} {first second nowMs : UInt64} {outcome : Server.WriteOutcome}

/-- A request may create a room. -/
structure MayCreate (s : Server) (first second : UInt64) : Prop where
  users : first ≠ second
  newPair : s.dmRoomFor first second = none
  idle : s.pendingDm = none
  space : s.nextRoomId + 1 ≤ u32Max
  live : s.terminalError = none

lemma checkedSucc_eq_some {id next : ℕ} :
    checkedSucc id = some next ↔ next = id + 1 ∧ id + 1 ≤ u32Max := by
  unfold checkedSucc
  split_ifs with h <;> simp [h, eq_comm]

/-- What a request does to the server: nothing that matters, or it creates a room, waiting for
the state writer or not. -/
lemma beginOpenDm_cases (s : Server) (first second nowMs : UInt64) (outcome : Server.WriteOutcome) :
    (∃ n, (s.beginOpenDm first second nowMs outcome).1 = { s with nextDmOperation := n }) ∨
      MayCreate s first second ∧
        ((∃ operationId n, (s.beginOpenDm first second nowMs outcome).1 =
            { s with
              nextDmOperation := n
              nextRoomId := s.nextRoomId + 1
              pendingDm := some ⟨operationId, ⟨s.nextRoomId, first, second, nowMs⟩, s.nextRoomId⟩
              queued := s.queued ++
                [⟨⟨⟨s.nextRoomId, first, second, nowMs⟩, s.nextRoomId + 1⟩, operationId⟩] }) ∨
          ∃ db' result, s.runWrite
              [⟨⟨s.nextRoomId, first, second, nowMs⟩, s.nextRoomId + 1⟩] outcome = (db', result) ∧
            ((result = .ok () ∧ (s.beginOpenDm first second nowMs outcome).1 =
                { s with
                  db := db'
                  nextRoomId := s.nextRoomId + 1
                  dmRooms := s.dmRooms ++ [⟨s.nextRoomId, first, second, nowMs⟩] }) ∨
              ∃ error, result = .error error ∧
              (s.beginOpenDm first second nowMs outcome).1 =
                ({ s with db := db' } : Server).terminate error)) := by
  by_cases husers : first = second
  · exact .inl ⟨s.nextDmOperation, by simp only [Server.beginOpenDm, if_pos husers]⟩
  rcases eq_none_or_eq_some (s.dmRoomFor first second) with hpair | ⟨existing, hpair⟩
  case inr =>
    exact .inl ⟨s.nextDmOperation, by simp only [Server.beginOpenDm, if_neg husers, hpair]⟩
  rcases eq_none_or_eq_some s.pendingDm with hidle | ⟨pending, hpending⟩
  case inr =>
    refine .inl ⟨s.nextDmOperation, ?_⟩
    simp only [Server.beginOpenDm, if_neg husers, hpair, hpending]
    split_ifs <;> rw [← hpending]
  rcases eq_none_or_eq_some (checkedSucc s.nextRoomId) with hfull | ⟨next, hspace⟩
  case inl =>
    refine .inl ⟨s.nextDmOperation, ?_⟩
    simp only [Server.beginOpenDm, Server.openDm, if_neg husers, hpair, hidle, hfull]
    split_ifs <;> rw [← hidle]
  obtain ⟨rfl, hbound⟩ := checkedSucc_eq_some.mp hspace
  rcases eq_none_or_eq_some s.terminalError with hlive | ⟨error, hended⟩
  case inr =>
    have hgone : s.terminalError.isSome = true := by rw [hended]; rfl
    simp only [Server.beginOpenDm, Server.openDm, if_neg husers, hpair, hidle, hspace, if_pos hgone]
    split_ifs
    · exact .inl ⟨max ((s.nextDmOperation + 1) % 2 ^ 64) 1, by rw [← hidle]⟩
    · exact .inl ⟨s.nextDmOperation, by rw [← hidle]⟩
  refine .inr ⟨⟨husers, hpair, hidle, hbound, hlive⟩, ?_⟩
  have hworks : ¬ s.terminalError.isSome = true := by simp [hlive]
  by_cases hasync : s.asyncWrites = true
  · left
    simp only [Server.beginOpenDm, if_neg husers, hpair, hidle, hspace, if_neg hworks, hasync]
    exact ⟨_, _, rfl⟩
  right
  simp only [Server.beginOpenDm, Server.openDm, if_neg husers, hpair, hidle, hspace,
    if_neg hworks, hasync]
  cases hwrite : s.runWrite
      [⟨⟨s.nextRoomId, first, second, nowMs⟩, s.nextRoomId + 1⟩] outcome with
  | mk db' result =>
  refine ⟨db', result, rfl, ?_⟩
  cases result with
  | ok _ => exact .inl ⟨rfl, by simp⟩
  | error error => exact .inr ⟨error, rfl, by simp⟩

lemma not_samePair_of_dmRoomFor (h : s.dmRoomFor first second = none) {other : DmRoom}
    (hother : other ∈ s.dmRooms) (id : RoomId) : ¬ SamePair other ⟨id, first, second, nowMs⟩ := by
  rw [Server.dmRoomFor, map_eq_none_iff, find?_eq_none] at h
  exact h other hother

/-- The room a request creates is new. -/
lemma MayCreate.insertable (h : ServerInv s) (hmay : MayCreate s first second) :
    Insertable s.db ⟨s.nextRoomId, first, second, nowMs⟩ where
  newId := by
    have hlive := h.live hmay.live
    rw [eq_none_iff_forall_not_mem]
    intro bytes hbytes
    obtain ⟨room, hid, rfl, husers, -⟩ := h.db.rooms _ _ hbytes
    have hstored : Stored s.db room := ⟨by rw [hid]; exact hbytes, husers⟩
    have hlt := hlive.below room (hlive.known room hstored)
    exact absurd hid (Nat.ne_of_lt hlt)
  bounds := ⟨(h.live hmay.live).dynamic, hmay.space⟩
  users := hmay.users
  newPair := by
    intro other hother
    have hknown := (h.live hmay.live).known other hother
    rw [Server.assigned, hmay.idle, toList_none, map_nil, append_nil] at hknown
    exact not_samePair_of_dmRoomFor hmay.newPair hknown _

lemma MayCreate.pendingOk (h : ServerInv s) (hmay : MayCreate s first second) (operationId : ℕ) :
    PendingOk s ⟨operationId, ⟨s.nextRoomId, first, second, nowMs⟩, s.nextRoomId⟩ where
  id := ⟨(h.live hmay.live).dynamic, hmay.space⟩
  users := hmay.users
  newPair := fun _ hother => not_samePair_of_dmRoomFor hmay.newPair hother _
  newId := by
    intro hid
    obtain ⟨room, hroom, hsame⟩ := mem_map.mp hid
    have hlt := (h.live hmay.live).below room (mem_append_left _ hroom)
    exact absurd hsame (Nat.ne_of_lt hlt)
  noLog := by
    intro hlog
    rcases (h.live hmay.live).logs _ hlog (h.live hmay.live).dynamic with hlt | hend
    · exact absurd hlt (lt_irrefl _)
    · have hspace := hmay.space
      exact absurd hspace (by omega)

end

end Chatt.DirectMessages
