import Chatt.Analysis.RoomHistory
import Chatt.Interface.HistoryRun

/-!
# What the server owes for each request

`items` are the requests that the pending counters count, each with its session; `live` are the
requests that no complete chunk has ended yet.  Between the steps of the event loop both are the
outstanding requests; within a step they differ by the request in hand.
-/

namespace Chatt.RoomHistory

open Lib List OrdMap Option

/-! ## Sources

Of the chunks of a page, planned or read from disk, the last one and no other is marked complete.
A delivery that advances keeps this for the chunks it still has. -/

/-- The last one is set, and only that. -/
def LastOnly (flags : List Bool) : Prop := ∃ n, flags = List.replicate n false ++ [true]

lemma lastOnly_singleton : LastOnly [true] := ⟨0, rfl⟩

variable {flags : List Bool}

lemma lastOnly_cons {flag : Bool} :
    LastOnly (flag :: flags) ↔ (flag = true ∧ flags = []) ∨ (flag = false ∧ LastOnly flags) := by
  constructor
  · rintro ⟨n, heq⟩
    cases n with
    | zero =>
      rw [replicate_zero, nil_append, List.cons.injEq] at heq
      exact Or.inl heq
    | succ n =>
      rw [replicate_succ, cons_append, List.cons.injEq] at heq
      exact Or.inr ⟨heq.1, n, heq.2⟩
  · rintro (⟨rfl, rfl⟩ | ⟨rfl, n, rfl⟩)
    · exact lastOnly_singleton
    · exact ⟨n + 1, by rw [replicate_succ, cons_append]⟩

lemma LastOnly.ne_nil (h : LastOnly flags) : flags ≠ [] := by
  obtain ⟨n, rfl⟩ := h
  simp

/-- A flag is set exactly when it is the last one. -/
lemma LastOnly.eq_true_iff (h : LastOnly flags) {index : ℕ} {flag : Bool}
    (hget : flags[index]? = some flag) : flag = true ↔ index + 1 = flags.length := by
  induction flags generalizing index with
  | nil => cases hget
  | cons first rest ih =>
    rcases lastOnly_cons.mp h with ⟨rfl, rfl⟩ | ⟨rfl, hrest⟩
    · cases index with
      | zero => simpa using hget.symm
      | succ index => cases hget
    have hpos := length_pos_iff.mpr hrest.ne_nil
    cases index with
    | zero =>
      rw [getElem?_cons_zero, Option.some.injEq] at hget
      rw [← hget, length_cons]
      constructor
      · intro h
        cases h
      · omega
    | succ index =>
      rw [ih hrest hget, length_cons]
      omega

/-! ## Plans -/

section Plans

variable {ranges : List (List HistoryRecord)} {entries : List HistoryRecord}

lemma lastOnly_specsOf (atStart : Bool) (hne : ranges ≠ []) :
    LastOnly ((specsOf atStart ranges).map HistoryChunkSpec.complete) := by
  induction ranges with
  | nil => exact absurd rfl hne
  | cons range rest ih =>
    rw [specsOf_cons, map_cons, lastOnly_cons]
    cases rest with
    | nil => exact Or.inl ⟨rfl, rfl⟩
    | cons next others => exact Or.inr ⟨rfl, ih (cons_ne_nil _ _)⟩

lemma chunkRanges_ne_nil (targetBytes : ℕ) (current : List HistoryRecord) (bytes : ℕ) :
    chunkRanges targetBytes current bytes entries ≠ [] := by
  induction entries generalizing current bytes with
  | nil => exact cons_ne_nil _ _
  | cons entry rest ih =>
    unfold chunkRanges
    split
    · exact cons_ne_nil _ _
    · exact ih _ _

lemma lastOnly_chunkSpecs (entries : List HistoryRecord) (atStart : Bool) (targetBytes : ℕ) :
    LastOnly ((chunkSpecs entries atStart targetBytes).map HistoryChunkSpec.complete) := by
  unfold chunkSpecs
  split
  · exact lastOnly_singleton
  · apply lastOnly_specsOf
    rw [Ne, reverse_eq_nil_iff]
    exact chunkRanges_ne_nil _ _ _

def PlanOk (plan : HistoryFetchPlan) : Prop := LastOnly (plan.chunks.map HistoryChunkSpec.complete)

/-- An empty page is marked anew. -/
lemma PlanOk.remark {plan : HistoryFetchPlan} (h : PlanOk plan) (atStart : Bool) :
    PlanOk (if plan.messageCount = 0 then
        { plan with
          atStart
          chunks := plan.chunks.map fun spec => { spec with atStart } }
      else plan) := by
  split
  · unfold PlanOk
    rw [List.map_map]
    exact h
  · exact h

lemma planOk_historyFetchPlanBefore (room : Retention) (roomId : RoomId) (before : Option ℕ)
      (limit targetBytes : ℕ) :
    PlanOk (room.historyFetchPlanBefore roomId before limit targetBytes) := by
  unfold Retention.historyFetchPlanBefore
  cases room.resident with
  | none =>
    apply PlanOk.remark
    exact lastOnly_singleton
  | some history =>
    apply PlanOk.remark
    exact lastOnly_chunkSpecs _ _ _

end Plans

/-! ## Encoded chunks -/

variable {before : Option ℕ} {roomId : RoomId}

lemma writeChunk_complete {spec : HistoryChunkSpec} {records : List HistoryRecord}
      {chunk : HistoryChunk}
    (h : writeChunk roomId before spec records = .ok chunk) : spec.complete = chunk.complete := by
  unfold writeChunk at h
  split at h
  · cases h
    rfl
  · cases h

lemma encodeChunk_complete {entries : List HistoryRecord} {spec : HistoryChunkSpec}
      {chunk : HistoryChunk}
    (h : encodeChunk entries roomId before spec = .ok chunk) : spec.complete = chunk.complete := by
  unfold encodeChunk at h
  split at h
  · exact writeChunk_complete h
  simp only at h
  split at h
  · cases h
  · split at h
    · cases h
    · exact writeChunk_complete h

/-- The server's own encoder. -/
lemma keepsComplete_encodeHistoryChunk : KeepsComplete Retention.encodeHistoryChunk := by
  intro room plan index chunk h
  unfold Retention.encodeHistoryChunk at h
  split at h
  · cases h
  next spec hspec =>
  rw [hspec, Option.map_some, Option.some.injEq]
  split at h
  · exact writeChunk_complete h
  · split at h
    · cases h
    · exact encodeChunk_complete h

lemma mapM_encodeChunk_complete {entries : List HistoryRecord} {specs : List HistoryChunkSpec}
      {chunks : List HistoryChunk}
    (h : specs.mapM (encodeChunk entries roomId before) = .ok chunks) :
    chunks.map HistoryChunk.complete = specs.map HistoryChunkSpec.complete := by
  induction specs generalizing chunks with
  | nil =>
    cases h
    rfl
  | cons spec rest ih =>
    rw [mapM_cons] at h
    obtain ⟨chunk, hchunk, h⟩ := bind_eq_ok.mp h
    obtain ⟨others, hrest, h⟩ := bind_eq_ok.mp h
    cases h
    rw [map_cons, map_cons, ih hrest, encodeChunk_complete hchunk]

/-- The reader's reply, whatever it finds in the files. -/
lemma lastOnly_execute (request : HistoryReadRequest) :
    LastOnly ((execute request).map HistoryChunk.complete) := by
  unfold execute
  simp only
  split
  · rename_i payloads hpayloads
    rw [mapM_encodeChunk_complete hpayloads]
    exact lastOnly_chunkSpecs _ _ _
  · exact lastOnly_singleton

/-! ## A delivery -/

/-- What a delivery still has. -/
def SourceOk : HistoryDeliverySource → Prop
  | .resident plan nextChunk => nextChunk < plan.chunks.length ∧ PlanOk plan
  | .encoded payloads => LastOnly (payloads.map HistoryChunk.complete)

lemma sourceOk_plan {plan : HistoryFetchPlan} (h : PlanOk plan) : SourceOk (.resident plan 0) := by
  have hpos := length_pos_iff.mpr h.ne_nil
  rw [length_map] at hpos
  exact ⟨hpos, h⟩

section Advance

variable {encode : Encode} {room : Retention} {roomId : RoomId}
  {source source' : HistoryDeliverySource} {chunk : HistoryChunk}

lemma SourceOk.not_finished (hok : SourceOk source) :
    source.advance (encode room) roomId ≠ .finished := by
  cases source with
  | resident plan nextChunk =>
    simp only [HistoryDeliverySource.advance, if_neg (not_le.mpr hok.1)]
    split <;> simp
  | encoded payloads =>
    cases payloads with
    | nil => exact absurd rfl hok.ne_nil
    | cons chunk payloads => simp [HistoryDeliverySource.advance]

/-- A delivery is over with the complete chunk, and with no other. -/
lemma SourceOk.advance (hkeeps : KeepsComplete encode) (hok : SourceOk source)
      (hadvance : source.advance (encode room) roomId = .payload chunk source') :
    (source'.exhausted = chunk.complete) ∧ (chunk.complete = false → SourceOk source') ∧
    SourceOk (source'.pushBack chunk) := by
  cases source with
  | resident plan nextChunk =>
    obtain ⟨hnext, hplan⟩ := hok
    simp only [HistoryDeliverySource.advance, if_neg (not_le.mpr hnext)] at hadvance
    split at hadvance
    · rename_i encoded hencode
      cases hadvance
      have hflag := hkeeps _ _ _ _ hencode
      rw [← getElem?_map] at hflag
      have hlast := hplan.eq_true_iff hflag
      rw [length_map] at hlast
      refine ⟨?_, fun hmore => ⟨?_, hplan⟩, ?_, hplan⟩
      · unfold HistoryDeliverySource.exhausted
        rw [Bool.eq_iff_iff, hlast, decide_eq_true_eq]
        omega
      · rw [← Bool.not_eq_true, hlast] at hmore
        omega
      · omega
    · cases hadvance
    · cases hadvance
      refine ⟨decide_eq_true le_rfl, fun h => (by cases h), ?_, hplan⟩
      omega
  | encoded payloads =>
    cases payloads with
    | nil => exact absurd rfl hok.ne_nil
    | cons first rest =>
      cases hadvance
      refine ⟨?_, fun hmore => ?_, hok⟩
      · rcases lastOnly_cons.mp hok with ⟨hlast, hnil⟩ | ⟨hmore, hrest⟩
        · rw [hlast, HistoryDeliverySource.exhausted, map_eq_nil_iff.mp hnil]
          rfl
        · rw [hmore, HistoryDeliverySource.exhausted, isEmpty_eq_false_iff]
          rintro rfl
          exact hrest.ne_nil rfl
      · rcases lastOnly_cons.mp hok with ⟨hlast, -⟩ | ⟨-, hrest⟩
        · rw [hlast] at hmore
          cases hmore
        · exact hrest

end Advance

variable {nextSession : SessionId} {count : SessionId → ℕ → ℕ}

/-! ## Connections -/

/-- Connections and sessions belong to each other, and new ones get new names. -/
structure Connected (sessions : OrdMap SessionId Session) (clients : OrdMap Token SessionId)
    (nextSession : SessionId) (nextToken : Token) : Prop where
  client : ∀ {id session}, sessions.get? id = some session → clients.get? session.tcpToken = some id
  session : ∀ {token id}, clients.get? token = some id →
    ∃ session, sessions.get? id = some session ∧ session.tcpToken = token
  session_lt : ∀ {id session}, sessions.get? id = some session → id < nextSession
  client_lt : ∀ {token id}, clients.get? token = some id → token < nextToken

/-- The request was made on the connection, in the session. -/
structure Owned (sessions : OrdMap SessionId Session) (clients : OrdMap Token SessionId)
    (nextSession : SessionId) (owners : List Token) (request : ℕ) (id : SessionId)
    (token : Token) : Prop where
  owner : owners[request]? = some token
  session : ∀ {session}, sessions.get? id = some session → session.tcpToken = token
  client : ∀ {other}, clients.get? token = some other → other = id
  lt : id < nextSession

/-! ## Chunks -/

/-- The marks of the chunks queued for a request. -/
def flagsOf (sent : List (ℕ × HistoryChunk)) (request : ℕ) : List Bool :=
  (sent.filter fun entry => entry.1 = request).map fun entry => entry.2.complete

variable (sent : List (ℕ × HistoryChunk)) {live' : List ℕ}

lemma flagsOf_snoc_self (request : ℕ) (chunk : HistoryChunk) :
    flagsOf (sent ++ [(request, chunk)]) request = flagsOf sent request ++ [chunk.complete] := by
  simp [flagsOf]

lemma flagsOf_snoc_ne {request other : ℕ} (chunk : HistoryChunk) (hne : other ≠ request) :
    flagsOf (sent ++ [(request, chunk)]) other = flagsOf sent other := by
  simp [flagsOf, hne.symm]

/-- A request is under way without a complete chunk, or it is over: its last chunk is the
complete one, or a send failed, or the connection is gone. -/
structure Settled (clients : OrdMap Token SessionId) (owners : List Token)
    (sent : List (ℕ × HistoryChunk)) (failed live : List ℕ) : Prop where
  nodup : live.Nodup
  lt : ∀ {request}, request ∈ live → request < owners.length
  sent_lt : ∀ entry ∈ sent, entry.1 < owners.length
  under_way : ∀ {request}, request ∈ live → ∃ n, flagsOf sent request = List.replicate n false
  shape : ∀ request, (∃ n, flagsOf sent request = List.replicate n false) ∨
    LastOnly (flagsOf sent request)
  ended : ∀ {request token}, owners[request]? = some token → request ∉ live →
    LastOnly (flagsOf sent request) ∨ request ∈ failed ∨ clients.get? token = none

namespace Settled

variable {clients : OrdMap Token SessionId} {owners : List Token} {sent : List (ℕ × HistoryChunk)}
  {failed live : List ℕ} {request : ℕ} {chunk : HistoryChunk}

lemma perm (h : Settled clients owners sent failed live) (hperm : live.Perm live') :
    Settled clients owners sent failed live' where
  nodup := hperm.nodup_iff.mp h.nodup
  lt hmem := h.lt (hperm.mem_iff.mpr hmem)
  sent_lt := h.sent_lt
  under_way hmem := h.under_way (hperm.mem_iff.mpr hmem)
  shape := h.shape
  ended howner hnot := h.ended howner fun hmem => hnot (hperm.mem_iff.mp hmem)

/-- A chunk is queued: the last one ends its request. -/
lemma snoc (h : Settled clients owners sent failed (request :: live))
      (hsub : live'.Sublist (request :: live))
    (hkept : ∀ other ≠ request, other ∈ request :: live → other ∈ live')
    (hmore : request ∈ live' ↔ chunk.complete = false) :
    Settled clients owners (sent ++ [(request, chunk)]) failed live' := by
  obtain ⟨n, hflags⟩ := h.under_way mem_cons_self
  have hself : flagsOf (sent ++ [(request, chunk)]) request = List.replicate n false ++
      [chunk.complete] := by
    rw [flagsOf_snoc_self, hflags]
  have hunder : chunk.complete = false → flagsOf (sent ++ [(request, chunk)]) request =
      List.replicate (n + 1) false := by
    intro hfalse
    rw [hself, hfalse, replicate_succ']
  constructor
  case nodup => exact h.nodup.sublist hsub
  case lt => exact fun hmem => h.lt (hsub.subset hmem)
  case sent_lt =>
    exact forall_mem_append.mpr ⟨h.sent_lt, forall_mem_singleton.mpr (h.lt mem_cons_self)⟩
  case under_way =>
    intro other hother
    by_cases heq : other = request
    · subst heq
      exact ⟨n + 1, hunder (hmore.mp hother)⟩
    · rw [flagsOf_snoc_ne _ _ heq]
      exact h.under_way (hsub.subset hother)
  case shape =>
    intro other
    by_cases heq : other = request
    · subst heq
      cases hchunk : chunk.complete
      · exact Or.inl ⟨n + 1, hunder hchunk⟩
      · exact Or.inr ⟨n, hchunk ▸ hself⟩
    · rw [flagsOf_snoc_ne _ _ heq]
      exact h.shape other
  case ended =>
    intro other token howner hnot
    by_cases heq : other = request
    · subst heq
      have hchunk := Bool.not_eq_false _ ▸ mt hmore.mpr hnot
      exact Or.inl ⟨n, hchunk ▸ hself⟩
    · rw [flagsOf_snoc_ne _ _ heq]
      exact h.ended howner fun hmem => hnot (hkept other heq hmem)

/-- A chunk that is not the last one. -/
lemma queue (h : Settled clients owners sent failed (request :: live))
      (hmore : chunk.complete = false) :
    Settled clients owners (sent ++ [(request, chunk)]) failed (request :: live) :=
  h.snoc (.refl _) (fun _ _ hmem => hmem) (by simp [hmore])

variable {clients' : OrdMap Token SessionId}

/-- The request is over for a reason. -/
lemma close (h : Settled clients owners sent failed (request :: live)) {failed' : List ℕ}
    (hclients : ∀ {token}, clients.get? token = none → clients'.get? token = none)
    (hfailed : failed ⊆ failed')
    (hover : request ∈ failed' ∨ ∀ {token}, owners[request]? = some token →
      clients'.get? token = none) : Settled clients' owners sent failed' live where
  nodup := (nodup_cons.mp h.nodup).2
  lt hmem := h.lt (mem_cons_of_mem _ hmem)
  sent_lt := h.sent_lt
  under_way hmem := h.under_way (mem_cons_of_mem _ hmem)
  shape := h.shape
  ended := by
    intro other token howner hnot
    by_cases heq : other = request
    · subst heq
      rcases hover with hfail | hgone
      · exact Or.inr (Or.inl hfail)
      · exact Or.inr (Or.inr (hgone howner))
    · have hother : other ∉ request :: live := by
        rw [mem_cons]
        exact fun hmem => hmem.elim heq hnot
      rcases h.ended howner hother with hlast | hfail | hgone
      · exact Or.inl hlast
      · exact Or.inr (Or.inl (hfailed hfail))
      · exact Or.inr (Or.inr (hclients hgone))

/-- The last chunk. -/
lemma finish (h : Settled clients owners sent failed (request :: live))
      (hlast : chunk.complete = true) :
    Settled clients owners (sent ++ [(request, chunk)]) failed live := by
  have hnodup := nodup_cons.mp h.nodup
  refine h.snoc (sublist_cons_self _ _) ?_ (by simp [hlast, hnodup.1])
  exact fun other hne hmem => (mem_cons.mp hmem).resolve_left hne

/-- Connections that go away end their requests. -/
lemma mono (h : Settled clients owners sent failed live)
    (hclients : ∀ {token}, token ∈ owners → clients.get? token = none →
      clients'.get? token = none) : Settled clients' owners sent failed live := by
  refine { h with ended := ?_ }
  intro other token howner hnot
  rcases h.ended howner hnot with hlast | hfail | hgone
  · exact Or.inl hlast
  · exact Or.inr (Or.inl hfail)
  · exact Or.inr (Or.inr (hclients (mem_of_getElem? howner) hgone))

/-- A request that is new. -/
lemma new (h : Settled clients owners sent failed live) (token : Token) :
    Settled clients (owners ++ [token]) sent failed (owners.length :: live) := by
  have hnone : flagsOf sent owners.length = List.replicate 0 false := by
    rw [flagsOf, replicate_zero, map_eq_nil_iff, filter_eq_nil_iff]
    intro entry hentry
    have hlt := h.sent_lt entry hentry
    simp only [decide_eq_true_eq]
    omega
  have hlength : (owners ++ [token]).length = owners.length + 1 := length_append
  constructor
  case nodup =>
    rw [nodup_cons]
    exact ⟨fun hmem => absurd (h.lt hmem) (lt_irrefl _), h.nodup⟩
  case lt =>
    intro other hother
    rcases mem_cons.mp hother with rfl | hother
    · omega
    · have := h.lt hother
      omega
  case sent_lt =>
    intro entry hentry
    have := h.sent_lt entry hentry
    omega
  case under_way =>
    intro other hother
    rcases mem_cons.mp hother with rfl | hother
    · exact ⟨0, hnone⟩
    · exact h.under_way hother
  case shape => exact h.shape
  case ended =>
    intro other token' howner hnot
    rw [mem_cons, not_or] at hnot
    have hlt := (List.getElem?_eq_some_iff.mp howner).1
    rw [getElem?_append_left (by omega)] at howner
    exact h.ended howner hnot.2

end Settled

/-! ## The invariant -/

structure DeliveryInv (s : Server) (items : List (ℕ × SessionId)) (live : List ℕ) : Prop where
  connected : Connected s.sessions s.clients s.nextSession s.nextToken
  owners_lt : ∀ token ∈ s.owners, token < s.nextToken
  counter : s.pendingHistoryFetches = items.length
  counted : ∀ {id session}, s.sessions.get? id = some session →
    session.pendingDiskHistoryFetches = items.countP fun item => item.2 = id
  owned : ∀ item ∈ items, ∃ token, Owned s.sessions s.clients s.nextSession s.owners
    item.1 item.2 token
  settled : Settled s.clients s.owners s.sent s.failed live

section Ledger

variable {s : Server} {items : List (ℕ × SessionId)} {live : List ℕ} {request : ℕ} {id : SessionId}
  {token : Token} {chunk : HistoryChunk}

lemma DeliveryInv.perm (h : DeliveryInv s items live) {items' : List (ℕ × SessionId)}
      (hitems : items.Perm items') (hlive : live.Perm live') :
    DeliveryInv s items' live' where
  connected := h.connected
  owners_lt := h.owners_lt
  counter := h.counter.trans hitems.length_eq
  counted hsession := (h.counted hsession).trans (hitems.countP_eq _)
  owned item hitem := h.owned item (hitems.mem_iff.mpr hitem)
  settled := h.settled.perm hlive

/-! ### The counters -/

/-- The counters of the sessions change, and nothing else about them. -/
def Recounted (s t : Server) (count : SessionId → ℕ → ℕ) : Prop :=
  ∀ id, t.sessions.get? id = (s.sessions.get? id).map fun session =>
    { session with pendingDiskHistoryFetches := count id session.pendingDiskHistoryFetches }

variable {t : Server}

lemma Recounted.exists (h : Recounted s t count) {session : Session}
      (hsession : t.sessions.get? id = some session) :
    ∃ old, s.sessions.get? id = some old ∧ session.tcpToken = old.tcpToken ∧
    session.pendingDiskHistoryFetches = count id old.pendingDiskHistoryFetches := by
  rw [h id] at hsession
  obtain ⟨old, hold, rfl⟩ := map_eq_some_iff.mp hsession
  exact ⟨old, hold, rfl, rfl⟩

variable {clients : OrdMap Token SessionId}

lemma Recounted.connected (h : Recounted s t count) {nextToken : Token}
      (hconnected : Connected s.sessions clients nextSession nextToken) :
    Connected t.sessions clients nextSession nextToken where
  client hsession := by
    obtain ⟨old, hold, htoken, -⟩ := h.exists hsession
    rw [htoken]
    exact hconnected.client hold
  session := by
    intro _ id hclient
    obtain ⟨old, hold, htoken⟩ := hconnected.session hclient
    have hsession := h id
    rw [hold, map_some] at hsession
    exact ⟨_, hsession, htoken⟩
  session_lt hsession := by
    obtain ⟨old, hold, -⟩ := h.exists hsession
    exact hconnected.session_lt hold
  client_lt := hconnected.client_lt

lemma Recounted.owned (h : Recounted s t count) {owners : List Token}
      (howned : Owned s.sessions clients nextSession owners request id token) :
    Owned t.sessions clients nextSession owners request id token := by
  refine { howned with session := ?_ }
  intro session hsession
  obtain ⟨old, hold, htoken, -⟩ := h.exists hsession
  rw [htoken]
  exact howned.session hold

/-- The counter of one session changes, if the session is there. -/
lemma recounted_of_insert (f : ℕ → ℕ)
    (h : t.sessions = (s.sessions.get? id).elim s.sessions fun session => s.sessions.insert id
      { session with pendingDiskHistoryFetches := f session.pendingDiskHistoryFetches }) :
      Recounted s t fun other n => if other = id then f n else n := by
  intro other
  rw [h]
  by_cases heq : other = id
  · subst heq
    cases hsession : s.sessions.get? other <;> simp [hsession]
  · cases s.sessions.get? id <;> simp [heq, get?_insert]

lemma recounted_addPending (s : Server) (id : SessionId) :
    Recounted s (s.addPending id) fun other n => if other = id then n + 1 else n := by
  apply recounted_of_insert (· + 1)
  cases h : s.sessions.get? id <;> simp [Server.addPending, h]

lemma recounted_finishHistoryDelivery (s : Server) (id : SessionId) :
    Recounted s (s.finishHistoryDelivery id) fun other n => if other = id then n - 1 else n := by
  apply recounted_of_insert (· - 1)
  cases h : s.sessions.get? id <;> simp [Server.finishHistoryDelivery, h]

/-- A request is counted. -/
lemma DeliveryInv.addPending (h : DeliveryInv s items live)
      (howned : Owned s.sessions s.clients s.nextSession s.owners request id token) :
    DeliveryInv (s.addPending id) ((request, id) :: items) live := by
  have hrecounted := recounted_addPending s id
  constructor
  case connected => exact hrecounted.connected h.connected
  case owners_lt => exact h.owners_lt
  case counter =>
    show s.pendingHistoryFetches + 1 = _
    rw [h.counter, length_cons]
  case counted =>
    intro other session hsession
    obtain ⟨old, hold, -, hcount⟩ := hrecounted.exists hsession
    rw [hcount, h.counted hold, countP_cons]
    by_cases heq : other = id
    · simp [heq]
    · simp [heq, Ne.symm heq]
  case owned =>
    intro item hitem
    rcases mem_cons.mp hitem with rfl | hitem
    · exact ⟨token, hrecounted.owned howned⟩
    · obtain ⟨owner, hitem⟩ := h.owned item hitem
      exact ⟨owner, hrecounted.owned hitem⟩
  case settled => exact h.settled

/-- A request is no longer counted. -/
lemma DeliveryInv.finishHistoryDelivery (h : DeliveryInv s ((request, id) :: items) live) :
    DeliveryInv (s.finishHistoryDelivery id) items live := by
  have hrecounted := recounted_finishHistoryDelivery s id
  constructor
  case connected => exact hrecounted.connected h.connected
  case owners_lt => exact h.owners_lt
  case counter =>
    show s.pendingHistoryFetches - 1 = _
    rw [h.counter, length_cons, Nat.add_sub_cancel]
  case counted =>
    intro other session hsession
    obtain ⟨old, hold, -, hcount⟩ := hrecounted.exists hsession
    rw [hcount, h.counted hold, countP_cons]
    by_cases heq : other = id
    · simp [heq]
    · simp [heq, Ne.symm heq]
  case owned =>
    intro item hitem
    obtain ⟨owner, hitem⟩ := h.owned item (mem_cons_of_mem _ hitem)
    exact ⟨owner, hrecounted.owned hitem⟩
  case settled => exact h.settled

/-! ### Connections come and go -/

lemma DeliveryInv.connect (h : DeliveryInv s items live) : DeliveryInv s.connect items live := by
  constructor
  case connected =>
    constructor
    case client =>
      intro other session hsession
      rcases get?_insert_eq_some.mp hsession with ⟨rfl, rfl⟩ | ⟨-, hsession⟩
      · exact get?_insert_self _ _ _
      · have hclient := h.connected.client hsession
        exact (get?_insert_ne _ _ (h.connected.client_lt hclient).ne).trans hclient
    case session =>
      intro other client hclient
      rcases get?_insert_eq_some.mp hclient with ⟨rfl, rfl⟩ | ⟨-, hclient⟩
      · exact ⟨_, get?_insert_self _ _ _, rfl⟩
      · obtain ⟨session, hsession, htoken⟩ := h.connected.session hclient
        have hne := (h.connected.session_lt hsession).ne
        exact ⟨session, (get?_insert_ne _ _ hne).trans hsession, htoken⟩
    case session_lt =>
      intro other session hsession
      rcases get?_insert_eq_some.mp hsession with ⟨rfl, -⟩ | ⟨-, hsession⟩
      · exact Nat.lt_succ_self _
      · exact Nat.lt_succ_of_lt (h.connected.session_lt hsession)
    case client_lt =>
      intro other client hclient
      rcases get?_insert_eq_some.mp hclient with ⟨rfl, -⟩ | ⟨-, hclient⟩
      · exact Nat.lt_succ_self _
      · exact Nat.lt_succ_of_lt (h.connected.client_lt hclient)
  case owners_lt => exact fun token hmem => Nat.lt_succ_of_lt (h.owners_lt token hmem)
  case counter => exact h.counter
  case counted =>
    intro other session hsession
    rcases get?_insert_eq_some.mp hsession with ⟨rfl, rfl⟩ | ⟨-, hsession⟩
    · -- no request was made in the new session
      symm
      rw [countP_eq_zero]
      intro item hitem
      obtain ⟨owner, howned⟩ := h.owned item hitem
      simpa using howned.lt.ne
    · exact h.counted hsession
  case owned =>
    intro item hitem
    obtain ⟨owner, howned⟩ := h.owned item hitem
    have hlt := h.owners_lt owner (mem_of_getElem? howned.owner)
    refine ⟨owner, howned.owner, ?_, ?_, Nat.lt_succ_of_lt howned.lt⟩
    · intro session hsession
      exact howned.session ((get?_insert_ne _ _ howned.lt.ne).symm.trans hsession)
    · intro other hclient
      exact howned.client ((get?_insert_ne _ _ hlt.ne).symm.trans hclient)
  case settled =>
    apply h.settled.mono
    intro owner howner hgone
    exact (get?_insert_ne _ _ (h.owners_lt owner howner).ne).trans hgone

variable {sessions : OrdMap SessionId Session}

lemma Owned.erase {owners : List Token}
      (h : Owned sessions clients nextSession owners request id token) (other : SessionId)
    (gone : Token) :
    Owned (sessions.erase other) (clients.erase gone) nextSession owners request id token where
  owner := h.owner
  session hsession := h.session (get?_erase_eq_some.mp hsession).2
  client hclient := h.client (get?_erase_eq_some.mp hclient).2
  lt := h.lt

lemma Connected.erase {nextToken : Token} (h : Connected sessions clients nextSession nextToken)
      (hclient : clients.get? token = some id) :
    Connected (sessions.erase id) (clients.erase token) nextSession nextToken where
  client := by
    intro other session hsession
    obtain ⟨hne, hsession⟩ := get?_erase_eq_some.mp hsession
    refine get?_erase_eq_some.mpr ⟨?_, h.client hsession⟩
    intro heq
    have hother := h.client hsession
    rw [heq, hclient] at hother
    exact hne (some.inj hother).symm
  session := by
    intro other client hother
    obtain ⟨hne, hother⟩ := get?_erase_eq_some.mp hother
    obtain ⟨session, hsession, htoken⟩ := h.session hother
    refine ⟨session, get?_erase_eq_some.mpr ⟨?_, hsession⟩, htoken⟩
    rintro rfl
    obtain ⟨same, hsame, hsameToken⟩ := h.session hclient
    rw [hsession] at hsame
    cases hsame
    exact hne (htoken.symm.trans hsameToken)
  session_lt hsession := h.session_lt (get?_erase_eq_some.mp hsession).2
  client_lt hother := h.client_lt (get?_erase_eq_some.mp hother).2

/-- A connection goes away with its session. -/
lemma DeliveryInv.erase (h : DeliveryInv s items live) (hclient : s.clients.get? token = some id) :
    DeliveryInv { s with clients := s.clients.erase token, sessions := s.sessions.erase id }
      items live where
  connected := h.connected.erase hclient
  owners_lt := h.owners_lt
  counter := h.counter
  counted hsession := h.counted (get?_erase_eq_some.mp hsession).2
  owned item hitem := by
    obtain ⟨owner, howned⟩ := h.owned item hitem
    exact ⟨owner, howned.erase _ _⟩
  settled := by
    apply h.settled.mono
    intro owner _ hgone
    rw [get?_erase, hgone, ite_self]

/-! ### A chunk is queued -/

/-- The three things that can come of a chunk. -/
lemma queueChunk_cases (send : Send) (s : Server) (token : Token) (request : ℕ)
      (chunk : HistoryChunk) :
    s.queueChunk send token request chunk =
      ({ s with sent := s.sent ++ [(request, chunk)] }, true) ∨
    s.queueChunk send token request chunk = ({ s with failed := request :: s.failed }, false) ∨
    ∃ id, s.clients.get? token = some id ∧ s.queueChunk send token request chunk =
      ({ s with
          clients := s.clients.erase token
          sessions := s.sessions.erase id
          failed := request :: s.failed }, false) := by
  unfold Server.queueChunk
  split
  · rename_i hcontains
    obtain ⟨id, hclient⟩ := contains_iff.mp hcontains
    split
    · exact Or.inl rfl
    · exact Or.inr (Or.inl rfl)
    · refine Or.inr (Or.inr ⟨id, hclient, ?_⟩)
      simp only [Server.disconnect, hclient]
  · exact Or.inr (Or.inl rfl)

section

variable (h : DeliveryInv s items (request :: live))

include h

lemma DeliveryInv.queue (hmore : chunk.complete = false) :
    DeliveryInv { s with sent := s.sent ++ [(request, chunk)] } items (request :: live) :=
  { h with settled := h.settled.queue hmore }

lemma DeliveryInv.finish (hlast : chunk.complete = true) :
    DeliveryInv { s with sent := s.sent ++ [(request, chunk)] } items live :=
  { h with settled := h.settled.finish hlast }

lemma DeliveryInv.fail : DeliveryInv { s with failed := request :: s.failed } items live :=
  { h with settled := h.settled.close id (subset_cons_self _ _) (Or.inl mem_cons_self) }

/-- The connection of the request is gone. -/
lemma DeliveryInv.drop (howner : s.owners[request]? = some token)
    (hgone : s.clients.get? token = none) : DeliveryInv s items live := by
  refine { h with settled := h.settled.close id (List.Subset.refl _) (Or.inr ?_) }
  intro other hother
  rw [howner] at hother
  cases hother
  exact hgone

end

/-- A request is new. -/
lemma DeliveryInv.new (h : DeliveryInv s items live) {session : Session}
      (hsession : s.sessions.get? id = some session) :
    DeliveryInv { s with owners := s.owners ++ [session.tcpToken] } items
        (s.owners.length :: live) ∧
      Owned s.sessions s.clients s.nextSession (s.owners ++ [session.tcpToken]) s.owners.length id
        session.tcpToken := by
  have hclient := h.connected.client hsession
  constructor
  · refine { h with owners_lt := ?_, owned := ?_, settled := h.settled.new _ }
    · exact forall_mem_append.mpr ⟨h.owners_lt,
        forall_mem_singleton.mpr (h.connected.client_lt hclient)⟩
    · intro item hitem
      obtain ⟨owner, howned⟩ := h.owned item hitem
      refine ⟨owner, { howned with owner := ?_ }⟩
      rw [getElem?_append_left (List.getElem?_eq_some_iff.mp howned.owner).1]
      exact howned.owner
  · constructor
    case owner => exact getElem?_concat_length
    case session =>
      intro other hother
      rw [hsession] at hother
      cases hother
      rfl
    case client =>
      intro other hother
      rw [hclient] at hother
      exact (some.inj hother).symm
    case lt => exact h.connected.session_lt hsession

end Ledger

end Chatt.RoomHistory
