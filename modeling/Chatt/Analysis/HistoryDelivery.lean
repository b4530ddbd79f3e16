import Chatt.Analysis.HistoryLedger

/-!
# The server keeps its books

Every step of the server keeps the invariant: the counters count the outstanding requests, and
each request that is not outstanding has had its last chunk, unless a send failed or the
connection is gone.
-/

namespace Chatt.RoomHistory

open Lib List OrdMap

/-! ## One round of the loop -/

/-- What one round of `process_history_deliveries` does with the first delivery. -/
inductive Round (encode : Encode) (send : Send) (s : Server) : Server → Prop where
  /-- the connection is gone -/
  | gone {delivery : HistoryDelivery} {deliveries : List HistoryDelivery}
      (hcons : s.deliveries = delivery :: deliveries)
      (hgone : s.clients.contains delivery.token = false) :
      Round encode send s ({ s with deliveries }.finishHistoryDelivery delivery.sessionId)
  | finished {delivery : HistoryDelivery} {deliveries : List HistoryDelivery}
      (hcons : s.deliveries = delivery :: deliveries)
      (hlive : s.clients.contains delivery.token = true)
      (hadvance : delivery.source.advance (encode (s.rooms delivery.roomId)) delivery.roomId =
        .finished) :
      Round encode send s ({ s with deliveries }.finishHistoryDelivery delivery.sessionId)
  | refetched {delivery : HistoryDelivery} {deliveries : List HistoryDelivery}
      {before : Option ℕ} {limit : ℕ} (hcons : s.deliveries = delivery :: deliveries)
      (hlive : s.clients.contains delivery.token = true)
      (hadvance : delivery.source.advance (encode (s.rooms delivery.roomId)) delivery.roomId =
        .trimmed before limit) :
      Round encode send s (({ s with deliveries }.finishHistoryDelivery delivery.sessionId).refetch
        send delivery before limit)
  | delivered {delivery : HistoryDelivery} {deliveries : List HistoryDelivery}
      {chunk : HistoryChunk} {source : HistoryDeliverySource}
      (hcons : s.deliveries = delivery :: deliveries)
      (hlive : s.clients.contains delivery.token = true)
      (hadvance : delivery.source.advance (encode (s.rooms delivery.roomId)) delivery.roomId =
        .payload chunk source) :
      Round encode send s ({ s with deliveries }.deliver send delivery chunk source)

/-- The first delivery stays in front, its chunk over the budget. -/
inductive Kept (encode : Encode) (s : Server) : Server → Prop where
  | kept {delivery : HistoryDelivery} {deliveries : List HistoryDelivery}
      {chunk : HistoryChunk} {source : HistoryDeliverySource}
      (hcons : s.deliveries = delivery :: deliveries)
      (hadvance : delivery.source.advance (encode (s.rooms delivery.roomId)) delivery.roomId =
        .payload chunk source) :
      Kept encode s { s with
        deliveries := { delivery with source := source.pushBack chunk } :: deliveries }

section Loop

variable {encode : Encode} {send : Send} {s : Server}

/-- The queues of deliveries and of the reader thread. -/
def SameQueues (s t : Server) : Prop :=
  t.deliveries = s.deliveries ∧ t.readerQueue = s.readerQueue ∧ t.reading = s.reading ∧
    t.replies = s.replies

lemma sameQueues_queueChunk (send : Send) (s : Server) (token : Token) (request : ℕ)
    (chunk : HistoryChunk) : SameQueues s (s.queueChunk send token request chunk).1 := by
  rcases queueChunk_cases send s token request chunk with heq | heq | ⟨id, -, heq⟩
  · rw [heq]
    exact ⟨rfl, rfl, rfl, rfl⟩
  · rw [heq]
    exact ⟨rfl, rfl, rfl, rfl⟩
  · rw [heq]
    exact ⟨rfl, rfl, rfl, rfl⟩

/-- A request is asked for again: the reader thread may have one more. -/
lemma refetch_queues (send : Send) (s : Server) (delivery : HistoryDelivery)
      (before : Option ℕ) (limit : ℕ) :
    (s.refetch send delivery before limit).deliveries = s.deliveries ∧
    (s.refetch send delivery before limit).reading = s.reading ∧
    (s.refetch send delivery before limit).replies = s.replies := by
  have hempty :
      ∀ before, SameQueues s (s.sendEmptyHistoryChunk send delivery.token delivery.request
      delivery.roomId before) :=
    fun _ => sameQueues_queueChunk _ _ _ _ _
  unfold Server.refetch Server.enqueueDiskHistoryFetch
  split
  · split
    · exact ⟨rfl, rfl, rfl⟩
    split
    · exact ⟨(hempty _).1, (hempty _).2.2⟩
    · split
      · exact ⟨(hempty _).1, (hempty _).2.2⟩
      · exact ⟨rfl, rfl, rfl⟩
  · exact ⟨(hempty _).1, (hempty _).2.2⟩

/-- A chunk is sent: its delivery may come again. -/
lemma deliver_queues (send : Send) (s : Server) (delivery : HistoryDelivery) (chunk : HistoryChunk)
      (source : HistoryDeliverySource) :
    ((s.deliver send delivery chunk source).deliveries = s.deliveries ∨
      (s.deliver send delivery chunk source).deliveries = s.deliveries ++
        [{ delivery with source }]) ∧
    (s.deliver send delivery chunk source).readerQueue = s.readerQueue ∧
    (s.deliver send delivery chunk source).reading = s.reading ∧
    (s.deliver send delivery chunk source).replies = s.replies := by
  obtain ⟨hdeliveries, hqueues⟩ :=
    sameQueues_queueChunk send s delivery.token delivery.request chunk
  unfold Server.deliver
  simp only
  split
  · exact ⟨Or.inl hdeliveries, hqueues⟩
  · exact ⟨Or.inr (by rw [hdeliveries]), hqueues⟩

/-- What the loop does: it stops, or a round comes first, or a chunk is over the budget. -/
lemma processLoop_cases (encode : Encode) (send : Send) (bytes chunks : ℕ) (s : Server) :
    ((s.deliveries = [] ∨ historyDeliveryBudgetChunks ≤ chunks) ∧
      ∀ fuel, Server.processLoop encode send (fuel + 1) bytes chunks s = s) ∨
    (∃ t, Round encode send s t ∧
      ((∀ fuel, Server.processLoop encode send (fuel + 1) bytes chunks s = t) ∨
        ∃ bytes' chunks', t.deliveries.length + (historyDeliveryBudgetChunks - chunks') <
          s.deliveries.length + (historyDeliveryBudgetChunks - chunks) ∧
          ∀ fuel, Server.processLoop encode send (fuel + 1) bytes chunks s =
            Server.processLoop encode send fuel bytes' chunks' t)) ∨
    (0 < chunks ∧ ∃ t, Kept encode s t ∧ ∀ fuel,
      Server.processLoop encode send (fuel + 1) bytes chunks s = t) := by
  by_cases hbudget : chunks < historyDeliveryBudgetChunks
  · cases hcons : s.deliveries with
    | nil =>
      refine Or.inl ⟨Or.inl rfl, fun fuel => ?_⟩
      simp only [Server.processLoop, if_pos hbudget, hcons]
    | cons delivery deliveries =>
      cases hlive : s.clients.contains delivery.token with
      | false =>
        refine Or.inr (Or.inl ⟨_, Round.gone hcons hlive, Or.inr ⟨bytes, chunks, ?_, ?_⟩⟩)
        · show deliveries.length + _ < _
          rw [length_cons]
          omega
        · intro fuel
          simp [Server.processLoop, hbudget, hcons, hlive]
      | true =>
        cases hadvance : delivery.source.advance (encode (s.rooms delivery.roomId))
            delivery.roomId with
        | finished =>
          refine Or.inr (Or.inl ⟨_, Round.finished hcons hlive hadvance,
            Or.inr ⟨bytes, chunks, ?_, ?_⟩⟩)
          · show deliveries.length + _ < _
            rw [length_cons]
            omega
          · intro fuel
            simp [Server.processLoop, hbudget, hcons, hlive, hadvance]
        | trimmed before limit =>
          refine Or.inr (Or.inl ⟨_, Round.refetched hcons hlive hadvance,
            Or.inr ⟨bytes, chunks, ?_, ?_⟩⟩)
          · rw [(refetch_queues _ _ _ _ _).1, length_cons]
            show deliveries.length + _ < _
            omega
          · intro fuel
            simp [Server.processLoop, hbudget, hcons, hlive, hadvance]
        | payload chunk source =>
          by_cases hover : chunks > 0 ∧ bytes + chunk.size > historyDeliveryBudgetBytes
          · refine Or.inr (Or.inr ⟨hover.1, _, Kept.kept hcons hadvance, fun fuel => ?_⟩)
            simp only [Server.processLoop, if_pos hbudget, hcons, hlive, if_true,
              hadvance, if_pos hover]
          refine Or.inr (Or.inl ⟨_, Round.delivered hcons hlive hadvance, ?_⟩)
          by_cases hspent : bytes + chunk.size ≥ historyDeliveryBudgetBytes
          · refine Or.inl fun fuel => ?_
            simp only [Server.processLoop, if_pos hbudget, hcons, hlive, if_true, hadvance,
              if_neg hover, if_pos hspent]
          refine Or.inr ⟨bytes + chunk.size, chunks + 1, ?_, fun fuel => ?_⟩
          · have hlength :
                (Server.deliver send { s with deliveries } delivery chunk
                source).deliveries.length ≤ deliveries.length + 1 := by
              rcases (deliver_queues send { s with deliveries } delivery chunk
                source).1 with heq | heq
              · rw [heq]
                exact Nat.le_succ _
              · rw [heq, length_append, length_singleton]
            rw [length_cons]
            omega
          · simp only [Server.processLoop, if_pos hbudget, hcons, hlive, if_true, hadvance,
              if_neg hover, if_neg hspent]
  · refine Or.inl ⟨Or.inr (not_lt.mp hbudget), fun fuel => ?_⟩
    simp only [Server.processLoop, if_neg hbudget]

/-- The loop is a sequence of rounds; at its end a delivery may stay in front. -/
lemma processLoop_rounds (encode : Encode) (send : Send) (fuel bytes chunks : ℕ) (s : Server) :
    ∃ t, Relation.ReflTransGen (Round encode send) s t ∧
      (Server.processLoop encode send fuel bytes chunks s = t ∨
        Kept encode t (Server.processLoop encode send fuel bytes chunks s)) := by
  induction fuel generalizing bytes chunks s with
  | zero => exact ⟨s, Relation.ReflTransGen.refl, Or.inl rfl⟩
  | succ fuel ih =>
    rcases processLoop_cases encode send bytes chunks s with
      ⟨-, hstop⟩ | ⟨t, hround, hend | ⟨bytes', chunks', -, hrest⟩⟩ | ⟨-, t, hkept, hend⟩
    · exact ⟨s, Relation.ReflTransGen.refl, Or.inl (hstop fuel)⟩
    · exact ⟨t, Relation.ReflTransGen.single hround, Or.inl (hend fuel)⟩
    · rw [hrest]
      obtain ⟨u, hrun, hlast⟩ := ih bytes' chunks' t
      exact ⟨u, Relation.ReflTransGen.head hround hrun, hlast⟩
    · rw [hend]
      exact ⟨s, Relation.ReflTransGen.refl, Or.inr hkept⟩

end Loop

/-! ## The invariant of the server -/

/-- `counted` and `hand` are the requests in hand: those the counters count, and those that are
not over. -/
structure ServerOk (s : Server) (counted : List (ℕ × SessionId)) (hand : List ℕ) : Prop where
  inv : DeliveryInv s (counted ++ s.outstanding) (hand ++ s.outstanding.map Prod.fst)
  tokens : ∀ delivery ∈ s.deliveries, s.owners[delivery.request]? = some delivery.token
  sources : ∀ delivery ∈ s.deliveries, SourceOk delivery.source
  replies : ∀ reply ∈ s.replies, LastOnly (reply.payloads.map HistoryChunk.complete)

section Steps

variable {s : Server} {counted : List (ℕ × SessionId)} {hand : List ℕ} {request : ℕ}
  {id : SessionId} {token : Token} {delivery : HistoryDelivery}
  {deliveries : List HistoryDelivery}

/-! ### A delivery in hand -/

lemma ServerOk.pop (h : ServerOk s [] []) (hcons : s.deliveries = delivery :: deliveries) :
    ServerOk { s with deliveries } [(delivery.request, delivery.sessionId)] [delivery.request] ∧
    SourceOk delivery.source ∧
    Owned s.sessions s.clients s.nextSession s.owners delivery.request delivery.sessionId
      delivery.token := by
  have hmem : delivery ∈ s.deliveries := by
    rw [hcons]
    exact mem_cons_self
  have hsub : ∀ other ∈ deliveries, other ∈ s.deliveries := by
    intro other hother
    rw [hcons]
    exact mem_cons_of_mem _ hother
  have houtstanding : s.outstanding = (delivery.request, delivery.sessionId) ::
      Server.outstanding { s with deliveries } := by
    simp [Server.outstanding, hcons]
  have hinv := h.inv
  rw [houtstanding] at hinv
  refine ⟨⟨{ hinv with }, fun other hother => h.tokens other (hsub other hother),
    fun other hother => h.sources other (hsub other hother), h.replies⟩,
    h.sources delivery hmem, ?_⟩
  obtain ⟨owner, howned⟩ := hinv.owned (delivery.request, delivery.sessionId) mem_cons_self
  have howner := h.tokens delivery hmem
  rw [howned.owner] at howner
  cases howner
  exact howned

lemma outstanding_push (s : Server) (delivery : HistoryDelivery) :
    ((delivery.request, delivery.sessionId) :: s.outstanding).Perm
      (Server.outstanding { s with deliveries := s.deliveries ++ [delivery] }) := by
  simp [Server.outstanding, perm_middle.symm]

/-- A delivery goes to the end of the queue. -/
lemma ServerOk.push
      (h : ServerOk s ((delivery.request, delivery.sessionId) :: counted)
      (delivery.request :: hand))
    (howner : s.owners[delivery.request]? = some delivery.token)
    (hsource : SourceOk delivery.source) :
    ServerOk { s with deliveries := s.deliveries ++ [delivery] } counted hand := by
  have hperm := outstanding_push s delivery
  have hitems : ((delivery.request, delivery.sessionId) :: counted ++ s.outstanding).Perm
      (counted ++ Server.outstanding { s with deliveries := s.deliveries ++ [delivery] }) :=
    perm_middle.symm.trans (hperm.append_left counted)
  have hlive : (delivery.request :: hand ++ s.outstanding.map Prod.fst).Perm
      (hand ++ (Server.outstanding { s with deliveries := s.deliveries ++ [delivery] }).map
        Prod.fst) :=
    perm_middle.symm.trans ((hperm.map Prod.fst).append_left hand)
  have hinv := h.inv.perm hitems hlive
  refine ⟨{ hinv with }, ?_, ?_, h.replies⟩
  · exact forall_mem_append.mpr ⟨h.tokens, forall_mem_singleton.mpr howner⟩
  · exact forall_mem_append.mpr ⟨h.sources, forall_mem_singleton.mpr hsource⟩

/-- A request is no longer counted. -/
lemma ServerOk.finishHistoryDelivery (h : ServerOk s ((request, id) :: counted) hand) :
    ServerOk (s.finishHistoryDelivery id) counted hand :=
  ⟨h.inv.finishHistoryDelivery, h.tokens, h.sources, h.replies⟩

section

variable (h : ServerOk s counted (request :: hand))

include h

/-- The connection of a request in hand is gone. -/
lemma ServerOk.drop (howner : s.owners[request]? = some token)
    (hgone : s.clients.get? token = none) : ServerOk s counted hand :=
  ⟨h.inv.drop howner hgone, h.tokens, h.sources, h.replies⟩

/-- A chunk of the request in hand is queued, or the request is over. -/
lemma ServerOk.queueChunk (send : Send) (token : Token) (chunk : HistoryChunk) :
    (∃ t, s.queueChunk send token request chunk = (t, true) ∧ t.owners = s.owners ∧
      (chunk.complete = false → ServerOk t counted (request :: hand)) ∧
      (chunk.complete = true → ServerOk t counted hand)) ∨
    ∃ t, s.queueChunk send token request chunk = (t, false) ∧ ServerOk t counted hand := by
  rcases queueChunk_cases send s token request chunk with heq | heq | ⟨id, hclient, heq⟩
  · refine Or.inl ⟨_, heq, rfl, fun hmore => ?_, fun hlast => ?_⟩
    · exact ⟨h.inv.queue hmore, h.tokens, h.sources, h.replies⟩
    · exact ⟨h.inv.finish hlast, h.tokens, h.sources, h.replies⟩
  · exact Or.inr ⟨_, heq, h.inv.fail, h.tokens, h.sources, h.replies⟩
  · exact Or.inr ⟨_, heq, (h.inv.erase hclient).fail, h.tokens, h.sources, h.replies⟩

lemma ServerOk.sendEmptyHistoryChunk (send : Send) (token : Token) (roomId : RoomId)
      (before : Option ℕ) :
    ServerOk (s.sendEmptyHistoryChunk send token request roomId before) counted hand := by
  unfold Server.sendEmptyHistoryChunk
  rcases h.queueChunk send token (emptyChunk roomId before) with
    ⟨t, heq, -, -, hlast⟩ | ⟨t, heq, hfailed⟩
  · rw [heq]
    exact hlast rfl
  · rw [heq]
    exact hfailed

end

/-- A request in hand is counted. -/
lemma ServerOk.addPending (h : ServerOk s counted hand)
      (howned : Owned s.sessions s.clients s.nextSession s.owners request id token) :
    ServerOk (s.addPending id) ((request, id) :: counted) hand :=
  ⟨h.inv.addPending howned, h.tokens, h.sources, h.replies⟩

lemma outstanding_enqueue (s : Server) (job : ReadJob) :
    ((job.request, job.read.sessionId) :: s.outstanding).Perm
      (Server.outstanding { s with readerQueue := s.readerQueue ++ [job] }) := by
  rw [perm_iff_count]
  intro item
  simp only [Server.outstanding, map_append, map_singleton, count_append, count_cons, count_nil]
  omega

/-- The request in hand goes to the reader thread, or it is over. -/
lemma ServerOk.enqueueDiskHistoryFetch (h : ServerOk s [] [request])
      (howned : Owned s.sessions s.clients s.nextSession s.owners request id token)
    (hlive : s.clients.contains token = true) (send : Send) (roomId : RoomId)
    {read : HistoryReadRequest}
    (hread : read.sessionId = id) :
    ServerOk (s.enqueueDiskHistoryFetch send request id token roomId read) [] [] := by
  obtain ⟨other, hclient⟩ := contains_iff.mp hlive
  obtain ⟨session, hsession, -⟩ := h.inv.connected.session hclient
  rw [howned.client hclient] at hsession
  unfold Server.enqueueDiskHistoryFetch
  rw [hsession]
  simp only
  split
  · exact h.sendEmptyHistoryChunk send token roomId _
  split
  · exact h.sendEmptyHistoryChunk send token roomId _
  have hperm := outstanding_enqueue s ⟨request, read⟩
  rw [hread] at hperm
  have hinv := (h.inv.addPending howned).perm hperm (hperm.map Prod.fst)
  exact ⟨{ hinv with }, h.tokens, h.sources, h.replies⟩

lemma diskFetchRequest_sessionId {room : Retention} {roomId : RoomId} {before : Option ℕ}
      {limit targetBytes : ℕ} {read : HistoryReadRequest}
    (h : room.diskFetchRequest id roomId before limit targetBytes = some read) :
    read.sessionId = id := by
  cases room with
  | none | memory history bound => cases h
  | durable log =>
    simp only [Retention.diskFetchRequest] at h
    split at h
    · cases h
    split at h
    · cases h
    · cases h
      rfl

lemma ServerOk.refetch (h : ServerOk s [] [delivery.request])
    (howned : Owned s.sessions s.clients s.nextSession s.owners delivery.request delivery.sessionId
      delivery.token)
    (hlive : s.clients.contains delivery.token = true) (send : Send) (before : Option ℕ)
    (limit : ℕ) : ServerOk (s.refetch send delivery before limit) [] [] := by
  unfold Server.refetch
  split
  · rename_i read hread
    exact h.enqueueDiskHistoryFetch howned hlive send _ (diskFetchRequest_sessionId hread)
  · exact h.sendEmptyHistoryChunk send _ _ _

/-- A chunk is sent, and its delivery goes on or is over. -/
lemma ServerOk.deliver (h : ServerOk s [(delivery.request, delivery.sessionId)] [delivery.request])
      (howner : s.owners[delivery.request]? = some delivery.token)
    {chunk : HistoryChunk} {source : HistoryDeliverySource}
    (hexhausted : source.exhausted = chunk.complete)
    (hmore : chunk.complete = false → SourceOk source)
    (send : Send) : ServerOk (s.deliver send delivery chunk source) [] [] := by
  unfold Server.deliver
  rcases h.queueChunk send delivery.token chunk with
    ⟨t, heq, howners, hqueued, hlast⟩ | ⟨t, heq, hfailed⟩
  · rw [heq]
    cases hcomplete : chunk.complete with
    | true =>
      rw [hcomplete] at hexhausted
      simp only [hexhausted, or_true, if_true]
      exact (hlast hcomplete).finishHistoryDelivery
    | false =>
      rw [hcomplete] at hexhausted
      simp only [hexhausted, Bool.true_eq_false, Bool.false_eq_true, or_self, if_false]
      have hdelivery : ServerOk t
          [(({ delivery with source } : HistoryDelivery).request, delivery.sessionId)]
          [delivery.request] := hqueued hcomplete
      exact hdelivery.push (by rw [howners]; exact howner) (hmore hcomplete)
  · rw [heq]
    exact hfailed.finishHistoryDelivery

/-! ### The loop -/

variable {encode : Encode} {send : Send} {t : Server}

lemma ServerOk.round (hkeeps : KeepsComplete encode) (h : ServerOk s [] [])
    (hround : Round encode send s t) : ServerOk t [] [] := by
  cases hround with
  | gone hcons hgone =>
    obtain ⟨hheld, -, howned⟩ := h.pop hcons
    exact (hheld.drop howned.owner (contains_eq_false_iff.mp hgone)).finishHistoryDelivery
  | finished hcons hlive hadvance =>
    obtain ⟨-, hsource, -⟩ := h.pop hcons
    exact absurd hadvance hsource.not_finished
  | @refetched delivery deliveries before limit hcons hlive hadvance =>
    obtain ⟨hheld, -, howned⟩ := h.pop hcons
    have hrecounted := recounted_finishHistoryDelivery { s with deliveries } delivery.sessionId
    exact hheld.finishHistoryDelivery.refetch (hrecounted.owned howned) hlive send before limit
  | delivered hcons hlive hadvance =>
    obtain ⟨hheld, hsource, howned⟩ := h.pop hcons
    obtain ⟨hexhausted, hmore, -⟩ := hsource.advance hkeeps hadvance
    exact hheld.deliver howned.owner hexhausted hmore send

lemma ServerOk.kept (hkeeps : KeepsComplete encode) (h : ServerOk s [] [])
    (hkept : Kept encode s t) : ServerOk t [] [] := by
  obtain ⟨hcons, hadvance⟩ := hkept
  rename_i delivery deliveries chunk source
  have hsub : ∀ other ∈ delivery :: deliveries, other ∈ s.deliveries := by
    rw [hcons]
    exact fun other hother => hother
  have houtstanding : s.outstanding = Server.outstanding { s with
      deliveries := { delivery with source := source.pushBack chunk } :: deliveries } := by
    simp [Server.outstanding, hcons]
  have hinv := h.inv
  rw [houtstanding] at hinv
  refine ⟨{ hinv with }, ?_, ?_, h.replies⟩
  · intro other hother
    rcases mem_cons.mp hother with rfl | hother
    · exact h.tokens delivery (hsub _ mem_cons_self)
    · exact h.tokens other (hsub _ (mem_cons_of_mem _ hother))
  · intro other hother
    rcases mem_cons.mp hother with rfl | hother
    · exact ((h.sources delivery (hsub _ mem_cons_self)).advance hkeeps hadvance).2.2
    · exact h.sources other (hsub _ (mem_cons_of_mem _ hother))

lemma ServerOk.rounds (hkeeps : KeepsComplete encode) (h : ServerOk s [] [])
    (hrounds : Relation.ReflTransGen (Round encode send) s t) : ServerOk t [] [] := by
  induction hrounds with
  | refl => exact h
  | tail _ hlast ih => exact ih.round hkeeps hlast

lemma ServerOk.processLoop (h : ServerOk s [] []) (hkeeps : KeepsComplete encode) (send : Send)
    (fuel bytes chunks : ℕ) :
    ServerOk (Server.processLoop encode send fuel bytes chunks s) [] [] := by
  obtain ⟨t, hrounds, hend⟩ := processLoop_rounds encode send fuel bytes chunks s
  have hok := h.rounds hkeeps hrounds
  rcases hend with hend | hkept
  · rw [hend]
    exact hok
  · exact hok.kept hkeeps hkept

/-! ### Replies of the reader thread -/

/-- A reply is accepted: it is delivered, or the connection is gone. -/
lemma ServerOk.acceptReply {reply : HistoryReadReply}
      (h : ServerOk s ((reply.request, reply.sessionId) :: counted) (reply.request :: hand))
    (hreply : LastOnly (reply.payloads.map HistoryChunk.complete)) :
    ServerOk (s.acceptReply reply) counted hand := by
  obtain ⟨owner, howned⟩ := h.inv.owned (reply.request, reply.sessionId) mem_cons_self
  unfold Server.acceptReply Server.liveTokenForSession
  cases hsession : s.sessions.get? reply.sessionId with
  | none =>
    -- a connection with no session is gone
    have hgone : s.clients.get? owner = none := by
      cases hclient : s.clients.get? owner with
      | none => rfl
      | some other =>
        obtain ⟨session, hother, -⟩ := h.inv.connected.session hclient
        rw [howned.client hclient, hsession] at hother
        cases hother
    exact (h.drop howned.owner hgone).finishHistoryDelivery
  | some session =>
    have htoken := howned.session hsession
    have hclient := h.inv.connected.client hsession
    have hlive : s.clients.contains session.tcpToken = true := contains_iff.mpr ⟨_, hclient⟩
    simp only [hlive, if_true]
    apply ServerOk.push h
    · rw [htoken]
      exact howned.owner
    · exact hreply

lemma ServerOk.acceptReplies {replies : List HistoryReadReply}
    (h : ServerOk s (replies.map fun reply => (reply.request, reply.sessionId))
      (replies.map HistoryReadReply.request))
    (hreplies : ∀ reply ∈ replies, LastOnly (reply.payloads.map HistoryChunk.complete)) :
    ServerOk (replies.foldl Server.acceptReply s) [] [] := by
  induction replies generalizing s with
  | nil => exact h
  | cons reply rest ih =>
    apply ih (ServerOk.acceptReply h (hreplies reply mem_cons_self))
    exact fun other hother => hreplies other (mem_cons_of_mem _ hother)

/-- The replies that a round of the event loop takes. -/
lemma ServerOk.acceptReplies_take (h : ServerOk s [] []) :
    ServerOk ((s.replies.take 16).foldl Server.acceptReply { s with replies := s.replies.drop 16 })
      [] [] := by
  apply ServerOk.acceptReplies
  · have hperm : s.outstanding.Perm
        ((s.replies.take 16).map (fun reply => (reply.request, reply.sessionId)) ++
          Server.outstanding { s with replies := s.replies.drop 16 }) := by
      rw [perm_iff_count]
      intro item
      have hreplies : s.replies.map (fun reply => (reply.request, reply.sessionId)) =
          (s.replies.take 16).map (fun reply => (reply.request, reply.sessionId)) ++
          (s.replies.drop 16).map (fun reply => (reply.request, reply.sessionId)) := by
        rw [← map_append, take_append_drop]
      simp only [Server.outstanding, hreplies, count_append]
      omega
    have hinv := h.inv.perm hperm (hperm.map Prod.fst)
    rw [map_append, map_map] at hinv
    refine ⟨{ hinv with }, h.tokens, h.sources, ?_⟩
    exact fun reply hreply => h.replies reply (mem_of_mem_drop hreply)
  · exact fun reply hreply => h.replies reply (mem_of_mem_take hreply)

lemma ServerOk.drainHistoryReplies (hkeeps : KeepsComplete encode) (h : ServerOk s [] [])
    (send : Send) : ServerOk (s.drainHistoryReplies encode send) [] [] :=
  h.acceptReplies_take.processLoop hkeeps send _ _ _

/-! ### A request -/

lemma ServerOk.fetchHistory (h : ServerOk s [] []) (send : Send) (id : SessionId) (roomId : RoomId)
    (before : Option ℕ) (limit : ℕ) :
    ServerOk (s.fetchHistory send id roomId before limit) [] [] := by
  unfold Server.fetchHistory Server.liveTokenForSession
  cases hsession : s.sessions.get? id with
  | none => exact h
  | some session =>
    have hlive : s.clients.contains session.tcpToken = true :=
      contains_iff.mpr ⟨_, h.inv.connected.client hsession⟩
    simp only [hlive, if_true]
    obtain ⟨hinv, howned⟩ := h.inv.new hsession
    have hnew : ServerOk { s with owners := s.owners ++ [session.tcpToken] } []
        [s.owners.length] := by
      refine ⟨{ hinv with }, ?_, h.sources, h.replies⟩
      intro delivery hdelivery
      have howner := h.tokens delivery hdelivery
      rw [getElem?_append_left (List.getElem?_eq_some_iff.mp howner).1]
      exact howner
    split
    · exact hnew.sendEmptyHistoryChunk send _ _ _
    split
    · exact hnew.sendEmptyHistoryChunk send _ _ _
    split
    · rename_i read hread
      have hid : read.sessionId = id := by
        split at hread
        · exact diskFetchRequest_sessionId hread
        · cases hread
      exact hnew.enqueueDiskHistoryFetch howned hlive send _ hid
    · exact (hnew.addPending howned).push howned.owner
        (sourceOk_plan (planOk_historyFetchPlanBefore _ _ _ _ _))

/-! ### Every step -/

lemma ServerOk.initial : ServerOk Server.initial [] [] := by
  constructor
  case inv =>
    constructor
    case connected => exact ⟨nofun, nofun, nofun, nofun⟩
    case owners_lt => exact nofun
    case counter => rfl
    case counted => exact nofun
    case owned => exact nofun
    case settled => exact ⟨nodup_nil, nofun, nofun, nofun, fun request => Or.inl ⟨0, rfl⟩, nofun⟩
  case tokens => exact nofun
  case sources => exact nofun
  case replies => exact nofun

/-- The outstanding requests are the same in another order. -/
lemma ServerOk.moved (h : ServerOk s [] []) {readerQueue : List ReadJob} {reading : Option ReadJob}
      {replies : List HistoryReadReply}
    (hperm : s.outstanding.Perm (Server.outstanding { s with readerQueue, reading, replies }))
    (hreplies : ∀ reply ∈ replies, LastOnly (reply.payloads.map HistoryChunk.complete)) :
    ServerOk { s with readerQueue, reading, replies } [] [] := by
  have hinv := h.inv.perm hperm (hperm.map Prod.fst)
  exact ⟨{ hinv with }, h.tokens, h.sources, hreplies⟩

lemma ServerOk.take (h : ServerOk s [] []) (hnext : s.next encode .take = some t) :
    ServerOk t [] [] := by
  simp only [Server.next] at hnext
  split at hnext
  · rename_i job queue hreading hqueue
    cases hnext
    apply h.moved _ h.replies
    rw [perm_iff_count]
    intro item
    simp only [Server.outstanding, hreading, hqueue, Option.toList_none, Option.toList_some,
      map_cons, map_nil, count_append, count_cons, count_nil]
    omega
  · cases hnext

lemma ServerOk.reply (h : ServerOk s [] []) {sources : List Source}
    (hnext : s.next encode (.reply sources) = some t) : ServerOk t [] [] := by
  simp only [Server.next] at hnext
  split at hnext
  · rename_i job hreading
    cases hnext
    apply h.moved
    · rw [perm_iff_count]
      intro item
      simp only [Server.outstanding, hreading, Option.toList_none, Option.toList_some, map_cons,
        map_nil, map_append, count_append, count_cons, count_nil]
      omega
    · exact forall_mem_append.mpr ⟨h.replies, forall_mem_singleton.mpr (lastOnly_execute _)⟩
  · cases hnext

/-- Every step keeps the invariant. -/
lemma ServerOk.next (hkeeps : KeepsComplete encode) (h : ServerOk s [] []) {action : HistoryAction}
    (hnext : s.next encode action = some t) : ServerOk t [] [] := by
  cases action with
  | connect =>
    cases hnext
    exact ⟨h.inv.connect, h.tokens, h.sources, h.replies⟩
  | disconnect token =>
    cases hnext
    unfold Server.disconnect
    cases hclient : s.clients.get? token with
    | none => exact h
    | some id => exact ⟨h.inv.erase hclient, h.tokens, h.sources, h.replies⟩
  | rooms rooms =>
    cases hnext
    exact ⟨{ h.inv with }, h.tokens, h.sources, h.replies⟩
  | fetch send id roomId before limit =>
    cases hnext
    exact h.fetchHistory send id roomId before limit
  | take => exact h.take hnext
  | reply sources => exact h.reply hnext
  | drainReplies send =>
    cases hnext
    exact h.drainHistoryReplies hkeeps send
  | process send =>
    cases hnext
    exact h.processLoop hkeeps send _ _ _

end Steps

end Chatt.RoomHistory
