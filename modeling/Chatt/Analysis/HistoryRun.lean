import Chatt.Analysis.HistoryDelivery

/-!
# Every request for history comes to an end once

The work that is left goes down with every step on it: a chunk of a planned page goes out or the
page goes to the reader thread, the reader thread brings its pages nearer to delivery, and a
chunk it has read goes out.
-/

namespace Chatt.RoomHistory

open Lib List

/-! ## The work that is left -/

/-- Planned chunks. -/
def residentWork : HistoryDeliverySource → ℕ
  | .resident plan nextChunk => plan.chunks.length - nextChunk
  | .encoded _ => 0

/-- Chunks that have been read from disk. -/
def encodedWork : HistoryDeliverySource → ℕ
  | .resident _ _ => 0
  | .encoded payloads => payloads.length

def deliveryWork (f : HistoryDeliverySource → ℕ) (deliveries : List HistoryDelivery) : ℕ :=
  (deliveries.map fun delivery => f delivery.source).sum

def readerWork (s : Server) : ℕ :=
  3 * s.readerQueue.length + 2 * s.reading.toList.length + s.replies.length

def work (s : Server) : ℕ ×ₗ (ℕ ×ₗ ℕ) :=
  toLex (deliveryWork residentWork s.deliveries,
    toLex (readerWork s, deliveryWork encodedWork s.deliveries))

lemma deliveryWork_cons (f : HistoryDeliverySource → ℕ) (delivery : HistoryDelivery)
      (deliveries : List HistoryDelivery) :
    deliveryWork f (delivery :: deliveries) = f delivery.source + deliveryWork f deliveries := by
  simp [deliveryWork]

lemma deliveryWork_push (f : HistoryDeliverySource → ℕ) (delivery : HistoryDelivery)
      (deliveries : List HistoryDelivery) :
    deliveryWork f (deliveries ++ [delivery]) = deliveryWork f deliveries + f delivery.source := by
  simp [deliveryWork]

section Work

variable {s t : Server} {encode : Encode} {send : Send} {source : HistoryDeliverySource}

lemma work_lt_iff :
    work t < work s ↔ deliveryWork residentWork t.deliveries <
      deliveryWork residentWork s.deliveries ∨
    deliveryWork residentWork t.deliveries = deliveryWork residentWork s.deliveries ∧
      (readerWork t < readerWork s ∨ readerWork t = readerWork s ∧
        deliveryWork encodedWork t.deliveries < deliveryWork encodedWork s.deliveries) := by
  rw [work, work, Prod.Lex.toLex_lt_toLex, Prod.Lex.toLex_lt_toLex]

lemma SourceOk.work_pos (h : SourceOk source) :
    0 < residentWork source ∨ residentWork source = 0 ∧ 0 < encodedWork source := by
  cases source with
  | resident plan nextChunk =>
    left
    show 0 < plan.chunks.length - nextChunk
    have := h.1
    omega
  | encoded payloads =>
    have hpos := length_pos_iff.mpr h.ne_nil
    rw [length_map] at hpos
    exact Or.inr ⟨rfl, hpos⟩

/-- The work of a delivery that advances. -/
lemma SourceOk.advance_work {source' : HistoryDeliverySource} {chunk : HistoryChunk}
      {room : Retention} {roomId : RoomId}
    (hok : SourceOk source)
    (hadvance : source.advance (encode room) roomId = .payload chunk source') :
    (residentWork source' < residentWork source ∨ residentWork source = 0 ∧
      residentWork source' = 0 ∧ encodedWork source' < encodedWork source) ∧
    residentWork (source'.pushBack chunk) ≤ residentWork source ∧
    encodedWork (source'.pushBack chunk) = encodedWork source := by
  cases source with
  | resident plan nextChunk =>
    have hnext := hok.1
    simp only [HistoryDeliverySource.advance, if_neg (not_le.mpr hnext)] at hadvance
    split at hadvance
    · cases hadvance
      refine ⟨Or.inl ?_, ?_, rfl⟩
      · show plan.chunks.length - (nextChunk + 1) < plan.chunks.length - nextChunk
        omega
      · show plan.chunks.length - (nextChunk + 1 - 1) ≤ plan.chunks.length - nextChunk
        omega
    · cases hadvance
    · cases hadvance
      refine ⟨Or.inl ?_, ?_, rfl⟩
      · show plan.chunks.length - plan.chunks.length < plan.chunks.length - nextChunk
        omega
      · show plan.chunks.length - (plan.chunks.length - 1) ≤ plan.chunks.length - nextChunk
        omega
  | encoded payloads =>
    cases payloads with
    | nil => exact absurd rfl hok.ne_nil
    | cons first rest =>
      cases hadvance
      simp [residentWork, encodedWork, HistoryDeliverySource.pushBack]

/-- Only a planned page is asked for again. -/
lemma SourceOk.trimmed_work {before : Option ℕ} {limit : ℕ} {room : Retention} {roomId : RoomId}
      (hok : SourceOk source)
    (hadvance : source.advance (encode room) roomId = .trimmed before limit) :
    0 < residentWork source := by
  cases source with
  | resident plan nextChunk =>
    show 0 < plan.chunks.length - nextChunk
    have := hok.1
    omega
  | encoded payloads => cases payloads <;> cases hadvance

/-- Every round lowers the work. -/
lemma ServerOk.work_round (h : ServerOk s [] []) (hround : Round encode send s t) :
    work t < work s := by
  rw [work_lt_iff]
  cases hround with
  | @gone delivery deliveries hcons _ =>
    have hpos := (h.pop hcons).2.1.work_pos
    rw [hcons, deliveryWork_cons, deliveryWork_cons]
    show deliveryWork residentWork deliveries < _ ∨
      deliveryWork residentWork deliveries = _ ∧
      (readerWork s < _ ∨ readerWork s = _ ∧ deliveryWork encodedWork deliveries < _)
    omega
  | finished hcons _ hadvance => exact absurd hadvance (h.pop hcons).2.1.not_finished
  | @refetched delivery deliveries before limit hcons _ hadvance =>
    have hpos := (h.pop hcons).2.1.trimmed_work hadvance
    left
    rw [hcons, deliveryWork_cons, (refetch_queues _ _ _ _ _).1]
    show deliveryWork residentWork deliveries < _
    omega
  | @delivered delivery deliveries chunk source hcons _ hadvance =>
    obtain ⟨hless, -⟩ := (h.pop hcons).2.1.advance_work hadvance
    obtain ⟨heq, hqueue, hreading, hreplies⟩ :=
      deliver_queues send { s with deliveries } delivery chunk source
    have hreader : readerWork (Server.deliver send { s with deliveries } delivery chunk source) =
        readerWork s := by
      rw [readerWork, hqueue, hreading, hreplies]
      rfl
    rw [hcons, deliveryWork_cons, deliveryWork_cons, hreader]
    have hdeliveries : ∀ f, deliveryWork f
        (Server.deliver send { s with deliveries } delivery chunk source).deliveries =
          deliveryWork f deliveries ∨ deliveryWork f
        (Server.deliver send { s with deliveries } delivery chunk source).deliveries =
          deliveryWork f deliveries + f source := by
      intro f
      rcases heq with heq | heq
      · exact Or.inl (by rw [heq])
      · exact Or.inr (by rw [heq, deliveryWork_push])
    have hresident := hdeliveries residentWork
    have hencoded := hdeliveries encodedWork
    omega

lemma ServerOk.work_kept (h : ServerOk s [] []) (hkept : Kept encode s t) : work t ≤ work s := by
  obtain ⟨hcons, hadvance⟩ := hkept
  obtain ⟨-, hresident, hencoded⟩ := (h.pop hcons).2.1.advance_work hadvance
  rw [le_iff_lt_or_eq]
  rcases hresident.lt_or_eq with hlt | heq
  · left
    rw [work_lt_iff, hcons, deliveryWork_cons, deliveryWork_cons]
    left
    exact Nat.add_lt_add_right hlt _
  · right
    simp only [work, hcons, deliveryWork_cons, heq, hencoded]
    rfl

lemma ServerOk.work_rounds (hkeeps : KeepsComplete encode) (h : ServerOk s [] [])
    (hrounds : Relation.ReflTransGen (Round encode send) s t) : work t ≤ work s := by
  induction hrounds with
  | refl => exact le_rfl
  | tail hrun hlast ih => exact ((h.rounds hkeeps hrun).work_round hlast).le.trans ih

lemma ServerOk.work_processLoop_le (hkeeps : KeepsComplete encode)
      (h : ServerOk s [] []) (send : Send)
    (fuel bytes chunks : ℕ) :
    work (Server.processLoop encode send fuel bytes chunks s) ≤ work s := by
  obtain ⟨t, hrounds, hend⟩ := processLoop_rounds encode send fuel bytes chunks s
  have hle := h.work_rounds hkeeps hrounds
  rcases hend with hend | hkept
  · rw [hend]
    exact hle
  · exact ((h.rounds hkeeps hrounds).work_kept hkept).trans hle

/-- A loop that has something to do lowers the work. -/
lemma ServerOk.work_process_lt (hkeeps : KeepsComplete encode) (h : ServerOk s [] []) (send : Send)
    (hne : s.deliveries ≠ []) : work (s.processHistoryDeliveries encode send) < work s := by
  unfold Server.processHistoryDeliveries
  rw [show s.deliveries.length + historyDeliveryBudgetChunks = s.deliveries.length + 3 + 1 from rfl]
  rcases processLoop_cases encode send 0 0 s with
    ⟨hempty | hspent, -⟩ | ⟨t, hround, hend | ⟨bytes, chunks, -, hrest⟩⟩ | ⟨hpos, -⟩
  · exact absurd hempty hne
  · exact absurd hspent (by decide)
  · rw [hend]
    exact h.work_round hround
  · rw [hrest]
    exact ((h.round hkeeps hround).work_processLoop_le hkeeps send _ _ _).trans_lt
      (h.work_round hround)
  · exact absurd hpos (lt_irrefl 0)

/-- Replies add only chunks that have been read. -/
lemma acceptReplies_work (replies : List HistoryReadReply) (s : Server) :
    deliveryWork residentWork (replies.foldl Server.acceptReply s).deliveries =
      deliveryWork residentWork s.deliveries ∧
    readerWork (replies.foldl Server.acceptReply s) = readerWork s := by
  induction replies generalizing s with
  | nil => exact ⟨rfl, rfl⟩
  | cons reply rest ih =>
    obtain ⟨hresident, hreader⟩ := ih (s.acceptReply reply)
    rw [foldl_cons, hresident, hreader]
    unfold Server.acceptReply
    split
    · exact ⟨rfl, rfl⟩
    · rw [deliveryWork_push]
      exact ⟨rfl, rfl⟩

lemma ServerOk.work_drain (hkeeps : KeepsComplete encode) (h : ServerOk s [] []) (send : Send) :
    work (s.drainHistoryReplies encode send) ≤ work s ∧
    (s.deliveries ≠ [] ∨ s.replies ≠ [] → work (s.drainHistoryReplies encode send) < work s) := by
  unfold Server.drainHistoryReplies
  simp only
  cases hreplies : s.replies with
  | nil =>
    have hsame : ({ s with replies := [] } : Server) = s := by rw [← hreplies]
    rw [take_nil, drop_nil, foldl_nil, hsame]
    refine ⟨h.work_processLoop_le hkeeps send _ _ _, fun hsome => ?_⟩
    apply h.work_process_lt hkeeps send
    exact hsome.resolve_right fun hne => hne rfl
  | cons reply rest =>
    rw [← hreplies]
    have haccepted := h.acceptReplies_take
    have hlt : work ((s.replies.take 16).foldl Server.acceptReply
        { s with replies := s.replies.drop 16 }) < work s := by
      rw [work_lt_iff, (acceptReplies_work _ _).1, (acceptReplies_work _ _).2]
      right
      refine ⟨rfl, Or.inl ?_⟩
      simp only [readerWork, length_drop, hreplies, length_cons]
      omega
    have hle := haccepted.work_processLoop_le hkeeps send
      (((s.replies.take 16).foldl Server.acceptReply
        { s with replies := s.replies.drop 16 }).deliveries.length + historyDeliveryBudgetChunks) 0
        0
    exact ⟨(hle.trans_lt hlt).le, fun _ => hle.trans_lt hlt⟩

lemma work_take (hnext : s.next encode .take = some t) : work t < work s := by
  simp only [Server.next] at hnext
  split at hnext
  · rename_i job queue hreading hqueue
    cases hnext
    rw [work_lt_iff]
    refine Or.inr ⟨rfl, Or.inl ?_⟩
    simp [readerWork, hreading, hqueue]
    omega
  · cases hnext

lemma work_reply {sources : List Source} (hnext : s.next encode (.reply sources) = some t) :
    work t < work s := by
  simp only [Server.next] at hnext
  split at hnext
  · rename_i job hreading
    cases hnext
    rw [work_lt_iff]
    refine Or.inr ⟨rfl, Or.inl ?_⟩
    simp [readerWork, hreading]
    omega
  · cases hnext

lemma ServerOk.work_works (hkeeps : KeepsComplete encode) (h : ServerOk s [] [])
    (hworks : s.Works encode t) : work t < work s := by
  rcases hworks with htake | ⟨sources, hreply⟩ | ⟨hsome, send, hdrain⟩
  · exact work_take htake
  · exact work_reply hreply
  · cases hdrain
    exact (h.work_drain hkeeps send).2 hsome

/-- Without new requests there is never more work. -/
lemma ServerOk.work_next (hkeeps : KeepsComplete encode) (h : ServerOk s [] [])
      {action : HistoryAction}
    (hfetch : ¬ action.IsFetch) (hnext : s.next encode action = some t) : work t ≤ work s := by
  cases action with
  | connect =>
    cases hnext
    exact le_rfl
  | disconnect token =>
    cases hnext
    unfold Server.disconnect
    split <;> exact le_rfl
  | rooms rooms =>
    cases hnext
    exact le_rfl
  | fetch send id roomId before limit => exact absurd trivial hfetch
  | take => exact (work_take hnext).le
  | reply sources => exact (work_reply hnext).le
  | drainReplies send =>
    cases hnext
    exact (h.work_drain hkeeps send).1
  | process send =>
    cases hnext
    exact h.work_processLoop_le hkeeps send _ _ _

/-! ## The requests of a run -/

lemma ServerOk.of_reachable (hkeeps : KeepsComplete encode)
    (run : Reachable (Server.next encode) (fun _ _ => True) Server.initial s) :
    ServerOk s [] [] := by
  apply run.invariant ServerOk.initial
  intro x y action h _ hnext
  exact h.next hkeeps hnext

lemma map_chunksOf (s : Server) (request : ℕ) :
    (s.chunksOf request).map HistoryChunk.complete = flagsOf s.sent request := by
  rw [Server.chunksOf, map_map]
  rfl

/-- The last chunk is the complete one. -/
lemma exists_last_of_lastOnly {chunks : List HistoryChunk}
      (h : LastOnly (chunks.map HistoryChunk.complete)) :
    ∃ front last, chunks = front ++ [last] ∧ last.complete = true ∧
    ∀ chunk ∈ front, chunk.complete = false := by
  obtain ⟨n, hflags⟩ := h
  obtain ⟨front, back, rfl, hfront, hback⟩ := map_eq_append_iff.mp hflags
  obtain ⟨last, rfl, hlast⟩ := map_eq_singleton_iff.mp hback
  refine ⟨front, last, rfl, hlast, fun chunk hchunk => ?_⟩
  have hmem : chunk.complete ∈ front.map HistoryChunk.complete := mem_map_of_mem hchunk
  rw [hfront] at hmem
  exact eq_of_mem_replicate hmem

/-- No chunk follows the complete one. -/
lemma ServerOk.last_of_complete (h : ServerOk s [] []) {request : ℕ}
      {front back : List HistoryChunk} {chunk : HistoryChunk}
    (hchunks : s.chunksOf request = front ++ chunk :: back) (hcomplete : chunk.complete = true) :
    back = [] ∧ ∀ other ∈ front, other.complete = false := by
  have hflags := map_chunksOf s request
  rw [hchunks] at hflags
  have hmem : chunk ∈ front ++ chunk :: back := mem_append_right _ mem_cons_self
  rcases h.inv.settled.shape request with ⟨n, hnone⟩ | hlast
  · rw [hnone] at hflags
    have hflag := eq_of_mem_replicate (hflags ▸ mem_map_of_mem hmem)
    rw [hcomplete] at hflag
    cases hflag
  rw [← hflags] at hlast
  obtain ⟨front', last, heq, -, hfront⟩ := exists_last_of_lastOnly hlast
  -- the complete chunk is none of those in front of the last one
  rcases eq_nil_or_concat back with rfl | ⟨init, other, rfl⟩
  · obtain ⟨rfl, -⟩ := append_inj' heq rfl
    exact ⟨rfl, hfront⟩
  have hassoc : (front ++ chunk :: init) ++ [other] = front' ++ [last] := by
    rw [← heq]
    simp
  obtain ⟨rfl, -⟩ := append_inj' hassoc rfl
  have hflag := hfront chunk (mem_append_right _ mem_cons_self)
  rw [hcomplete] at hflag
  cases hflag

/-- Work that is left can be done. -/
lemma exists_works (hpending : ¬ s.Drained) : ∃ t, s.Works encode t := by
  cases hreading : s.reading with
  | some job =>
    have hsome : (s.next encode (.reply [])).isSome := by
      simp only [Server.next, hreading]
      rfl
    obtain ⟨t, ht⟩ := Option.isSome_iff_exists.mp hsome
    exact ⟨t, Or.inr (Or.inl ⟨[], ht⟩)⟩
  | none =>
    cases hqueue : s.readerQueue with
    | cons job queue =>
      have hsome : (s.next encode .take).isSome := by
        simp only [Server.next, hreading, hqueue]
        rfl
      obtain ⟨t, ht⟩ := Option.isSome_iff_exists.mp hsome
      exact ⟨t, Or.inl ht⟩
    | nil =>
      refine ⟨_, Or.inr (Or.inr ⟨?_, fun _ _ _ => .queued, rfl⟩)⟩
      by_contra hnone
      rw [not_or, not_not, not_not] at hnone
      exact hpending ⟨hnone.1, hqueue, hreading, hnone.2⟩

lemma ServerOk.exists_drained (hkeeps : KeepsComplete encode) {trace : ℕ → Server}
      (h : ServerOk (trace 0) [] [])
    (hfair : FairDrain encode trace) : ∃ n, (trace n).Drained := by
  apply exists_goal_of_measure (fun s => ServerOk s [] []) Server.Drained
    (Server.Works encode) work h _ hfair.fair
  intro n hok _
  obtain ⟨action, hfetch, hnext⟩ := hfair.step n
  exact ⟨hok.next hkeeps hnext, hok.work_next hkeeps hfetch hnext, hok.work_works hkeeps⟩

end Work

/-- Along every run the counters count what is outstanding, no chunk of a request follows its
complete one, and when nothing is outstanding, every request whose connection is alive and whose
sends succeeded has had its complete chunk.  Work that is left can be done, and once no request
comes any more, all of it is done sooner or later. -/
theorem history_requests_end_once {encode : Encode} (keeps : KeepsComplete encode) {s : Server}
    (run : Reachable (Server.next encode) (fun _ _ => True) Server.initial s) :
    s.pendingHistoryFetches = s.outstanding.length ∧
    (∀ id session, s.sessions.get? id = some session →
      session.pendingDiskHistoryFetches = s.outstanding.countP fun item => item.2 = id) ∧
    (∀ request front chunk back, s.chunksOf request = front ++ chunk :: back →
      chunk.complete = true → back = [] ∧ ∀ other ∈ front, other.complete = false) ∧
    (s.Drained → ∀ request token, s.owners[request]? = some token →
      s.clients.contains token = true → request ∉ s.failed →
      ∃ front last, s.chunksOf request = front ++ [last] ∧ last.complete = true ∧
      ∀ chunk ∈ front, chunk.complete = false) ∧
    (¬ s.Drained → ∃ t, s.Works encode t) ∧
    ∀ trace : ℕ → Server, trace 0 = s → FairDrain encode trace → ∃ n, (trace n).Drained := by
  have h := ServerOk.of_reachable keeps run
  refine ⟨h.inv.counter, fun id session => h.inv.counted, ?_, ?_, exists_works, ?_⟩
  · exact fun request front chunk back => h.last_of_complete
  · rintro ⟨hdeliveries, hqueue, hreading, hreplies⟩ request token howner hlive hsent
    have hnone : s.outstanding = [] := by
      simp [Server.outstanding, hdeliveries, hqueue, hreading, hreplies]
    apply exists_last_of_lastOnly
    rw [map_chunksOf]
    obtain ⟨id, hclient⟩ := OrdMap.contains_iff.mp hlive
    rcases h.inv.settled.ended howner (by rw [hnone]; exact not_mem_nil) with
      hlast | hfailed | hgone
    · exact hlast
    · exact absurd hfailed hsent
    · rw [hclient] at hgone
      cases hgone
  · rintro trace rfl hfair
    exact ServerOk.exists_drained keeps h hfair

namespace HistorySample

/-- A room with one message on disk and one in memory. -/
def room : Retention := .durable {
  history := [⟨2, [20]⟩]
  active := [⟨2, [20]⟩]
  segments := [⟨1, [⟨1, [10]⟩]⟩]
  pendingLogWrites := 0
  writes := []
  written := [⟨2, [20]⟩]
  events := [] }

def send : Send := fun _ _ _ => .queued

/-- A page from memory, and one from disk. -/
def run : Server :=
  after (Server.next Retention.encodeHistoryChunk) Server.initial
    [.connect, .rooms fun _ => room, .fetch send 1 7 none 5, .drainReplies send,
      .fetch send 1 7 (some 2) 5, .take, .reply [⟨some [⟨1, [10]⟩]⟩], .drainReplies send]

end HistorySample

open HistorySample in
theorem history_requests_end_once_sample :
    run.pendingHistoryFetches = 0 ∧
    (∃ front last, run.chunksOf 1 = front ++ [last] ∧ last.complete = true ∧
      ∀ chunk ∈ front, chunk.complete = false) ∧
    run.chunksOf 1 = [⟨7, some 2, true, true, [⟨1, [10]⟩]⟩] := by
  have hreachable : Reachable (Server.next Retention.encodeHistoryChunk) (fun _ _ => True)
      Server.initial run :=
    reachable_after (by decide +kernel)
  have hdrained : run.Drained := by decide +kernel
  obtain ⟨hcounter, -, -, hlast, -⟩ :=
    history_requests_end_once keepsComplete_encodeHistoryChunk hreachable
  refine ⟨hcounter, ?_, by decide +kernel⟩
  exact hlast hdrained 1 0 (by decide +kernel) (by decide +kernel) (by decide +kernel)

end Chatt.RoomHistory
