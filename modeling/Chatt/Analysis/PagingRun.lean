import Chatt.Analysis.Paging

/-!
# A client that pages through the room gets all of it

The invariant holds along every run.  Every step of the client brings messages or brings the
page it has asked for nearer, whatever the room does in between, so a client that keeps asking
comes to the start.
-/

namespace Chatt.RoomHistory

open Lib List Option

section Runs

variable {tuning : StoreTuning} {roomId : RoomId} {s t : Paging}

/-! ## The invariant along a run -/

/-- Every step keeps the invariant. -/
lemma PagingInv.next {all trimmed : List HistoryRecord} (h : PagingInv s all trimmed)
      {action : PagingAction} (hallowed : s.Allowed action)
    (hnext : s.next tuning roomId action = some t) :
    ∃ all' trimmed', PagingInv t all' trimmed' ∧ all <+: all' := by
  cases action with
  | append record =>
    cases hnext
    obtain ⟨hnew, hbound, hfits⟩ := hallowed
    rw [h.log.retained_eq] at hnew
    have hgrown : all <+: all ++ [record] := List.prefix_append _ _
    exact ⟨_, trimmed, h.room (h.log.append hnew hbound hfits) hgrown List.prefix_rfl (Or.inl rfl),
      hgrown⟩
  | write =>
    obtain ⟨log, hwrite, rfl⟩ := map_eq_some_iff.mp hnext
    obtain ⟨hlog, hdurable⟩ := h.log.write hwrite
    exact ⟨all, trimmed, h.room hlog List.prefix_rfl (by rw [hdurable]) (Or.inl rfl),
      List.prefix_rfl⟩
  | drain =>
    obtain ⟨log, hdrain, rfl⟩ := map_eq_some_iff.mp hnext
    obtain ⟨trimmed', hlog, hdurable, htrimmed⟩ := h.log.drain hdrain
    exact ⟨all, trimmed', h.room hlog List.prefix_rfl hdurable htrimmed, List.prefix_rfl⟩
  | fetch limit readerTakes =>
    obtain ⟨hlimit, hstart, hretained⟩ := hallowed
    simp only [Paging.next] at hnext
    split at hnext
    next hphase =>
      cases hnext
      exact ⟨all, trimmed, h.fetch hphase hlimit hstart hretained readerTakes, List.prefix_rfl⟩
    · cases hnext
  | turnAway =>
    simp only [Paging.next] at hnext
    split at hnext
    next hphase =>
      cases hnext
      exact ⟨all, trimmed, h.turnAway hphase roomId, List.prefix_rfl⟩
    · cases hnext
  | read =>
    simp only [Paging.next] at hnext
    split at hnext
    next request hphase =>
      cases hnext
      exact ⟨all, trimmed, h.read hphase, List.prefix_rfl⟩
    · cases hnext
  | deliver readerTakes =>
    simp only [Paging.next] at hnext
    split at hnext
    next source hphase =>
      cases hnext
      exact ⟨all, trimmed, (h.deliver hphase roomId readerTakes).1, List.prefix_rfl⟩
    · cases hnext

/-- A client that has asked for nothing yet. -/
lemma PagingInv.of_opened (opened : s.log.Opened)
    (fresh : s.phase = .idle ∧ s.pages = [] ∧ s.base = none) :
    ∃ all trimmed, PagingInv s all trimmed := by
  obtain ⟨hphase, hpages, hbase⟩ := fresh
  obtain ⟨trimmed, hlog⟩ := LogInv.of_opened opened
  have hreceived : s.received = [] := by
    rw [Paging.received, hpages]
    rfl
  refine ⟨_, trimmed, hlog, ?_, fun _ => hreceived, Or.inl ⟨hphase, ?_, [], s.log.durable, ?_⟩⟩
  · intro base hsome
    rw [hbase] at hsome
    cases hsome
  · rw [hpages]
    intro page hmem
    cases hmem
  · refine ⟨by rw [hreceived]; rfl, fun hne => absurd hreceived hne, ?_⟩
    simp [Paging.reachedStart, hpages, hreceived]

lemma PagingInv.of_reachable (opened : s.log.Opened) (fresh : s.phase = .idle ∧ s.pages = [] ∧
      s.base = none)
    (run : Reachable (Paging.next tuning roomId) Paging.Allowed s t) :
    ∃ all trimmed, PagingInv t all trimmed := by
  apply run.invariant (PagingInv.of_opened opened fresh)
  rintro x y action ⟨all, trimmed, h⟩ hallowed hnext
  obtain ⟨all', trimmed', h', -⟩ := h.next hallowed hnext
  exact ⟨all', trimmed', h'⟩

/-! ## What the client has -/

variable {all trimmed : List HistoryRecord}

section

variable (h : PagingInv s all trimmed)

include h

lemma PagingInv.split : ∃ older newer, all = older ++ s.received ++ newer := by
  rcases h.phase with ⟨-, hidle⟩ | ⟨older, owed, howes, -⟩
  · obtain ⟨older, newer, hsplit, -⟩ := hidle.split
    exact ⟨older, newer, hsplit⟩
  · obtain ⟨newer, hsplit⟩ := howes.split
    exact ⟨older ++ owed, newer, hsplit⟩

lemma PagingInv.received_ascending : Ascending s.received := by
  obtain ⟨older, newer, hsplit⟩ := h.split
  have hascending := h.log.ascending
  rw [hsplit] at hascending
  exact (pairwise_append.mp (pairwise_append.mp hascending).1).2.1

/-- A page says that it begins at the start exactly when it holds the oldest message. -/
lemma PagingInv.atStart_iff {page : Page} (hpage : page ∈ s.pages) :
    page.atStart = true ↔ ∃ oldest, all.head? = some oldest ∧ oldest ∈ page.records := by
  rcases h.phase with ⟨-, hidle⟩ | ⟨older, owed, howes, -⟩
  · exact (hidle.pages page hpage).start
  obtain ⟨last, closed, hcons, -, hstart, hclosed, -⟩ := howes.asked
  obtain ⟨newer, hsplit⟩ := howes.split
  rw [hcons] at hpage
  rcases mem_cons.mp hpage with rfl | hpage
  · -- the page is not over, so the oldest message is still to come
    rw [hstart]
    refine ⟨fun h => (by cases h), ?_⟩
    rintro ⟨oldest, hhead, hmem⟩
    have hreceived : oldest ∈ s.received := records_subset_received (hcons ▸ mem_cons_self) hmem
    have hfront := (oldest_mem_iff h.log.ascending hsplit (ne_nil_of_mem hreceived)).mp ⟨oldest,
        hhead, hreceived⟩
    exact absurd (append_eq_nil_iff.mp hfront).2 howes.owed
  · exact (hclosed page hpage).start

/-- At the start the client has what was there when it began to ask. -/
lemma PagingInv.reachedStart (hreached : s.reachedStart = true) {base : List HistoryRecord}
    (hbase : s.base = some base) : base <+: s.received := by
  rcases h.phase with ⟨-, hidle⟩ | ⟨older, owed, howes, -⟩
  · obtain ⟨older, newer, -, hgrown, hiff⟩ := hidle.split
    obtain ⟨hne, rfl⟩ := hiff.mp hreached
    exact hgrown hne base hbase
  · obtain ⟨last, closed, hcons, -, hstart, -, hnone⟩ := howes.asked
    simp [Paging.reachedStart, hcons, hstart, hnone] at hreached

/-! ## The client comes to the start -/

omit h in
lemma fetch_progress (hphase : s.phase = .idle) (limit : ℕ) :
    Progress s (s.fetch roomId limit true) := by
  left
  unfold Paging.fetch
  simp only
  rw [hphase]
  split
  · exact ⟨rfl, show 1 < 3 by omega⟩
  · exact ⟨rfl, show 2 < 3 by omega⟩

/-- Every step of the client makes progress. -/
lemma PagingInv.advance {limits : ℕ → ℕ} (hlimits : ∀ n, 1 ≤ limits n)
      (hstart : s.reachedStart = false) (hretained : s.log.retained ≠ [])
    (roomId : RoomId) :
    PagingInv (s.advance roomId limits) all trimmed ∧ Progress s (s.advance roomId limits) := by
  unfold Paging.advance
  rw [hstart, if_neg Bool.false_ne_true]
  cases hphase : s.phase with
  | idle => exact ⟨h.fetch hphase (hlimits _) hstart hretained true, fetch_progress hphase _⟩
  | reading request =>
    exact ⟨h.read hphase, Or.inl ⟨rfl, by rw [hphase]; exact (show 0 < 1 by omega)⟩⟩
  | delivering source => exact (h.deliver hphase roomId true).imp id fun hprogress => hprogress rfl

end

/-- The messages still to come.  Until the first one has come, there is no bound on them. -/
def remaining (s : Paging) : WithTop ℕ :=
  if s.received = [] then ⊤ else .some (s.log.retained.filter (below s.before)).length

def left (s : Paging) : WithTop ℕ ×ₗ ℕ := toLex (remaining s, s.phase.rank)

lemma PagingInv.remaining_eq (h : PagingInv s all trimmed) (hne : s.received ≠ [])
      {older newer : List HistoryRecord}
    (hsplit : all = older ++ s.received ++ newer) : remaining s = .some older.length := by
  rw [remaining, if_neg hne, h.log.retained_eq, Paging.before,
    filter_before_of_ne h.log.ascending hsplit hne]

/-- New messages are not among those still to come. -/
lemma PagingInv.remaining_room {all' trimmed' : List HistoryRecord} (h : PagingInv s all trimmed)
      (h' : PagingInv t all' trimmed')
    (hgrown : all <+: all') (hreceived : t.received = s.received) : remaining t = remaining s := by
  by_cases hne : s.received = []
  · rw [remaining, remaining, hreceived, if_pos hne, if_pos hne]
  obtain ⟨older, newer, hsplit⟩ := h.split
  obtain ⟨extra, rfl⟩ := hgrown
  rw [h.remaining_eq hne hsplit]
  apply h'.remaining_eq (by rwa [hreceived])
  rw [hreceived, hsplit, append_assoc]

lemma PagingInv.left_lt (h : PagingInv s all trimmed) (h' : PagingInv t all trimmed)
    (hprogress : Progress s t) : left t < left s := by
  rw [left, left, Prod.Lex.toLex_lt_toLex]
  rcases hprogress with ⟨hreceived, hrank⟩ | ⟨range, hrange, hreceived⟩
  · exact Or.inr ⟨h.remaining_room h' List.prefix_rfl hreceived, hrank⟩
  left
  have hne : t.received ≠ [] := by
    rw [hreceived]
    simp [hrange]
  obtain ⟨older, newer, hsplit⟩ := h'.split
  rw [h'.remaining_eq hne hsplit]
  by_cases hempty : s.received = []
  · rw [remaining, if_pos hempty]
    exact WithTop.coe_lt_top _
  have hfront : all = (older ++ range) ++ s.received ++ newer := by
    rw [hsplit, hreceived]
    simp
  rw [h.remaining_eq hempty hfront, length_append]
  have hpos := length_pos_iff.mpr hrange
  exact WithTop.coe_lt_coe.mpr (by omega)

/-- The room's own steps leave the client and its request as they are. -/
lemma ofRoom_next {action : PagingAction} (hroom : action.OfRoom)
    (hnext : s.next tuning roomId action = some t) :
    t.received = s.received ∧ t.phase = s.phase := by
  cases action with
  | append record =>
    cases hnext
    exact ⟨rfl, rfl⟩
  | write | drain =>
    obtain ⟨log, -, rfl⟩ := map_eq_some_iff.mp hnext
    exact ⟨rfl, rfl⟩
  | fetch limit readerTakes | turnAway | read | deliver readerTakes => exact hroom.elim

/-- A client that keeps asking comes to the start. -/
lemma PagingInv.exists_reachedStart {trace : ℕ → Paging} {limits : ℕ → ℕ}
      (h : PagingInv (trace 0) all trimmed) (hne : all ≠ [])
    (hlimits : ∀ n, 1 ≤ limits n) (hfair : FairRun tuning roomId limits trace) :
    ∃ n, (trace n).reachedStart = true := by
  apply exists_goal_of_measure (fun s => ∃ all trimmed, PagingInv s all trimmed ∧ all ≠ [])
    (fun s => s.reachedStart = true) (fun s t => t = s.advance roomId limits) left
    ⟨all, trimmed, h, hne⟩ _ fun n _ => hfair.fair n
  rintro n ⟨all, trimmed, h, hne⟩ hstart
  rw [Bool.not_eq_true] at hstart
  have hretained : (trace n).log.retained ≠ [] := by rwa [h.log.retained_eq]
  obtain ⟨hinv, hprogress⟩ := h.advance hlimits hstart hretained roomId
  have hlt := h.left_lt hinv hprogress
  by_cases hacts : trace (n + 1) = (trace n).advance roomId limits
  · rw [hacts]
    exact ⟨⟨all, trimmed, hinv, hne⟩, hlt.le, fun _ => hlt⟩
  obtain ⟨action, hroom, hallowed, hnext⟩ := (hfair.step n).resolve_left hacts
  obtain ⟨hreceived, hphase⟩ := ofRoom_next hroom hnext
  obtain ⟨all', trimmed', hinv', hgrown⟩ := h.next hallowed hnext
  refine ⟨⟨all', trimmed', hinv', ?_⟩, ?_, fun heq => absurd heq hacts⟩
  · rintro rfl
    exact hne (List.prefix_nil.mp hgrown)
  · rw [left, left, h.remaining_room hinv' hgrown hreceived, hphase]

end Runs

/-! ## Paging is complete -/

/-- Along any run the client has a stretch of the room's messages, each of them once, and a page
says that it begins at the start exactly when it holds the oldest message of the room.  At the
start the client has every message that was there when it began to ask.  From any point on, with
any page limits and whatever the room does in between, a client that keeps asking comes to the
start. -/
theorem paging_complete {tuning : StoreTuning} {roomId : RoomId} {start s : Paging}
      (opened : start.log.Opened)
    (fresh : start.phase = .idle ∧ start.pages = [] ∧ start.base = none)
    (run : Reachable (Paging.next tuning roomId) Paging.Allowed start s) :
    (∃ older newer, s.log.retained = older ++ s.received ++ newer) ∧
    s.received.Pairwise (fun a b => a.messageId < b.messageId) ∧
    (∀ page ∈ s.pages, page.atStart = true ↔ ∃ oldest, s.log.retained.head? = some oldest ∧
      oldest ∈ page.records) ∧
    (s.reachedStart = true → ∀ base, s.base = some base → base <+: s.received) ∧
    (s.log.retained ≠ [] → ∀ limits : ℕ → ℕ, (∀ n, 1 ≤ limits n) →
      ∀ trace : ℕ → Paging, trace 0 = s → FairRun tuning roomId limits trace →
      ∃ n, (trace n).reachedStart = true) := by
  obtain ⟨all, trimmed, h⟩ := PagingInv.of_reachable opened fresh run
  rw [h.log.retained_eq]
  refine ⟨h.split, h.received_ascending, fun page => h.atStart_iff, ?_, ?_⟩
  · exact fun hreached base => h.reachedStart hreached
  · rintro hne limits hlimits trace rfl hfair
    exact h.exists_reachedStart hne hlimits hfair

namespace PagingSample

def tuning : StoreTuning := ⟨1024, 1⟩

def first : HistoryRecord := ⟨1, [10]⟩

def second : HistoryRecord := ⟨2, [20]⟩

/-- A room with a rotated log, an active log and both of its messages in memory. -/
def start : Paging where
  log := {
    history := [first, second]
    active := [second]
    segments := [⟨1, [first]⟩]
    pendingLogWrites := 0
    writes := []
    written := [second]
    events := [] }
  phase := .idle
  pages := []
  base := none

lemma start_opened : start.log.Opened :=
  ⟨by decide, by decide, by decide, by decide, by decide, rfl⟩

/-- The first page is planned in memory, and the window is trimmed before it is delivered. -/
def run : Paging :=
  after (Paging.next tuning 7) start
    [.fetch 2 true, .append ⟨3, [30]⟩, .write, .drain, .deliver true, .read, .deliver true,
      .fetch 1 true, .read, .deliver true]

end PagingSample

open PagingSample in
theorem paging_complete_sample :
    run.reachedStart = true ∧ [first, second] <+: run.received ∧
    (∃ n, ((Paging.advance 7 fun _ => 1)^[n] start).reachedStart = true) := by
  have hreachable : Reachable (Paging.next tuning 7) Paging.Allowed start run :=
    reachable_after (by decide +kernel)
  have hreached : run.reachedStart = true := by decide +kernel
  obtain ⟨-, -, -, hbase, -⟩ := paging_complete start_opened ⟨rfl, rfl, rfl⟩ hreachable
  have hrefl : Reachable (Paging.next tuning 7) Paging.Allowed start start := Reachable.refl start
  obtain ⟨-, -, -, -, hfair⟩ := paging_complete start_opened ⟨rfl, rfl, rfl⟩ hrefl
  refine ⟨hreached, hbase hreached _ (by decide +kernel), ?_⟩
  apply hfair (by decide) (fun _ => 1) (fun _ => le_rfl) _ rfl
  exact ⟨fun n => Or.inl (Function.iterate_succ_apply' _ n start), fun n =>
    ⟨n, le_rfl, Function.iterate_succ_apply' _ n start⟩⟩

end Chatt.RoomHistory
