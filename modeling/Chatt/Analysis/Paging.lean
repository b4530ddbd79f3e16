import Chatt.Analysis.RoomLog

/-!
# Paging reaches every message

At any time the room's messages are, in the order of their ids, those the client has not come
to (`older`), those its request still owes it (`owed`), those it has received, and newer ones.
A page that the window no longer holds is on disk as a whole, so the rest of it is read from
there and continues where the client is.
-/

namespace Chatt.RoomHistory

open Lib List Option

variable {rest : List (List HistoryRecord)}
variable {ranges : List (List HistoryRecord)} {nextChunk : ℕ}

/-! ## The bound of a request -/

section Bound

variable {all front received newer : List HistoryRecord}

/-- The messages before the oldest one received. -/
lemma filter_before_of_ne (hascending : Ascending all) (hsplit : all = front ++ received ++ newer)
    (hne : received ≠ []) :
    all.filter (below (received.head?.map HistoryRecord.messageId)) = front := by
  obtain ⟨oldest, rest, rfl⟩ := exists_cons_of_ne_nil hne
  rw [hsplit, append_assoc, cons_append] at hascending ⊢
  exact filter_lt_of_append hascending

/-- The messages below the bound of a client. -/
lemma filter_before {s : Paging} {trimmed : List HistoryRecord} (hlog : LogInv s.log all trimmed)
      (hsplit : all = front ++ s.received ++ newer) :
    ∃ newer', all = all.filter (below s.before) ++ s.received ++ newer' ∧
    (s.received ≠ [] → all.filter (below s.before) = front) ∧
      (s.received = [] → all.filter (below s.before) = all) := by
  have hfront := filter_before_of_ne hlog.ascending hsplit
  unfold Paging.before
  generalize s.received = received at *
  cases received with
  | nil =>
    have hwhole : all.filter (below none) = all := by
      rw [filter_eq_self]
      intro record hmem
      simpa [below] using hlog.bounded record hmem
    refine ⟨[], ?_, hfront, fun _ => hwhole⟩
    rw [head?_nil, map_none, hwhole, append_nil, append_nil]
  | cons oldest rest =>
    refine ⟨newer, ?_, hfront, fun hnil => absurd hnil (cons_ne_nil _ _)⟩
    rw [hfront (cons_ne_nil _ _)]
    exact hsplit

/-- Records in front of one below the bound are below it. -/
lemma filter_below_eq_self {older later : List HistoryRecord} {before : Option ℕ}
      (hascending : Ascending (older ++ later))
    (hlater : later.filter (below before) ≠ []) : older.filter (below before) = older := by
  obtain ⟨record, hrecord⟩ := exists_mem_of_ne_nil _ hlater
  obtain ⟨hmem, hlt⟩ := mem_filter.mp hrecord
  rw [filter_eq_self]
  intro other hother
  have hcross : other.messageId < record.messageId :=
    (pairwise_append.mp hascending).2.2 other hother record hmem
  simp only [below, decide_eq_true_eq] at hlt ⊢
  omega

end Bound

/-! ## A page from disk -/

section DiskPage

variable {log : DurableLog} {all trimmed : List HistoryRecord} {roomId : RoomId}
  {before : Option ℕ} {limit targetBytes : ℕ}

/-- The page is the newest part of what is on disk below the bound, and it says that it begins
at the start exactly when it is all of that. -/
lemma LogInv.diskPage (h : LogInv log all trimmed) (hlimit : 1 ≤ limit)
      (hbelow : log.durable.filter (below before) ≠ []) :
    ∃ request older, (Retention.durable log).diskFetchRequest 0 roomId before limit targetBytes =
      some request ∧
      log.durable.filter (below before) = older ++ selectRecords request ∧
      selectRecords request ≠ [] ∧
      ((selectRecords request).head?.map HistoryRecord.messageId = some request.oldestDurableId ↔
        older = []) := by
  obtain ⟨request, hrequest, hselect, holdest⟩ := diskFetchRequest_eq h.filesOk 0 hbelow
  obtain ⟨older, holder⟩ := exists_trimToLimit limit (log.durable.filter (below before))
  rw [← hselect] at holder
  have hne : selectRecords request ≠ [] := by
    rw [hselect]
    exact trimToLimit_ne_nil hlimit hbelow
  refine ⟨request, older, hrequest, holder, hne, ?_⟩
  -- the first record on disk is the first one below the bound
  obtain ⟨first, rest, hdurable⟩ : ∃ first rest, log.durable = first :: rest := by
    apply exists_cons_of_ne_nil
    rintro hnil
    rw [hnil] at hbelow
    exact hbelow rfl
  have hascending := h.filesOk.ascending
  rw [hdurable] at hascending
  have hfirst : below before first = true := by
    obtain ⟨record, hrecord⟩ := exists_mem_of_ne_nil _ hbelow
    obtain ⟨hmem, hlt⟩ := mem_filter.mp hrecord
    rw [hdurable] at hmem
    rcases mem_cons.mp hmem with rfl | hmem
    · exact hlt
    have hafter : first.messageId < record.messageId := (pairwise_cons.mp hascending).1 record hmem
    simp only [below, decide_eq_true_eq] at hlt ⊢
    omega
  have hid : request.oldestDurableId = first.messageId := by
    rw [hdurable] at holdest
    exact some.inj holdest
  rw [hdurable, filter_cons_of_pos hfirst] at holder
  rw [hid]
  constructor
  · intro hhead
    cases older with
    | nil => rfl
    | cons other others =>
      rw [cons_append, List.cons.injEq] at holder
      obtain ⟨record, hrecord, hsame⟩ := map_eq_some_iff.mp hhead
      have hmem : record ∈ rest := by
        have : record ∈ rest.filter (below before) := by
          rw [holder.2]
          exact mem_append_right _ (mem_of_mem_head? hrecord)
        exact (mem_filter.mp this).1
      have hafter : first.messageId < record.messageId :=
        (pairwise_cons.mp hascending).1 record hmem
      omega
  · rintro rfl
    rw [nil_append] at holder
    rw [← holder]
    rfl

/-- The window leaves something out exactly when something was trimmed. -/
lemma LogInv.hasUnresidentHistory_iff (h : LogInv log all trimmed) (hne : log.history ≠ []) :
    (Retention.durable log).hasUnresidentHistory = false ↔ trimmed = [] := by
  obtain ⟨kept, waiting, hdurable, hhistory, -⟩ := h.exists_durable
  obtain ⟨oldest, rest, hwindow⟩ := exists_cons_of_ne_nil hne
  have holdest : (Retention.durable log).oldestDurableId =
      log.durable.head?.map HistoryRecord.messageId := h.filesOk.oldestDurableId_eq
  simp only [Retention.hasUnresidentHistory, holdest, Retention.history, bind_some, hwindow,
    head?_cons, map_some, hdurable]
  cases trimmed with
  | nil =>
    cases kept with
    | nil => simp
    | cons first others =>
      rw [hwindow, cons_append, List.cons.injEq] at hhistory
      simp [hhistory.1]
  | cons first others =>
    have hascending := h.ascending
    rw [h.window, hwindow] at hascending
    have hlt : first.messageId < oldest.messageId :=
      (pairwise_append.mp hascending).2.2 first mem_cons_self oldest
        mem_cons_self
    simp [hlt]

end DiskPage

/-! ## The invariant -/

/-- A page that is over. -/
structure PageOk (all : List HistoryRecord) (page : Page) : Prop where
  complete : page.complete = true
  start : page.atStart = true ↔ ∃ oldest, all.head? = some oldest ∧ oldest ∈ page.records
  served : page.refused = false → page.records ≠ []

/-- No request is under way. -/
structure Idle (s : Paging) (all : List HistoryRecord) : Prop where
  pages : ∀ page ∈ s.pages, PageOk all page
  split : ∃ older newer, all = older ++ s.received ++ newer ∧
    (s.received ≠ [] → ∀ base, s.base = some base → base <+: older ++ s.received) ∧
    (s.reachedStart = true ↔ s.received ≠ [] ∧ older = [])

/-- The last page is not over, the others are, and none of them began at the start. -/
def Asked (s : Paging) (all : List HistoryRecord) : Prop :=
  ∃ page closed, s.pages = page :: closed ∧ page.complete = false ∧ page.atStart = false ∧
    (∀ page ∈ closed, PageOk all page) ∧ closed.any Page.atStart = false

/-- A request owes the client `owed`. -/
structure Owes (s : Paging) (all older owed : List HistoryRecord) : Prop where
  asked : Asked s all
  split : ∃ newer, all = older ++ owed ++ s.received ++ newer
  base : ∀ base, s.base = some base → base <+: older ++ owed ++ s.received
  started : s.base ≠ none
  owed : owed ≠ []

/-- What the server holds for the request. -/
def ServingOk (s : Paging) (trimmed older owed : List HistoryRecord) : Phase → Prop
  | .idle => False
  | .reading request =>
    selectRecords request = owed ∧
    ((selectRecords request).head?.map HistoryRecord.messageId = some request.oldestDurableId ↔
    older = [])
  | .delivering (.encoded payloads) =>
    ∃ roomId before atStart ranges, payloads = payloadsOf roomId before atStart ranges ∧
      ranges.reverse.flatten = owed ∧ (∀ range ∈ ranges, RangeOk range) ∧
      (atStart = true ↔ older = [])
  | .delivering (.resident plan nextChunk) =>
    ∃ ranges, plan.chunks.drop nextChunk = specsOf plan.atStart ranges ∧
      ranges.reverse.flatten = owed ∧ (∀ range ∈ ranges, RangeOk range) ∧
      (plan.atStart = true ↔ older = []) ∧ (plan.resumeAfter nextChunk).1 = s.before ∧
      -- the window holds the page, or the disk does
      (trimmed.length ≤ older.length ∨ older.length + owed.length ≤ s.log.durable.length)

structure PagingInv (s : Paging) (all trimmed : List HistoryRecord) : Prop where
  log : LogInv s.log all trimmed
  base : ∀ base, s.base = some base → base <+: all
  started : s.base = none → s.received = []
  phase : (s.phase = .idle ∧ Idle s all) ∨ ∃ older owed, Owes s all older owed ∧
    ServingOk s trimmed older owed s.phase

namespace PagingInv

variable {s : Paging} {all trimmed : List HistoryRecord}

lemma idle (h : PagingInv s all trimmed) (hphase : s.phase = .idle) : Idle s all := by
  rcases h.phase with ⟨-, hidle⟩ | ⟨older, owed, -, hserving⟩
  · exact hidle
  · rw [hphase] at hserving
    exact hserving.elim

lemma serving (h : PagingInv s all trimmed) (hphase : s.phase ≠ .idle) :
    ∃ older owed, Owes s all older owed ∧ ServingOk s trimmed older owed s.phase := by
  rcases h.phase with ⟨hidle, -⟩ | hserving
  · exact absurd hidle hphase
  · exact hserving

end PagingInv

/-! ## Chunks reach the client -/

section Client

variable {s : Paging} {all all' older owed range : List HistoryRecord} {chunk : HistoryChunk}

lemma PageOk.mono {page : Page} (h : PageOk all page) (hsub : page.records ⊆ all)
    (hgrown : all <+: all') : PageOk all' page where
  complete := h.complete
  served := h.served
  start := by
    rw [h.start]
    obtain ⟨extra, rfl⟩ := hgrown
    cases all with
    | nil =>
      have hnil : page.records = [] := eq_nil_of_subset_nil hsub
      simp [hnil]
    | cons first rest => simp

/-- The records of a page are among those received. -/
lemma records_subset_received {page : Page} (hmem : page ∈ s.pages) : page.records ⊆ s.received :=
  fun _ hrecord => mem_flatMap.mpr ⟨page, hmem, hrecord⟩

lemma Owes.ascending (h : Owes s all older owed) (hascending : Ascending all) :
    Ascending (older ++ (owed ++ s.received)) := by
  obtain ⟨newer, hsplit⟩ := h.split
  rw [hsplit, append_assoc older, append_assoc] at hascending
  rw [← append_assoc] at hascending
  exact (pairwise_append.mp hascending).1

/-- The oldest message is among the last ones received exactly when nothing is older. -/
lemma oldest_mem_iff {front back : List HistoryRecord} (hascending : Ascending all)
      (hsplit : all = front ++ range ++ back)
    (hrange : range ≠ []) : (∃ oldest, all.head? = some oldest ∧ oldest ∈ range) ↔ front = [] := by
  constructor
  · rintro ⟨oldest, hhead, hmem⟩
    cases front with
    | nil => rfl
    | cons first rest =>
      rw [hsplit] at hhead hascending
      have hfirst : first = oldest := by simpa using hhead
      have hnodup := hascending.nodup
      rw [append_assoc] at hnodup
      exact absurd hfirst ((nodup_append.mp hnodup).2.2 first mem_cons_self oldest
        (mem_append_left _ hmem))
  · rintro rfl
    obtain ⟨oldest, rest, rfl⟩ := exists_cons_of_ne_nil hrange
    exact ⟨oldest, by rw [hsplit]; rfl, mem_cons_self⟩

/-- The chunk is put in front of the page. -/
lemma received_receive (chunk : HistoryChunk) (phase : Phase) (refused : Bool)
      (hpages : s.pages ≠ []) :
    Paging.received { s with phase, pages := Paging.receive chunk refused s.pages } =
      chunk.records ++ s.received := by
  obtain ⟨page, closed, hcons⟩ := exists_cons_of_ne_nil hpages
  simp [Paging.received, hcons, Paging.receive]

/-- Where the records of the page under way are. -/
lemma Owes.exists_page (h : Owes s all older owed) :
    ∃ page closed newer, s.pages = page :: closed ∧ (∀ page ∈ closed, PageOk all page) ∧
    closed.any Page.atStart = false ∧ all = older ++ owed ++ s.received ++ newer ∧
    all = older ++ owed ++ page.records ++ (closed.flatMap Page.records ++ newer) := by
  obtain ⟨page, closed, hcons, -, -, hclosed, hnone⟩ := h.asked
  obtain ⟨newer, hsplit⟩ := h.split
  refine ⟨page, closed, newer, hcons, hclosed, hnone, hsplit, ?_⟩
  rw [hsplit, Paging.received, hcons]
  simp

lemma Owes.pages_ne (h : Owes s all older owed) : s.pages ≠ [] := by
  obtain ⟨page, closed, hcons, -⟩ := h.asked
  rw [hcons]
  exact cons_ne_nil _ _

/-- A chunk that is not the last of its page. -/
lemma Owes.receive (h : Owes s all older (owed ++ range)) (howed : owed ≠ []) (phase : Phase)
      (hrecords : chunk.records = range) (hcomplete : chunk.complete = false)
    (hstart : chunk.atStart = false) :
    Owes { s with phase, pages := Paging.receive chunk false s.pages } all older owed := by
  have hreceived := received_receive chunk phase false h.pages_ne
  rw [hrecords] at hreceived
  constructor
  case asked =>
    obtain ⟨page, closed, hcons, -, -, hclosed, hnone⟩ := h.asked
    rw [hcons]
    exact ⟨_, closed, rfl, hcomplete, hstart, hclosed, hnone⟩
  case split =>
    obtain ⟨newer, hsplit⟩ := h.split
    refine ⟨newer, ?_⟩
    rw [hreceived, hsplit]
    simp
  case base =>
    intro base hbase
    have hgrown := h.base base hbase
    rw [hreceived]
    simpa using hgrown
  case started => exact h.started
  case owed => exact howed

/-- The last chunk of a page. -/
lemma Owes.finish (h : Owes s all older range) (hascending : Ascending all)
      (hrecords : chunk.records = range) (hcomplete : chunk.complete = true)
    (hstart : chunk.atStart = true ↔ older = []) :
    Idle { s with phase := .idle, pages := Paging.receive chunk false s.pages } all := by
  have hreceived := received_receive chunk .idle false h.pages_ne
  rw [hrecords] at hreceived
  obtain ⟨page, closed, newer, hcons, hclosed, hnone, hsplit, hall⟩ := h.exists_page
  rw [append_assoc older] at hall
  have hne : range ++ page.records ≠ [] := by simp [h.owed]
  constructor
  case pages =>
    intro other hother
    simp only [hcons, Paging.receive, mem_cons] at hother
    rcases hother with rfl | hother
    · refine ⟨hcomplete, ?_, fun _ => ?_⟩
      · rw [hrecords, oldest_mem_iff hascending hall hne]
        exact hstart
      · rw [hrecords]
        exact hne
    · exact hclosed other hother
  case split =>
    refine ⟨older, newer, ?_, ?_, ?_⟩
    · rw [hreceived, hsplit]
      simp
    · intro _ base hbase
      rw [hreceived]
      simpa using h.base base hbase
    · have hreach : Paging.reachedStart
          { s with phase := .idle, pages := Paging.receive chunk false s.pages } =
          chunk.atStart := by
        simp [Paging.reachedStart, hcons, Paging.receive, hnone]
      rw [hreach, hstart, hreceived]
      simp [h.owed]

/-- A request that is turned away leaves the client where it is. -/
lemma Owes.refuse (h : Owes s all older owed) (hascending : Ascending all) (roomId : RoomId) :
    Idle (s.refuse roomId) all := by
  have hreceived : (s.refuse roomId).received = s.received :=
    received_receive (emptyChunk roomId s.before) .idle true h.pages_ne
  obtain ⟨page, closed, newer, hcons, hclosed, hnone, hsplit, hall⟩ := h.exists_page
  constructor
  case pages =>
    intro other hother
    simp only [Paging.refuse, hcons, Paging.receive, mem_cons] at hother
    rcases hother with rfl | hother
    · refine ⟨rfl, ?_, fun h => (by cases h)⟩
      -- the oldest message is owed still or older
      simp only [emptyChunk, nil_append, Bool.false_eq_true, false_iff]
      intro holdest
      by_cases hnil : page.records = []
      · obtain ⟨oldest, -, hmem⟩ := holdest
        rw [hnil] at hmem
        cases hmem
      · have := (oldest_mem_iff hascending hall hnil).mp holdest
        exact h.owed (append_eq_nil_iff.mp this).2
    · exact hclosed other hother
  case split =>
    refine ⟨older ++ owed, newer, ?_, ?_, ?_⟩
    · rw [hreceived]
      exact hsplit
    · intro _ base hbase
      rw [hreceived]
      exact h.base base hbase
    · have hreach : (s.refuse roomId).reachedStart = false := by
        simpa [Paging.reachedStart, Paging.refuse, hcons, Paging.receive, emptyChunk] using hnone
      rw [hreach]
      simp [h.owed]

end Client

/-! ## Steps of the room -/

section Room

variable {s : Paging} {all all' trimmed trimmed' older owed : List HistoryRecord}
  {log' : DurableLog}

lemma Idle.mono (h : Idle s all) (hgrown : all <+: all') (log' : DurableLog) :
    Idle { s with log := log' } all' where
  pages := by
    obtain ⟨older, newer, hsplit, -⟩ := h.split
    intro page hmem
    refine (h.pages page hmem).mono ?_ hgrown
    intro record hrecord
    rw [hsplit]
    exact mem_append_left _ (mem_append_right _ (records_subset_received hmem hrecord))
  split := by
    obtain ⟨older, newer, hsplit, hrest⟩ := h.split
    obtain ⟨extra, rfl⟩ := hgrown
    refine ⟨older, newer ++ extra, ?_, hrest⟩
    show all ++ extra = older ++ s.received ++ (newer ++ extra)
    rw [hsplit, append_assoc _ newer]

lemma Owes.mono (h : Owes s all older owed) (hgrown : all <+: all') (log' : DurableLog) :
    Owes { s with log := log' } all' older owed where
  asked := by
    obtain ⟨page, closed, hcons, hcomplete, hstart, hclosed, hnone⟩ := h.asked
    obtain ⟨newer, hsplit⟩ := h.split
    refine ⟨page, closed, hcons, hcomplete, hstart, fun other hother => ?_, hnone⟩
    refine (hclosed other hother).mono ?_ hgrown
    intro record hrecord
    have hmem : other ∈ s.pages := hcons ▸ mem_cons_of_mem _ hother
    rw [hsplit]
    exact mem_append_left _ (mem_append_right _ (records_subset_received hmem hrecord))
  split := by
    obtain ⟨newer, rfl⟩ := h.split
    obtain ⟨extra, rfl⟩ := hgrown
    exact ⟨newer ++ extra, append_assoc _ newer extra⟩
  base := h.base
  started := h.started
  owed := h.owed

/-- Whatever the room does, what is owed stays where the server will find it. -/
lemma PagingInv.room (h : PagingInv s all trimmed) (hlog : LogInv log' all' trimmed')
      (hgrown : all <+: all')
    (hdurable : s.log.durable <+: log'.durable)
    (htrimmed : trimmed' = trimmed ∨ log'.durable = all') :
    PagingInv { s with log := log' } all' trimmed' where
  log := hlog
  base base hbase := (h.base base hbase).trans hgrown
  started := h.started
  phase := by
    rcases h.phase with ⟨hphase, hidle⟩ | ⟨older, owed, howes, hserving⟩
    · exact Or.inl ⟨hphase, hidle.mono hgrown log'⟩
    right
    refine ⟨older, owed, howes.mono hgrown log', ?_⟩
    revert hserving
    rcases s.phase with _ | request | (⟨plan, nextChunk⟩ | payloads)
    · exact id
    · exact id
    · rintro ⟨ranges, hchunks, hranges, hok, hstart, hresume, hkept⟩
      refine ⟨ranges, hchunks, hranges, hok, hstart, hresume, ?_⟩
      rcases htrimmed with rfl | hwhole
      · rcases hkept with hwindow | hdisk
        · exact Or.inl hwindow
        · exact Or.inr (hdisk.trans hdurable.length_le)
      · right
        obtain ⟨newer, hsplit⟩ := howes.split
        have hlength := (hwhole ▸ hgrown).length_le
        rw [hsplit] at hlength
        simp only [length_append] at hlength
        show older.length + owed.length ≤ log'.durable.length
        omega
    · exact id

end Room

/-! ## Steps of a request -/

section Request

variable {s : Paging} {all trimmed older owed : List HistoryRecord} {roomId : RoomId}
  {limit : ℕ}

/-- A request to the reader for what is on disk below the client's bound. -/
lemma LogInv.ask {log : DurableLog} (hlog : LogInv log all trimmed) {below' : List HistoryRecord}
      (hbelow : log.durable.filter (below s.before) = below')
    (hne : below' ≠ []) (hlimit : 1 ≤ limit) (hasked : Asked s all) (hstarted : s.base ≠ none)
    (hsplit : ∃ newer, all = below' ++ s.received ++ newer)
    (hbase : ∀ base, s.base = some base → base <+: below' ++ s.received) :
    ∀ roomId, ∃ request, (Retention.durable log).diskFetchRequest 0 roomId s.before limit
      historyChunkTargetBytes = some request ∧
      ∃ older owed, Owes s all older owed ∧ ServingOk s trimmed older owed (.reading request) := by
  intro roomId
  subst hbelow
  obtain ⟨request, older, hrequest, hpage, hselected, hstart⟩ := hlog.diskPage hlimit hne
  refine ⟨request, hrequest, older, selectRecords request,
    ⟨hasked, ?_, ?_, hstarted, hselected⟩, rfl, hstart⟩
  · rw [← hpage]
    exact hsplit
  · rw [← hpage]
    exact hbase

/-- A page of the window. -/
lemma LogInv.plan (hlog : LogInv s.log all trimmed) (hlimit : 1 ≤ limit)
      (hwindow : s.log.history.filter (below s.before) ≠ [])
    (hasked : Asked s all) (hstarted : s.base ≠ none)
    (hsplit : ∃ newer, all = all.filter (below s.before) ++ s.received ++ newer)
    (hbase : ∀ base, s.base = some base → base <+: all.filter (below s.before) ++ s.received) :
    ∀ roomId, ∃ plan, (Retention.durable s.log).historyFetchPlanBefore roomId s.before limit
      historyChunkTargetBytes = plan ∧ plan.messageCount ≠ 0 ∧
      ∃ older owed, Owes s all older owed ∧
      ServingOk s trimmed older owed (.delivering (.resident plan 0)) := by
  intro roomId
  obtain ⟨plan, ranges, hplan, hbefore, -, hcount, hchunks, hranges, hflatten, hok, hstart⟩ :=
    @historyFetchPlanBefore_resident roomId s.before limit historyChunkTargetBytes s.log
      hlog.history_ascending hlog.history_bounded hlimit hwindow
  have hhistory : s.log.history ≠ [] := by
    rintro hnil
    rw [hnil] at hwindow
    exact hwindow rfl
  have hascending := hlog.ascending
  rw [hlog.window] at hascending
  -- the window reaches below the bound, so what was trimmed is below it
  have hbelow : all.filter (below s.before) = trimmed ++ s.log.history.filter (below s.before) := by
    rw [hlog.window, filter_append, filter_below_eq_self hascending hwindow]
  obtain ⟨front, hfront⟩ := exists_trimToLimit limit (s.log.history.filter (below s.before))
  rw [← hflatten] at hfront
  have hpage : all.filter (below s.before) = (trimmed ++ front) ++ ranges.reverse.flatten := by
    rw [hbelow, hfront, append_assoc]
  have howed : ranges.reverse.flatten ≠ [] := by
    rw [hflatten]
    exact trimToLimit_ne_nil hlimit hwindow
  refine ⟨plan, hplan, hcount, trimmed ++ front, ranges.reverse.flatten,
    ⟨hasked, hpage ▸ hsplit, hpage ▸ hbase, hstarted, howed⟩, ranges, ?_, rfl, hok, ?_, ?_, ?_⟩
  · rw [drop_zero, hchunks]
  · rw [hstart, hlog.hasUnresidentHistory_iff hhistory, append_eq_nil_iff, and_comm]
    have hlength := congrArg List.length hfront
    have hselected := length_trimToLimit limit (s.log.history.filter (below s.before))
    rw [← hflatten] at hselected
    rw [length_append] at hlength
    have hshort : (s.log.history.filter (below s.before)).length ≤ limit ↔ front = [] := by
      rw [← length_eq_zero_iff]
      omega
    rw [hshort]
  · show (none : Option ℕ).or plan.before = s.before
    rw [hbefore]
    rfl
  · left
    rw [length_append]
    omega

lemma Owes.withPhase (h : Owes s all older owed) (phase : Phase) :
    Owes { s with phase } all older owed :=
  { h with }

/-! ### The request is made -/

lemma before_newPage (s : Paging) : s.newPage.before = s.before := rfl

lemma base_newPage (s : Paging) : s.newPage.base ≠ none := by
  unfold Paging.newPage
  cases s.base <;> simp

section

variable (h : PagingInv s all trimmed)

include h

lemma PagingInv.newPage_base {base : List HistoryRecord} (hbase : s.newPage.base = some base) :
    base <+: all ∧ (s.received ≠ [] → s.base = some base) := by
  cases hold : s.base with
  | none =>
    simp only [Paging.newPage, hold, none_or, some.injEq] at hbase
    rw [← hbase, h.log.retained_eq]
    exact ⟨List.prefix_rfl, fun hne => absurd (h.started hold) hne⟩
  | some old =>
    simp only [Paging.newPage, hold, some_or, some.injEq] at hbase
    subst hbase
    exact ⟨h.base old hold, fun _ => rfl⟩

/-- Everything below the client's bound is still to come, and it is not nothing. -/
lemma PagingInv.below_before (hphase : s.phase = .idle) (hstart : s.reachedStart = false)
    (hretained : s.log.retained ≠ []) : all.filter (below s.before) ≠ [] ∧
    (∃ newer, all = all.filter (below s.before) ++ s.received ++ newer) ∧
    ∀ base, s.newPage.base = some base → base <+: all.filter (below s.before) ++ s.received := by
  obtain ⟨older, newer, hsplit, hbase, hreached⟩ := (h.idle hphase).split
  obtain ⟨newer', hsplit', hsome, hnone⟩ := filter_before h.log hsplit
  rw [h.log.retained_eq] at hretained
  by_cases hempty : s.received = []
  · refine ⟨?_, ⟨newer', hsplit'⟩, fun base heq => ?_⟩
    · rw [hnone hempty]
      exact hretained
    · rw [hempty, append_nil, hnone hempty]
      exact (h.newPage_base heq).1
  · refine ⟨?_, ⟨newer', hsplit'⟩, fun base heq => ?_⟩
    · rw [hsome hempty]
      rintro rfl
      rw [hreached.mpr ⟨hempty, rfl⟩] at hstart
      cases hstart
    · rw [hsome hempty]
      exact hbase hempty base ((h.newPage_base heq).2 hempty)

lemma PagingInv.newPage_asked (hphase : s.phase = .idle) (hstart : s.reachedStart = false) :
    Asked s.newPage all :=
  ⟨_, s.pages, rfl, rfl, rfl, (h.idle hphase).pages, hstart⟩

/-- A page is asked for. -/
lemma PagingInv.fetch (hphase : s.phase = .idle) (hlimit : 1 ≤ limit)
      (hstart : s.reachedStart = false)
    (hretained : s.log.retained ≠ []) (readerTakes : Bool) :
    PagingInv (s.fetch roomId limit readerTakes) all trimmed := by
  obtain ⟨hbelow, hsplit, hgrown⟩ := h.below_before hphase hstart hretained
  have hasked := h.newPage_asked hphase hstart
  have hbase : ∀ base, s.newPage.base = some base → base <+: all := fun base heq =>
      (h.newPage_base heq).1
  have hstarted : s.newPage.base = none → s.newPage.received = [] := fun hnone =>
      absurd hnone (base_newPage s)
  have hlog : LogInv s.newPage.log all trimmed := h.log
  unfold Paging.fetch
  simp only
  by_cases hwindow : s.log.history.filter (below s.before) = []
  · have hempty :
        ((Retention.durable s.newPage.log).historyFetchPlanBefore roomId s.newPage.before limit
        historyChunkTargetBytes).messageCount = 0 :=
      historyFetchPlanBefore_empty hlog.history_ascending hlog.history_bounded hwindow
    -- nothing in the window is below the bound, so everything below it is on disk
    obtain ⟨kept, waiting, hdurable, hhistory, hall⟩ := h.log.exists_durable
    rw [hhistory, filter_append, append_eq_nil_iff] at hwindow
    have hdisk : s.newPage.log.durable.filter (below s.newPage.before) =
        all.filter (below s.before) := by
      rw [hall, filter_append, before_newPage, hwindow.2, append_nil]
      rfl
    obtain ⟨request, hrequest, older, owed, howes, hserving⟩ :=
      hlog.ask hdisk hbelow hlimit hasked (base_newPage s) hsplit hgrown roomId
    rw [if_pos hempty, hrequest]
    cases readerTakes with
    | true => exact ⟨hlog, hbase, hstarted, Or.inr ⟨older, owed, howes.withPhase _, hserving⟩⟩
    | false => exact ⟨hlog, hbase, hstarted, Or.inl ⟨rfl, howes.refuse hlog.ascending roomId⟩⟩
  · obtain ⟨plan, hplan, hcount, older, owed, howes, hserving⟩ :=
      hlog.plan hlimit hwindow hasked (base_newPage s) hsplit hgrown roomId
    rw [hplan, if_neg hcount]
    exact ⟨hlog, hbase, hstarted, Or.inr ⟨older, owed, howes.withPhase _, hserving⟩⟩

/-- A request that is turned away at once. -/
lemma PagingInv.turnAway (hphase : s.phase = .idle) (roomId : RoomId) :
    PagingInv (s.newPage.refuse roomId) all trimmed := by
  have hidle := h.idle hphase
  obtain ⟨older, newer, hsplit, hbase, hreached⟩ := hidle.split
  refine ⟨h.log, fun base heq => (h.newPage_base heq).1, fun hnone => absurd hnone (base_newPage s),
    Or.inl ⟨rfl, ?_, older, newer, hsplit, ?_, hreached⟩⟩
  · intro page hmem
    simp only [Paging.refuse, Paging.newPage, Paging.receive, emptyChunk, append_nil,
      mem_cons] at hmem
    rcases hmem with rfl | hmem
    · exact ⟨rfl, by simp, fun h => (by cases h)⟩
    · exact hidle.pages page hmem
  · intro hne base heq
    exact hbase hne base ((h.newPage_base heq).2 hne)

/-- The reader has read the page. -/
lemma PagingInv.read {request : HistoryReadRequest} (hphase : s.phase = .reading request) :
    PagingInv { s with phase := .delivering (.encoded (execute request)) } all trimmed := by
  obtain ⟨older, owed, howes, hserving⟩ := h.serving (by simp [hphase])
  rw [hphase] at hserving
  obtain ⟨hselected, hstart⟩ := hserving
  have hascending : Ascending (selectRecords request) := by
    have hwhole := howes.ascending h.log.ascending
    rw [hselected]
    exact (pairwise_append.mp (pairwise_append.mp hwhole).2.1).1
  obtain ⟨ranges, atStart, hpayloads, -, hflatten, hok, hflag⟩ :=
    execute_eq (hselected ▸ howes.owed) hascending
  refine { h with phase := Or.inr ⟨older, owed, howes.withPhase _, ?_⟩ }
  exact ⟨_, _, atStart, ranges, hpayloads, hflatten.trans hselected, hok, hflag.trans hstart⟩

end

/-! ### A delivery advances -/

lemma ranges_cons (hne : owed ≠ []) (hflatten : ranges.reverse.flatten = owed) :
    ∃ range rest, ranges = range :: rest ∧ owed = rest.reverse.flatten ++ range := by
  cases ranges with
  | nil => exact absurd hflatten.symm hne
  | cons range rest =>
    refine ⟨range, rest, rfl, ?_⟩
    rw [← hflatten]
    simp

lemma flatten_ne_nil (hne : ranges ≠ []) (hok : ∀ range ∈ ranges, RangeOk range) :
    ranges.reverse.flatten ≠ [] := by
  obtain ⟨range, rest, rfl⟩ := exists_cons_of_ne_nil hne
  have := (hok range mem_cons_self).1
  simp [this]

variable {range : List HistoryRecord}

/-- A chunk is delivered, and the rest of the page stays with its source. -/
lemma PagingInv.chunk (h : PagingInv s all trimmed) {chunk : HistoryChunk} {atStart : Bool}
      {source : HistoryDeliverySource}
    (howes : Owes s all older (rest.reverse.flatten ++ range))
    (hrest : ∀ range ∈ rest, RangeOk range)
    (hchunk : chunk.records = range ∧ chunk.complete = rest.isEmpty ∧
      chunk.atStart = (rest.isEmpty && atStart))
    (hstart : atStart = true ↔ older = []) (hexhausted : source.exhausted = rest.isEmpty)
    (hserving : rest ≠ [] → ServingOk { s with
        phase := .delivering source
        pages := Paging.receive chunk false s.pages } trimmed older rest.reverse.flatten
      (.delivering source)) : PagingInv { s with
      phase := if source.exhausted then .idle else .delivering source
      pages := Paging.receive chunk false s.pages } all trimmed := by
  obtain ⟨hrecords, hcomplete, hflag⟩ := hchunk
  by_cases hlast : rest = []
  · subst hlast
    rw [hexhausted]
    refine ⟨h.log, h.base, ?_, Or.inl ⟨rfl, ?_⟩⟩
    · exact fun hnobase => absurd hnobase howes.started
    · exact howes.finish h.log.ascending hrecords hcomplete (by rw [hflag]; simpa using hstart)
  · have hmore : rest.isEmpty = false := by simpa using hlast
    rw [hexhausted, hmore]
    rw [hmore] at hcomplete hflag
    refine ⟨h.log, h.base, ?_, Or.inr ⟨older, rest.reverse.flatten, ?_, hserving hlast⟩⟩
    · exact fun hnobase => absurd hnobase howes.started
    · exact howes.receive (flatten_ne_nil hlast hrest) _ hrecords hcomplete hflag

variable {plan : HistoryFetchPlan}

/-- A chunk of the window. -/
lemma encode_kept (hlog : LogInv s.log all trimmed)
      (howes : Owes s all older (rest.reverse.flatten ++ range))
    (hrange : RangeOk range)
    (hchunks : plan.chunks.drop nextChunk = specsOf plan.atStart (range :: rest)) :
    (trimmed.length ≤ older.length + rest.reverse.flatten.length ∧
      (Retention.durable s.log).encodeHistoryChunk plan nextChunk =
        .ok { roomId := plan.roomId, before := plan.before
              atStart := rest.isEmpty && plan.atStart, complete := rest.isEmpty
              records := range }) ∨
    (older.length < trimmed.length ∧ (Retention.durable s.log).encodeHistoryChunk plan nextChunk =
      .error .trimmed) := by
  obtain ⟨newer, hsplit⟩ := howes.split
  have hall : trimmed ++ s.log.history = (older ++ rest.reverse.flatten) ++
      (range ++ (s.received ++ newer)) := by
    rw [← hlog.window, hsplit]
    simp
  rw [encodeHistoryChunk_eq hchunks hrange.1]
  by_cases hkept : trimmed.length ≤ older.length + rest.reverse.flatten.length
  · left
    obtain ⟨front, hfront⟩ : trimmed <+: older ++ rest.reverse.flatten :=
      List.prefix_of_prefix_length_le ⟨_, hall⟩ ⟨_, rfl⟩ (by rwa [length_append])
    have hhistory : s.log.history = front ++ range ++ (s.received ++ newer) := by
      rw [← hfront, append_assoc] at hall
      rw [append_cancel_left hall, append_assoc]
    have hne : s.log.history ≠ [] := by
      rw [hhistory]
      simp [hrange.1]
    refine ⟨hkept, ?_⟩
    rw [if_neg hne]
    have hascending := hlog.history_ascending
    rw [hhistory] at hascending ⊢
    exact encodeChunk_of_append hrange hascending
  · right
    -- the first record of the range has been trimmed, and every record of the window is later
    obtain ⟨entry, tail, rfl⟩ := exists_cons_of_ne_nil hrange.1
    obtain ⟨gone, hgone⟩ : (older ++ rest.reverse.flatten) ++ [entry] <+: trimmed := by
      refine List.prefix_of_prefix_length_le ⟨tail ++ (s.received ++ newer), ?_⟩ ⟨_, hall⟩ ?_
      · simp
      · simp only [length_append, length_singleton]
        omega
    refine ⟨by omega, ?_⟩
    split_ifs
    · rfl
    apply encodeChunk_of_trimmed rfl
    intro other hother
    have hascending := hlog.ascending
    rw [hlog.window, ← hgone] at hascending
    refine (pairwise_append.mp hascending).2.2 entry ?_ other hother
    simp

/-- What is left of a page that has been trimmed is on disk, below the client's bound. -/
lemma Owes.on_disk (h : Owes s all older owed) (hlog : LogInv s.log all trimmed)
      (hdisk : older.length + owed.length ≤ s.log.durable.length) :
    s.log.durable.filter (below s.before) ≠ [] ∧
    (∃ newer, all = s.log.durable.filter (below s.before) ++ s.received ++ newer) ∧
    ∀ base, s.base = some base → base <+: s.log.durable.filter (below s.before) ++ s.received := by
  obtain ⟨newer, hsplit⟩ := h.split
  obtain ⟨newer', hsplit', hsome, hnone⟩ := filter_before hlog hsplit
  obtain ⟨extra, hextra⟩ := hlog.durable_isPrefix
  obtain ⟨more, hmore⟩ : older ++ owed <+: s.log.durable := by
    refine List.prefix_of_prefix_length_le ⟨s.received ++ newer, ?_⟩ ⟨extra, hextra⟩ ?_
    · rw [hsplit, append_assoc (older ++ owed)]
    · rwa [length_append]
  by_cases hempty : s.received = []
  · have hwhole : s.log.durable.filter (below s.before) = s.log.durable := by
      have hall := hnone hempty
      rw [filter_eq_self] at hall ⊢
      exact fun record hmem => hall record (hlog.durable_isPrefix.subset hmem)
    rw [hwhole, hempty]
    refine ⟨?_, ⟨extra, by rw [append_nil, hextra]⟩, fun base heq => ?_⟩
    · rw [← hmore]
      simp [h.owed]
    · have hgrown := h.base base heq
      rw [hempty, append_nil] at hgrown
      rw [append_nil, ← hmore]
      exact hgrown.trans (List.prefix_append _ _)
  · -- below the bound are `older ++ owed` only, and the disk holds them
    have hbelow : s.log.durable.filter (below s.before) = older ++ owed := by
      have hfront : (older ++ owed).filter (below s.before) = older ++ owed := by
        have hself := hsome hempty
        rw [← hself, List.filter_filter]
        simp
      have hall := hsome hempty
      rw [← hextra, filter_append, ← hmore, filter_append, hfront, append_assoc] at hall
      have hnil := append_eq_nil_iff.mp (append_right_eq_self.mp hall)
      rw [← hmore, filter_append, hfront, hnil.1, append_nil]
    rw [hbelow]
    exact ⟨by simp [h.owed], ⟨newer, hsplit⟩, h.base⟩

lemma length_left {atStart : Bool}
    (hchunks : plan.chunks.drop nextChunk = specsOf atStart (range :: rest)) :
    plan.chunks.length - nextChunk = rest.length + 1 := by
  rw [← length_drop, hchunks, length_specsOf, length_cons]

/-- A planned chunk that the window holds goes out. -/
lemma deliver_resident {chunk : HistoryChunk} (hnext : nextChunk < plan.chunks.length)
    (hencode : (Retention.durable s.log).encodeHistoryChunk plan nextChunk = .ok chunk)
    (readerTakes : Bool) : s.deliver roomId (.resident plan nextChunk) readerTakes = { s with
      phase := if (HistoryDeliverySource.resident plan (nextChunk + 1)).exhausted then .idle
        else .delivering (.resident plan (nextChunk + 1))
      pages := Paging.receive chunk false s.pages } := by
  simp only [Paging.deliver, HistoryDeliverySource.advance, if_neg (not_le.mpr hnext), hencode]

/-- The rest of a page that the window no longer holds is asked for from disk. -/
lemma Owes.refetch (howes : Owes s all older owed) (hlog : LogInv s.log all trimmed)
      (hchunks : plan.chunks.drop nextChunk = specsOf plan.atStart ranges)
    (hflatten : ranges.reverse.flatten = owed) (hresume : (plan.resumeAfter nextChunk).1 = s.before)
    (hdisk : older.length + owed.length ≤ s.log.durable.length)
    (hencode : (Retention.durable s.log).encodeHistoryChunk plan nextChunk = .error .trimmed)
    (hnext : nextChunk < plan.chunks.length) (roomId : RoomId) :
    ∃ request, (∀ readerTakes, s.deliver roomId (.resident plan nextChunk) readerTakes =
        if readerTakes then { s with phase := .reading request } else s.refuse roomId) ∧
      ∃ older owed, Owes s all older owed ∧ ServingOk s trimmed older owed (.reading request) := by
  have hlimit : (plan.resumeAfter nextChunk).2 = owed.length := by
    show ((plan.chunks.drop nextChunk).map HistoryChunkSpec.count).sum = _
    rw [hchunks, sum_count_specsOf, hflatten]
  obtain ⟨hne, hsplit, hbase⟩ := howes.on_disk hlog hdisk
  obtain ⟨request, hrequest, hserving⟩ :=
    hlog.ask rfl hne (length_pos_iff.mpr howes.owed) howes.asked howes.started hsplit hbase
      roomId
  refine ⟨request, fun readerTakes => ?_, hserving⟩
  simp only [Paging.deliver, HistoryDeliverySource.advance, if_neg (not_le.mpr hnext), hencode,
    hresume, hlimit, hrequest]

/-- How far a request is from its next messages. -/
def Phase.rank : Phase → ℕ
  | .idle => 3
  | .delivering (.resident _ _) => 2
  | .reading _ => 1
  | .delivering (.encoded _) => 0

/-- A step brings messages, or brings the request nearer to them. -/
def Progress (s t : Paging) : Prop :=
  (t.received = s.received ∧ t.phase.rank < s.phase.rank) ∨
  ∃ range, range ≠ [] ∧ t.received = range ++ s.received

/-- A delivery advances: a chunk goes out, or the rest of the page is asked for from disk. -/
lemma PagingInv.deliver (h : PagingInv s all trimmed) {source : HistoryDeliverySource}
    (hphase : s.phase = .delivering source) (roomId : RoomId) (readerTakes : Bool) :
    PagingInv (s.deliver roomId source readerTakes) all trimmed ∧
    (readerTakes = true → Progress s (s.deliver roomId source readerTakes)) := by
  obtain ⟨older, owed, howes, hserving⟩ := h.serving (by simp [hphase])
  rw [hphase] at hserving
  cases source with
  | encoded payloads =>
    obtain ⟨roomId', before, atStart, ranges, rfl, hflatten, hok, hstart⟩ := hserving
    obtain ⟨range, rest, rfl, rfl⟩ := ranges_cons howes.owed hflatten
    have hrest : ∀ range ∈ rest, RangeOk range := fun other hother =>
        hok other (mem_cons_of_mem _ hother)
    have hrange := hok range mem_cons_self
    refine ⟨h.chunk howes hrest ⟨rfl, rfl, rfl⟩ hstart ?_ ?_, fun _ =>
      Or.inr ⟨range, hrange.1, received_receive _ _ _ howes.pages_ne⟩⟩
    · cases rest <;> rfl
    · exact fun _ => ⟨roomId', before, atStart, rest, rfl, rfl, hrest, hstart⟩
  | resident plan nextChunk =>
    obtain ⟨ranges, hchunks, hflatten, hok, hstart, hresume, hkept⟩ := hserving
    obtain ⟨range, rest, rfl, rfl⟩ := ranges_cons howes.owed hflatten
    have hrange := hok range mem_cons_self
    have hrest : ∀ range ∈ rest, RangeOk range := fun other hother =>
        hok other (mem_cons_of_mem _ hother)
    have hleft := length_left hchunks
    have hnext : nextChunk < plan.chunks.length := by omega
    rcases encode_kept h.log howes hrange hchunks with ⟨-, hencode⟩ | ⟨htrimmed, hencode⟩
    · rw [deliver_resident hnext hencode]
      refine ⟨h.chunk howes hrest ⟨rfl, rfl, rfl⟩ hstart ?_ ?_, fun _ =>
        Or.inr ⟨range, hrange.1, received_receive _ _ _ howes.pages_ne⟩⟩
      · cases rest with
        | nil =>
          rw [length_nil] at hleft
          exact decide_eq_true (show nextChunk + 1 ≥ plan.chunks.length by omega)
        | cons other others =>
          rw [length_cons] at hleft
          exact decide_eq_false (show ¬ nextChunk + 1 ≥ plan.chunks.length by omega)
      · intro _
        have hdrop : plan.chunks.drop (nextChunk + 1) = specsOf plan.atStart rest := by
          rw [← drop_drop, hchunks, specsOf_cons]
          rfl
        refine ⟨rest, hdrop, rfl, hrest, hstart, ?_, ?_⟩
        · rw [resumeAfter_succ hchunks hrange.1, Paging.before,
            received_receive _ _ _ howes.pages_ne]
          obtain ⟨entry, tail, rfl⟩ := exists_cons_of_ne_nil hrange.1
          rfl
        · rcases hkept with hwindow | hdisk
          · exact Or.inl hwindow
          right
          show _ ≤ s.log.durable.length
          rw [length_append] at hdisk
          omega
    · obtain ⟨request, hdeliver, older', owed', howes', hserving⟩ :=
        howes.refetch h.log hchunks hflatten hresume
          (hkept.resolve_left (not_le.mpr htrimmed)) hencode hnext roomId
      rw [hdeliver]
      cases readerTakes with
      | true =>
        refine ⟨⟨h.log, h.base, h.started, Or.inr ⟨older', owed', howes'.withPhase _, hserving⟩⟩,
          fun _ => Or.inl ⟨rfl, ?_⟩⟩
        rw [hphase]
        exact (show 1 < 2 by omega)
      | false =>
        exact ⟨⟨h.log, h.base, fun hnone => absurd hnone howes.started,
          Or.inl ⟨rfl, howes.refuse h.log.ascending roomId⟩⟩, nofun⟩

end Request

end Chatt.RoomHistory
