import Chatt.Interface.Paging

/-!
# Pages of history

The ranges a page is cut into, what becomes of a planned chunk, and the records that the reader
selects from the files of a room.
-/

namespace Chatt.RoomHistory

open List

variable {plan : HistoryFetchPlan} {rest : List (List HistoryRecord)}

/-- Records in the order of their ids. -/
def Ascending (records : List HistoryRecord) : Prop :=
  records.Pairwise fun a b => a.messageId < b.messageId

/-! ## Bounds -/

section Bounds

variable {entries front back : List HistoryRecord} {bound : ℕ}

/-- Below a bound is a first part of ascending records. -/
lemma takeWhile_eq_filter (h : Ascending entries) :
    (entries.takeWhile fun entry => entry.messageId < bound) = entries.filter fun entry =>
    entry.messageId < bound := by
  induction entries with
  | nil => rfl
  | cons entry rest ih =>
    obtain ⟨hhead, hrest⟩ := pairwise_cons.mp h
    by_cases hlt : entry.messageId < bound
    · simp [hlt, ih hrest]
    have hnone : rest.filter (fun other => other.messageId < bound) = [] := by
      rw [filter_eq_nil_iff]
      intro other hother
      have hafter : entry.messageId < other.messageId := hhead other hother
      simp only [decide_eq_true_eq]
      omega
    simp [hlt, hnone]

lemma partitionPoint_eq (h : Ascending entries) :
    partitionPoint entries bound = (entries.filter fun entry =>
      entry.messageId < bound).length := by
  rw [partitionPoint, takeWhile_eq_filter h]

lemma scanRecordsBefore_eq (h : Ascending entries) :
    scanRecordsBefore bound entries = entries.filter fun entry => entry.messageId < bound :=
  takeWhile_eq_filter h

lemma Ascending.nodup (h : Ascending entries) : entries.Nodup :=
  h.imp fun hlt heq => by subst heq; exact absurd hlt (lt_irrefl _)

/-- The records in front of an entry are those below its id. -/
lemma filter_lt_of_append {entry : HistoryRecord} (h : Ascending (front ++ entry :: back)) :
    (front ++ entry :: back).filter (fun other => other.messageId < entry.messageId) = front := by
  obtain ⟨-, hback, hcross⟩ := pairwise_append.mp h
  rw [filter_append]
  have hfront : front.filter (fun other => other.messageId < entry.messageId) = front := by
    rw [filter_eq_self]
    intro other hother
    simpa using hcross other hother entry mem_cons_self
  have hrest : (entry :: back).filter (fun other => other.messageId < entry.messageId) = [] := by
    rw [filter_eq_nil_iff]
    intro other hother
    rcases mem_cons.mp hother with rfl | hother
    · simp
    have hafter : entry.messageId < other.messageId := (pairwise_cons.mp hback).1 other hother
    simp only [decide_eq_true_eq]
    omega
  rw [hfront, hrest, append_nil]

end Bounds

/-! ## The newest records -/

section Trim

variable {entries front back : List HistoryRecord} {limit : ℕ}

lemma trimToLimit_eq_self (h : entries.length ≤ limit) : trimToLimit limit entries = entries := by
  rw [trimToLimit, Nat.sub_eq_zero_of_le h, drop_zero]

lemma length_trimToLimit (limit : ℕ) (entries : List HistoryRecord) :
    (trimToLimit limit entries).length = min limit entries.length := by
  rw [trimToLimit, length_drop]
  omega

lemma trimToLimit_ne_nil (hlimit : 1 ≤ limit) (hne : entries ≠ []) :
    trimToLimit limit entries ≠ [] := by
  have hlength := length_trimToLimit limit entries
  have hpos := length_pos_iff.mpr hne
  apply ne_nil_of_length_pos
  omega

/-- What is trimmed is a first part. -/
lemma exists_trimToLimit (limit : ℕ) (entries : List HistoryRecord) :
    ∃ front, entries = front ++ trimToLimit limit entries :=
  ⟨entries.take (entries.length - limit), (take_append_drop _ _).symm⟩

lemma trimToLimit_append_of_le (h : limit ≤ back.length) :
    trimToLimit limit (front ++ back) = trimToLimit limit back := by
  have hfront : front.drop (front.length + back.length - limit) = [] := drop_eq_nil_of_le (by omega)
  rw [trimToLimit, trimToLimit, length_append, drop_append, hfront, nil_append]
  congr 1
  omega

end Trim

/-! ## Ranges and chunks -/

/-- A range a chunk can carry. -/
def RangeOk (range : List HistoryRecord) : Prop := range ≠ [] ∧ range.length ≤ maxChunkMessages

section Ranges

variable {targetBytes bytes : ℕ} {current entries : List HistoryRecord}

/-- The ranges cover the entries in order. -/
lemma flatten_chunkRanges :
    (chunkRanges targetBytes current bytes entries).flatten = current ++ entries := by
  induction entries generalizing current bytes with
  | nil => simp [chunkRanges]
  | cons entry rest ih =>
    unfold chunkRanges
    split_ifs
    · rw [flatten_cons, ih, singleton_append]
    · rw [ih, append_assoc, singleton_append]

/-- The chunk of the range fits, or has a single record. -/
def RangeFits (targetBytes : ℕ) (range : List HistoryRecord) : Prop :=
  chunkHeaderBytes + (range.map fun record => record.bytes.length).sum ≤ targetBytes ∨
    range.length = 1

lemma rangeOk_singleton (entry : HistoryRecord) : RangeOk [entry] :=
  ⟨by simp, by simp [maxChunkMessages, u16Max]⟩

/-- The loop by induction on the entries that are left: the range it fills is one that can be
sent. -/
lemma rangeOk_of_mem_chunkRanges (hcurrent : RangeOk current)
    (hbytes : bytes = chunkHeaderBytes + (current.map fun record => record.bytes.length).sum)
    (hfits : RangeFits targetBytes current)
    {range : List HistoryRecord} (hmem : range ∈ chunkRanges targetBytes current bytes entries) :
    RangeOk range ∧ RangeFits targetBytes range := by
  induction entries generalizing current bytes with
  | nil =>
    rw [chunkRanges, mem_singleton] at hmem
    exact hmem ▸ ⟨hcurrent, hfits⟩
  | cons entry rest ih =>
    unfold chunkRanges at hmem
    split_ifs at hmem with hfull
    · rcases mem_cons.mp hmem with rfl | hmem
      · exact ⟨hcurrent, hfits⟩
      · exact ih (rangeOk_singleton entry) (by simp) (.inr rfl) hmem
    · have hpos := length_pos_iff.mpr hcurrent.1
      have hle := hcurrent.2
      refine ih ⟨by simp, ?_⟩ ?_ (.inl ?_) hmem
      · rw [length_append, length_singleton]
        omega
      all_goals
        rw [map_append, sum_append, map_singleton, sum_singleton]
        omega

/-- The first entry opens the first range. -/
lemma chunkRanges_cons (entry : HistoryRecord) (rest : List HistoryRecord) :
    chunkRanges targetBytes [] bytes (entry :: rest) =
      chunkRanges targetBytes [entry] (bytes + entry.bytes.length) rest := by
  rw [chunkRanges, if_neg (by simp [maxChunkMessages, u16Max]), nil_append]

/-- The chunks of a page are those of ranges which cover it from its newest record on. -/
lemma exists_ranges (hne : entries ≠ []) (atStart : Bool) (targetBytes : ℕ) :
    ∃ ranges, chunkSpecs entries atStart targetBytes = specsOf atStart ranges ∧ ranges ≠ [] ∧
    ranges.reverse.flatten = entries ∧ (∀ range ∈ ranges, RangeOk range) ∧
      ∀ range ∈ ranges, RangeFits (max targetBytes chunkHeaderBytes) range := by
  obtain ⟨entry, rest, rfl⟩ := exists_cons_of_ne_nil hne
  have hok : ∀ range ∈ (chunkRanges (max targetBytes chunkHeaderBytes) [] chunkHeaderBytes
      (entry :: rest)).reverse, RangeOk range ∧
        RangeFits (max targetBytes chunkHeaderBytes) range := by
    intro range hmem
    rw [mem_reverse, chunkRanges_cons] at hmem
    exact rangeOk_of_mem_chunkRanges (rangeOk_singleton entry) (by simp) (.inr rfl) hmem
  refine ⟨_, if_neg hne, ?_, ?_, fun range hmem => (hok range hmem).1, fun range hmem =>
    (hok range hmem).2⟩
  · intro hnil
    have hflatten :
        (chunkRanges (max targetBytes chunkHeaderBytes) [] chunkHeaderBytes
        (entry :: rest)).flatten = [] ++ entry :: rest := flatten_chunkRanges
    rw [reverse_eq_nil_iff.mp hnil] at hflatten
    cases hflatten
  · rw [reverse_reverse, flatten_chunkRanges, nil_append]

end Ranges

section Specs

variable {atStart : Bool} {range : List HistoryRecord} {ranges : List (List HistoryRecord)}
  {roomId : RoomId}

lemma sum_count_specsOf :
    ((specsOf atStart ranges).map HistoryChunkSpec.count).sum = ranges.reverse.flatten.length := by
  induction ranges with
  | nil => rfl
  | cons range rest ih =>
    rw [specsOf, map_cons, sum_cons, ih, reverse_cons, flatten_append, length_append,
      flatten_singleton, Nat.add_comm]

lemma length_specsOf : (specsOf atStart ranges).length = ranges.length := by
  induction ranges with
  | nil => rfl
  | cons range rest ih => rw [specsOf, length_cons, length_cons, ih]

lemma drop_specsOf (k : ℕ) : (specsOf atStart ranges).drop k = specsOf atStart (ranges.drop k) := by
  induction ranges generalizing k with
  | nil => simp [specsOf]
  | cons range rest ih =>
    cases k with
    | zero => rfl
    | succ k => exact ih k

/-- The chunks that carry the ranges. -/
def payloadsOf (roomId : RoomId) (before : Option ℕ) (atStart : Bool) :
    List (List HistoryRecord) → List HistoryChunk
  | [] => []
  | range :: rest =>
    { roomId, before
      atStart := rest.isEmpty && atStart
      complete := rest.isEmpty
      records := range } :: payloadsOf roomId before atStart rest

lemma records_payloadsOf {roomId : RoomId} {before : Option ℕ} :
    (payloadsOf roomId before atStart ranges).map HistoryChunk.records = ranges := by
  induction ranges with
  | nil => rfl
  | cons range rest ih => rw [payloadsOf, map_cons, ih]

/-- The last chunk is complete, and only it can be at the start. -/
lemma flags_payloadsOf {before : Option ℕ} {i : ℕ} {chunk : HistoryChunk}
      (h : (payloadsOf roomId before atStart ranges)[i]? = some chunk) :
    (chunk.complete = true ↔ i + 1 = ranges.length) ∧
    (chunk.atStart = true → i + 1 = ranges.length) := by
  induction ranges generalizing i with
  | nil => cases h
  | cons range rest ih =>
    cases i with
    | zero =>
      cases h
      cases rest <;> simp
    | succ i => simpa using ih h

/-- The first chunk of the ranges. -/
def headSpec (atStart : Bool) (range : List HistoryRecord) (rest : List (List HistoryRecord)) :
    HistoryChunkSpec :=
  { firstId := range.head?.map HistoryRecord.messageId
    count := range.length
    recordsBytes := (range.map fun record => record.bytes.length).sum
    atStart := rest.isEmpty && atStart
    complete := rest.isEmpty }

lemma specsOf_cons (range : List HistoryRecord) (rest : List (List HistoryRecord)) :
    specsOf atStart (range :: rest) = headSpec atStart range rest :: specsOf atStart rest := rfl

/-- The chunk of a range that the entries still hold. -/
lemma encodeChunk_of_append {front back : List HistoryRecord} {before : Option ℕ}
      (hrange : RangeOk range) (hascending : Ascending (front ++ range ++ back)) :
    encodeChunk (front ++ range ++ back) roomId before (headSpec atStart range rest) =
      .ok { roomId, before, atStart := rest.isEmpty && atStart, complete := rest.isEmpty
            records := range } := by
  obtain ⟨entry, tail, rfl⟩ := exists_cons_of_ne_nil hrange.1
  have hpoint : partitionPoint (front ++ entry :: tail ++ back) entry.messageId = front.length := by
    rw [partitionPoint_eq hascending, append_assoc, cons_append,
      filter_lt_of_append (by rwa [append_assoc, cons_append] at hascending)]
  have hlength : ¬ (front ++ entry :: tail ++ back).length < front.length +
      (entry :: tail).length := by
    simp only [length_append]
    omega
  have htake : ((front ++ entry :: tail ++ back).drop front.length).take (entry :: tail).length =
      entry :: tail := by
    rw [append_assoc, drop_left, take_left]
  have hfits : (entry :: tail).length ≤ u16Max := hrange.2
  simp only [encodeChunk, headSpec, head?_cons, Option.map_some, hpoint, if_neg hlength, htake,
    ne_eq, not_true_eq_false, if_false, writeChunk, if_pos hfits]

/-- The chunk of a range whose first entry has been trimmed. -/
lemma encodeChunk_of_trimmed {entries : List HistoryRecord} {entry : HistoryRecord}
      {before : Option ℕ} (hhead : range.head? = some entry)
    (hafter : ∀ other ∈ entries, entry.messageId < other.messageId) :
    encodeChunk entries roomId before (headSpec atStart range rest) = .error .trimmed := by
  have hpoint : partitionPoint entries entry.messageId = 0 := by
    cases entries with
    | nil => rfl
    | cons other others =>
      have hlt := hafter other mem_cons_self
      rw [partitionPoint, takeWhile_cons_of_neg (by simp only [decide_eq_true_eq]; omega),
        length_nil]
  have hother : ((entries.drop 0).take range.length).head?.map HistoryRecord.messageId ≠
      some entry.messageId := by
    intro heq
    obtain ⟨other, hother, hsame⟩ := Option.map_eq_some_iff.mp heq
    have hmem : other ∈ entries := mem_of_mem_drop (mem_of_mem_take (mem_of_mem_head? hother))
    have := hafter other hmem
    omega
  simp only [encodeChunk, headSpec, hhead, Option.map_some, hpoint, Nat.zero_add, if_pos hother]
  split_ifs <;> rfl

end Specs

/-! ## Disk pages -/

section Disk

variable {roomId : RoomId} {before : Option ℕ} {atStart : Bool} {entries : List HistoryRecord}

/-- Each chunk of the ranges, newest first, is encoded from records that hold the page. -/
lemma mapM_encodeChunk {ranges : List (List HistoryRecord)} {front back : List HistoryRecord}
    (hok : ∀ range ∈ ranges, RangeOk range)
    (hascending : Ascending (front ++ ranges.reverse.flatten ++ back)) :
    (specsOf atStart ranges).mapM
      (encodeChunk (front ++ ranges.reverse.flatten ++ back) roomId before) =
      .ok (payloadsOf roomId before atStart ranges) := by
  induction ranges generalizing back with
  | nil => rfl
  | cons range rest ih =>
    have hshape : front ++ (range :: rest).reverse.flatten ++ back = front ++
        rest.reverse.flatten ++ (range ++ back) := by
      simp
    rw [hshape] at hascending ⊢
    have hhead : encodeChunk (front ++ rest.reverse.flatten ++ (range ++ back)) roomId before
        (headSpec atStart range rest) = .ok { roomId, before, atStart := rest.isEmpty && atStart
                                              complete := rest.isEmpty, records := range } := by
      rw [← append_assoc]
      exact encodeChunk_of_append (hok range mem_cons_self) (by rwa [append_assoc])
    rw [specsOf_cons, mapM_cons, hhead, ih (fun other hother =>
      hok other (mem_cons_of_mem _ hother)) hascending]
    rfl

lemma chunkPayloads_eq (hne : entries ≠ []) (hascending : Ascending entries) (targetBytes : ℕ) :
    ∃ ranges, chunkPayloads entries roomId before atStart targetBytes =
      .ok (payloadsOf roomId before atStart ranges) ∧ ranges ≠ [] ∧
      ranges.reverse.flatten = entries ∧ ∀ range ∈ ranges, RangeOk range := by
  obtain ⟨ranges, hspecs, hranges, rfl, hok, -⟩ := exists_ranges hne atStart targetBytes
  refine ⟨ranges, ?_, hranges, rfl, hok⟩
  have hencode : (specsOf atStart ranges).mapM
      (encodeChunk ([] ++ ranges.reverse.flatten ++ []) roomId before) = _ :=
    mapM_encodeChunk hok (by rwa [append_nil])
  rw [append_nil, nil_append] at hencode
  rw [chunkPayloads, hspecs, hencode]

/-- Trimming a run first makes no difference to the newest records. -/
lemma trimToLimit_run (limit : ℕ) (front run back : List HistoryRecord) :
    trimToLimit limit (front ++ (trimToLimit limit run ++ back)) =
      trimToLimit limit (front ++ (run ++ back)) := by
  by_cases hle : run.length ≤ limit
  · rw [trimToLimit_eq_self hle]
  obtain ⟨shed, hshed⟩ := exists_trimToLimit limit run
  have hlength := length_trimToLimit limit run
  have henough : limit ≤ (trimToLimit limit run ++ back).length := by
    rw [length_append]
    omega
  have hrun : run ++ back = shed ++ (trimToLimit limit run ++ back) := by
    rw [← append_assoc, ← hshed]
  rw [trimToLimit_append_of_le henough, hrun, ← append_assoc, trimToLimit_append_of_le henough]

/-- The loop stops early only when it has enough, by induction on the sources that are left:
`newer` is what it has gathered. -/
lemma trimToLimit_selectRuns {bound limit total : ℕ} {files : List (List HistoryRecord)}
      {newer : List HistoryRecord} (hnewer : min limit total ≤ newer.length) :
    trimToLimit limit
      ((selectRuns bound limit total (files.map fun file => ⟨some file⟩)).reverse.flatten ++
      newer) =
      trimToLimit limit ((files.map (scanRecordsBefore bound)).reverse.flatten ++ newer) := by
  induction files generalizing total newer with
  | nil => rfl
  | cons file rest ih =>
    rw [map_cons, selectRuns]
    split_ifs with henough
    · have hlimit : limit ≤ newer.length := by omega
      rw [reverse_nil, flatten_nil, nil_append, trimToLimit_append_of_le hlimit]
    have hlength := length_trimToLimit limit (scanRecordsBefore bound file)
    have hnext : min limit (total + (scanRecordsBefore bound file).length) ≤
        (trimToLimit limit (scanRecordsBefore bound file) ++ newer).length := by
      rw [length_append]
      omega
    simp only [reverse_cons, flatten_append, flatten_singleton, append_assoc, map_cons]
    rw [ih hnext, trimToLimit_run]

variable {log : DurableLog}

/-- The files of a room hold its records in order. -/
structure FilesOk (log : DurableLog) : Prop where
  ascending : Ascending log.durable
  segments : ∀ segment ∈ log.segments, segment.records.head?.map HistoryRecord.messageId =
    some segment.firstId

lemma FilesOk.segment_ascending (h : FilesOk log) {segment : Segment}
    (hmem : segment ∈ log.segments) : Ascending segment.records := by
  have hflat := (pairwise_append.mp h.ascending).1
  obtain ⟨front, back, hsplit⟩ := append_of_mem hmem
  rw [hsplit, flatMap_append, flatMap_cons] at hflat
  exact (pairwise_append.mp (pairwise_append.mp hflat).2.1).1

lemma FilesOk.active_ascending (h : FilesOk log) : Ascending log.active :=
  (pairwise_append.mp h.ascending).2.1

/-- A file whose first id is not below the bound has no record below it. -/
lemma filter_eq_nil_of_head {records : List HistoryRecord} {first bound : ℕ}
      (hascending : Ascending records)
    (hfirst : records.head?.map HistoryRecord.messageId = some first) (hle : bound ≤ first) :
    records.filter (fun record => record.messageId < bound) = [] := by
  cases records with
  | nil => cases hfirst
  | cons head tail =>
    have hhead : head.messageId = first := Option.some.inj hfirst
    rw [filter_eq_nil_iff]
    intro other hother
    simp only [decide_eq_true_eq]
    rcases mem_cons.mp hother with rfl | hother
    · omega
    · have hafter : head.messageId < other.messageId := (pairwise_cons.mp hascending).1 other hother
      omega

/-- The files that are read, newest first. -/
def readFiles (log : DurableLog) (bound : ℕ) : List (List HistoryRecord) :=
  (if (activeFirstId log.active).any fun first => first < bound then [log.active] else []) ++
    (log.segments.reverse.filter fun segment => segment.firstId < bound).map Segment.records

/-- The files that are left out have nothing below the bound. -/
lemma flatten_readFiles (h : FilesOk log) (bound : ℕ) :
    ((readFiles log bound).map (scanRecordsBefore bound)).reverse.flatten =
      log.durable.filter fun record => record.messageId < bound := by
  have hactive :
      ((if (activeFirstId log.active).any fun first => first < bound then [log.active]
      else []).map (scanRecordsBefore bound)).reverse.flatten =
      log.active.filter fun record => record.messageId < bound := by
    split_ifs with hfirst
    · simp [scanRecordsBefore_eq h.active_ascending]
    cases hhead : activeFirstId log.active with
    | none =>
      have hnil : log.active = [] := by simpa [activeFirstId] using hhead
      simp [hnil]
    | some first =>
      rw [hhead, Option.any_some, decide_eq_true_eq, not_lt] at hfirst
      rw [filter_eq_nil_of_head h.active_ascending hhead hfirst]
      rfl
  have hsegments : ∀ segments : List Segment, (∀ segment ∈ segments, segment ∈ log.segments) →
      ((((segments.reverse.filter fun segment => segment.firstId < bound).map Segment.records).map
      (scanRecordsBefore bound)).reverse.flatten =
        (segments.flatMap Segment.records).filter fun record => record.messageId < bound) := by
    intro segments hsub
    induction segments with
    | nil => rfl
    | cons segment rest ih =>
      have hmem := hsub segment mem_cons_self
      have hrest := ih fun other hother => hsub other (mem_cons_of_mem _ hother)
      rw [reverse_cons, filter_append, map_append, map_append, reverse_append, flatten_append,
        hrest, flatMap_cons, filter_append]
      congr 1
      by_cases hlt : segment.firstId < bound
      · simp [hlt, scanRecordsBefore_eq (h.segment_ascending hmem)]
      · rw [filter_eq_nil_of_head (h.segment_ascending hmem) (h.segments segment hmem)
          (not_lt.mp hlt)]
        simp [hlt]
  rw [readFiles, map_append, reverse_append, flatten_append, hactive,
    hsegments log.segments fun _ hmem => hmem, DurableLog.durable, filter_append]

/-- The oldest id on disk is that of the first record. -/
lemma FilesOk.oldestDurableId_eq (h : FilesOk log) :
    log.oldestDurableId = log.durable.head?.map HistoryRecord.messageId := by
  unfold DurableLog.oldestDurableId DurableLog.durable
  cases hsegments : log.segments with
  | nil => simp [activeFirstId]
  | cons segment rest =>
    have hfirst := h.segments segment (by rw [hsegments]; exact mem_cons_self)
    cases hrecords : segment.records with
    | nil =>
      rw [hrecords] at hfirst
      cases hfirst
    | cons record others => simpa [hrecords] using hfirst.symm

/-- The bound as the source reads it. -/
def below (before : Option ℕ) (record : HistoryRecord) : Bool :=
  record.messageId < before.getD u64Max

/-- The request to the reader asks for the newest records on disk below the bound. -/
lemma diskFetchRequest_eq (h : FilesOk log) (sessionId : SessionId) {limit targetBytes : ℕ}
      (hbelow : log.durable.filter (below before) ≠ []) :
    ∃ request, (Retention.durable log).diskFetchRequest sessionId roomId before limit targetBytes =
      some request ∧
      selectRecords request = trimToLimit limit (log.durable.filter (below before)) ∧
      (some request.oldestDurableId = log.durable.head?.map HistoryRecord.messageId) := by
  obtain ⟨record, hrecord⟩ := exists_mem_of_ne_nil _ hbelow
  obtain ⟨hmem, hlt⟩ := mem_filter.mp hrecord
  simp only [below, decide_eq_true_eq] at hlt
  -- the first record on disk is below the bound, since one is
  obtain ⟨oldest, rest, hdurable⟩ := exists_cons_of_ne_nil (ne_nil_of_mem hmem)
  have holdest : oldest.messageId < before.getD u64Max := by
    have hascending := h.ascending
    rw [hdurable] at hmem hascending
    rcases mem_cons.mp hmem with rfl | hmem
    · exact hlt
    · have hafter : oldest.messageId < record.messageId :=
        (pairwise_cons.mp hascending).1 record hmem
      omega
  have hid : log.oldestDurableId = some oldest.messageId := by
    rw [h.oldestDurableId_eq, hdurable]
    rfl
  have hnot : ¬ oldest.messageId ≥ before.getD u64Max := not_le.mpr holdest
  have hsources :
      ((if (activeFirstId log.active).any fun first =>
      first < before.getD u64Max then [(⟨some log.active⟩ : Source)] else []) ++
      ((log.segments.reverse.filter fun segment => segment.firstId < before.getD u64Max).map
      fun segment => ⟨some segment.records⟩)) =
      (readFiles log (before.getD u64Max)).map fun file => ⟨some file⟩ := by
    rw [readFiles, map_append, map_map]
    congr 1
    split_ifs <;> rfl
  refine ⟨⟨sessionId, roomId, before, limit, targetBytes, oldest.messageId,
    (readFiles log (before.getD u64Max)).map fun file => ⟨some file⟩⟩, ?_, ?_, ?_⟩
  · simp only [Retention.diskFetchRequest, hid, if_neg hnot, hsources]
  · have hselect : trimToLimit limit ((selectRuns (before.getD u64Max) limit 0
        ((readFiles log (before.getD u64Max)).map fun file => ⟨some file⟩)).reverse.flatten ++ []) =
          _ :=
      trimToLimit_selectRuns (by simp)
    rw [append_nil, append_nil, flatten_readFiles h] at hselect
    exact hselect
  · rw [hdurable]
    rfl

/-- The chunks of a page from disk. -/
lemma execute_eq {request : HistoryReadRequest} (hne : selectRecords request ≠ [])
      (hascending : Ascending (selectRecords request)) :
    ∃ ranges atStart, execute request = payloadsOf request.roomId request.before atStart ranges ∧
    ranges ≠ [] ∧
      ranges.reverse.flatten = selectRecords request ∧ (∀ range ∈ ranges, RangeOk range) ∧
      (atStart = true ↔ (selectRecords request).head?.map HistoryRecord.messageId =
        some request.oldestDurableId) := by
  obtain ⟨ranges, hpayloads, hranges, hflatten, hok⟩ :=
    @chunkPayloads_eq request.roomId request.before
      (decide ((selectRecords request).head?.map HistoryRecord.messageId =
        some request.oldestDurableId)) _ hne hascending request.targetBytes
  refine ⟨ranges, _, ?_, hranges, hflatten, hok, decide_eq_true_iff⟩
  simp only [execute, hpayloads]

end Disk

/-! ## Pages from memory -/

section Resident

variable {roomId : RoomId} {before : Option ℕ} {limit targetBytes : ℕ}
  {history : List HistoryRecord} {log : DurableLog} {atStart : Bool}

/-- The record is below the bound, if there is one. -/
def bounded (before : Option ℕ) (record : HistoryRecord) : Bool := before.all (record.messageId < ·)

/-- The newest records below a bound. -/
def newestBelow (history : List HistoryRecord) (before : Option ℕ) (limit : ℕ) :
    List HistoryRecord :=
  trimToLimit limit (history.filter (bounded before))

/-- The entries a page ends with are those below the bound. -/
lemma take_pageEnd (hascending : Ascending history) (before : Option ℕ) :
    history.take (pageEnd history before) = history.filter (bounded before) := by
  cases before with
  | none =>
    rw [pageEnd, take_length, eq_comm, filter_eq_self]
    exact fun _ _ => rfl
  | some bound =>
    show history.take (history.takeWhile _).length = history.filter fun record =>
      record.messageId < bound
    rw [← takeWhile_eq_filter hascending, ← List.prefix_iff_eq_take.mp (List.takeWhile_prefix _)]

lemma filter_bounded (hbounded : ∀ record ∈ history, record.messageId < u64Max)
    (before : Option ℕ) : history.filter (bounded before) = history.filter (below before) := by
  apply filter_congr
  intro record hmem
  cases before with
  | none => simpa [bounded, below] using hbounded record hmem
  | some bound => rfl

/-- A page of the window: the newest of its records below the bound. -/
lemma historyChunksBefore_eq (hascending : Ascending history) (hasOlder : Bool) :
    historyChunksBefore history roomId before limit targetBytes hasOlder =
      let atStart := decide ((history.filter (bounded before)).length ≤ limit) && !hasOlder
      { roomId, before
        chunks := chunkSpecs (newestBelow history before limit) atStart targetBytes
        messageCount := (newestBelow history before limit).length
        atStart } := by
  have htake := take_pageEnd hascending before
  have hwithin : pageEnd history before ≤ history.length := by
    cases before with
    | none => exact le_refl history.length
    | some bound => exact (List.takeWhile_prefix _).length_le
  have hlast : pageEnd history before = (history.filter (bounded before)).length := by
    rw [← htake, length_take, min_eq_left hwithin]
  have hstart : decide ((history.filter (bounded before)).length - limit = 0) =
      decide ((history.filter (bounded before)).length ≤ limit) := by
    rw [decide_eq_decide]
    omega
  simp only [historyChunksBefore]
  rw [htake, hlast, hstart]
  rfl

lemma resident_durable :
    (Retention.durable log).resident = if log.history = [] then none else some log.history := by
  unfold Retention.resident Retention.history
  split_ifs with h
  · simp [h]
  · simp [Option.filter, h]

/-- The plan of a page with a message in the window. -/
lemma historyFetchPlanBefore_resident (hascending : Ascending log.history)
    (hbounded : ∀ record ∈ log.history, record.messageId < u64Max)
    (hlimit : 1 ≤ limit) (hbelow : log.history.filter (below before) ≠ []) :
    ∃ plan ranges, (Retention.durable log).historyFetchPlanBefore roomId before limit targetBytes =
      plan ∧
      plan.before = before ∧ plan.roomId = roomId ∧ plan.messageCount ≠ 0 ∧
      plan.chunks = specsOf plan.atStart ranges ∧ ranges ≠ [] ∧
      ranges.reverse.flatten = trimToLimit limit (log.history.filter (below before)) ∧
      (∀ range ∈ ranges, RangeOk range) ∧
      (plan.atStart = true ↔ (log.history.filter (below before)).length ≤ limit ∧
        (Retention.durable log).hasUnresidentHistory = false) := by
  have hne : log.history ≠ [] := by
    rintro hnil
    rw [hnil] at hbelow
    exact hbelow rfl
  have hselected := trimToLimit_ne_nil hlimit hbelow
  have hcount : ¬ (trimToLimit limit (log.history.filter (below before))).length = 0 := by
    rwa [length_eq_zero_iff]
  obtain ⟨ranges, hspecs, hranges, hflatten, hok, -⟩ := exists_ranges hselected
    (decide ((log.history.filter (below before)).length ≤ limit) &&
      !(Retention.durable log).hasUnresidentHistory) targetBytes
  refine ⟨_, ranges, rfl, ?_⟩
  simp only [Retention.historyFetchPlanBefore, resident_durable, if_neg hne,
    historyChunksBefore_eq hascending, newestBelow, filter_bounded hbounded, if_neg hcount]
  refine ⟨trivial, trivial, hcount, hspecs, hranges, hflatten, hok, ?_⟩
  simp

/-- A page with no message in the window is empty. -/
lemma historyFetchPlanBefore_empty (hascending : Ascending log.history)
    (hbounded : ∀ record ∈ log.history, record.messageId < u64Max)
    (hbelow : log.history.filter (below before) = []) :
    ((Retention.durable log).historyFetchPlanBefore roomId before limit targetBytes).messageCount =
      0 := by
  unfold Retention.historyFetchPlanBefore
  rw [resident_durable]
  split_ifs
  · rfl
  · simp [historyChunksBefore_eq hascending, newestBelow, filter_bounded hbounded,
      hbelow, trimToLimit]

/-- A planned chunk is encoded from the window. -/
lemma encodeHistoryChunk_eq {next : ℕ} {range : List HistoryRecord}
      (hchunks : plan.chunks.drop next = specsOf atStart (range :: rest)) (hrange : range ≠ []) :
    (Retention.durable log).encodeHistoryChunk plan next = if log.history = [] then .error .trimmed
      else encodeChunk log.history plan.roomId plan.before (headSpec atStart range rest) := by
  have hspec : plan.chunks[next]? = some (headSpec atStart range rest) := by
    rw [← head?_drop, hchunks]
    rfl
  obtain ⟨entry, tail, rfl⟩ := exists_cons_of_ne_nil hrange
  have hfirst : (headSpec atStart (entry :: tail) rest).firstId = some entry.messageId := rfl
  simp only [Retention.encodeHistoryChunk, hspec, hfirst, resident_durable]
  split_ifs <;> rfl

/-- After a chunk the page resumes below its first record. -/
lemma resumeAfter_succ {nextChunk : ℕ} {range : List HistoryRecord}
      (hchunks : plan.chunks.drop nextChunk = specsOf atStart (range :: rest))
    (hne : range ≠ []) :
    (plan.resumeAfter (nextChunk + 1)).1 = range.head?.map HistoryRecord.messageId := by
  have hspec : plan.chunks[nextChunk]? = some (headSpec atStart range rest) := by
    rw [← head?_drop, hchunks]
    rfl
  obtain ⟨entry, tail, rfl⟩ := exists_cons_of_ne_nil hne
  simp [HistoryFetchPlan.resumeAfter, hspec, headSpec]

/-! ## Chunked pages -/

lemma trimToLimit_append_self (front back : List HistoryRecord) :
    trimToLimit back.length (front ++ back) = back := by
  rw [trimToLimit_append_of_le le_rfl, trimToLimit_eq_self le_rfl]

/-- Resuming after some chunks asks for the ranges of the others. -/
lemma newestBelow_resumeAfter (hascending : Ascending history) {ranges : List (List HistoryRecord)}
      (hchunks : plan.chunks = specsOf atStart ranges)
    (hok : ∀ range ∈ ranges, RangeOk range)
    (hpage : newestBelow history plan.before limit = ranges.reverse.flatten) (k : ℕ)
    (hk : k ≤ ranges.length) :
    newestBelow history (plan.resumeAfter k).1 (plan.resumeAfter k).2 =
      (ranges.drop k).reverse.flatten := by
  obtain ⟨front, hfront⟩ := exists_trimToLimit limit (history.filter (bounded plan.before))
  rw [← newestBelow, hpage] at hfront
  have hcount : (plan.resumeAfter k).2 = (ranges.drop k).reverse.flatten.length := by
    rw [← @sum_count_specsOf atStart, ← drop_specsOf, ← hchunks]
    rfl
  have hbelow : ∃ front', history.filter (bounded (plan.resumeAfter k).1) = front' ++
      (ranges.drop k).reverse.flatten := by
    cases k with
    | zero => exact ⟨front, hfront⟩
    | succ k =>
      have hrange := (hok _ (getElem_mem hk)).1
      have hleft : plan.chunks.drop k = specsOf atStart (ranges[k] :: ranges.drop (k + 1)) := by
        rw [hchunks, drop_specsOf, drop_eq_getElem_cons hk]
      rw [resumeAfter_succ hleft hrange]
      obtain ⟨entry, tail, hcons⟩ := exists_cons_of_ne_nil hrange
      have hpage' : ranges.reverse.flatten = (ranges.drop (k + 1)).reverse.flatten ++ entry ::
          (tail ++ (ranges.take k).reverse.flatten) := by
        conv_lhs => rw [← take_append_drop k ranges, drop_eq_getElem_cons hk, hcons]
        simp
      obtain ⟨back, hwhole⟩ : ∃ back, history = front ++ (ranges.drop (k + 1)).reverse.flatten ++
        entry :: back := by
        refine ⟨tail ++ (ranges.take k).reverse.flatten ++
          history.drop (pageEnd history plan.before), ?_⟩
        conv_lhs => rw [← take_append_drop (pageEnd history plan.before) history,
          take_pageEnd hascending, hfront, hpage']
        simp
      refine ⟨front, ?_⟩
      rw [hwhole] at hascending ⊢
      rw [hcons]
      exact filter_lt_of_append hascending
  obtain ⟨front', hfront'⟩ := hbelow
  rw [hcount, newestBelow, hfront', trimToLimit_append_self]

/-- The ranges of a planned page; a page without records has one without records. -/
lemma exists_page_ranges (hascending : Ascending history) (hasOlder : Bool) :
    let plan := historyChunksBefore history roomId before limit targetBytes hasOlder
    ∃ ranges, plan.chunks.mapM (encodeChunk history roomId before) =
      .ok (payloadsOf roomId before plan.atStart ranges) ∧
      ranges.reverse.flatten = newestBelow history before limit ∧
      (∀ range ∈ ranges, range.length ≤ maxChunkMessages ∧
      RangeFits (max targetBytes chunkHeaderBytes) range) ∧
      ∀ k ≤ ranges.length, newestBelow history (plan.resumeAfter k).1 (plan.resumeAfter k).2 =
      (ranges.drop k).reverse.flatten := by
  rw [historyChunksBefore_eq hascending]
  dsimp only
  generalize (decide ((history.filter (bounded before)).length ≤ limit) && !hasOlder) = atStart
  by_cases hempty : newestBelow history before limit = []
  · rw [hempty]
    refine ⟨[[]], rfl, rfl, ?_, ?_⟩
    · intro range hrange
      rw [mem_singleton.mp hrange]
      exact ⟨Nat.zero_le _, .inl (le_max_right _ _)⟩
    · intro k _
      have hcount :
          ((([emptySpec atStart] : List HistoryChunkSpec).drop k).map HistoryChunkSpec.count).sum =
          0 := by
        cases k <;> simp [emptySpec]
      have hleft : (([[]] : List (List HistoryRecord)).drop k).reverse.flatten = [] := by
        cases k <;> simp
      rw [hleft]
      show trimToLimit ((([emptySpec atStart] : List HistoryChunkSpec).drop k).map
        HistoryChunkSpec.count).sum _ = []
      rw [hcount, trimToLimit, Nat.sub_zero, drop_length]
  · obtain ⟨ranges, hspecs, -, hflatten, hok, hfits⟩ := exists_ranges hempty atStart targetBytes
    obtain ⟨front, hfront⟩ := exists_trimToLimit limit (history.filter (bounded before))
    have hwhole : history = front ++ ranges.reverse.flatten ++
        history.drop (pageEnd history before) := by
      rw [hflatten, newestBelow, ← hfront, ← take_pageEnd hascending, take_append_drop]
    refine ⟨ranges, ?_, hflatten, fun range hrange => ⟨(hok range hrange).2, hfits range hrange⟩,
      newestBelow_resumeAfter hascending hspecs hok hflatten.symm⟩
    rw [hspecs]
    generalize history.drop (pageEnd history before) = back at hwhole
    subst hwhole
    exact mapM_encodeChunk hok hascending

/-- The planned chunks of a page carry the newest records below the bound and fit; the last is the
complete one, and resuming after some of them asks for the records of the others. -/
theorem history_chunks_carry_page (history : { records // Ascending records }) (roomId : RoomId)
    (before : Option ℕ) (limit targetBytes : ℕ) (hasOlderOnDisk : Bool) :
    let plan := historyChunksBefore history.val roomId before limit targetBytes hasOlderOnDisk
    ∃ chunks, plan.chunks.mapM (encodeChunk history.val roomId before) = .ok chunks ∧
      chunks.reverse.flatMap HistoryChunk.records = newestBelow history.val before limit ∧
      (∀ chunk ∈ chunks, chunk.records.length ≤ 65535 ∧
        (chunk.size ≤ max targetBytes chunkHeaderBytes ∨ chunk.records.length = 1)) ∧
      (∀ i chunk, chunks[i]? = some chunk →
        (chunk.complete = true ↔ i + 1 = chunks.length) ∧
        (chunk.atStart = true → i + 1 = chunks.length)) ∧
      ∀ k ≤ chunks.length, newestBelow history.val (plan.resumeAfter k).1 (plan.resumeAfter k).2 =
        (chunks.drop k).reverse.flatMap HistoryChunk.records := by
  obtain ⟨history, hascending⟩ := history
  dsimp only
  obtain ⟨ranges, hencode, hflatten, hfits, hresume⟩ := @exists_page_ranges roomId before limit
    targetBytes history hascending hasOlderOnDisk
  generalize historyChunksBefore history roomId before limit targetBytes hasOlderOnDisk = plan at *
  have hrecords := @records_payloadsOf plan.atStart ranges roomId before
  have hlength : (payloadsOf roomId before plan.atStart ranges).length = ranges.length := by
    rw [← hrecords, length_map, hrecords]
  have hflat : ∀ k, ((payloadsOf roomId before plan.atStart ranges).drop k).reverse.flatMap
      HistoryChunk.records = (ranges.drop k).reverse.flatten := by
    intro k
    rw [flatMap_def, map_reverse, map_drop, hrecords]
  rw [hencode]
  refine ⟨_, rfl, (hflat 0).trans hflatten, ?_, ?_, ?_⟩
  · intro chunk hchunk
    exact hfits _ (hrecords ▸ mem_map_of_mem hchunk)
  · intro i chunk hchunk
    rw [hlength]
    exact flags_payloadsOf hchunk
  · intro k hk
    rw [hflat, hresume k (hlength ▸ hk)]

/-- A page without records is a header, whatever its target. -/
theorem empty_page_exceeds_target :
    ∃ chunk, (historyChunksBefore [] 1 none 1 0 false).chunks.mapM (encodeChunk [] 1 none) =
        .ok [chunk] ∧ 0 < chunk.size ∧ chunk.records.length ≠ 1 :=
  ⟨_, rfl, by decide, by decide⟩

end Resident

end Chatt.RoomHistory
