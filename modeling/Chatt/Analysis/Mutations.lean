import Chatt.Interface.MutationRun

/-!
# Mutations are decided by the newest records

`validate_mutation` looks for the target in two places: its id in `recent_ids`, its content in
a scan of the window from the newest record on.  Both are the newest records of everything that
was appended (`RoomInv`), whichever way the window is trimmed, so the scan comes to the target
and has passed every record after it by then.
-/

namespace Chatt.Mutations

open Lib RoomHistory History List

variable {utf8 : Utf8Check}
variable {history : List HistoryRecord} {α : Type} {n : ℕ}

/-! ## The newest records -/

/-- Two lists of which one is the last part of the other have the same last elements. -/
lemma rtake_eq_of_isSuffix {part whole : List α} (h : part <:+ whole)
    (hlong : min n whole.length ≤ part.length) : part.rtake n = whole.rtake n := by
  obtain ⟨front, rfl⟩ := h
  rw [length_append] at hlong
  by_cases hn : n ≤ part.length
  · have hdrop : front.drop (front.length + part.length - n) = [] := drop_eq_nil_of_le (by omega)
    have hskip : front.length + part.length - n - front.length = part.length - n := by omega
    rw [List.rtake, List.rtake, length_append, drop_append, hdrop, hskip, nil_append]
  · have hfront : front = [] := eq_nil_of_length_eq_zero (by omega)
    simp [hfront]

lemma mem_of_mem_rtake {l : List α} {a : α} (h : a ∈ l.rtake n) : a ∈ l := mem_of_mem_drop h

variable {records : List (ChatMessage utf8)}

/-- What comes after one of the newest records is one of them. -/
lemma mem_rtake_of_lt (hascending : records.Pairwise fun a b => a.messageId < b.messageId)
      {message later : ChatMessage utf8}
    (hmem : message ∈ records.rtake n) (hlater : later ∈ records)
    (hlt : message.messageId < later.messageId) : later ∈ records.rtake n := by
  rw [← take_append_drop (records.length - n) records] at hascending hlater
  rcases mem_append.mp hlater with hold | hnew
  · have hbefore := (pairwise_append.mp hascending).2.2 later hold message hmem
    exact absurd hlt (UInt64.lt_asymm hbefore)
  · exact hnew

lemma eq_of_messageId_eq (hascending : records.Pairwise fun a b => a.messageId < b.messageId)
      {a b : ChatMessage utf8}
    (ha : a ∈ records) (hb : b ∈ records) (hsame : a.messageId = b.messageId) : a = b := by
  have hnodup : (records.map ChatMessage.messageId).Nodup :=
    pairwise_map.mpr (hascending.imp UInt64.ne_of_lt)
  exact inj_on_of_nodup_map hnodup ha hb hsame

/-! ## The scan -/

lemma parseMessage_recordOf {message : ChatMessage utf8} (valid : message.Valid) :
    parseMessage (recordOf message).bytes = .ok ⟨message, writeMessage message⟩ := by
  have hread := reads_message 0 valid []
  rw [← writeMessage_eq, append_nil] at hread
  unfold parseMessage recordOf
  rw [hread]
  rfl

lemma deletes_iff (record : ChatMessage utf8) (target : UInt64) :
    (record.target = some target && isDeleted record.flags) = true ↔ Deletes record target := by
  simp [Deletes]

/-- The target is fit to be changed, as far as these records say; `gone` says that a record
after these deletes it. -/
def Fit (records : List (ChatMessage utf8)) (target sender : UInt64) (kind : MutationKind)
    (gone : Bool) (message : ChatMessage utf8) : Prop :=
  message.target = none ∧ message.sender = sender ∧
    (gone = false ∧ ∀ later ∈ records, message.messageId < later.messageId →
    ¬ Deletes later target) ∧
    (kind = .edit → message.fileTransferId = none)

section

variable {record : ChatMessage utf8} {rest : List (ChatMessage utf8)} {target sender : UInt64}
  {kind : MutationKind} {gone : Bool}

/-- The newest record is the target. -/
lemma fit_newest (hnewest : ∀ message ∈ rest, message.messageId < record.messageId)
      (hid : record.messageId = target) :
    (∀ message ∈ record :: rest, message.messageId = target →
      Fit (record :: rest) target sender kind gone message) ↔
      record.target = none ∧ record.sender = sender ∧ gone = false ∧
      (kind = .edit → record.fileTransferId = none) := by
  constructor
  · intro h
    obtain ⟨htarget, hsender, ⟨hgone, -⟩, hfile⟩ := h record mem_cons_self hid
    exact ⟨htarget, hsender, hgone, hfile⟩
  · rintro ⟨htarget, hsender, hgone, hfile⟩ message hmem hsame
    rcases mem_cons.mp hmem with rfl | hold
    · refine ⟨htarget, hsender, ⟨hgone, ?_⟩, hfile⟩
      intro later hlater hlt
      rcases mem_cons.mp hlater with rfl | hold
      · exact absurd hlt (UInt64.lt_irrefl _)
      · exact absurd hlt (UInt64.lt_asymm (hnewest later hold))
    · have hlt := hnewest message hold
      rw [hid, hsame] at hlt
      exact absurd hlt (UInt64.lt_irrefl _)

/-- The newest record is not the target, but may delete it. -/
lemma fit_older (hnewest : ∀ message ∈ rest, message.messageId < record.messageId)
      (hid : record.messageId ≠ target) :
    (∀ message ∈ record :: rest, message.messageId = target →
      Fit (record :: rest) target sender kind gone message) ↔
      ∀ message ∈ rest, message.messageId = target →
      Fit rest target sender kind (gone || (record.target = some target && isDeleted record.flags))
        message := by
  have hfit : ∀ message ∈ rest, Fit (record :: rest) target sender kind gone message ↔
      Fit rest target sender kind
        (gone || (record.target = some target && isDeleted record.flags)) message := by
    intro message hmem
    have hgone : (gone || (record.target = some target && isDeleted record.flags)) = false ↔
        gone = false ∧ ¬ Deletes record target := by
      rw [Bool.or_eq_false_iff, ← deletes_iff, Bool.not_eq_true]
    have hafter := hnewest message hmem
    simp only [Fit, hgone, forall_mem_cons, hafter, forall_const, and_assoc]
  constructor
  · intro h message hmem hsame
    exact (hfit message hmem).mp (h message (mem_cons_of_mem _ hmem) hsame)
  · intro h message hmem hsame
    rcases mem_cons.mp hmem with rfl | hold
    · exact absurd hsame hid
    · exact (hfit message hold).mpr (h message hold hsame)

end

/-- The scan accepts if it does not come to the target, or finds it fit to be changed. -/
lemma scanMutation_eq_ok {target sender : UInt64} {kind : MutationKind}
      {newestFirst : List (ChatMessage utf8)}
    (valid : ∀ message ∈ newestFirst, message.Valid)
    (descending : newestFirst.Pairwise fun a b => b.messageId < a.messageId) (gone : Bool) :
    scanMutation utf8 target sender kind gone (newestFirst.map recordOf) = .ok () ↔
      ∀ message ∈ newestFirst, message.messageId = target →
      Fit newestFirst target sender kind gone message := by
  induction newestFirst generalizing gone with
  | nil => simp [scanMutation]
  | cons record rest ih =>
    obtain ⟨hnewest, hrest⟩ := pairwise_cons.mp descending
    have hparse := parseMessage_recordOf (valid record mem_cons_self)
    have ih := ih (fun message hmem => valid message (mem_cons_of_mem _ hmem)) hrest
    rw [map_cons]
    simp only [scanMutation, hparse]
    by_cases hid : record.messageId = target
    · rw [if_neg (not_not.mpr hid), fit_newest hnewest hid]
      simp only [error_else_eq_ok, Option.isSome_iff_ne_none, ne_eq, not_not, not_and, and_true]
      constructor
      · rintro ⟨htarget, hsender, hgone, hfile⟩
        rw [htarget] at hgone
        exact ⟨htarget, hsender, by simpa using hgone, hfile⟩
      · rintro ⟨htarget, hsender, hgone, hfile⟩
        rw [htarget]
        exact ⟨rfl, hsender, by simp [hgone], hfile⟩
    · rw [if_pos hid, ih, fit_older hnewest hid]

/-! ## The room against its records -/

structure RoomInv (tuning : StoreTuning) (s : RoomRun utf8) : Prop where
  records : RecordsOk s.appended
  roomy : Roomy tuning s.room.retention
  window : ∃ history, s.room.retention.history = some history ∧ WindowOf s.appended history
  recent : s.room.recentIds = (s.appended.rtake mutationWindowMessages).map fun message =>
    message.messageId.toNat
  fresh : ∀ message ∈ s.appended, message.messageId.toNat < s.room.nextId

lemma WindowOf.scanned (h : WindowOf records history) :
    history.reverse.take mutationWindowMessages = (records.rtake mutationWindowMessages).reverse.map
      recordOf := by
  have hsame := rtake_eq_of_isSuffix h.1 (by rw [length_map]; exact h.2)
  rw [rtake_eq_reverse_take_reverse, rtake_eq_reverse_take_reverse] at hsame
  have hsame := reverse_injective hsame
  rw [hsame, ← map_reverse, ← map_take, rtake_eq_reverse_take_reverse, reverse_reverse]

variable {tuning : StoreTuning} {s : RoomRun utf8}

lemma RoomInv.of_opened (h : s.Opened tuning) :
    RoomInv tuning s where
  records := h.records
  roomy := h.roomy
  window := h.window
  recent := by
    obtain ⟨history, hhistory, hwindow⟩ := h.window
    obtain ⟨nextId, hroom, -⟩ := h.registered
    rw [hroom]
    simp only [registerRoom, hhistory, Option.getD_some, hwindow.scanned]
    rw [← map_reverse, reverse_reverse, map_map]
    rfl
  fresh := h.registered.choose_spec.2

/-- An id is among the recent ones exactly when a newest record has it. -/
lemma RoomInv.mem_recentIds (h : RoomInv tuning s) (target : UInt64) :
    target.toNat ∈ s.room.recentIds ↔ ∃ message ∈ s.appended.rtake mutationWindowMessages,
    message.messageId = target := by
  simp only [h.recent, mem_map, UInt64.toNat_inj]

lemma RoomInv.validateMutation (h : RoomInv tuning s) (target sender : UInt64)
      (kind : MutationKind) :
    s.room.validateMutation utf8 target sender kind = .ok () ↔
    MayMutate s.appended target sender kind := by
  obtain ⟨history, hhistory, hwindow⟩ := h.window
  have hvalid : ∀ message ∈ (s.appended.rtake mutationWindowMessages).reverse, message.Valid := by
    intro message hmem
    exact h.records.valid message (mem_of_mem_rtake (mem_reverse.mp hmem))
  have hdescending : (s.appended.rtake mutationWindowMessages).reverse.Pairwise
      fun a b => b.messageId < a.messageId := by
    rw [pairwise_reverse]
    exact h.records.ascending.sublist (drop_sublist _ _)
  simp only [Room.validateMutation, hhistory, hwindow.scanned, error_else_eq_ok, not_not,
    h.mem_recentIds, scanMutation_eq_ok hvalid hdescending, mem_reverse]
  constructor
  · rintro ⟨⟨message, hmem, hid⟩, hfit⟩
    obtain ⟨htarget, hsender, ⟨-, hkept⟩, hfile⟩ := hfit message hmem hid
    refine ⟨message, hmem, hid, htarget, hsender, ?_, hfile⟩
    intro later hlater hlt
    apply hkept later _ hlt
    exact mem_reverse.mpr (mem_rtake_of_lt h.records.ascending hmem hlater hlt)
  · rintro ⟨message, hmem, hid, htarget, hsender, hkept, hfile⟩
    refine ⟨⟨message, hmem, hid⟩, fun other hother hsame => ?_⟩
    obtain rfl := eq_of_messageId_eq h.records.ascending (mem_of_mem_rtake hmem)
      (mem_of_mem_rtake hother) (hid.trans hsame.symm)
    refine ⟨htarget, hsender, ⟨rfl, fun later hlater hlt => ?_⟩, hfile⟩
    exact hkept later (mem_of_mem_rtake (mem_reverse.mp hlater)) hlt

/-! ## Steps -/

section

variable {tuning : StoreTuning} {records : List (ChatMessage utf8)} {message : ChatMessage utf8}

lemma WindowOf.append (h : WindowOf records history) (message : ChatMessage utf8) :
    WindowOf (records ++ [message]) (history ++ [recordOf message]) := by
  obtain ⟨⟨front, hfront⟩, hlong⟩ := h
  constructor
  · refine ⟨front, ?_⟩
    rw [map_append, ← hfront, append_assoc]
    rfl
  · simp only [length_append, length_singleton]
    omega

lemma WindowOf.trim (h : WindowOf records history) {limit : ℕ}
    (hlimit : mutationWindowMessages ≤ limit) : WindowOf records (trimToLimit limit history) := by
  constructor
  · exact (drop_suffix _ _).trans h.1
  · have hlong := h.2
    rw [trimToLimit, length_drop]
    omega

lemma pushRecent_rtake (id : α → ℕ) (l : List α) (a : α) :
    pushRecent ((l.rtake mutationWindowMessages).map id) (id a) =
      ((l ++ [a]).rtake mutationWindowMessages).map id := by
  have hpos : 0 < mutationWindowMessages := by decide
  have hkeep : (l ++ [a]).rtake mutationWindowMessages =
      l.drop (l.length + 1 - mutationWindowMessages) ++ [a] := by
    rw [List.rtake, length_append, length_singleton, drop_append_of_le_length (by omega)]
  rw [pushRecent, length_map, List.rtake, length_drop, hkeep, map_append, map_singleton]
  by_cases hfull : mutationWindowMessages ≤ l.length
  · -- the oldest id makes room
    have hshift : l.length - mutationWindowMessages + 1 = l.length +
        1 - mutationWindowMessages := by
      omega
    rw [if_pos (by omega), ← map_drop, drop_drop, hshift]
  · have hall : l.length - mutationWindowMessages = l.length + 1 - mutationWindowMessages := by
      omega
    rw [if_neg (by omega), hall]

/-- The message goes to the end of the window. -/
lemma tryAppend_window {queued : Except String Unit} {retention retention' : Retention} {len : ℕ}
      (hroomy : Roomy tuning retention)
    (hhistory : retention.history = some history) (hwindow : WindowOf records history)
    (h : retention.tryAppend queued (recordOf message) = .ok (retention', len)) :
    Roomy tuning retention' ∧ ∃ history', retention'.history = some history' ∧
    WindowOf (records ++ [message]) history' := by
  cases retention with
  | none => cases hhistory
  | memory _ limit =>
    cases hhistory
    cases h
    exact ⟨hroomy, _, rfl, (hwindow.append message).trim hroomy⟩
  | durable log =>
    cases hhistory
    cases queued with
    | error error => cases h
    | ok _ =>
      cases h
      exact ⟨hroomy, _, rfl, hwindow.append message⟩

/-- What a record must be to come after the others. -/
structure Follows (records : List (ChatMessage utf8)) (message : ChatMessage utf8) : Prop where
  valid : message.Valid
  newer : ∀ other ∈ records, other.messageId < message.messageId
  target : ∀ target, message.target = some target →
    (∃ other ∈ records, other.messageId = target) ∧ ∀ other ∈ records, ¬ Deletes other target

lemma RecordsOk.append (h : RecordsOk records) (hmessage : Follows records message) :
    RecordsOk (records ++ [message]) where
  valid := by exact forall_mem_append.mpr ⟨h.valid, forall_mem_singleton.mpr hmessage.valid⟩
  ascending := by
    apply pairwise_append.mpr
    refine ⟨h.ascending, pairwise_singleton _ _, fun other hother last hlast => ?_⟩
    rw [mem_singleton.mp hlast]
    exact hmessage.newer other hother
  backward := by
    intro other hmem target htarget
    rcases mem_append.mp hmem with hold | hnew
    · exact h.backward other hold target htarget
    · rw [mem_singleton.mp hnew] at htarget ⊢
      obtain ⟨⟨named, hnamed, rfl⟩, -⟩ := hmessage.target target htarget
      exact hmessage.newer named hnamed
  deleted := by
    intro target deletion hdeletion hdeletes later hlater hlt
    rcases mem_append.mp hdeletion with hold | hnew
    · rcases mem_append.mp hlater with hlater | hlater
      · exact h.deleted target deletion hold hdeletes later hlater hlt
      · rw [mem_singleton.mp hlater]
        intro htarget
        exact (hmessage.target target htarget).2 deletion hold hdeletes
    · -- nothing comes after the new record
      rw [mem_singleton.mp hnew] at hlt
      rcases mem_append.mp hlater with hlater | hlater
      · exact absurd hlt (UInt64.lt_asymm (hmessage.newer later hlater))
      · rw [mem_singleton.mp hlater] at hlt
        exact absurd hlt (UInt64.lt_irrefl _)

/-- What an accepted mutation names is in the records and not deleted. -/
lemma MayMutate.target {target sender : UInt64} {kind : MutationKind} (hrecords : RecordsOk records)
      (h : MayMutate records target sender kind) :
    (∃ other ∈ records, other.messageId = target) ∧ ∀ other ∈ records, ¬ Deletes other target := by
  obtain ⟨named, hmem, rfl, -, -, hkept, -⟩ := h
  refine ⟨⟨named, mem_of_mem_rtake hmem, rfl⟩, fun other hother hdeletes => ?_⟩
  exact hkept other hother (hrecords.backward other hother _ hdeletes.1) hdeletes

end

section

variable {tuning : StoreTuning} {s : RoomRun utf8}

/-- An id is used up. -/
lemma RoomInv.allocate (h : RoomInv tuning s) :
    RoomInv tuning { s with room := { s.room with nextId := s.room.nextId + 1 } } :=
  { h with fresh := fun message hmem => (h.fresh message hmem).trans (Nat.lt_succ_self _) }

/-- A request either appends its message or only uses up its id. -/
lemma post_cases (queued : Except String Unit) (room : Room) (message : ℕ → ChatMessage utf8) :
    (∃ retention len, room.retention.tryAppend queued (recordOf (message room.nextId)) =
      .ok (retention, len) ∧
        room.post queued message =
          ({ retention
             recentIds := pushRecent room.recentIds (message room.nextId).messageId.toNat
             head := some (message room.nextId).messageId.toNat
             nextId := room.nextId + 1 }, .accepted (message room.nextId))) ∨
      ∃ text, room.post queued message = ({ room with nextId := room.nextId + 1 },
        .rejected text) := by
  simp only [Room.post, Room.tryAppend]
  cases happend : room.retention.tryAppend queued (recordOf (message room.nextId)) with
  | error error => exact .inr ⟨_, rfl⟩
  | ok result => exact .inl ⟨result.1, result.2, rfl, rfl⟩

lemma RoomInv.post (h : RoomInv tuning s) (queued : Except String Unit) {message : ℕ →
      ChatMessage utf8}
    (hid : (message s.room.nextId).messageId.toNat = s.room.nextId)
    (hmessage : Follows s.appended (message s.room.nextId)) :
    RoomInv tuning (s.answer (s.room.post queued message)) := by
  obtain ⟨retention, len, happend, hpost⟩ | ⟨text, hpost⟩ := post_cases queued s.room message
  · obtain ⟨history, hhistory, hwindow⟩ := h.window
    obtain ⟨hroomy, hwindow⟩ := tryAppend_window h.roomy hhistory hwindow happend
    rw [hpost]
    constructor
    case records => exact h.records.append hmessage
    case roomy => exact hroomy
    case window => exact hwindow
    case recent =>
      have hpush := pushRecent_rtake (fun message => message.messageId.toNat) s.appended
        (message s.room.nextId)
      rw [← h.recent] at hpush
      exact hpush
    case fresh =>
      intro other hmem
      rcases mem_append.mp hmem with hold | hnew
      · exact (h.fresh other hold).trans (Nat.lt_succ_self _)
      · rw [mem_singleton.mp hnew, hid]
        exact Nat.lt_succ_self _
  · rw [hpost]
    have hsame : s.appended ++ (Reply.rejected text : Reply utf8).message.toList = s.appended :=
      append_nil _
    rw [RoomRun.answer, hsame]
    exact h.allocate

/-- The message of a draft takes the next id. -/
lemma RoomInv.post_draft (h : RoomInv tuning s) (queued : Except String Unit) {draft : Draft utf8}
      (hfits : draft.Fits)
    (hspace : s.room.nextId + 1 < 2 ^ 64) {fileTransferId target : Option UInt64} {flags : Byte}
    (hflags : flagsValid flags = true)
    (hmutation : target.isSome = true ↔ flags ≠ 0)
    (hfile : ¬ (target.isSome = true ∧ fileTransferId.isSome = true))
    (htarget : ∀ named, target = some named → (∃ other ∈ s.appended, other.messageId = named) ∧
      ∀ other ∈ s.appended, ¬ Deletes other named) :
    RoomInv tuning (s.answer (s.room.post queued (draft.message fileTransferId flags target))) := by
  have hid : (draft.message fileTransferId flags target s.room.nextId).messageId.toNat =
      s.room.nextId := UInt64.toNat_ofNat_of_lt (lt_trans (Nat.lt_succ_self _) hspace)
  apply h.post queued hid
  constructor
  case valid => exact ⟨hflags, hmutation, hfile, hfits.1, hfits.2⟩
  case newer =>
    intro other hmem
    rw [UInt64.lt_iff_toNat_lt, hid]
    exact h.fresh other hmem
  case target => exact htarget

variable {log log' : DurableLog}

/-- The log changes, and its window is at most trimmed. -/
lemma RoomInv.setLog (h : RoomInv tuning s) (hretention : s.room.retention = .durable log)
    (hhistory : log'.history = log.history ∨
      log'.history = trimToLimit tuning.maxResidentMessages log.history) :
    RoomInv tuning { s with room := { s.room with retention := .durable log' } } := by
  have hroomy := h.roomy
  obtain ⟨history, hresident, hwindow⟩ := h.window
  rw [hretention] at hroomy hresident
  cases hresident
  refine ⟨h.records, hroomy, ⟨log'.history, rfl, ?_⟩, h.recent, h.fresh⟩
  rcases hhistory with hsame | htrimmed
  · rw [hsame]
    exact hwindow
  · rw [htrimmed]
    exact hwindow.trim hroomy

lemma write_history (h : log.write tuning = some log') : log'.history = log.history := by
  simp only [DurableLog.write] at h
  split at h
  · cases h
  split at h
  · split_ifs at h <;> cases h <;> rfl
  · cases h
    rfl

lemma drainLogEvent_history (h : log.drainLogEvent tuning = some log') :
    log'.history = log.history ∨
    log'.history = trimToLimit tuning.maxResidentMessages log.history := by
  simp only [DurableLog.drainLogEvent] at h
  split at h
  · cases h
  cases h
  split_ifs
  · exact .inr rfl
  · exact .inl rfl

lemma RoomInv.next {action : RoomAction utf8} {s' : RoomRun utf8} (h : RoomInv tuning s)
    (hok : action.Ok s) (hnext : s.next tuning action = some s') : RoomInv tuning s' := by
  cases action with
  | chat draft queued | file draft fileTransferId queued =>
    cases hnext
    exact h.post_draft queued hok.1 hok.2 rfl (by simp) (by simp) (by simp)
  | mutate draft target kind queued =>
    cases hnext
    unfold Room.mutateChat
    cases hvalidate : s.room.validateMutation utf8 target draft.sender kind with
    | error denied =>
      have hsame : s.appended ++ (Reply.rejected (denied.text kind) : Reply utf8).message.toList =
          s.appended := append_nil _
      simp only [RoomRun.answer, hsame]
      exact h
    | ok _ =>
      have hmay := ((h.validateMutation target draft.sender kind).mp hvalidate).target h.records
      apply h.post_draft queued hok.1 hok.2
      · cases kind <;> rfl
      · cases kind <;> simp [MutationKind.flags, edited, deleted]
      · simp
      · intro named hnamed
        cases hnamed
        exact hmay
  | allocate =>
    cases hnext
    exact h.allocate
  | write =>
    simp only [RoomRun.next] at hnext
    split at hnext
    · next log hretention =>
      obtain ⟨log', hwrite, rfl⟩ := Option.map_eq_some_iff.mp hnext
      exact h.setLog hretention (.inl (write_history hwrite))
    · cases hnext
  | drain =>
    simp only [RoomRun.next] at hnext
    split at hnext
    · next log hretention =>
      obtain ⟨log', hdrain, rfl⟩ := Option.map_eq_some_iff.mp hnext
      exact h.setLog hretention (drainLogEvent_history hdrain)
    · cases hnext
  | disable =>
    simp only [RoomRun.next] at hnext
    split at hnext
    · next log hretention =>
      cases hnext
      have hroomy := h.roomy
      have hwindow := h.window
      rw [hretention] at hroomy hwindow
      exact ⟨h.records, hroomy, hwindow, h.recent, h.fresh⟩
    · cases hnext

/-- In every run, an edit or a deletion is accepted exactly when its target is one of the newest
records and may be changed by its sender; and what is deleted is never changed again. -/
theorem mutations_follow_records (utf8 : Utf8Check) (tuning : StoreTuning) (start s : RoomRun utf8)
    (hstart : start.Opened tuning)
    (hrun : Reachable (RoomRun.next tuning) (fun s action => action.Ok s) start s) :
    (∀ target sender kind, s.room.validateMutation utf8 target sender kind = .ok () ↔
      MayMutate s.appended target sender kind) ∧
    DeletedForGood s.appended := by
  have h : RoomInv tuning s := by
    apply hrun.invariant (RoomInv.of_opened hstart)
    intro x y action h hok hnext
    exact h.next hok hnext
  exact ⟨h.validateMutation, h.records.deleted⟩

end

/-! ## A run -/

def sampleTuning : StoreTuning := ⟨8, 256⟩

/-- The check of the samples below accepts every text. -/
lemma unchecked : (none : Option String) = none := rfl

/-- Without a check, all bytes are text. -/
def sampleDraft (sender : UInt64) : Draft (fun _ => none) :=
  ⟨3, sender, ⟨[65], unchecked⟩, 9, ⟨[66], unchecked⟩⟩

def sampleStart : RoomRun (fun _ => none) where
  room := registerRoom 1 (.memory [] 256)
  appended := []

/-- A message, another one that is deleted, and an edit of the first. -/
def sampleActions : List (RoomAction fun _ => none) :=
  [.chat (sampleDraft 7) (.ok ()), .chat (sampleDraft 8) (.ok ()),
   .mutate (sampleDraft 8) 2 .delete (.ok ()), .mutate (sampleDraft 8) 2 .edit (.ok ()),
   .mutate (sampleDraft 7) 1 .edit (.ok ())]

lemma sampleStart_opened : sampleStart.Opened sampleTuning where
  records := ⟨by simp [sampleStart], by simp [sampleStart], by simp [sampleStart],
    by simp [DeletedForGood, sampleStart]⟩
  roomy := le_refl 256
  window := ⟨[], rfl, suffix_rfl, Nat.zero_le _⟩
  registered := ⟨1, rfl, by simp [sampleStart]⟩

theorem mutations_follow_records_sample :
    let s := after (RoomRun.next sampleTuning) sampleStart sampleActions
    MayMutate s.appended 1 7 .delete ∧ ¬ MayMutate s.appended 2 8 .delete ∧
      DeletedForGood s.appended := by
  have hrun : Reachable (RoomRun.next sampleTuning) (fun s action => action.Ok s) sampleStart
      (after (RoomRun.next sampleTuning) sampleStart sampleActions) := by
    apply reachable_after
    decide +kernel
  have h := mutations_follow_records _ sampleTuning _ _ sampleStart_opened hrun
  refine ⟨(h.1 1 7 .delete).mp (by decide +kernel), ?_, h.2⟩
  rw [← h.1 2 8 .delete]
  decide +kernel

end Chatt.Mutations
