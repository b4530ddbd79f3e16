import Chatt.Analysis.FileFrames
import Chatt.Interface.UploadRun
import Chatt.Lib.KeyCounters

/-!
# The frames of uploads and their nonces

An upload in the queue is a slot that counts up under its content key, and the commands, the
restore requests and the stored intents are records of keys.  Each action is one of the moves of
`Lib.KeysCounted`, as long as no upload is restored after one of its frames was sealed.
-/

namespace Chatt.FileTransfer

open Lib List Option

variable {zstd : Compressor} (aead : Aead) (sha256 : Bytes → Digest)
variable {fresh : Option (ByteArr 32 × EventId)}

/-! ## Slots and records -/

def OutgoingUpload.slot (upload : OutgoingUpload zstd) :
    Option (KeySlot (ByteArr 32) (RoomId × EventId)) :=
  upload.sealing.map fun sealing => ⟨sealing.contentKey.bytes, (upload.roomId, sealing.eventId),
    sealing.counter.toNat⟩

def DurableFileUpload.record (intent : DurableFileUpload) : ByteArr 32 × (RoomId × EventId) :=
  (intent.announcement.fileKey, (intent.roomId, intent.eventId))

def FileCommand.record? : FileCommand → Option (ByteArr 32 × (RoomId × EventId))
  | .queueFile intent => some intent.record
  | .finishFile _ _ | .fileUploadReady _ _ => none

def UploadClient.slots (c : UploadClient zstd) : List (KeySlot (ByteArr 32) (RoomId × EventId)) :=
  c.outgoingUploads.filterMap OutgoingUpload.slot

def UploadClient.held (c : UploadClient zstd) : List (ByteArr 32 × (RoomId × EventId)) :=
  c.commands.filterMap FileCommand.record? ++ c.restores.map (fun e => e.intent.record) ++
    c.stored.map (fun e => e.intent.record)

def SealCall.pair (call : SealCall) : ByteArr 32 × ℕ := (call.fileKey, call.index.toNat)

def UploadClient.Counted (c : UploadClient zstd) : Prop :=
  KeysCounted c.slots c.held c.drawn (c.sealCalls.map SealCall.pair)

/-! ## A poll -/

/-- What a poll does to the upload's slot: it keeps it (or drops it), or uses one number. -/
def Counts (upload : OutgoingUpload zstd) (polled : Polled zstd) : Prop :=
  (polled.sealCall = none ∧ ∀ u ∈ polled.upload, u.slot = upload.slot) ∨
    ∃ slot u call, upload.slot = some slot ∧ polled.upload = some u ∧
      u.slot = some { slot with next := slot.next + 1 } ∧ polled.sealCall = some call ∧
      call.pair = (slot.key, slot.next)

/-- What a poll does to the upload: `Counts`, and it keeps its id. -/
def PollOf (upload : OutgoingUpload zstd) (polled : Polled zstd) : Prop :=
  Counts upload polled ∧ ∀ u ∈ polled.upload, u.transferId = upload.transferId

section Poll

variable {upload : OutgoingUpload zstd} {polled : Polled zstd} {env : PollEnv}

lemma pollOf_over (hupload : polled.upload = none) (hcall : polled.sealCall = none) :
    PollOf upload polled := by
  refine ⟨.inl ⟨hcall, ?_⟩, ?_⟩ <;> simp [hupload]

lemma pollOf_keep {kept : OutgoingUpload zstd} (hupload : polled.upload = some kept)
      (hcall : polled.sealCall = none)
    (hslot : kept.slot = upload.slot) (hid : kept.transferId = upload.transferId) :
    PollOf upload polled := by
  refine ⟨.inl ⟨hcall, ?_⟩, ?_⟩ <;> simpa [hupload]

/-- A sealed frame goes with the next number of the upload's slot. -/
lemma pollOf_sealed {sent : OutgoingUpload zstd} {sealing sealing' : UploadSeal} {sender : UserId}
      {payload frame : Bytes} {padLen : ℕ}
    {call : SealCall} (hsome : upload.sealing = some sealing)
    (hframe : sealFileChunk aead sealing.contentKey.bytes (upload.scope sealing sender)
      sealing.counter payload padLen = .ok (frame, call))
    (hsent : polled.upload = some sent) (hroom : sent.roomId = upload.roomId)
    (hsealing : sent.sealing = some sealing')
    (hkey : sealing'.contentKey = sealing.contentKey) (hevent : sealing'.eventId = sealing.eventId)
    (hcounter : sealing'.counter = sealing.counter + 1)
    (hcall : polled.sealCall = some call) (hid : sent.transferId = upload.transferId) :
    PollOf upload polled := by
  obtain ⟨hindex, hfile, hnext⟩ := sealFileChunk_eq_ok hframe
  have hlt := toNat_succ_of_lt hindex
  refine ⟨.inr ⟨_, sent, _, by rw [OutgoingUpload.slot, hsome, map_some], hsent, ?_, hcall, ?_⟩, ?_⟩
  · rw [OutgoingUpload.slot, hsealing, map_some, hkey, hroom, hevent, hcounter, hlt]
  · rw [SealCall.pair, hfile, hnext]
  · simpa [hsent]

lemma pollOf_startUpload : PollOf upload (startUpload env upload) := by
  unfold startUpload
  split
  · split
    · exact pollOf_keep rfl rfl rfl rfl
    · exact pollOf_keep rfl rfl rfl rfl
  · exact pollOf_keep rfl rfl rfl rfl

lemma pollOf_sendPending : PollOf upload (sendPending aead env upload) := by
  unfold sendPending
  dsimp only
  split
  · exact pollOf_keep rfl rfl rfl rfl
  next sealing hsome =>
  split
  · exact pollOf_over rfl rfl
  · split
    · exact pollOf_over rfl rfl
    next hframe => exact pollOf_sealed aead hsome hframe rfl rfl rfl rfl rfl rfl rfl rfl

lemma pollOf_flushSource : PollOf upload (flushSource env upload) := by
  unfold flushSource
  split
  · exact pollOf_over rfl rfl
  · exact pollOf_keep rfl rfl rfl rfl

lemma same_of_readUploadSource {read : OutgoingUpload zstd} {limit : ℕ} {answer : Option Bytes}
      {data : Bytes}
    (h : readUploadSource upload limit answer = some (data, read)) :
    read.slot = upload.slot ∧ read.transferId = upload.transferId := by
  unfold readUploadSource at h
  split at h
  · cases h
    exact ⟨rfl, rfl⟩
  split at h
  · cases h
    exact ⟨rfl, rfl⟩
  · obtain ⟨_, _, heq⟩ := map_eq_some_iff.mp h
    cases heq
    exact ⟨rfl, rfl⟩

lemma pollOf_readSource : PollOf upload (readSource env upload) := by
  unfold readSource
  split
  · exact pollOf_over rfl rfl
  next data read hread =>
  obtain ⟨hslot, hid⟩ := same_of_readUploadSource hread
  split
  · exact pollOf_over rfl rfl
  · split
    · exact pollOf_over rfl rfl
    · exact pollOf_keep rfl rfl hslot hid

lemma pollOf_finishEncoder : PollOf upload (finishEncoder env upload) := by
  unfold finishEncoder
  split
  · exact pollOf_over rfl rfl
  · exact pollOf_keep rfl rfl rfl rfl

lemma pollOf_padOrComplete : PollOf upload (padOrComplete aead env upload) := by
  unfold padOrComplete
  split
  · exact pollOf_over rfl rfl
  next sealing hsome =>
  split
  · exact pollOf_over rfl rfl
  split
  · exact pollOf_over rfl rfl
  dsimp only
  split
  · exact pollOf_over rfl rfl
  next hframe => exact pollOf_sealed aead hsome hframe rfl rfl rfl rfl rfl rfl rfl rfl

variable (env upload) in
lemma pollOf_pollOneUpload : PollOf upload (pollOneUpload aead env upload) := by
  unfold pollOneUpload
  split_ifs
  · exact pollOf_startUpload
  · exact pollOf_sendPending aead
  · exact pollOf_flushSource
  · exact pollOf_readSource
  · exact pollOf_finishEncoder
  · exact pollOf_keep rfl rfl rfl rfl
  · exact pollOf_keep rfl rfl rfl rfl
  · exact pollOf_padOrComplete aead

end Poll

/-! ## The actions -/

section Actions

variable {c d : UploadClient zstd} {a : UploadAction}

/-- What the invariants read of an upload. -/
def OutgoingUpload.mark (upload : OutgoingUpload zstd) :
    FileTransferId × Option (KeySlot (ByteArr 32) (RoomId × EventId)) :=
  (upload.transferId, upload.slot)

def UploadClient.marks (c : UploadClient zstd) :
    List (FileTransferId × Option (KeySlot (ByteArr 32) (RoomId × EventId))) :=
  c.outgoingUploads.map OutgoingUpload.mark

lemma slots_eq (c : UploadClient zstd) : c.slots = c.marks.filterMap Prod.snd := by
  rw [UploadClient.marks, filterMap_map]
  rfl

lemma held_eq (c : UploadClient zstd) : c.held = c.intents.map DurableFileUpload.record := by
  have hrecord : FileCommand.record? = fun command =>
      command.intent?.map DurableFileUpload.record := by
    funext command
    cases command <;> rfl
  simp only [UploadClient.held, UploadClient.intents, map_append, map_filterMap,
    List.map_map, hrecord]
  rfl

lemma mem_intents {intent : DurableFileUpload} :
    intent ∈ c.intents ↔ .queueFile intent ∈ c.commands ∨ (∃ e ∈ c.restores, e.intent = intent) ∨
    ∃ e ∈ c.stored, e.intent = intent := by
  have hcommand : ∀ command : FileCommand, command.intent? = some intent ↔
      command = .queueFile intent := by
    intro command
    cases command <;> simp [FileCommand.intent?]
  simp [UploadClient.intents, hcommand]

lemma mem_intents_of_head {e : StoredUpload} (h : c.restores.head? = some e) :
    e.intent ∈ c.intents :=
  mem_intents.mpr (.inr (.inl ⟨e, mem_of_mem_head? h, rfl⟩))

/-- What an action does to the uploads and the intents, the keys drawn and the frames sealed. -/
inductive Moves (c d : UploadClient zstd) : UploadAction → Prop
  /-- uploads may leave the queue, and intents may go -/
  | keep {a : UploadAction} (marks : d.marks.Sublist c.marks) (intents : d.intents ⊆ c.intents)
      (drawn : c.drawn ⊆ d.drawn) (calls : d.sealCalls = c.sealCalls)
      (next : d.marks = [] ∨ d.nextFileTransfer = c.nextFileTransfer) : Moves c d a
  /-- the front of the queue seals a frame -/
  | sealed {a : UploadAction} {id : FileTransferId} {slot : KeySlot (ByteArr 32) (RoomId × EventId)}
      {rest : List _} (before : c.marks = (id, some slot) :: rest)
      (after : d.marks = (id, some { slot with next := slot.next + 1 }) :: rest)
      (intents : d.intents ⊆ c.intents) (drawn : d.drawn = c.drawn)
      (calls : d.sealCalls.map SealCall.pair = (slot.key, slot.next) ::
        c.sealCalls.map SealCall.pair)
      (next : d.nextFileTransfer = c.nextFileTransfer) : Moves c d a
  | queue {roomId : RoomId} {request : UploadRequest} {fresh : Option (ByteArr 32 × EventId)}
      (marks : d.marks = c.marks ++ [(c.nextFileTransfer, fresh.map fun drawn =>
        ⟨drawn.1, (roomId, drawn.2), 0⟩)])
      (intents : ∀ intent ∈ d.intents, intent ∈ c.intents ∨ ∃ drawn, fresh = some drawn ∧
        intent.announcement.transferId = c.nextFileTransfer ∧
        intent.record = (drawn.1, (roomId, drawn.2)))
      (drawn : d.drawn = (fresh.map Prod.fst).toList ++ c.drawn) (calls : d.sealCalls = c.sealCalls)
      (next : d.nextFileTransfer = nextTransferId c.nextFileTransfer) :
      Moves c d (.queueFileUpload roomId request fresh)
  /-- no upload for the announcement is in the queue -/
  | restore {request : UploadRequest} {fresh : Option (ByteArr 32 × EventId)} {e : StoredUpload}
      (head : c.restores.head? = some e)
      (unqueued : ∀ slot ∈ c.slots, slot.owner ≠ (e.intent.roomId, e.intent.eventId))
      (marks : d.marks = c.marks ++ [(e.intent.announcement.transferId,
        some ⟨e.intent.announcement.fileKey, (e.intent.roomId, e.intent.eventId), 0⟩)])
      (intents : d.intents ⊆ c.intents) (drawn : c.drawn ⊆ d.drawn)
        (calls : d.sealCalls = c.sealCalls)
      (next : d.nextFileTransfer = max (nextTransferId c.nextFileTransfer)
        (nextTransferId e.intent.announcement.transferId)) : Moves c d (.restoreFile request fresh)

lemma filterMap_intent_finishCommands (upload : OutgoingUpload zstd) :
    upload.finishCommands.filterMap FileCommand.intent? = [] := by
  unfold OutgoingUpload.finishCommands
  cases upload.sealing <;> rfl

lemma moves_poll {upload : OutgoingUpload zstd} {rest : List (OutgoingUpload zstd)}
      (huploads : c.outgoingUploads = upload :: rest)
    (sourceBudget : ℕ) (answer : Option Bytes) :
    Moves c (c.poll aead upload rest sourceBudget answer) a := by
  have hintents : (c.poll aead upload rest sourceBudget answer).intents ⊆ c.intents := by
    unfold UploadClient.poll UploadClient.intents
    dsimp only
    split_ifs <;> simp [filterMap_intent_finishCommands]
  have hpoll := pollOf_pollOneUpload aead upload ⟨c.userId, c.throttle, sourceBudget, answer⟩
  have hmarks : c.marks = upload.mark :: rest.map OutgoingUpload.mark := by
    rw [UploadClient.marks, huploads, map_cons]
  unfold UploadClient.poll at hintents ⊢
  generalize pollOneUpload aead ⟨c.userId, c.throttle, sourceBudget, answer⟩ upload = polled
    at hpoll hintents
  obtain ⟨⟨hcall, hslot⟩ | ⟨slot, u, call, hslot, hu, hnext, hcall, hpair⟩, hid⟩ := hpoll
  · refine .keep ?_ hintents (List.Subset.refl _) (by simp [hcall]) (.inr rfl)
    rw [hmarks]
    unfold UploadClient.marks
    dsimp only
    rcases eq_none_or_eq_some polled.upload with hnone | ⟨u, hu⟩
    · rw [hnone]
      exact sublist_cons_self _ _
    · rw [hu, toList_some, singleton_append, map_cons, OutgoingUpload.mark, hid u hu, hslot u hu]
      exact List.Sublist.refl _
  · rw [OutgoingUpload.mark, hslot] at hmarks
    refine .sealed hmarks ?_ hintents rfl (by simp [hcall, hpair]) rfl
    unfold UploadClient.marks
    dsimp only
    rw [hu, toList_some, singleton_append, map_cons, OutgoingUpload.mark, hid u hu, hnext]

lemma mark_markDelivered (roomId : RoomId) (eventId : EventId) (upload : OutgoingUpload zstd) :
    (upload.markDelivered roomId eventId).mark = upload.mark := by
  unfold OutgoingUpload.markDelivered
  split_ifs
  · unfold OutgoingUpload.mark OutgoingUpload.slot
    cases upload.sealing <;> rfl
  · rfl

lemma intents_runCommand {command : FileCommand} {rest : List FileCommand}
      (hcommands : c.commands = command :: rest) :
    (command.apply { c with commands := rest }).intents ⊆ c.intents := by
  intro intent
  rw [mem_intents, mem_intents, hcommands]
  cases command <;> grind [FileCommand.apply]

/-- A restored upload has the id and the key of the announcement, and counts from zero. -/
lemma mark_restored {intent : DurableFileUpload} {delivered : Bool} {transferId : FileTransferId}
      {request : UploadRequest} {upload : OutgoingUpload zstd}
    (h : restoreMlsFileUpload intent delivered
      (prepareFileUpload sha256 intent.roomId transferId request fresh) = some upload) :
    upload.mark =
      (intent.announcement.transferId,
      some ⟨intent.announcement.fileKey, (intent.roomId, intent.eventId), 0⟩) := by
  unfold restoreMlsFileUpload at h
  split at h
  · cases h
  next sealing hsealing =>
  split at h
  · cases h
  · cases h
    obtain ⟨drawn, _, rfl⟩ := map_eq_some_iff.mp hsealing
    rfl

lemma moves_restoreFile {e : StoredUpload} {rest : List StoredUpload}
      (hrestores : c.restores = e :: rest)
    (request : UploadRequest) :
    Moves c (c.restoreFile sha256 e rest request fresh) (.restoreFile request fresh) := by
  have hintents : (c.restoreFile sha256 e rest request fresh).intents ⊆ c.intents := by
    intro intent
    rw [mem_intents, mem_intents, hrestores]
    unfold UploadClient.restoreFile
    grind [UploadClient.dropSession, UploadClient.draw]
  revert hintents
  unfold UploadClient.restoreFile
  split
  · intro hintents
    exact .keep (List.Sublist.refl _) hintents (List.Subset.refl _) rfl (.inr rfl)
  next hqueue =>
  split
  · intro hintents
    exact .keep (nil_sublist _) hintents (subset_append_right _ _) rfl (.inl rfl)
  next upload hrestore =>
  intro hintents
  refine .restore (by rw [hrestores]; rfl) ?_ ?_ hintents (subset_append_right _ _) rfl rfl
  · -- an upload for the announcement would be in the queue under the intent's name
    intro slot hslot heq
    obtain ⟨u, hu, huslot⟩ := mem_filterMap.mp hslot
    obtain ⟨sealing, hsealing, rfl⟩ := map_eq_some_iff.mp huslot
    obtain ⟨hroom, hevent⟩ := Prod.mk.inj heq
    apply hqueue
    rw [List.any_eq_true]
    exact ⟨u, hu, by simp [OutgoingUpload.isFor, hroom, hsealing, hevent]⟩
  · rw [← mark_restored sha256 hrestore]
    exact map_append

lemma moves_queueFileUpload (roomId : RoomId) (request : UploadRequest) :
    Moves c (c.queueFileUpload sha256 roomId request fresh)
      (.queueFileUpload roomId request fresh) := by
  refine .queue (map_append.trans ?_) ?_ rfl rfl rfl
  · cases fresh <;> rfl
  intro intent hintent
  rw [mem_intents] at hintent ⊢
  cases fresh with
  | none =>
    left
    simpa [UploadClient.queueFileUpload, UploadClient.draw, OutgoingUpload.intent,
      prepareFileUpload] using hintent
  | some drawn =>
    rcases hintent with hmem | hmem
    · rcases mem_append.mp hmem with hmem | hmem
      · exact .inl (.inl hmem)
      · cases mem_singleton.mp hmem
        exact .inr ⟨drawn, rfl, rfl, rfl⟩
    · exact .inl (.inr hmem)

lemma moves_next (hnext : c.next aead sha256 a = some d) : Moves c d a := by
  cases a with
  | queueFileUpload roomId request fresh =>
    cases hnext
    exact moves_queueFileUpload sha256 roomId request
  | login userId | setRate rate | refill gained =>
    cases hnext
    exact .keep (List.Sublist.refl _) (List.Subset.refl _) (List.Subset.refl _) rfl (.inr rfl)
  | restorePendingFileUploads =>
    cases hnext
    refine .keep (List.Sublist.refl _) ?_ (List.Subset.refl _) rfl (.inr rfl)
    intro intent
    rw [mem_intents, mem_intents]
    grind
  | runCommand =>
    simp only [UploadClient.next] at hnext
    split at hnext
    · cases hnext
    next command rest hcommands =>
    cases hnext
    have hintents := intents_runCommand hcommands
    cases command <;> exact .keep (List.Sublist.refl _) hintents (List.Subset.refl _) rfl (.inr rfl)
  | announcementDelivered roomId eventId =>
    cases hnext
    refine .keep ?_ ?_ (List.Subset.refl _) rfl (.inr rfl)
    · simp only [UploadClient.marks, List.map_map, Function.comp_def, mark_markDelivered]
      exact List.Sublist.refl _
    · intro intent
      rw [mem_intents, mem_intents]
      grind
  | restoreFile request fresh =>
    simp only [UploadClient.next] at hnext
    split at hnext
    · cases hnext
    next hrestores =>
      cases hnext
      exact moves_restoreFile sha256 hrestores request
  | cancel index =>
    simp only [UploadClient.next] at hnext
    split at hnext
    · cases hnext
    · cases hnext
      refine .keep ((eraseIdx_sublist _ _).map _) ?_ (List.Subset.refl _) rfl (.inr rfl)
      simp [UploadClient.intents, filterMap_intent_finishCommands]
  | poll sourceBudget answer =>
    simp only [UploadClient.next] at hnext
    split at hnext
    · cases hnext
    next huploads =>
      cases hnext
      exact moves_poll aead huploads sourceBudget answer
  | disconnect | crash =>
    cases hnext
    refine .keep (nil_sublist _) ?_ (List.Subset.refl _) rfl (.inl rfl)
    intro intent
    rw [mem_intents, mem_intents]
    grind [UploadClient.dropSession]

lemma UploadClient.Counted.next (h : c.Counted) (hfresh : FreshKeys c a)
    (hrestore : RestoresUnsealed c a) (hnext : c.next aead sha256 a = some d) : d.Counted := by
  unfold UploadClient.Counted at h ⊢
  rw [slots_eq, held_eq] at h ⊢
  cases moves_next aead sha256 hnext with
  | keep marks intents drawn calls _ =>
    rw [calls]
    exact h.mono (marks.filterMap _) (map_subset _ intents) drawn
  | sealed before after intents drawn calls _ =>
    rw [before, filterMap_cons] at h
    rw [after, filterMap_cons, calls, drawn]
    exact h.use.mono (List.Sublist.refl _) (map_subset _ intents) (List.Subset.refl _)
  | @queue roomId _ fresh marks intents drawn calls _ =>
    rw [marks, filterMap_append, drawn, calls]
    cases fresh with
    | none =>
      refine h.mono (by simp) (map_subset _ ?_) (List.Subset.refl _)
      intro intent hintent
      exact (intents intent hintent).resolve_right (by simp)
    | some key =>
      refine (h.grant (hfresh key rfl) (roomId, key.2)).mono (List.Sublist.refl _) ?_
        (List.Subset.refl _)
      intro record hrecord
      obtain ⟨intent, hintent, rfl⟩ := mem_map.mp hrecord
      rcases intents intent hintent with hmem | ⟨key, hkey, -, hnew⟩
      · exact mem_append_left _ (mem_map_of_mem hmem)
      · cases hkey
        exact mem_append_right _ (mem_singleton.mpr hnew)
  | @restore _ _ e head unqueued marks intents drawn calls _ =>
    rw [slots_eq] at unqueued
    rw [marks, filterMap_append, calls]
    refine (h.regrant (mem_map_of_mem (mem_intents_of_head head)) unqueued ?_).mono
      (List.Sublist.refl _) (map_subset _ intents) drawn
    intro u hu
    obtain ⟨call, hcall, rfl⟩ := mem_map.mp hu
    exact hrestore e head call hcall

end Actions

/-! ## Runs -/

section Runs

variable {c : UploadClient zstd}

lemma counted_initial (rate : ℕ) : (UploadClient.initial zstd rate).Counted := KeysCounted.empty

/-- As long as no upload is restored after one of its frames was sealed, a file key and an index
stand for one frame: two sealed chunks with both in common have one plaintext and one associated
data. -/
theorem sealCalls_agree {rate : ℕ}
    (h : Reachable (UploadClient.next aead sha256)
      (fun c a => FreshKeys c a ∧ RestoresUnsealed c a) (UploadClient.initial zstd rate) c) :
    ∀ first ∈ c.sealCalls, ∀ second ∈ c.sealCalls, first.fileKey = second.fileKey →
    first.index = second.index →
      first.plaintext = second.plaintext ∧ first.aad = second.aad := by
  have hcounted : c.Counted := h.invariant (counted_initial rate) fun hinv hok =>
      hinv.next aead sha256 hok.1 hok.2
  intro first hfirst second hsecond hkey hindex
  have hpair : first.pair = second.pair := by rw [SealCall.pair, SealCall.pair, hkey, hindex]
  have hsame : first = second := inj_on_of_nodup_map hcounted.once hfirst hsecond hpair
  rw [hsame]
  exact ⟨rfl, rfl⟩

end Runs

/-! ## A restored upload -/

namespace Sample

def fileKey : ByteArr 32 := ByteArr.replicate 32 1

def eventId : EventId := ByteArr.replicate 16 1

def request : UploadRequest :=
  { name := [], content := [1, 2, 3, 4, 5, 6], inMemory := true, probed := 0, compressed := false }

/-- An upload of six bytes at four bytes a second is queued and announced. -/
def queued : List UploadAction :=
  [.login 7, .queueFileUpload 3 request (some (fileKey, eventId)), .runCommand,
    .announcementDelivered 3 eventId]

/-- It is started and read, a first chunk goes out, and another one after a refill. -/
def sent (gained : ℕ) : List UploadAction :=
  [.poll maxFileSourceBytesPerTick none, .poll maxFileSourceBytesPerTick none,
    .poll maxFileSourceBytesPerTick none, .refill gained, .poll maxFileSourceBytesPerTick none]

/-- The connection is lost, and the upload restored in the next session. -/
def resumed : List UploadAction :=
  [.disconnect, .login 7, .restorePendingFileUploads,
    .restoreFile request (some (ByteArr.replicate 32 2, ByteArr.replicate 16 2))]

def client (actions : List UploadAction) : UploadClient Compressor.sample :=
  after (UploadClient.next Aead.sample fun _ => ByteArr.replicate 32 0)
    (UploadClient.initial Compressor.sample 4) actions

end Sample

/-- An upload restored before its first frame: the run is allowed and seals two frames. -/
theorem sealCalls_agree_restored :
    (Sample.client (Sample.queued ++ Sample.resumed ++ Sample.sent 2)).sealCalls.length = 2 ∧
      ∀ first ∈ (Sample.client (Sample.queued ++ Sample.resumed ++ Sample.sent 2)).sealCalls,
        ∀ second ∈ (Sample.client (Sample.queued ++ Sample.resumed ++ Sample.sent 2)).sealCalls,
          first.fileKey = second.fileKey → first.index = second.index →
            first.plaintext = second.plaintext ∧ first.aad = second.aad :=
  ⟨by decide, sealCalls_agree Aead.sample (fun _ =>
    ByteArr.replicate 32 0) (reachable_after (by decide))⟩

/-- The connection is lost after two chunks.  The restored upload seals its first chunks under the
same key from index 0, and since the throttle has gained more this time, the second chunk is
longer: index 1 of the key stands for two plaintexts. -/
theorem restored_upload_reuses_index :
    Allowed (UploadClient.next Aead.sample fun _ => ByteArr.replicate 32 0) FreshKeys
      (UploadClient.initial Compressor.sample 4)
        (Sample.queued ++ Sample.sent 1 ++ Sample.resumed ++ Sample.sent 2) ∧
      ∃ first ∈ (Sample.client (Sample.queued ++ Sample.sent 1 ++ Sample.resumed ++
        Sample.sent 2)).sealCalls,
        ∃ second ∈ (Sample.client (Sample.queued ++ Sample.sent 1 ++ Sample.resumed ++
          Sample.sent 2)).sealCalls,
          first.fileKey = second.fileKey ∧ first.index = second.index ∧
          first.plaintext ≠ second.plaintext := by
  decide

end Chatt.FileTransfer
