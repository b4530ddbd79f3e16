import Chatt.Analysis.UploadNonces

/-!
# The transfer ids of uploads

A transfer id is a key of the upload that has it, and the intents are records of such keys.  As long
as no new upload gets the id of an intent, an upload is only restored under an id that no other one
in the queue has.
-/

namespace Chatt.FileTransfer

open Lib List Option

variable {zstd : Compressor} (aead : Aead) (sha256 : Bytes → Digest)

/-- The uploads in the queue under their ids, with the announcements they are for. -/
def UploadClient.tags (c : UploadClient zstd) :
    List (KeySlot FileTransferId (Option (RoomId × EventId))) :=
  c.marks.map fun mark => ⟨mark.1, mark.2.map KeySlot.owner, 0⟩

def DurableFileUpload.tag (intent : DurableFileUpload) :
    FileTransferId × Option (RoomId × EventId) :=
  (intent.announcement.transferId, some intent.record.2)

/-- The ids in the queue are distinct and have been handed out, and an upload with the id of an
intent is for its announcement. -/
structure Numbered (c : UploadClient zstd) : Prop where
  tags : ∃ ids, KeysCounted c.tags (c.intents.map DurableFileUpload.tag) ids []
  below : ∀ tag ∈ c.tags, tag.key < c.nextFileTransfer
  small : ∀ intent ∈ c.intents, intent.announcement.transferId < u64Max

variable {c d : UploadClient zstd} {a : UploadAction}

lemma nextTransferId_of_lt {transferId : FileTransferId} (h : transferId < u64Max) :
    nextTransferId transferId = transferId + 1 := by
  unfold nextTransferId
  rw [Nat.mod_eq_of_lt (Nat.add_lt_of_lt_sub h)]
  exact max_eq_left (Nat.le_add_left 1 _)

/-- Uploads may leave the queue, and intents may go. -/
lemma Numbered.of_sublist (h : Numbered c) (htags : d.tags.Sublist c.tags)
      (hintents : d.intents ⊆ c.intents)
    (hnext : d.marks = [] ∨ d.nextFileTransfer = c.nextFileTransfer) : Numbered d := by
  obtain ⟨ids, hcounted⟩ := h.tags
  refine ⟨⟨ids, hcounted.mono htags (map_subset _ hintents) (List.Subset.refl _)⟩, ?_,
    fun intent hintent => h.small intent (hintents hintent)⟩
  intro tag htag
  rcases hnext with hnil | hsame
  · simp [UploadClient.tags, hnil] at htag
  · exact hsame ▸ h.below tag (htags.subset htag)

/-- The next id is free, in the queue and among the intents. -/
lemma Numbered.free (h : Numbered c) (hnew : ∀ intent ∈ c.intents,
      intent.announcement.transferId ≠ c.nextFileTransfer) :
    c.nextFileTransfer ∉ c.tags.map KeySlot.key ++
      (c.intents.map DurableFileUpload.tag).map Prod.fst := by
  rw [mem_append, not_or]
  constructor
  · intro hmem
    obtain ⟨tag, htag, heq⟩ := mem_map.mp hmem
    exact (h.below tag htag).ne heq
  · rw [List.map_map]
    intro hmem
    obtain ⟨intent, hintent, heq⟩ := mem_map.mp hmem
    exact hnew intent hintent heq

lemma Numbered.next (h : Numbered c) (hids : NewIds c a) (hnext : c.next aead sha256 a = some d) :
    Numbered d := by
  obtain ⟨ids, hcounted⟩ := h.tags
  cases moves_next aead sha256 hnext with
  | keep marks intents _ _ next => exact h.of_sublist (marks.map _) intents next
  | sealed before after intents _ _ next =>
    refine h.of_sublist ?_ intents (.inr next)
    rw [UploadClient.tags, UploadClient.tags, before, after]
    exact List.Sublist.refl _
  | @queue roomId _ fresh marks intents _ _ next =>
    obtain ⟨hlt, hnew⟩ := hids
    have htags :
        d.tags = c.tags ++ [⟨c.nextFileTransfer, fresh.map fun key => (roomId, key.2), 0⟩] := by
      rw [UploadClient.tags, marks, map_append, map_singleton, Option.map_map]
      rfl
    rw [nextTransferId_of_lt hlt] at next
    constructor
    · rw [htags]
      refine ⟨_, (hcounted.redrawn.grant (h.free hnew) _).mono (List.Sublist.refl _) ?_
        (List.Subset.refl _)⟩
      intro tag htag
      obtain ⟨intent, hintent, rfl⟩ := mem_map.mp htag
      rcases intents intent hintent with hmem | ⟨key, rfl, hid, hrecord⟩
      · exact mem_append_left _ (mem_map_of_mem hmem)
      · rw [DurableFileUpload.tag, hid, hrecord]
        exact mem_append_right _ mem_cons_self
    · rw [htags, next]
      refine forall_mem_append.mpr ⟨?_, forall_mem_singleton.mpr (Nat.lt_succ_self _)⟩
      exact fun tag htag => Nat.lt_succ_of_lt (h.below tag htag)
    · intro intent hintent
      rcases intents intent hintent with hmem | ⟨key, -, hid, -⟩
      · exact h.small intent hmem
      · exact hid.trans_lt hlt
  | @restore _ _ e head unqueued marks intents _ _ next =>
    have hmem := mem_intents_of_head head
    have htags : d.tags = c.tags ++ [⟨e.intent.tag.1, e.intent.tag.2, 0⟩] := by
      rw [UploadClient.tags, marks, map_append]
      rfl
    rw [nextTransferId_of_lt hids, nextTransferId_of_lt (h.small _ hmem)] at next
    constructor
    · rw [htags]
      refine ⟨_, (hcounted.regrant (mem_map_of_mem hmem) ?_ nofun).mono (List.Sublist.refl _)
        (map_subset _ intents) (List.Subset.refl _)⟩
      -- an upload for the announcement has a slot of its owner
      intro tag htag heq
      obtain ⟨mark, hmark, rfl⟩ := mem_map.mp htag
      obtain ⟨slot, hslot, howner⟩ := map_eq_some_iff.mp heq
      rw [slots_eq] at unqueued
      exact unqueued slot (mem_filterMap.mpr ⟨mark, hmark, hslot⟩) howner
    · rw [htags, next]
      refine forall_mem_append.mpr ⟨?_, forall_mem_singleton.mpr ?_⟩
      · exact fun tag htag => lt_max_of_lt_left (Nat.lt_succ_of_lt (h.below tag htag))
      · exact lt_max_of_lt_right (Nat.lt_succ_self _)
    · exact fun intent hintent => h.small intent (intents hintent)

/-- As long as a new upload gets an id that no intent has, no two uploads in the queue have the same
id, and an answer of the server acts on the upload whose id it names. -/
theorem upload_ids_distinct {rate : ℕ}
    (h : Reachable (UploadClient.next aead sha256) NewIds (UploadClient.initial zstd rate) c) :
    (c.outgoingUploads.map OutgoingUpload.transferId).Nodup ∧
      ∀ upload ∈ c.outgoingUploads, c.upload? upload.transferId = some upload := by
  have hnumbered : Numbered c := h.invariant ⟨⟨[], KeysCounted.empty⟩, nofun, nofun⟩ fun hinv hok =>
      hinv.next aead sha256 hok
  obtain ⟨ids, hcounted⟩ := hnumbered.tags
  have hnodup : (c.outgoingUploads.map OutgoingUpload.transferId).Nodup := by
    have hdistinct := hcounted.distinct
    rwa [UploadClient.tags, UploadClient.marks, List.map_map, List.map_map] at hdistinct
  refine ⟨hnodup, fun upload hupload => ?_⟩
  have hsome : (c.upload? upload.transferId).isSome :=
    find?_isSome.mpr ⟨upload, hupload, decide_eq_true rfl⟩
  obtain ⟨found, hfound⟩ := isSome_iff_exists.mp hsome
  have hid : found.transferId = upload.transferId := by simpa using find?_some hfound
  rw [hfound, inj_on_of_nodup_map hnodup (mem_of_find?_eq_some hfound) hupload hid]

/-- An upload is restored, and the next new one gets another id. -/
theorem upload_ids_distinct_resumed :
    ((Sample.client (Sample.queued ++ Sample.resumed ++
      [.queueFileUpload 3 Sample.request none])).outgoingUploads.map OutgoingUpload.transferId) =
        [1, 2] ∧ [1, 2].Nodup := by
  have h := (upload_ids_distinct Aead.sample (fun _ => ByteArr.replicate 32 0)
    (@reachable_after _ _ (UploadClient.next Aead.sample fun _ => ByteArr.replicate 32 0) NewIds
      (UploadClient.initial Compressor.sample 4)
      (Sample.queued ++ Sample.resumed ++ [.queueFileUpload 3 Sample.request none])
      (by decide))).1
  exact ⟨by decide, h⟩

/-- The connection is lost, and a file is uploaded before the announced one is restored: both have
the id 1, and an answer about the restored upload finds the other one. -/
theorem restored_upload_shares_id :
    let c := Sample.client (Sample.queued ++ [.disconnect, .login 7, .restorePendingFileUploads,
      .queueFileUpload 4 Sample.request none,
      .restoreFile Sample.request (some (ByteArr.replicate 32 2, ByteArr.replicate 16 2))])
    c.outgoingUploads.map OutgoingUpload.transferId = [1, 1] ∧
      ∃ upload ∈ c.outgoingUploads, upload.roomId = 3 ∧
      (c.upload? upload.transferId).map OutgoingUpload.roomId = some 4 := by
  decide

end Chatt.FileTransfer
