import Chatt.Interface.FileServerRun

/-!
# What the file relay keeps whatever is queued

Queueing a message can close connections, and a teardown queues messages in turn, but the changes
this makes to the server are few.  A property that each of them keeps is kept by the loops over
the recipients however deep the cascade goes (`Closed`).  One such property is that the reserved
names are those of the active uploads; another is that a session stays connected for which no
attempt finds a full buffer.
-/

namespace Chatt.FileTransfer

open Lib FileServer List

/-- The property is kept by every change that queueing makes; it may close the connections of the
sessions in `mayClose` only. -/
structure Closed (mayClose : SessionId → Prop) (P : FileServer → Prop) : Prop where
  attempt : ∀ {s} queued, P s → P { s with outcomes := s.outcomes.tail, queued }
  closes : ∀ {s session}, P s → (s.outcome session).closes = true → mayClose session
  close : ∀ {s session}, mayClose session → P s →
    P { s with clients := s.clients.filter fun other => other ≠ session }
  notices : ∀ {s} notices, P s → P { s with notices }
  leave : ∀ {s session}, mayClose session → P s →
    P { s with sessions := s.sessions.filter fun entry => entry.1 ≠ session }
  remove : ∀ {s key upload}, s.upload? key = some upload → P s → P (s.removeUpload key upload)
  modify : ∀ {s key f}, (∀ upload, (f upload).fileName = upload.fileName) → P s →
    P (s.modifyUpload key f)

/-- A function that queues a message keeps the property. -/
def KeptBy (P : FileServer → Prop) (queue : Queue) : Prop :=
  ∀ s session control, P s → P (queue s session control).1

variable {order : IterationOrder} {queue : Queue} {mayClose : SessionId → Prop}
  {P : FileServer → Prop} {s : FileServer} {session : SessionId}

/-- A loop keeps what each of its rounds keeps. -/
lemma kept_foldl {α σ : Type} (server : σ → FileServer) {f : σ → α → σ}
    (hf : ∀ x a, P (server x) → P (server (f x a))) (l : List α) {x : σ} (h : P (server x)) :
    P (server (l.foldl f x)) :=
  foldlRecOn (motive := fun x => P (server x)) l f h fun x hx a _ => hf x a hx

section

variable (hqueue : KeptBy P queue)

include hqueue

/-- Sending to several sessions. -/
lemma kept_sendControlToTokens (sessions : List SessionId) (control : ServerControl) (h : P s) :
    P (sendControlToTokens queue s sessions control) :=
  kept_foldl id (fun s session => hqueue s session control) sessions h

/-- Telling the recipients that an upload is canceled. -/
lemma kept_sendFileCanceled (upload : ServerUpload) (reason : String) (h : P s) :
    P (sendFileCanceled order queue s upload reason) := by
  refine kept_foldl id (fun s recipient hs => ?_) _ h
  dsimp only [id]
  split_ifs
  · exact hqueue s recipient _ hs
  · exact hs

/-- Offering a file to the members of the room. -/
lemma kept_offerFile (file : FileMetadata) (members recipients : List SessionId) (h : P s) :
    P (offerFile queue s file members recipients).1 := by
  refine kept_foldl Prod.fst (fun state member hs => ?_) members h
  unfold offerTo
  dsimp only
  split_ifs
  · exact hs
  all_goals exact hqueue state.1 member _ hs

/-- Relaying a chunk to the recipients. -/
lemma kept_relayChunk (control : ServerControl) (recipients : List SessionId) (h : P s) :
    P (relayChunk queue s control recipients).1 := by
  refine kept_foldl Prod.fst (fun state recipient hs => ?_) recipients h
  unfold relayTo
  dsimp only
  split_ifs
  · exact hs
  all_goals exact hqueue state.1 recipient _ hs

variable (hclosed : Closed mayClose P)

include hclosed

/-- Canceling an upload. -/
lemma kept_cancelFileUpload (session : SessionId) (clientTransferId : FileTransferId)
    (reason : String) (h : P s) :
    P (cancelFileUpload order queue s session clientTransferId reason) := by
  unfold cancelFileUpload
  split
  · exact h
  next upload hupload => exact kept_sendFileCanceled hqueue upload reason (hclosed.remove hupload h)

/-- A session is torn down. -/
lemma kept_teardownSession (hsession : mayClose session) (reason : String) (h : P s) :
    P (teardownSession order queue s session reason) := by
  unfold teardownSession
  refine hclosed.leave hsession (kept_sendControlToTokens hqueue _ _ (hclosed.notices _ ?_))
  exact kept_foldl id
    (fun s transferId => kept_cancelFileUpload hqueue hclosed session transferId reason) _ h

/-- A connection is closed. -/
lemma kept_disconnectWith (hsession : mayClose session) (h : P s) :
    P (disconnectWith order queue s session) := by
  unfold disconnectWith
  split_ifs
  · exact kept_teardownSession hqueue hclosed hsession _ (hclosed.close hsession h)
  · exact h

/-- The uploader is told that all recipients have declined. -/
lemma kept_notifyUploadDeclined (key : UploadKey) (reason : String) (h : P s) :
    P (notifyUploadDeclined queue s key reason) := by
  unfold notifyUploadDeclined
  split
  · exact h
  split_ifs
  · exact h
  · exact h
  · exact hclosed.modify (fun _ => rfl) (hqueue s key.1 _ h)

/-- The uploader and the room are told of an upload. -/
lemma kept_announceUpload (session : SessionId) (request : UploadStart) (file : FileMetadata)
    (h : P s) : P (announceUpload order queue s session request file).1 := by
  have haccepted := hqueue s session (.uploadFileAccepted request.clientTransferId file) h
  unfold announceUpload
  dsimp only
  generalize queue s session (.uploadFileAccepted request.clientTransferId file) = accepted
    at haccepted
  split_ifs
  · exact kept_cancelFileUpload hqueue hclosed _ _ _ haccepted
  · exact haccepted
  · exact kept_cancelFileUpload hqueue hclosed _ _ _ haccepted
  all_goals exact kept_sendControlToTokens hqueue _ _ haccepted

end

/-- `queue_shared_control_payload` keeps the property, however many connections it closes. -/
lemma Closed.queueWith (hclosed : Closed mayClose P) (depth : ℕ) :
    KeptBy P (queueWith order depth) := by
  induction depth with
  | zero => exact fun s session control h => h
  | succ depth ih =>
    intro s session control h
    have hpopped : P { s with outcomes := s.outcomes.tail } := hclosed.attempt s.queued h
    unfold FileServer.queueWith
    dsimp only
    split
    · exact hpopped
    by_cases hclient : session ∈ s.clients
    swap
    · rw [if_pos hclient]
      exact h
    rw [if_neg (not_not.mpr hclient)]
    split
    · exact hpopped
    · next _ houtcome =>
      exact kept_disconnectWith ih hclosed (hclosed.closes h (by rw [houtcome]; rfl)) hpopped
    · next _ houtcome =>
      exact kept_disconnectWith ih hclosed (hclosed.closes h (by rw [houtcome]; rfl)) hpopped
    · exact hclosed.attempt _ h

/-! ## A session that is spared -/

/-- The session is connected, and no attempt to queue a message for it finds a full buffer. -/
def Spared (session : SessionId) (s : FileServer) : Prop := s.Spares session ∧ s.isLive session

/-- Only connections of other sessions are closed. -/
lemma closed_spared (session : SessionId) : Closed (· ≠ session) (Spared session) where
  attempt _ h := ⟨fun outcome houtcome => h.1 outcome (mem_of_mem_tail houtcome), h.2⟩
  closes := by
    rintro s other ⟨hspares, -⟩ hcloses rfl
    unfold FileServer.outcome at hcloses
    cases houtcomes : s.outcomes with
    | nil =>
      rw [houtcomes] at hcloses
      cases hcloses
    | cons outcome rest =>
      have hfine := hspares outcome (houtcomes ▸ mem_cons_self)
      rw [houtcomes, headD_cons, hfine] at hcloses
      cases hcloses
  close := by
    rintro s other hne ⟨hspares, hlive⟩
    refine ⟨hspares, ?_⟩
    simp only [FileServer.isLive, Bool.and_eq_true, contains_iff_mem] at hlive ⊢
    exact ⟨hlive.1, mem_filter.mpr ⟨hlive.2, decide_eq_true hne.symm⟩⟩
  notices _ h := h
  leave := by
    rintro s other hne ⟨hspares, hlive⟩
    refine ⟨hspares, ?_⟩
    simp only [FileServer.isLive, Bool.and_eq_true, lookup_isSome_iff] at hlive ⊢
    obtain ⟨⟨entry, hentry, heq⟩, hclient⟩ := hlive
    refine ⟨⟨entry, mem_filter.mpr ⟨hentry, decide_eq_true ?_⟩, heq⟩, hclient⟩
    rw [← beq_iff_eq.mp heq]
    exact hne.symm
  remove _ h := h
  modify _ h := h

/-! ## The reserved names -/

/-- The reserved names are those of the active uploads, which have different keys. -/
structure Named (s : FileServer) : Prop where
  keys : (s.activeUploads.map Prod.fst).Nodup
  names : s.NamesReserved

section Named

variable {key : UploadKey} {upload : ServerUpload}

/-- An upload that is found is one of the active ones. -/
lemma mem_of_upload? (h : s.upload? key = some upload) : (key, upload) ∈ s.activeUploads := by
  obtain ⟨before, after, heq, -⟩ := List.lookup_eq_some_iff.mp h
  rw [heq]
  simp

/-- The uploads are the one removed and those that remain. -/
lemma perm_removeUpload (hkeys : (s.activeUploads.map Prod.fst).Nodup)
    (hupload : s.upload? key = some upload) :
    s.activeUploads.Perm ((key, upload) :: (s.removeUpload key upload).activeUploads) := by
  have hmem := mem_of_upload? hupload
  have hnodup : s.activeUploads.Nodup := .of_map _ hkeys
  have hfilter : (s.removeUpload key upload).activeUploads =
      s.activeUploads.erase (key, upload) := by
    rw [hnodup.erase_eq_filter]
    apply filter_congr
    intro entry hentry
    by_cases heq : entry = (key, upload)
    · simp [heq]
    · have hne : entry.1 ≠ key :=
        fun hkey => heq (inj_on_of_nodup_map hkeys hentry hmem hkey)
      simp [heq, hne]
  rw [hfilter]
  exact perm_cons_erase hmem

/-- The name of an upload that is removed is given back. -/
lemma namesReserved_removeUpload (hkeys : (s.activeUploads.map Prod.fst).Nodup)
    (h : s.NamesReserved) (hupload : s.upload? key = some upload) :
    (s.removeUpload key upload).NamesReserved := by
  refine ⟨?_, h.2.erase _⟩
  have hperm := perm_removeUpload hkeys hupload
  have hnames := (h.1.trans (hperm.map fun entry => entry.2.fileName)).erase upload.fileName
  rwa [map_cons, erase_cons_head] at hnames

/-- An upload changes, and keeps its name. -/
lemma Named.modify (h : Named s) {f : ServerUpload → ServerUpload}
    (hf : ∀ upload, (key, upload) ∈ s.activeUploads → (f upload).fileName = upload.fileName) :
    Named (s.modifyUpload key f) := by
  have hmap : ∀ {α : Type} (g : UploadKey × ServerUpload → α),
      (∀ entry ∈ s.activeUploads,
        g (if entry.1 = key then (entry.1, f entry.2) else entry) = g entry) →
      (s.modifyUpload key f).activeUploads.map g = s.activeUploads.map g := by
    intro α g hg
    exact map_map.trans (map_congr_left hg)
  have hkeys : (s.modifyUpload key f).activeUploads.map Prod.fst =
      s.activeUploads.map Prod.fst := by
    apply hmap
    intro entry _
    split_ifs <;> rfl
  have hnames : (s.modifyUpload key f).activeUploads.map (fun entry => entry.2.fileName) =
      s.activeUploads.map fun entry => entry.2.fileName := by
    apply hmap
    intro entry hentry
    split_ifs with heq
    · exact hf entry.2 (heq ▸ hentry)
    · rfl
  exact ⟨hkeys ▸ h.keys, hnames.symm ▸ h.names.1, h.names.2⟩

/-- Every connection may be closed. -/
lemma closed_named : Closed (fun _ => True) Named where
  attempt _ h := ⟨h.keys, h.names⟩
  closes _ _ := trivial
  close _ h := ⟨h.keys, h.names⟩
  notices _ h := ⟨h.keys, h.names⟩
  leave _ h := ⟨h.keys, h.names⟩
  remove hupload h :=
    ⟨h.keys.sublist (filter_sublist.map _), namesReserved_removeUpload h.keys h.names hupload⟩
  modify hf h := h.modify fun upload _ => hf upload

end Named

end Chatt.FileTransfer
