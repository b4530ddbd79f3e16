import Chatt.Analysis.FileServer

/-!
# Runs of the file relay

Each request keeps the account of what the sessions have been told, as long as the uploader's
session survives the loops over its recipients, as it does where no attempt to queue a message for
it finds a full buffer.  Without that, a session can be offered a file after it was told that the
upload is canceled.  The reserved names are those of the active uploads in any case.
-/

namespace Chatt.FileTransfer

open Lib FileServer List

variable {members : List SessionId} {session : SessionId} {entry : UploadKey × ServerUpload}
variable {data : Bytes} {file : FileMetadata} {transferId : FileTransferId}
  {disconnected recipients sessions : List SessionId} {key : UploadKey} {offset : ℕ}
  {member : SessionId}

/-! ## Reserved names -/

lemma utf8_injective : Function.Injective utf8 := by
  intro text other heq
  have hsome : some text = some other := by rw [← fromUtf8_utf8, ← fromUtf8_utf8, heq]
  exact Option.some.inj hsome

lemma numberedName_injective (name : List Char) : Function.Injective (numberedName name) := by
  intro index other heq
  have hchars := utf8_injective heq
  rw [append_assoc, append_assoc] at hchars
  have htail := append_cancel_left hchars
  rw [cons_append, cons_append, List.cons.injEq] at htail
  have hdigits := append_cancel_right htail.2
  calc
    index = Nat.ofDigitChars 10 (Nat.toDigits 10 index) 0 := Nat.ofDigitChars_ten_toDigits.symm
    _ = Nat.ofDigitChars 10 (Nat.toDigits 10 other) 0 := by rw [hdigits]
    _ = other := Nat.ofDigitChars_ten_toDigits

/-- One of the numbered names is free, since there are more of them than reserved ones. -/
lemma reserveUniqueFileName_notMem (reserved : List Bytes) (requested : List Char) :
    reserveUniqueFileName reserved requested ∉ reserved := by
  unfold reserveUniqueFileName
  by_cases hfree : utf8 (sanitizeFileName requested) ∉ reserved
  · rw [if_pos hfree]
    exact hfree
  rw [if_neg hfree]
  generalize hcandidates : (List.range (reserved.length + 1)).map
      (fun i => numberedName (sanitizeFileName requested) (i + 1)) = candidates
  have hnodup : candidates.Nodup := by
    rw [← hcandidates]
    apply List.Nodup.map _ nodup_range
    intro i j heq
    exact Nat.succ_injective (numberedName_injective _ heq)
  have hsome : (candidates.find? fun candidate => candidate ∉ reserved).isSome := by
    rw [find?_isSome]
    by_contra hnone
    have hsub : candidates ⊆ reserved := by
      intro candidate hmem
      by_contra hfresh
      exact hnone ⟨candidate, hmem, decide_eq_true hfresh⟩
    have hle := (hnodup.subperm hsub).length_le
    rw [← hcandidates, length_map, length_range] at hle
    omega
  obtain ⟨candidate, hfind⟩ := Option.isSome_iff_exists.mp hsome
  have hpass := find?_some hfind
  rw [hfind]
  exact of_decide_eq_true hpass

/-! ## Changes to an upload -/

section Account

variable {skipped skipped' : List (SessionId × FileTransferId)} {p q : Pending} {s : FileServer}

/-- An entry as `modifyUpload` leaves it. -/
def modified (key : UploadKey) (f : ServerUpload → ServerUpload)
    (entry : UploadKey × ServerUpload) : UploadKey × ServerUpload :=
  if entry.1 = key then (entry.1, f entry.2) else entry

/-- An upload keeps its id and its name.  A recipient that is connected and was offered the file
stays one, unless it skips it, and stands where it stood. -/
lemma Account.modify (h : Account skipped p s) {f : ServerUpload → ServerUpload}
    (hskip : skipped ⊆ skipped') (howed : q.owed = p.owed) (hunoffered : q.unoffered = p.unoffered)
    (hlag : ∀ entry ∈ s.activeUploads, entry.1 ≠ key →
      ∀ session, q.lag session entry.2.serverTransferId = p.lag session entry.2.serverTransferId)
    (hf : ∀ upload, (key, upload) ∈ s.activeUploads →
      (f upload).serverTransferId = upload.serverTransferId ∧
      (f upload).fileName = upload.fileName ∧ (f upload).recipients.Nodup ∧
      (∀ session ∈ (f upload).recipients, s.isLive session → session ∈ upload.recipients ∧
        (q.lag session upload.serverTransferId).getD (f upload).wireReceived =
          (p.lag session upload.serverTransferId).getD upload.wireReceived) ∧
      ∀ session ∈ upload.recipients, s.isLive session →
      (session, upload.serverTransferId) ∉ skipped' → session ∈ (f upload).recipients) :
    Account skipped' q (s.modifyUpload key f) := by
  have hkeeps : ∀ entry ∈ s.activeUploads, (modified key f entry).1 = entry.1 ∧
      (modified key f entry).2.serverTransferId = entry.2.serverTransferId ∧
      (modified key f entry).2.fileName = entry.2.fileName := by
    intro entry hentry
    unfold modified
    split
    next heq =>
      obtain ⟨hid, hname, -⟩ := hf entry.2 (heq ▸ hentry)
      exact ⟨rfl, hid, hname⟩
    · exact ⟨rfl, rfl, rfl⟩
  have hid := fun entry hentry => (hkeeps entry hentry).2.1
  have hmap : ∀ {α : Type} (g : UploadKey × ServerUpload → α),
      (∀ entry ∈ s.activeUploads, g (modified key f entry) = g entry) →
      (s.modifyUpload key f).activeUploads.map g = s.activeUploads.map g := by
    intro α g hg
    exact map_map.trans (map_congr_left hg)
  have hall : ∀ {P : UploadKey × ServerUpload → Prop},
      (∀ entry ∈ s.activeUploads, P (modified key f entry)) →
      ∀ entry ∈ (s.modifyUpload key f).activeUploads, P entry := forall_mem_map.mpr
  have hids (P : FileTransferId → Prop) (hP : ∀ entry ∈ s.activeUploads,
      P entry.2.serverTransferId) :
      ∀ entry ∈ (s.modifyUpload key f).activeUploads, P entry.2.serverTransferId :=
    hall fun entry hentry => (hid entry hentry).symm ▸ hP entry hentry
  constructor
  · exact h.housed.of_sublist (.refl _) (.refl _) rfl rfl
  · rw [hmap _ fun entry hentry => (hkeeps entry hentry).1]
    exact h.keys
  · rw [hmap _ hid]
    exact h.ids
  · exact hids (· < s.nextFileTransfer) h.below
  · apply hall
    intro entry hentry
    unfold modified
    split
    next heq => exact (hf entry.2 (heq ▸ hentry)).2.2.1
    · exact h.recipients entry hentry
  · refine ⟨?_, h.names.2⟩
    rw [hmap _ fun entry hentry => (hkeeps entry hentry).2.2]
    exact h.names.1
  · exact h.fresh
  · intro session transferId file hoffered
    obtain ⟨stop, ended, hstory, hstop, hexpects⟩ := h.told session transferId file hoffered
    refine ⟨stop, ended, hstory, ?_, ?_⟩
    · apply hall
      intro entry hentry heq hmem hlive
      obtain rfl := (hid entry hentry).symm.trans heq
      unfold modified at hmem ⊢
      split_ifs at hmem ⊢ with hkey
      · obtain ⟨hold, hsame⟩ := (hf entry.2 (hkey ▸ hentry)).2.2.2.1 session hmem hlive
        rw [hsame]
        exact hstop entry hentry rfl hold hlive
      · rw [hlag entry hentry hkey]
        exact hstop entry hentry rfl hmem hlive
    · intro hlive hnot hfalse
      rw [howed]
      refine (hexpects hlive (fun hmem => hnot (hskip hmem)) hfalse).imp ?_ id
      rintro ⟨entry, hentry, rfl, hmem⟩
      refine ⟨modified key f entry, mem_map_of_mem hentry, hid entry hentry, ?_⟩
      unfold modified
      split_ifs with hkey
      · exact (hf entry.2 (hkey ▸ hentry)).2.2.2.2 session hmem hlive hnot
      · exact hmem
  · intro session transferId message hmessage hends
    exact hids (· ≠ transferId) (h.ended session transferId message hmessage hends)
  · intro session transferId hq
    obtain ⟨hbelow, hinactive, hopen⟩ := h.owed session transferId (howed ▸ hq)
    exact ⟨hbelow, hids (· ≠ transferId) hinactive, hopen⟩
  · intro session transferId hq
    exact hids (· = transferId → _) (h.unoffered session transferId (hunoffered ▸ hq))

/-- A change that neither the recipients nor the chunks notice. -/
lemma Account.modify_same (h : Account skipped p s) {f : ServerUpload → ServerUpload}
    (hf : ∀ upload, (f upload).serverTransferId = upload.serverTransferId ∧
      (f upload).fileName = upload.fileName ∧ (f upload).recipients = upload.recipients ∧
      (f upload).wireReceived = upload.wireReceived) :
      Account skipped p (s.modifyUpload key f) := by
  refine h.modify (List.Subset.refl _) rfl rfl (fun _ _ _ _ => rfl) ?_
  intro upload hmem
  obtain ⟨hid, hname, hrecipients, hwire⟩ := hf upload
  rw [hrecipients, hwire]
  exact ⟨hid, hname, h.recipients _ hmem, fun _ hmem _ => ⟨hmem, rfl⟩, fun _ hmem _ _ => hmem⟩

/-- More transfers may be skipped. -/
lemma Account.of_skipped (h : Account skipped p s) (hskip : skipped ⊆ skipped') :
    Account skipped' p s := by
  refine { h with told := ?_ }
  intro session transferId file hoffered
  obtain ⟨stop, ended, hstory, hlevel, hexpects⟩ := h.told session transferId file hoffered
  refine ⟨stop, ended, hstory, hlevel, ?_⟩
  intro hlive hnot
  exact hexpects hlive fun hmem => hnot (hskip hmem)

/-- Nobody is to be offered anything any more. -/
lemma Account.drop_unoffered (h : Account skipped p s) :
    Account skipped { p with unoffered := fun _ _ => False } s := by
  apply h.change
  · intro session transferId howed
    exact howed
  · intro session transferId _ howed
    exact howed
  · intro session entry _ _ _
    rfl
  · intro session transferId hfalse
    exact hfalse.elim

end Account

section Handlers

variable {order : IterationOrder} {queue : Queue} {depth : ℕ} {s : FileServer}
  {skipped : List (SessionId × FileTransferId)} {p : Pending}

section

variable (hqueue : Queues depth queue) (hdepth : s.clients.length ≤ depth)

include hqueue hdepth

lemma account_notifyUploadDeclined (haccount : Account skipped p s) (key : UploadKey)
    (reason : String) : Account skipped p (notifyUploadDeclined queue s key reason) := by
  unfold notifyUploadDeclined
  split
  · exact haccount
  split_ifs
  · exact haccount
  · exact haccount
  have hother : (ServerControl.uploadDeclined key.2 reason).transfer? = none := rfl
  apply ((hqueue.other hdepth key.1 hother).account haccount).modify_same
  intro upload
  exact ⟨rfl, rfl, rfl, rfl⟩

/-! ## The end of an upload -/

lemma account_completeFileUpload (haccount : Account skipped p s) (session : SessionId)
      (clientTransferId : FileTransferId) :
    Account skipped p (completeFileUpload order queue s session clientTransferId).1 := by
  unfold completeFileUpload
  dsimp only
  split
  · exact haccount
  next upload hupload =>
  have hmem := mem_of_upload? hupload
  split_ifs
  · exact account_sendFileCanceled hqueue hdepth haccount hupload _
  have hperm := order.perm (s.removeUpload (session, clientTransferId) upload) upload.recipients
  apply (tells_queue hqueue (@ServerControl.Ends.complete upload.serverTransferId)).foldl
  · exact (hperm.nodup_iff.mpr (haccount.recipients _ hmem)).filter _
  · exact hdepth
  · intro recipient howed
    exact (haccount.owed recipient _ howed).2.1 _ hmem rfl
  · apply (haccount.remove hupload).owing_of_live
    · intro recipient hrecipient
      exact hperm.subset (mem_of_mem_filter hrecipient)
    · intro recipient hrecipient hlive
      exact mem_filter.mpr ⟨hperm.symm.subset hrecipient, hlive⟩

/-- A session that skips a download is not a recipient any more. -/
lemma account_skipFileDownload (haccount : Account skipped p s) (session : SessionId)
      (transferId : FileTransferId) :
    Account ((session, transferId) :: skipped) p (skipFileDownload queue s session transferId) := by
  have hskip : skipped ⊆ (session, transferId) :: skipped := subset_cons_self _ _
  unfold skipFileDownload
  split
  · exact haccount.of_skipped hskip
  next key upload hfind =>
  have hmem := mem_of_find?_eq_some hfind
  have hid : upload.serverTransferId = transferId := by simpa using find?_some hfind
  split_ifs
  · refine account_notifyUploadDeclined hqueue ?_ ?_ key "recipient declined"
    · exact hdepth
    refine haccount.modify hskip rfl rfl (fun _ _ _ _ => rfl) ?_
    intro other hother
    refine ⟨rfl, rfl, (haccount.recipients _ hother).erase session, ?_, ?_⟩
    · intro recipient hrecipient _
      exact ⟨mem_of_mem_erase hrecipient, rfl⟩
    intro recipient hrecipient _ hnot
    -- the entry is the one that was found, so the recipient is another session
    cases haccount.eq_of_key hother hmem rfl
    apply (mem_erase_of_ne _).mpr hrecipient
    rintro rfl
    exact hnot (hid ▸ mem_cons_self)
  · exact haccount.of_skipped hskip

end

/-! ## Chunks -/

/-- The sessions of the list have chunks up to `offset` only. -/
def Pending.behind (sessions : List SessionId) (transferId : FileTransferId) (offset : ℕ) :
    Pending :=
  { Pending.none with
    lag := fun r t => if r ∈ sessions ∧ t = transferId then some offset else Option.none }

lemma Pending.lag_behind {r : SessionId} {t : FileTransferId}
    (hne : ¬ (r = session ∧ t = transferId)) : (Pending.behind sessions transferId offset).lag r t =
      (Pending.behind (session :: sessions) transferId offset).lag r t := by
  show (if _ then _ else _) = (if _ then _ else _)
  congr 1
  rw [mem_cons, eq_iff_iff]
  constructor
  · exact fun h => ⟨.inr h.1, h.2⟩
  · rintro ⟨rfl | h, rfl⟩
    · exact absurd ⟨rfl, rfl⟩ hne
    · exact ⟨h, rfl⟩

/-- A session that is not connected need not catch up. -/
lemma Account.skip_behind (h : Account skipped (.behind (session :: sessions) transferId offset) s)
    (hdead : ¬ s.isLive session) : Account skipped (.behind sessions transferId offset) s := by
  apply h.change
  · intro r t howed
    exact howed
  · intro r t _ howed
    exact howed
  · intro r entry _ _ hlive
    apply Pending.lag_behind
    rintro ⟨rfl, -⟩
    exact hdead hlive
  · intro r t hunoffered
    exact hunoffered

/-- A chunk is told to a recipient that is behind. -/
lemma Account.put_chunk
      (h : Account skipped (.behind (session :: sessions) entry.2.serverTransferId offset) s)
    (hclient : session ∈ s.clients) (hlive : s.isLive session) (hnodup : session ∉ sessions)
    (hentry : entry ∈ s.activeUploads)
    (hrecipient : session ∈ entry.2.recipients)
    (hwire : entry.2.wireReceived = offset + data.length) :
    Account skipped (.behind sessions entry.2.serverTransferId offset)
      (s.put session (.fileChunk entry.2.serverTransferId offset data)) := by
  have hlag : (Pending.behind sessions entry.2.serverTransferId offset).lag session
      entry.2.serverTransferId = none := if_neg fun hmem => hnodup hmem.1
  have hbehind : (Pending.behind (session :: sessions) entry.2.serverTransferId offset).lag session
      entry.2.serverTransferId = some offset := if_pos ⟨mem_cons_self, rfl⟩
  apply h.put_about hclient rfl (h.below entry hentry) _ id False.elim
    (fun hends => by cases hends)
  · intro file hoffered
    have hbefore : .fileOffered file true ∈ s.received session entry.2.serverTransferId := by
      rcases mem_append.mp hoffered with hoffered | hoffered
      · exact hoffered
      · cases mem_singleton.mp hoffered
    obtain ⟨stop, ended, hstory, hlevel, hexpects⟩ := h.told session _ file hbefore
    obtain rfl : stop = offset := by
      have hstop := hlevel entry hentry rfl hrecipient hlive
      rwa [hbehind] at hstop
    -- the upload is active, so its end has not been told
    obtain rfl : ended = false := by
      by_contra htrue
      rw [Bool.not_eq_false] at htrue
      obtain ⟨message, hmem, hends⟩ := (htrue ▸ hstory).exists_ends
      exact h.ended session _ message hmem hends entry hentry rfl
    refine ⟨stop + data.length, false, ?_, ?_, hexpects⟩
    · rw [received_put_self s session rfl]
      exact hstory.chunk data
    · intro other hother hid _ _
      obtain rfl := h.eq_of_id hother hentry hid
      rw [hlag, Option.getD_none, hwire]
  · intro r t hne
    exact ⟨Pending.lag_behind hne, Iff.rfl, id⟩

lemma mem_modifyUpload {upload : ServerUpload} (h : (key, upload) ∈ s.activeUploads)
    (f : ServerUpload → ServerUpload) : (key, f upload) ∈ (s.modifyUpload key f).activeUploads :=
  mem_map.mpr ⟨_, h, if_pos rfl⟩

/-- An accepted chunk comes at the offset the upload has reached. -/
lemma receiveChunk_eq_ok {upload received : ServerUpload}
    (h : upload.receiveChunk offset data = .ok received) : upload.wireReceived = offset ∧
      received = { upload with wireReceived := saturatingAdd offset data.length } := by
  simp only [ServerUpload.receiveChunk, bind_eq_ok, reject_eq_ok, exists_const, not_not] at h
  exact ⟨h.2.1, (Except.ok.inj h.2.2.2).symm⟩

/-- The chunk is counted before it is relayed, so all recipients are behind. -/
lemma Account.receive (h : Account skipped .none s) {upload received : ServerUpload}
      (hupload : s.upload? key = some upload)
    (hreceived : upload.receiveChunk offset data = .ok received)
    (hperm : recipients.Perm upload.recipients) :
    Account skipped (.behind recipients upload.serverTransferId offset)
      (s.modifyUpload key fun _ => received) := by
  have hmem := mem_of_upload? hupload
  obtain ⟨hoffset, heq⟩ := receiveChunk_eq_ok hreceived
  refine h.modify (List.Subset.refl _) rfl rfl ?_ ?_
  · intro entry hentry hkey session
    apply if_neg
    rintro ⟨-, hid⟩
    exact hkey (congrArg Prod.fst (h.eq_of_id hentry hmem hid))
  · intro other hother
    cases h.eq_of_key hother hmem rfl
    rw [heq]
    refine ⟨rfl, rfl, h.recipients _ hmem, ?_, fun _ hsession _ _ => hsession⟩
    intro session hsession _
    have hlag : (Pending.behind recipients upload.serverTransferId offset).lag session
        upload.serverTransferId = some offset := if_pos ⟨hperm.symm.subset hsession, rfl⟩
    rw [hlag]
    exact ⟨hsession, hoffset.symm⟩

/-- Recipients that are not connected are removed. -/
lemma Account.prune (h : Account skipped p s) (hdead : ∀ r ∈ disconnected, ¬ s.isLive r) :
    Account skipped p (s.modifyUpload key fun upload =>
      { upload with recipients := upload.recipients.filter fun r => r ∉ disconnected }) := by
  refine h.modify (List.Subset.refl _) rfl rfl (fun _ _ _ _ => rfl) ?_
  intro upload hmem
  refine ⟨rfl, rfl, (h.recipients _ hmem).filter _, ?_, ?_⟩
  · intro session hsession _
    exact ⟨mem_of_mem_filter hsession, rfl⟩
  · intro session hsession hlive _
    apply mem_filter.mpr
    exact ⟨hsession, decide_eq_true fun hmem => hdead session hmem hlive⟩

section

variable (hqueue : Queues depth queue)

include hqueue

lemma shed_relayTo (control : ServerControl) (state : FileServer × List SessionId)
      (recipient : SessionId)
    (hdepth : state.1.clients.length ≤ depth) :
    Shed state.1 (relayTo queue control state recipient).1 := by
  unfold relayTo
  dsimp only
  split_ifs
  · exact .refl _
  · exact hqueue.shed hdepth recipient control
  · exact hqueue.shed hdepth recipient control

variable (hdepth : s.clients.length ≤ depth)

include hdepth

/-- One round: the recipient catches up, or is found disconnected. -/
lemma account_relayTo
      (h : Account skipped (.behind (session :: sessions) entry.2.serverTransferId offset) s)
    (hnodup : session ∉ sessions) (hentry : entry ∈ s.activeUploads)
    (hrecipient : session ∈ entry.2.recipients)
    (hwire : entry.2.wireReceived = offset + data.length)
    (hdead : ∀ r ∈ disconnected, ¬ s.isLive r) :
    let state := relayTo queue (.fileChunk entry.2.serverTransferId offset data) (s, disconnected)
      session
    Account skipped (.behind sessions entry.2.serverTransferId offset) state.1 ∧
      ∀ r ∈ state.2, ¬ state.1.isLive r := by
  unfold relayTo
  dsimp only
  by_cases hlive : s.isLive session
  · rw [if_neg (by simp [hlive])]
    generalize hcontrol : ServerControl.fileChunk entry.2.serverTransferId offset data = control
    have hshed := hqueue.shed hdepth session control
    have hold : ∀ r ∈ disconnected, ¬ (queue s session control).1.isLive r := fun r hr hr' =>
        hdead r hr (hshed.live hr')
    constructor
    · rcases hqueue s session control hdepth with ⟨hclient, hput⟩ | ⟨hquiet, hgone⟩
      · rw [hput, ← hcontrol]
        exact h.put_chunk hclient hlive hnodup hentry hrecipient hwire
      · exact (hquiet.account h).skip_behind (hgone (hcontrol ▸ rfl))
    · split_ifs with hstill
      · exact hold
      · exact forall_mem_append.mpr ⟨hold, forall_mem_singleton.mpr hstill⟩
  · rw [if_pos (by simp [hlive])]
    refine ⟨h.skip_behind hlive, ?_⟩
    exact forall_mem_append.mpr ⟨hdead, forall_mem_singleton.mpr hlive⟩

/-- The whole loop, if the uploader's session survives it. -/
lemma account_relay (h : Account skipped (.behind recipients entry.2.serverTransferId offset) s)
      (hnodup : recipients.Nodup) (hentry : entry ∈ s.activeUploads)
    (hrecipients : ∀ r ∈ recipients, r ∈ entry.2.recipients)
    (hwire : entry.2.wireReceived = offset + data.length) (hdead : ∀ r ∈ disconnected, ¬ s.isLive r)
    (hsurvives : (recipients.foldl (relayTo queue (.fileChunk entry.2.serverTransferId offset data))
      (s, disconnected)).1.isLive entry.1.1) :
    let state := recipients.foldl
      (relayTo queue (.fileChunk entry.2.serverTransferId offset data)) (s, disconnected)
    Account skipped .none state.1 ∧ entry ∈ state.1.activeUploads ∧
      ∀ r ∈ state.2, ¬ state.1.isLive r := by
  induction recipients generalizing s disconnected with
  | nil => exact ⟨h, hentry, hdead⟩
  | cons session recipients ih =>
    rw [nodup_cons] at hnodup
    have hrelay := shed_relayTo hqueue (.fileChunk entry.2.serverTransferId offset data)
    have hshed := hrelay (s, disconnected) session hdepth
    have hround :=
      account_relayTo hqueue hdepth h hnodup.1 hentry
        (hrecipients session mem_cons_self) hwire hdead
    have hlater := shed_foldl Prod.fst hrelay recipients (hshed.fits hdepth)
    exact ih (hshed.fits hdepth) hround.1 hnodup.2
      (hshed.kept entry hentry (hlater.live hsurvives))
      (fun r hr => hrecipients r (mem_cons_of_mem _ hr)) hround.2 hsurvives

lemma account_receiveFileChunk (haccount : Account skipped .none s) (session : SessionId)
    (clientTransferId : FileTransferId) (offset : ℕ) (data : Bytes)
    (hfits : offset + data.length ≤ u64Max)
    (hsurvives : ∀ upload received, s.upload? (session, clientTransferId) = some upload →
      upload.receiveChunk offset data = .ok received →
      let s' := s.modifyUpload (session, clientTransferId) fun _ => received
      (relayChunk queue s' (.fileChunk upload.serverTransferId offset data)
        (order.iter s' upload.recipients)).1.isLive session) :
    Account skipped .none
      (receiveFileChunk order queue s session clientTransferId offset data).1 := by
  unfold receiveFileChunk
  dsimp only
  split_ifs
  · exact haccount
  split
  · exact haccount
  next upload hupload =>
  have hmem := mem_of_upload? hupload
  split
  · exact haccount
  next received hreceived =>
  obtain ⟨-, rfl⟩ := receiveChunk_eq_ok hreceived
  have hbehind : ∀ {recipients : List SessionId}, recipients.Perm upload.recipients →
      Account skipped (.behind recipients upload.serverTransferId offset) _ :=
    fun hperm => haccount.receive hupload hreceived hperm
  have hsurvived := hsurvives upload _ hupload hreceived
  have hentry := mem_modifyUpload hmem fun _ =>
      { upload with wireReceived := saturatingAdd offset data.length }
  split_ifs with hempty
  · have hcounted := hbehind (List.Perm.of_eq hempty.symm)
    refine account_notifyUploadDeclined hqueue ?_ hcounted _ _
    exact hdepth
  have hdepth' : (s.modifyUpload (session, clientTransferId) fun _ =>
      { upload with wireReceived := saturatingAdd offset data.length }).clients.length ≤ depth :=
    hdepth
  generalize s.modifyUpload (session, clientTransferId) (fun _ =>
    { upload with wireReceived := saturatingAdd offset data.length }) = s'
    at hsurvived hbehind hentry hdepth' ⊢
  have hperm := order.perm s' upload.recipients
  have hshed := @shed_foldl depth _ _ Prod.fst _
    (shed_relayTo hqueue (.fileChunk upload.serverTransferId offset data))
    (order.iter s' upload.recipients) (s', []) hdepth'
  obtain ⟨hrelayed, hkept, hdead⟩ := @account_relay _ data [] _ offset queue depth s'
    skipped hqueue hdepth' (hbehind hperm) (hperm.nodup_iff.mpr (haccount.recipients _ hmem))
    hentry (fun r hr => hperm.subset hr) (saturatingAdd_of_le hfits)
    nofun hsurvived
  refine account_notifyUploadDeclined hqueue ?_ (hrelayed.prune hdead) _ _
  exact hshed.fits hdepth'

end

/-! ## The start of an upload -/

/-- The sessions of the list have yet to be told of the transfer. -/
def Pending.offering (members : List SessionId) (transferId : FileTransferId) : Pending :=
  { Pending.none with unoffered := fun r t => r ∈ members ∧ t = transferId }

lemma nodup_memberIds (h : s.Housed) (roomId : RoomId) : (memberIds order s roomId).Nodup := by
  unfold memberIds
  split
  · exact nodup_nil
  · apply (order.perm _ _).nodup_iff.mpr
    exact h.distinct.sublist (filter_sublist.map _)

lemma nodup_transferMembers (h : s.Housed) (session : SessionId) (request : UploadStart) :
    (transferMembers order s session request).Nodup :=
  (nodup_memberIds h request.roomId).filter _

/-- A new upload, under an id and a name that nobody has used. -/
lemma Account.register (h : Account skipped .none s) {request : UploadStart}
      (hnew : s.upload? (session, request.clientTransferId) = none)
    (hid : file.transferId = s.nextFileTransfer) (hname : file.fileName ∉ s.reservedFileNames)
    (hnext : s.nextFileTransfer < u64Max)
    (members : List SessionId) :
    Account skipped (.offering members file.transferId)
      (register order s session request file) := by
  have hnext' : (FileServer.register order s session request file).nextFileTransfer =
      s.nextFileTransfer + 1 := by
    show max ((s.nextFileTransfer + 1) % 2 ^ 64) 1 = _
    rw [Nat.mod_eq_of_lt (Nat.add_lt_of_lt_sub hnext), Nat.max_eq_left (Nat.le_add_left 1 _)]
  have hlate : ∀ {r t}, s.received r t ≠ [] → t < file.transferId := by
    intro r t hne
    rw [hid]
    by_contra hge
    exact hne (h.fresh r t (Nat.not_lt.mp hge))
  constructor
  · exact h.housed.of_sublist (.refl _) (.refl _) rfl rfl
  · refine nodup_cons.mpr ⟨?_, h.keys⟩
    intro hmem
    obtain ⟨entry, hentry, heq⟩ := mem_map.mp hmem
    have hne := lookup_eq_none_iff.mp hnew entry hentry
    rw [heq] at hne
    simp at hne
  · refine nodup_cons.mpr ⟨?_, h.ids⟩
    intro hmem
    obtain ⟨entry, hentry, heq⟩ := mem_map.mp hmem
    have hlt := h.below entry hentry
    rw [heq] at hlt
    exact absurd hlt (hid ▸ Nat.lt_irrefl _)
  · intro entry hentry
    rw [hnext']
    rcases mem_cons.mp hentry with rfl | hentry
    · exact hid ▸ Nat.lt_succ_self _
    · exact (h.below entry hentry).trans (Nat.lt_succ_self _)
  · exact forall_mem_cons.mpr ⟨(nodup_transferMembers h.housed session request).filter _,
      h.recipients⟩
  · exact ⟨h.names.1.cons _, nodup_cons.mpr ⟨hname, h.names.2⟩⟩
  · intro r t hle
    rw [hnext'] at hle
    exact h.fresh r t (Nat.le_of_succ_le hle)
  · intro r t other hoffered
    have hlt := hlate (ne_nil_of_mem hoffered)
    obtain ⟨stop, ended, hstory, hlevel, hexpects⟩ := h.told r t other hoffered
    refine ⟨stop, ended, hstory, ?_, ?_⟩
    · intro entry hentry heq
      rcases mem_cons.mp hentry with rfl | hentry
      · exact absurd hlt (heq ▸ Nat.lt_irrefl _)
      · exact hlevel entry hentry heq
    · intro hlive hnot hfalse
      refine (hexpects hlive hnot hfalse).imp ?_ id
      rintro ⟨entry, hentry, heq⟩
      exact ⟨entry, mem_cons_of_mem _ hentry, heq⟩
  · intro r t message hmessage hends entry hentry
    rcases mem_cons.mp hentry with rfl | hentry
    · exact (hlate (ne_nil_of_mem hmessage)).ne'
    · exact h.ended r t message hmessage hends entry hentry
  · intro r t hfalse
    exact hfalse.elim
  · rintro r t ⟨-, rfl⟩ _ _ _
    exact h.fresh r _ hid.ge

/-- A member that is not told, because it is not connected or the message is too long. -/
lemma Account.skip_offer (h : Account skipped (.offering (member :: members) transferId) s) :
    Account skipped (.offering members transferId) s := by
  apply h.change
  · intro r t howed
    exact howed
  · intro r t _ howed
    exact howed
  · intro r entry _ _ _
    rfl
  · rintro r t ⟨hmem, rfl⟩
    exact ⟨mem_cons_of_mem _ hmem, rfl⟩

/-- A member is offered the file: with its contents if it is a recipient. -/
lemma Account.put_offer
      (h : Account skipped (.offering (member :: members) entry.2.serverTransferId) s)
    (hclient : member ∈ s.clients)
    (hnodup : member ∉ members) (hentry : entry ∈ s.activeUploads)
    (hwire : entry.2.wireReceived = 0)
    (hid : file.transferId = entry.2.serverTransferId) {contents : Bool}
    (hcontents : contents = true → member ∈ entry.2.recipients) :
    Account skipped (.offering members entry.2.serverTransferId)
      (s.put member (.fileOffered file contents)) := by
  have hnone : s.received member entry.2.serverTransferId = [] :=
    h.unoffered member _ ⟨mem_cons_self, rfl⟩ entry hentry rfl
  have htransfer : (ServerControl.fileOffered file contents).transfer? =
      some entry.2.serverTransferId := congrArg some hid
  refine h.put_about hclient htransfer (h.below entry hentry) ?_ id
    (fun hunoffered => absurd hunoffered.1 hnodup) nofun ?_
  · intro r t hne
    refine ⟨rfl, Iff.rfl, ?_⟩
    rintro ⟨hmem, rfl⟩
    exact ⟨mem_cons_of_mem _ hmem, rfl⟩
  · intro other hoffered
    rw [hnone, nil_append, mem_singleton] at hoffered
    obtain ⟨rfl, rfl⟩ := ServerControl.fileOffered.inj hoffered
    refine ⟨0, false, ?_, ?_, ?_⟩
    · rw [received_put_self s member htransfer, hnone]
      exact .running other .nil
    · intro active hactive heq _ _
      obtain rfl := h.eq_of_id hactive hentry heq
      exact hwire.symm
    · intro _ _ _
      exact .inl ⟨entry, hentry, rfl, hcontents rfl⟩

section

variable (hqueue : Queues depth queue)

include hqueue

lemma shed_offerTo (file : FileMetadata) (state : FileServer × List SessionId) (member : SessionId)
    (hdepth : state.1.clients.length ≤ depth) :
    Shed state.1 (offerTo queue file state member).1 := by
  unfold offerTo
  dsimp only
  split_ifs
  · exact .refl _
  all_goals exact hqueue.shed hdepth member _

variable (hdepth : s.clients.length ≤ depth)

include hdepth

lemma fits_cancelFileUpload (session : SessionId) (clientTransferId : FileTransferId)
      (reason : String) :
    (cancelFileUpload order queue s session clientTransferId reason).clients.length ≤ depth := by
  unfold cancelFileUpload
  split
  · exact hdepth
  next upload _ =>
  have hremoved : (s.removeUpload (session, clientTransferId) upload).clients.length ≤ depth :=
    hdepth
  exact (shed_sendFileCanceled hqueue hremoved upload reason).fits hremoved

/-- The uploader and the room are told; if that is not the end of the upload, the uploader is
connected. -/
lemma announceUpload_spec (session : SessionId) (request : UploadStart) (file : FileMetadata) :
    let out := announceUpload order queue s session request file
    (∀ {skipped p}, Account skipped p s → Account skipped p out.1) ∧ out.1.clients.length ≤ depth ∧
      (out.2 = none → Shed s out.1 ∧ out.1.isLive session) := by
  have haccepted : Quiet s
      (queue s session (.uploadFileAccepted request.clientTransferId file)).1 :=
    hqueue.other hdepth session rfl
  unfold announceUpload
  dsimp only
  generalize queue s session (.uploadFileAccepted request.clientTransferId file) = accepted
    at haccepted
  have hfits := haccepted.fits hdepth
  split_ifs with hgone hmls happended hlive
  · exact ⟨fun haccount => account_cancelFileUpload hqueue hfits (haccepted.account haccount) _ _ _,
      fits_cancelFileUpload hqueue hfits _ _ _, nofun⟩
  · refine ⟨haccepted.account, hfits, fun _ => ⟨haccepted.toShed, ?_⟩⟩
    simpa using (not_or.mp hgone).2
  · exact ⟨fun haccount => account_cancelFileUpload hqueue hfits (haccepted.account haccount) _ _ _,
      fits_cancelFileUpload hqueue hfits _ _ _, nofun⟩
  all_goals
    have hchat :=
      haccepted.trans (quiet_sendControlToTokens hqueue hfits
        (show (ServerControl.chat file.transferId).transfer? = none from rfl)
        ((memberIds order accepted.1 request.roomId).filter accepted.1.clients.contains))
  · exact ⟨hchat.account, hchat.fits hdepth, fun _ => ⟨hchat.toShed, hlive⟩⟩
  · exact ⟨hchat.account, hchat.fits hdepth, nofun⟩

end

/-- What the checks of a start have shown about the uploads. -/
lemma upload_eq_none_of_checkStart {request : UploadStart} {sender : UserId}
    (h : checkStart s session request = .ok sender) :
    s.upload? (session, request.clientTransferId) = none := by
  simp only [checkStart, bind_eq_ok, reject_eq_ok, exists_const] at h
  simpa using h.2.2.2.2.1

/-- The recipients of a loop that offers a file: all the connected ones of the upload. -/
structure Recipients (entry : UploadKey × ServerUpload) (state : FileServer × List SessionId) :
    Prop where
  nodup : state.2.Nodup
  sub : ∀ r ∈ state.2, r ∈ entry.2.recipients
  live : ∀ r ∈ entry.2.recipients, state.1.isLive r → r ∈ state.2

section

variable (hqueue : Queues depth queue) (hdepth : s.clients.length ≤ depth)

include hqueue hdepth

/-- One round: the member is told, or not connected, or the message is too long. -/
lemma account_offerTo
      (h : Account skipped (.offering (member :: members) entry.2.serverTransferId) s)
    (hrecipients : Recipients entry (s, recipients))
    (hnodup : member ∉ members) (hentry : entry ∈ s.activeUploads)
    (hwire : entry.2.wireReceived = 0) (hid : file.transferId = entry.2.serverTransferId) :
    let state := offerTo queue file (s, recipients) member
    Account skipped (.offering members entry.2.serverTransferId) state.1 ∧
      Recipients entry state := by
  unfold offerTo
  dsimp only
  by_cases hlive : s.isLive member
  · rw [if_neg (by simp [hlive])]
    generalize hcontrol : ServerControl.fileOffered file (decide (member ∈ recipients)) = control
    have hshed := hqueue.shed hdepth member control
    constructor
    · rcases hqueue s member control hdepth with ⟨hclient, hput⟩ | ⟨hquiet, -⟩
      · rw [hput, ← hcontrol]
        apply h.put_offer hclient hnodup hentry hwire hid
        intro hmem
        exact hrecipients.sub member (of_decide_eq_true hmem)
      · exact (hquiet.account h).skip_offer
    · split_ifs with hgone
      · refine ⟨hrecipients.nodup.erase member, ?_, ?_⟩
        · intro r hr
          exact hrecipients.sub r (mem_of_mem_erase hr)
        · intro r hr hlive'
          apply (mem_erase_of_ne _).mpr (hrecipients.live r hr (hshed.live hlive'))
          rintro rfl
          simp [hlive'] at hgone
      · exact ⟨hrecipients.nodup, hrecipients.sub, fun r hr hlive' =>
          hrecipients.live r hr (hshed.live hlive')⟩
  · rw [if_pos (by simp [hlive])]
    exact ⟨h.skip_offer, hrecipients⟩

/-- The whole loop, if the uploader's session survives it. -/
lemma account_offers (h : Account skipped (.offering members entry.2.serverTransferId) s)
      (hrecipients : Recipients entry (s, recipients))
    (hnodup : members.Nodup) (hentry : entry ∈ s.activeUploads) (hwire : entry.2.wireReceived = 0)
    (hid : file.transferId = entry.2.serverTransferId)
    (hsurvives : (members.foldl (offerTo queue file) (s, recipients)).1.isLive entry.1.1) :
    let state := members.foldl (offerTo queue file) (s, recipients)
    Account skipped (.offering [] entry.2.serverTransferId) state.1 ∧ Recipients entry state ∧
      entry ∈ state.1.activeUploads := by
  induction members generalizing s recipients with
  | nil => exact ⟨h, hrecipients, hentry⟩
  | cons member members ih =>
    rw [nodup_cons] at hnodup
    have hshed := shed_offerTo hqueue file (s, recipients) member hdepth
    have hround := account_offerTo hqueue hdepth h hrecipients hnodup.1 hentry hwire hid
    have hlater := shed_foldl Prod.fst (shed_offerTo hqueue file) members (hshed.fits hdepth)
    exact ih (hshed.fits hdepth) hround.1 hround.2 hnodup.2
      (hshed.kept entry hentry (hlater.live hsurvives)) hsurvives

/-- The offers and what follows them. -/
lemma account_offerUpload {request : UploadStart}
      (hkey : entry.1 = (session, request.clientTransferId))
    (h : Account skipped (.offering members entry.2.serverTransferId) s) (hnodup : members.Nodup)
    (hentry : entry ∈ s.activeUploads) (hwire : entry.2.wireReceived = 0)
    (hid : file.transferId = entry.2.serverTransferId)
    (hsurvives : (offerFile queue s file members entry.2.recipients).1.isLive session) :
    Account skipped .none
      (offerUpload queue s session request file members entry.2.recipients) := by
  have hstart : Recipients entry (s, entry.2.recipients.filter s.isLive) := by
    refine ⟨(h.recipients entry hentry).filter _, ?_, ?_⟩
    · intro r hr
      exact mem_of_mem_filter hr
    · intro r hr hlive
      exact mem_filter.mpr ⟨hr, hlive⟩
  have hshed := @shed_foldl depth _ _ Prod.fst _ (shed_offerTo hqueue file) members
    (s, entry.2.recipients.filter s.isLive) hdepth
  obtain ⟨haccount, hrecipients, hkept⟩ := account_offers hqueue hdepth h hstart hnodup hentry hwire
    hid (by rw [hkey]; exact hsurvives)
  unfold offerUpload offerFile
  generalize members.foldl (offerTo queue file) (s, entry.2.recipients.filter s.isLive) = state
    at haccount hrecipients hkept hshed
  have hset : Account skipped .none (state.1.modifyUpload (session, request.clientTransferId)
      fun upload => { upload with recipients := state.2 }) := by
    have hnone : Account skipped .none state.1 := haccount.drop_unoffered
    refine hnone.modify (List.Subset.refl _) rfl rfl (fun _ _ _ _ => rfl) ?_
    intro other hother
    cases hnone.eq_of_key hother hkept hkey.symm
    refine ⟨rfl, rfl, hrecipients.nodup, ?_, ?_⟩
    · intro r hr _
      exact ⟨hrecipients.sub r hr, rfl⟩
    · intro r hr hlive _
      exact hrecipients.live r hr hlive
  split_ifs
  · exact hset
  · refine account_notifyUploadDeclined hqueue ?_ hset _ _
    exact hshed.fits hdepth

lemma account_startFileUpload (haccount : Account skipped .none s) (session : SessionId)
      (request : UploadStart) (hnext : s.nextFileTransfer < u64Max)
    (hsurvives : ∀ sender s', checkStart s session request = .ok sender →
      s.roomAllows session request.roomId → s.isLive session →
      announceUpload order queue (register order s session request (metadataOf s sender request))
        session request (metadataOf s sender request) = (s', none) →
      (offerFile queue s' (metadataOf s sender request) (transferMembers order s session request)
        (startRecipients order s session request)).1.isLive session) :
    Account skipped .none (startFileUpload order queue s session request).1 ∧
      ((startFileUpload order queue s session request).2 ≠ .ok () →
        (startFileUpload order queue s session request).1.clients.length ≤ depth) := by
  unfold startFileUpload
  split
  · exact ⟨haccount, fun _ => hdepth⟩
  next sender hcheck =>
  split_ifs with hdenied hlive hdead hclosing
  · have herror := hqueue.other hdepth session
      (show (ServerControl.error "room not found").transfer? = none from rfl)
    exact ⟨herror.account haccount, fun _ => herror.fits hdepth⟩
  · exact ⟨haccount, fun _ => hdepth⟩
  · exact ⟨haccount, fun _ => hdepth⟩
  · exact ⟨haccount, fun _ => hdepth⟩
  rw [Bool.not_eq_true', Bool.not_eq_false] at hdenied hdead
  have hname : (metadataOf s sender request).fileName ∉ s.reservedFileNames :=
    reserveUniqueFileName_notMem _ _
  have hregistered : Account skipped (.offering (transferMembers order s session request) _)
      (register order s session request (metadataOf s sender request)) :=
    haccount.register (upload_eq_none_of_checkStart hcheck) rfl hname hnext _
  obtain ⟨hannounced, hfits, hgoes⟩ := @announceUpload_spec order queue depth
    (register order s session request (metadataOf s sender request)) hqueue hdepth session request
    (metadataOf s sender request)
  dsimp only
  split
  next s' result hout =>
    rw [hout] at hannounced hfits
    exact ⟨(hannounced hregistered).drop_unoffered, fun _ => hfits⟩
  next s' hout =>
  have hsurvived := hsurvives sender s' hcheck hdenied hdead hout
  rw [hout] at hannounced hfits hgoes
  obtain ⟨hshed, hlive'⟩ := hgoes rfl
  have hentry := hshed.kept _ mem_cons_self hlive'
  refine ⟨?_, fun herror => absurd rfl herror⟩
  exact account_offerUpload hqueue hfits rfl (hannounced hregistered)
    (nodup_transferMembers haccount.housed session request) hentry rfl rfl hsurvived

end

/-! ## Inputs -/

lemma queues_queueOf (s : FileServer) : Queues s.clients.length (s.queueOf order) :=
  queues_queueWith s.clients.length

/-- A chunk that is refused changes nothing. -/
lemma receiveFileChunk_refused {clientTransferId : FileTransferId}
      (h : (receiveFileChunk order queue s session clientTransferId offset data).2 ≠ .ok ()) :
    (receiveFileChunk order queue s session clientTransferId offset data).1 = s := by
  unfold receiveFileChunk at h ⊢
  dsimp only at h ⊢
  split_ifs at h ⊢
  · rfl
  split at h
  · rfl
  split at h
  · rfl
  · split_ifs at h
    · exact absurd rfl h
    · exact absurd rfl h

lemma fits_completeFileUpload (hqueue : Queues depth queue) {clientTransferId : FileTransferId}
    (hdepth : s.clients.length ≤ depth)
    (h : (completeFileUpload order queue s session clientTransferId).2 ≠ .ok ()) :
    (completeFileUpload order queue s session clientTransferId).1.clients.length ≤ depth := by
  unfold completeFileUpload at h ⊢
  dsimp only at h ⊢
  split at h
  · exact hdepth
  next upload _ =>
  split_ifs at h ⊢
  · have hremoved : (s.removeUpload (session, clientTransferId) upload).clients.length ≤ depth :=
      hdepth
    exact (shed_sendFileCanceled hqueue hremoved upload _).fits hremoved
  · exact absurd rfl h

/-- Every request keeps the account. -/
lemma account_handleControl (haccount : Account skipped .none s) (session : SessionId)
    (request : FileRequest) (hkeeps : s.KeepsUploader (.request session request))
    (hlive : s.isLive session) :
    let out := handleControl order (s.queueOf order) s session request
    Account ((FileServerAction.request session request).skips ++ skipped) .none out.1 ∧
      (out.2 ≠ .ok () → out.1.clients.length ≤ s.clients.length) := by
  have hqueue := @queues_queueOf order s
  have hclosed := closed_spared session
  have hspares : KeptBy (Spared session) (s.queueOf order) := hclosed.queueWith s.clients.length
  cases request with
  | start request =>
    apply account_startFileUpload hqueue le_rfl haccount session request hkeeps.1
    intro sender s' _ _ _ hannounced
    have hspared : Spared session
        (register order s session request (metadataOf s sender request)) := ⟨hkeeps.2, hlive⟩
    have htold : Spared session (announceUpload order (s.queueOf order) _ session request _).1 :=
      kept_announceUpload hspares hclosed session request (metadataOf s sender request) hspared
    rw [hannounced] at htold
    exact (kept_offerFile hspares _ _ _ htold).2
  | chunk clientTransferId offset data =>
    constructor
    · apply account_receiveFileChunk hqueue le_rfl haccount session clientTransferId
        offset data hkeeps.1
      intro upload received _ _
      have hspared : Spared session
          (s.modifyUpload (session, clientTransferId) fun _ => received) := ⟨hkeeps.2, hlive⟩
      exact (kept_relayChunk hspares _ _ hspared).2
    · intro herror
      exact (congrArg (fun s : FileServer => s.clients.length) (receiveFileChunk_refused herror)).le
  | complete clientTransferId =>
    exact ⟨account_completeFileUpload hqueue le_rfl haccount session clientTransferId,
      fits_completeFileUpload hqueue le_rfl⟩
  | cancel clientTransferId reason =>
    refine ⟨account_cancelFileUpload hqueue le_rfl haccount session clientTransferId reason, ?_⟩
    intro herror
    exact absurd rfl herror
  | skip transferId =>
    refine ⟨account_skipFileDownload hqueue le_rfl haccount session transferId, ?_⟩
    intro herror
    exact absurd rfl herror

lemma account_handle (haccount : Account skipped .none s) (session : SessionId)
    (request : FileRequest) (hkeeps : s.KeepsUploader (.request session request))
    (hlive : s.isLive session) :
    Account ((FileServerAction.request session request).skips ++ skipped) .none
      (s.handle order session request) := by
  have hout := @account_handleControl order _ _ haccount session request hkeeps hlive
  unfold handle
  dsimp only at hout ⊢
  generalize handleControl order (s.queueOf order) s session request = out at hout ⊢
  obtain ⟨s', result⟩ := out
  cases result with
  | ok _ => exact hout.1
  | error message =>
    have hfits : s'.clients.length ≤ s.clients.length + 1 := (hout.2 nofun).trans (Nat.le_succ _)
    exact (quiet_disconnectWith (queues_queueOf s) session hfits).1.account hout.1

/-- A new session has been told nothing. -/
lemma account_connect (haccount : Account skipped p s) (session : Session) :
    Account skipped p { s with
      sessions := (s.nextSession, session) :: s.sessions
      clients := s.nextSession :: s.clients
      nextSession := s.nextSession + 1 } := by
  have hhoused := haccount.housed
  refine haccount.of_eq rfl rfl rfl rfl ?_ ⟨?_, ?_, ?_, ?_⟩
  · intro r t hreceived hlive
    have hold : r ≠ s.nextSession := by
      rintro rfl
      apply hreceived
      rw [FileServer.received, map_eq_nil_iff, filter_eq_nil_iff]
      intro entry hentry hmatch
      have hlt := hhoused.queued entry hentry
      rw [(of_decide_eq_true hmatch).1] at hlt
      exact Nat.lt_irrefl _ hlt
    rw [isLive_iff] at hlive ⊢
    obtain ⟨⟨entry, hentry, heq⟩, hclient⟩ := hlive
    refine ⟨⟨entry, ?_, heq⟩, (mem_cons.mp hclient).resolve_left hold⟩
    apply (mem_cons.mp hentry).resolve_left
    rintro rfl
    exact hold heq.symm
  · refine nodup_cons.mpr ⟨?_, hhoused.distinct⟩
    intro hmem
    obtain ⟨entry, hentry, heq⟩ := mem_map.mp hmem
    exact absurd (hhoused.sessions entry hentry) (heq ▸ Nat.lt_irrefl _)
  · intro entry hentry
    rcases mem_cons.mp hentry with rfl | hentry
    · exact Nat.lt_succ_self _
    · exact (hhoused.sessions entry hentry).trans (Nat.lt_succ_self _)
  · intro r hr
    rcases mem_cons.mp hr with rfl | hr
    · exact Nat.lt_succ_self _
    · exact (hhoused.clients r hr).trans (Nat.lt_succ_self _)
  · intro entry hentry
    exact (hhoused.queued entry hentry).trans (Nat.lt_succ_self _)

/-- Every input keeps the account. -/
lemma account_next {run run' : FileServerRun} {input : FileServerInput}
      (haccount : Account run.skipped .none run.server)
    (hkeeps : run.Keeps input) (hnext : run.next order input = some run') :
    Account run'.skipped .none run'.server := by
  have htaking : Account run.skipped .none (run.taking input) :=
    haccount.of_eq rfl rfl rfl rfl (fun _ _ _ => id)
      (haccount.housed.of_sublist (.refl _) (.refl _) rfl rfl)
  obtain ⟨server, hserver, rfl⟩ := Option.map_eq_some_iff.mp hnext
  have hqueue := @queues_queueOf order (run.taking input)
  unfold FileServerRun.Keeps at hkeeps
  generalize input.action = action at hserver hkeeps ⊢
  cases action with
  | connect session =>
    cases hserver
    exact account_connect htaking session
  | disconnect session =>
    cases hserver
    exact (quiet_disconnectWith hqueue session (Nat.le_succ _)).1.account htaking
  | beginClose session =>
    cases hserver
    exact htaking.of_eq rfl rfl rfl rfl (fun _ _ _ => id)
      (htaking.housed.of_sublist (.refl _) (.refl _) rfl rfl)
  | updateRoom roomId room =>
    cases hserver
    exact htaking.of_eq rfl rfl rfl rfl (fun _ _ _ => id)
      (htaking.housed.of_sublist (.refl _) (.refl _) rfl rfl)
  | notify session =>
    cases hserver
    exact (hqueue.other le_rfl session rfl).account htaking
  | request session request =>
    unfold FileServer.next at hserver
    dsimp only at hserver
    split_ifs at hserver with hlive
    cases hserver
    exact account_handle htaking session request hkeeps hlive

lemma account_initial (fileSizeLimitBytes : ℕ) :
    Account [] .none (FileServer.initial fileSizeLimitBytes) := by
  constructor
  · constructor <;> simp [FileServer.initial]
  all_goals simp [FileServer.initial, FileServer.NamesReserved, FileServer.received, Pending.none]

end Handlers

/-- The account says what each session gets. -/
lemma Account.serves {run : FileServerRun} (h : Account run.skipped .none run.server) :
    run.Serves := by
  intro session transferId file hoffered
  obtain ⟨stop, ended, hstory, hlevel, hexpects⟩ := h.told session transferId file hoffered
  obtain ⟨chunks, ends, heq, hchunks, hends⟩ := hstory.exists_eq hoffered
  refine ⟨chunks, stop, ends, heq, hchunks, hends.imp And.right And.right, ?_⟩
  intro hlive hskip
  rcases hends with ⟨rfl, rfl⟩ | ⟨rfl, last, rfl, -⟩
  · refine ⟨fun _ => ?_, fun hne => absurd rfl hne⟩
    rcases hexpects hlive hskip rfl with ⟨entry, hentry, hid, hmem⟩ | hfalse
    · exact ⟨entry, hentry, hid, hmem, (hlevel entry hentry hid hmem hlive).symm⟩
    · exact hfalse.elim
  · refine ⟨fun hnil => absurd hnil (cons_ne_nil _ _), fun _ => ?_⟩
    obtain ⟨message, hmessage, hlast⟩ := hstory.exists_ends
    exact h.ended session transferId message hmessage hlast

/-! ## The names in every run -/

section Names

variable {order : IterationOrder} {queue : Queue} {s : FileServer}

/-- A new upload gets a name that is not reserved. -/
lemma Named.register (h : Named s) {request : UploadStart} {sender : UserId}
    (hcheck : checkStart s session request = .ok sender) :
    Named (register order s session request (metadataOf s sender request)) := by
  have hnew : s.upload? (session, request.clientTransferId) = none :=
    upload_eq_none_of_checkStart hcheck
  have hname : (metadataOf s sender request).fileName ∉ s.reservedFileNames :=
    reserveUniqueFileName_notMem _ _
  refine ⟨nodup_cons.mpr ⟨?_, h.keys⟩, h.names.1.cons _, nodup_cons.mpr ⟨hname, h.names.2⟩⟩
  rintro hmem
  obtain ⟨entry, hentry, heq⟩ := mem_map.mp hmem
  have hsome : (s.upload? (session, request.clientTransferId)).isSome :=
    lookup_isSome_iff.mpr ⟨entry, hentry, beq_iff_eq.mpr heq.symm⟩
  rw [hnew] at hsome
  cases hsome

variable (hqueue : KeptBy Named queue)

include hqueue

/-- The start of an upload. -/
lemma named_startFileUpload (session : SessionId) (request : UploadStart) (h : Named s) :
    Named (startFileUpload order queue s session request).1 := by
  unfold startFileUpload
  split
  · exact h
  next sender hcheck =>
  split_ifs
  · exact hqueue s session _ h
  · exact h
  · exact h
  · exact h
  have hannounced : Named (announceUpload order queue
      (register order s session request (metadataOf s sender request)) session request _).1 :=
    kept_announceUpload hqueue closed_named session request (metadataOf s sender request)
      (h.register hcheck)
  dsimp only
  split
  next s' result hout =>
    rw [hout] at hannounced
    exact hannounced
  next s' hout =>
  rw [hout] at hannounced
  have hoffered := kept_offerFile hqueue (metadataOf s sender request)
    (transferMembers order s session request) (startRecipients order s session request) hannounced
  unfold offerUpload
  dsimp only
  split_ifs
  · exact closed_named.modify (fun _ => rfl) hoffered
  · exact kept_notifyUploadDeclined hqueue closed_named _ _
      (closed_named.modify (fun _ => rfl) hoffered)

/-- A chunk of an upload. -/
lemma named_receiveFileChunk (session : SessionId) (clientTransferId : FileTransferId) (offset : ℕ)
    (data : Bytes) (h : Named s) :
    Named (receiveFileChunk order queue s session clientTransferId offset data).1 := by
  unfold receiveFileChunk
  dsimp only
  split_ifs
  · exact h
  split
  · exact h
  next upload hupload =>
  split
  · exact h
  next received hreceived =>
  have hcounted : Named (s.modifyUpload (session, clientTransferId) fun _ => received) := by
    apply h.modify
    intro other hother
    cases inj_on_of_nodup_map h.keys hother (mem_of_upload? hupload) rfl
    obtain ⟨-, rfl⟩ := receiveChunk_eq_ok hreceived
    rfl
  split_ifs
  · exact kept_notifyUploadDeclined hqueue closed_named _ _ hcounted
  · exact kept_notifyUploadDeclined hqueue closed_named _ _
      (closed_named.modify (fun _ => rfl) (kept_relayChunk hqueue _ _ hcounted))

/-- Every request. -/
lemma named_handleControl (session : SessionId) (request : FileRequest) (h : Named s) :
    Named (handleControl order queue s session request).1 := by
  cases request with
  | start request => exact named_startFileUpload hqueue session request h
  | chunk clientTransferId offset data =>
    exact named_receiveFileChunk hqueue session clientTransferId offset data h
  | complete clientTransferId =>
    unfold handleControl completeFileUpload
    dsimp only
    split
    · exact h
    next upload hupload =>
    have hremoved := closed_named.remove hupload h
    split_ifs
    · exact kept_sendFileCanceled hqueue upload _ hremoved
    · exact kept_sendControlToTokens hqueue _ _ hremoved
  | cancel clientTransferId reason =>
    exact kept_cancelFileUpload hqueue closed_named session clientTransferId reason h
  | skip transferId =>
    unfold handleControl skipFileDownload
    dsimp only
    split
    · exact h
    split_ifs
    · exact kept_notifyUploadDeclined hqueue closed_named _ _
        (closed_named.modify (fun _ => rfl) h)
    · exact h

end Names

/-- Every input, with whatever outcomes. -/
lemma named_next {order : IterationOrder} {run run' : FileServerRun} {input : FileServerInput}
    (h : Named run.server) (hnext : run.next order input = some run') : Named run'.server := by
  have htaking : Named (run.taking input) := ⟨h.keys, h.names⟩
  obtain ⟨server, hserver, rfl⟩ := Option.map_eq_some_iff.mp hnext
  have hqueue : KeptBy Named ((run.taking input).queueOf order) := closed_named.queueWith _
  generalize input.action = action at hserver ⊢
  cases action with
  | connect session =>
    cases hserver
    exact ⟨h.keys, h.names⟩
  | disconnect session =>
    cases hserver
    exact kept_disconnectWith hqueue closed_named trivial htaking
  | beginClose session =>
    cases hserver
    exact ⟨h.keys, h.names⟩
  | updateRoom roomId room =>
    cases hserver
    exact ⟨h.keys, h.names⟩
  | notify session =>
    cases hserver
    exact hqueue _ session _ htaking
  | request session request =>
    unfold FileServer.next at hserver
    dsimp only at hserver
    split_ifs at hserver
    cases hserver
    have hout := @named_handleControl order _ _ hqueue session request htaking
    unfold handle
    dsimp only
    generalize handleControl order ((run.taking input).queueOf order) (run.taking input) session
      request = out at hout
    obtain ⟨s', result⟩ := out
    cases result with
    | ok _ => exact hout
    | error message => exact kept_disconnectWith hqueue closed_named trivial hout

/-- In every run in which no attempt to queue a message for an uploader finds a full buffer while it
starts an upload or sends a chunk, each session gets what it was offered; and in every run at all
the reserved names are those of the active uploads. -/
theorem relay_serves_offers (order : IterationOrder) (fileSizeLimitBytes : ℕ)
      (run : FileServerRun) :
    (Reachable (FileServerRun.next order) FileServerRun.Keeps
      (FileServerRun.initial fileSizeLimitBytes) run → run.Serves) ∧
    (Reachable (FileServerRun.next order) (fun _ _ => True)
      (FileServerRun.initial fileSizeLimitBytes) run → run.server.NamesReserved) := by
  constructor
  · intro h
    have haccount : Account run.skipped .none run.server :=
      h.invariant (account_initial fileSizeLimitBytes) account_next
    exact haccount.serves
  · intro h
    have hinitial : Named (FileServerRun.initial fileSizeLimitBytes).server :=
      ⟨nodup_nil, .nil, nodup_nil⟩
    have hnamed : Named run.server := by
      refine @Reachable.invariant _ _ _ _ (fun run => Named run.server) _ _ h hinitial ?_
      exact fun h _ hnext => named_next h hnext
    exact hnamed.names

namespace Sample

/-- Hash sets in the order of their lists. -/
def listOrder : IterationOrder where
  iter _ l := l
  perm _ l := .refl l

def input (action : FileServerAction) : FileServerInput := ⟨action, [], []⟩

def upload : UploadStart := ⟨1, 9, [], 3, .identity, none, true⟩

/-- Three sessions in a public room. -/
def joined : List FileServerInput :=
  [input (.updateRoom 1 ⟨.everyone, false⟩), input (.connect ⟨1, true, 10⟩),
    input (.connect ⟨2, true, 10⟩), input (.connect ⟨3, true, 10⟩)]

/-- A file in two chunks, which the third session skips after the first. -/
def relayed : List FileServerInput :=
  joined ++ [input (.request 1 (.start upload)), input (.request 1 (.chunk 9 0 [1, 2])),
    input (.request 3 (.skip 1)), input (.request 1 (.chunk 9 2 [3])),
    input (.request 1 (.complete 9))]

/-- The offer to the third session finds its buffers full; so does the message about its departure
to the uploader. -/
def dropped : List FileServerInput :=
  joined ++ [⟨.request 1 (.start upload),
    [fun _ => .queued, fun _ => .queued, fun _ => .queued, fun _ => .queued, fun _ => .overflow,
      fun _ => .overflow], [[1]]⟩]

def relay (inputs : List FileServerInput) : FileServerRun :=
  after (FileServerRun.next listOrder) (FileServerRun.initial 100) inputs

/-- An offer with contents. -/
def isOffer : ServerControl → Bool
  | .fileOffered _ contents => contents
  | _ => false

/-- A cancel. -/
def isCancel : ServerControl → Bool
  | .fileCanceled _ _ => true
  | _ => false

end Sample

/-- The second session gets its offer, two chunks and the end. -/
theorem relay_serves_second_session :
    ((Sample.relay Sample.relayed).server.received 2 1).length = 4 ∧
    (Sample.relay Sample.relayed).Serves ∧
      (Sample.relay Sample.relayed).server.NamesReserved :=
  ⟨by decide, (relay_serves_offers Sample.listOrder 100 _).1 (reachable_after (by decide)),
    (relay_serves_offers Sample.listOrder 100 _).2 (reachable_after (by decide))⟩

/-- The second session is told that the upload is canceled, then offered its contents, and nothing
more: the upload is gone. -/
theorem offered_after_canceled :
    Allowed (FileServerRun.next Sample.listOrder) (fun _ _ => True) (FileServerRun.initial 100)
      Sample.dropped ∧
      ((Sample.relay Sample.dropped).server.received 2 1).map Sample.isCancel = [true, false] ∧
      ((Sample.relay Sample.dropped).server.received 2 1).map Sample.isOffer = [false, true] ∧
      (Sample.relay Sample.dropped).server.isLive 2 ∧
      (Sample.relay Sample.dropped).skipped = [] ∧
      (Sample.relay Sample.dropped).server.activeUploads.length = 0 := by
  decide

end Chatt.FileTransfer
