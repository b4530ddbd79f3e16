import Chatt.Analysis.FileServerKept

/-!
# Queueing in the file relay

Queueing a message either puts it at the end of its session's queue, or closes connections without
the message: then uploads of the closed sessions are canceled, and nothing else about files is
said.  The account of what each session has been told allows for messages that are still to come,
so that it holds between any two of them.
-/

namespace Chatt.FileTransfer

open Lib FileServer List

variable {control : ServerControl} {session : SessionId}
variable {upload : ServerUpload}

lemma isLive_iff {s : FileServer} :
    s.isLive session ↔ (∃ entry ∈ s.sessions, entry.1 = session) ∧ session ∈ s.clients := by
  simp only [FileServer.isLive, Bool.and_eq_true, lookup_isSome_iff, contains_iff_mem, beq_iff_eq,
    @eq_comm _ session]

/-! ## What a session has been told -/

/-- An offer with contents, chunks up to an offset, and possibly an end. -/
inductive Story (transferId : FileTransferId) : List ServerControl → ℕ → Bool → Prop
  | running {chunks : List ServerControl} {stop : ℕ} (file : FileMetadata)
      (hchunks : ChunksTo transferId chunks stop) :
      Story transferId (.fileOffered file true :: chunks) stop false
  | ended {chunks : List ServerControl} {stop : ℕ} {last : ServerControl} (file : FileMetadata)
      (hchunks : ChunksTo transferId chunks stop) (hlast : last.Ends transferId) :
      Story transferId (.fileOffered file true :: chunks ++ [last]) stop true

section Story

variable {transferId : FileTransferId} {messages : List ServerControl} {stop : ℕ}

lemma ChunksTo.exists_of_mem {chunks : List ServerControl} (h : ChunksTo transferId chunks stop)
      {message : ServerControl}
    (hmem : message ∈ chunks) : ∃ offset data, message = .fileChunk transferId offset data := by
  induction h with
  | nil => cases hmem
  | snoc data _ ih =>
    rcases mem_append.mp hmem with hmem | hmem
    · exact ih hmem
    · exact ⟨_, _, mem_singleton.mp hmem⟩

lemma Story.chunk (h : Story transferId messages stop false) (data : Bytes) :
    Story transferId (messages ++ [.fileChunk transferId stop data])
      (stop + data.length) false := by
  cases h with
  | running file hchunks => exact .running file (hchunks.snoc data)

lemma Story.close (h : Story transferId messages stop false) {last : ServerControl}
    (hlast : last.Ends transferId) : Story transferId (messages ++ [last]) stop true := by
  cases h with
  | running file hchunks => exact .ended file hchunks hlast

lemma Story.exists_ends (h : Story transferId messages stop true) :
    ∃ message ∈ messages, message.Ends transferId := by
  cases h with
  | ended file hchunks hlast => exact ⟨_, by simp, hlast⟩

/-- The only offer stands first, and at most one message follows the chunks. -/
lemma Story.exists_eq {ended : Bool} (h : Story transferId messages stop ended)
      {file : FileMetadata} (hmem : .fileOffered file true ∈ messages) :
    ∃ chunks ends, messages = .fileOffered file true :: chunks ++ ends ∧
    ChunksTo transferId chunks stop ∧
      (ended = false ∧ ends = [] ∨ ended = true ∧ ∃ last, ends = [last] ∧
        last.Ends transferId) := by
  cases h with
  | @running chunks stop other hchunks =>
    obtain rfl : file = other := by
      rcases mem_cons.mp hmem with heq | hmem
      · exact (ServerControl.fileOffered.inj heq).1
      · obtain ⟨offset, data, heq⟩ := hchunks.exists_of_mem hmem
        cases heq
    exact ⟨chunks, [], (append_nil _).symm, hchunks, .inl ⟨rfl, rfl⟩⟩
  | @ended chunks stop last other hchunks hlast =>
    obtain rfl : file = other := by
      rcases mem_append.mp hmem with hmem | hmem
      · rcases mem_cons.mp hmem with heq | hmem
        · exact (ServerControl.fileOffered.inj heq).1
        · obtain ⟨offset, data, heq⟩ := hchunks.exists_of_mem hmem
          cases heq
      · rw [← mem_singleton.mp hmem] at hlast
        cases hlast
    exact ⟨chunks, [last], rfl, hchunks, .inr ⟨rfl, last, rfl, hlast⟩⟩

end Story

variable {transferId : FileTransferId}

lemma ServerControl.Ends.transfer (h : control.Ends transferId) :
    control.transfer? = some transferId := by
  cases h <;> rfl

lemma ServerControl.Ends.not_named (h : control.Ends transferId) : control.namedKind? = none := by
  cases h <;> rfl

/-- A message is put at the end of the queue. -/
def FileServer.put (s : FileServer) (session : SessionId) (control : ServerControl) : FileServer :=
  { s with
    outcomes := s.outcomes.tail
    queued := s.queued ++ [(session, control)] }

variable (s : FileServer)

lemma received_put (session recipient : SessionId) (control : ServerControl)
      (transferId : FileTransferId) :
    (s.put session control).received recipient transferId =
      s.received recipient transferId ++ if session = recipient ∧
      control.transfer? = some transferId then [control] else [] := by
  simp only [FileServer.received, FileServer.put, filter_append, map_append]
  split_ifs with h <;> simp [h]

lemma received_put_self (session : SessionId) (h : control.transfer? = some transferId) :
    (s.put session control).received session transferId = s.received session transferId ++
      [control] := by
  rw [received_put, if_pos ⟨rfl, h⟩]

lemma received_put_of_ne {recipient : SessionId}
      (h : ¬ (session = recipient ∧ control.transfer? = some transferId)) :
    (s.put session control).received recipient transferId = s.received recipient transferId := by
  rw [received_put, if_neg h, append_nil]

/-- Session ids are given out in order, and messages go to sessions. -/
structure FileServer.Housed (s : FileServer) : Prop where
  distinct : (s.sessions.map Prod.fst).Nodup
  sessions : ∀ entry ∈ s.sessions, entry.1 < s.nextSession
  clients : ∀ session ∈ s.clients, session < s.nextSession
  queued : ∀ entry ∈ s.queued, entry.1 < s.nextSession

lemma FileServer.Housed.of_sublist {s s' : FileServer} (h : s.Housed)
      (hsessions : s'.sessions.Sublist s.sessions)
    (hclients : s'.clients.Sublist s.clients) (hqueued : s'.queued = s.queued)
    (hnext : s'.nextSession = s.nextSession) : s'.Housed where
  distinct := h.distinct.sublist (hsessions.map _)
  sessions entry hentry := hnext ▸ h.sessions entry (hsessions.subset hentry)
  clients session hsession := hnext ▸ h.clients session (hclients.subset hsession)
  queued := hqueued.symm ▸ hnext.symm ▸ h.queued

lemma FileServer.Housed.put {s : FileServer} (h : s.Housed) (hclient : session ∈ s.clients)
    (control : ServerControl) : (s.put session control).Housed := by
  refine { h with queued := ?_ }
  exact forall_mem_append.mpr ⟨h.queued, forall_mem_singleton.mpr (h.clients session hclient)⟩

/-! ## The account of the messages -/

/-- What is still to come from the loops that are under way. -/
structure Pending where
  /-- the session is yet to be told of the end of the transfer -/
  owed : SessionId → FileTransferId → Prop
  /-- where the session stands with the chunks of the transfer, if it is behind -/
  lag : SessionId → FileTransferId → Option ℕ
  /-- the session is yet to be told of the transfer at all -/
  unoffered : SessionId → FileTransferId → Prop

def Pending.none : Pending where
  owed _ _ := False
  lag _ _ := Option.none
  unoffered _ _ := False

/-- The same with one more session to be told of an end. -/
def Pending.owing (p : Pending) (session : SessionId) (transferId : FileTransferId) : Pending :=
  { p with owed := fun r t => p.owed r t ∨ r = session ∧ t = transferId }

/-- The same with the recipients of an upload to be told of its end. -/
def Pending.owingAll (p : Pending) (recipients : List SessionId) (transferId : FileTransferId) :
    Pending :=
  { p with owed := fun r t => p.owed r t ∨ r ∈ recipients ∧ t = transferId }

/-- What a session that was offered contents has been told, and what it can still expect. -/
structure Told (skipped : List (SessionId × FileTransferId)) (p : Pending) (s : FileServer)
    (session : SessionId) (transferId : FileTransferId) (stop : ℕ) (ended : Bool) : Prop where
  story : Story transferId (s.received session transferId) stop ended
  level : ∀ entry ∈ s.activeUploads, entry.2.serverTransferId = transferId →
    session ∈ entry.2.recipients → s.isLive session →
    stop = (p.lag session transferId).getD entry.2.wireReceived
  expects : s.isLive session → (session, transferId) ∉ skipped → ended = false →
    (∃ entry ∈ s.activeUploads, entry.2.serverTransferId = transferId ∧
      session ∈ entry.2.recipients) ∨ p.owed session transferId

structure Account (skipped : List (SessionId × FileTransferId)) (p : Pending) (s : FileServer) :
    Prop where
  housed : s.Housed
  keys : (s.activeUploads.map Prod.fst).Nodup
  ids : (s.activeUploads.map fun entry => entry.2.serverTransferId).Nodup
  below : ∀ entry ∈ s.activeUploads, entry.2.serverTransferId < s.nextFileTransfer
  recipients : ∀ entry ∈ s.activeUploads, entry.2.recipients.Nodup
  names : s.NamesReserved
  fresh : ∀ session transferId, s.nextFileTransfer ≤ transferId → s.received session transferId = []
  told : ∀ session transferId file, .fileOffered file true ∈ s.received session transferId →
    ∃ stop ended, Told skipped p s session transferId stop ended
  ended : ∀ session transferId, ∀ message ∈ s.received session transferId,
    message.Ends transferId → ∀ entry ∈ s.activeUploads, entry.2.serverTransferId ≠ transferId
  owed : ∀ session transferId, p.owed session transferId → transferId < s.nextFileTransfer ∧
    (∀ entry ∈ s.activeUploads, entry.2.serverTransferId ≠ transferId) ∧
    ∀ message ∈ s.received session transferId, ¬ message.Ends transferId
  unoffered : ∀ session transferId, p.unoffered session transferId →
    ∀ entry ∈ s.activeUploads, entry.2.serverTransferId = transferId →
    s.received session transferId = []

section Account

variable {skipped : List (SessionId × FileTransferId)} {p q : Pending} {s s' : FileServer}

/-- Connections and sessions may go, and those may come that nothing was said to. -/
lemma Account.of_eq (h : Account skipped p s) (huploads : s'.activeUploads = s.activeUploads)
      (hnames : s'.reservedFileNames = s.reservedFileNames)
    (hnext : s'.nextFileTransfer = s.nextFileTransfer) (hreceived : s'.received = s.received)
    (hlive : ∀ session transferId, s.received session transferId ≠ [] → s'.isLive session →
      s.isLive session) (hhoused : s'.Housed) : Account skipped p s' := by
  constructor
  · exact hhoused
  · exact huploads ▸ h.keys
  · exact huploads ▸ h.ids
  · exact huploads ▸ hnext ▸ h.below
  · exact huploads ▸ h.recipients
  · unfold FileServer.NamesReserved
    rw [huploads, hnames]
    exact h.names
  · rw [hnext, hreceived]
    exact h.fresh
  · rw [hreceived]
    intro session transferId file hoffered
    obtain ⟨stop, ended, hstory, hlevel, hexpects⟩ := h.told session transferId file hoffered
    have hlive' := hlive session transferId (ne_nil_of_mem hoffered)
    refine ⟨stop, ended, hreceived ▸ hstory, ?_, ?_⟩
    · rw [huploads]
      intro entry hentry hid hmem hl
      exact hlevel entry hentry hid hmem (hlive' hl)
    · rw [huploads]
      intro hl
      exact hexpects (hlive' hl)
  · rw [hreceived, huploads]
    exact h.ended
  · rw [hreceived, huploads, hnext]
    exact h.owed
  · rw [hreceived, huploads]
    exact h.unoffered

/-- What is pending may be restated for the sessions that are connected. -/
lemma Account.change (h : Account skipped p s)
      (howed : ∀ session transferId, q.owed session transferId → p.owed session transferId)
    (hlive : ∀ session transferId, s.isLive session → p.owed session transferId →
      q.owed session transferId)
    (hlag : ∀ session, ∀ entry ∈ s.activeUploads, session ∈ entry.2.recipients →
      s.isLive session → q.lag session entry.2.serverTransferId =
        p.lag session entry.2.serverTransferId)
    (hunoffered : ∀ session transferId, q.unoffered session transferId →
      p.unoffered session transferId) : Account skipped q s := by
  refine { h with told := ?_, owed := ?_, unoffered := ?_ }
  · intro session transferId file hoffered
    obtain ⟨stop, ended, hstory, hlevel, hexpects⟩ := h.told session transferId file hoffered
    refine ⟨stop, ended, hstory, ?_, ?_⟩
    · intro entry hentry hid hmem hl
      subst hid
      rw [hlag session entry hentry hmem hl]
      exact hlevel entry hentry rfl hmem hl
    · intro hl hskip hopen
      exact (hexpects hl hskip hopen).imp id (hlive session transferId hl)
  · intro session transferId hq
    exact h.owed session transferId (howed session transferId hq)
  · intro session transferId hq
    exact h.unoffered session transferId (hunoffered session transferId hq)

variable {transferId : FileTransferId}

/-- A session that is not connected need not be told. -/
lemma Account.forget (h : Account skipped (p.owing session transferId) s)
    (hdead : ¬ s.isLive session) : Account skipped p s := by
  apply h.change
  · intro r t howed
    exact .inl howed
  · rintro r t hlive (howed | ⟨rfl, rfl⟩)
    · exact howed
    · exact absurd hlive hdead
  · intro r entry _ _ _
    rfl
  · intro r t hunoffered
    exact hunoffered

/-- A message that is not about a transfer. -/
lemma Account.put_other (h : Account skipped p s) (hclient : session ∈ s.clients)
    (hother : control.transfer? = none) : Account skipped p (s.put session control) := by
  have hreceived : (s.put session control).received = s.received := by
    funext recipient transferId
    apply received_put_of_ne
    simp [hother]
  exact h.of_eq rfl rfl rfl hreceived (fun _ _ _ => id) (h.housed.put hclient control)

/-- A message to one session about one transfer: what is pending changes for them at most. -/
lemma Account.put_about (h : Account skipped p s) (hclient : session ∈ s.clients)
      (htransfer : control.transfer? = some transferId)
    (hbelow : transferId < s.nextFileTransfer)
    (hsame : ∀ r t, ¬ (r = session ∧ t = transferId) → q.lag r t = p.lag r t ∧
      (q.owed r t ↔ p.owed r t) ∧ (q.unoffered r t → p.unoffered r t))
    (hnot : ¬ q.owed session transferId)
    (hunoffered : q.unoffered session transferId →
      ∀ entry ∈ s.activeUploads, entry.2.serverTransferId ≠ transferId)
    (hends : control.Ends transferId → ∀ entry ∈ s.activeUploads,
      entry.2.serverTransferId ≠ transferId)
    (htold : ∀ file, .fileOffered file true ∈ s.received session transferId ++ [control] →
      ∃ stop ended, Told skipped q (s.put session control) session transferId stop ended) :
      Account skipped q (s.put session control) := by
  have hself := received_put_self s session htransfer
  have hother : ∀ {r t}, ¬ (r = session ∧ t = transferId) →
      (s.put session control).received r t = s.received r t := by
    intro r t hne
    apply received_put_of_ne
    rw [htransfer, Option.some.injEq]
    exact fun heq => hne ⟨heq.1.symm, heq.2.symm⟩
  refine { h with
    housed := h.housed.put hclient control
    fresh := ?_
    told := ?_
    ended := ?_
    owed := ?_
    unoffered := ?_ }
  · intro r t hfresh
    rw [hother (fun heq => absurd hbelow (heq.2 ▸ Nat.not_lt.mpr hfresh))]
    exact h.fresh r t hfresh
  · intro r t file hoffered
    by_cases heq : r = session ∧ t = transferId
    · obtain ⟨rfl, rfl⟩ := heq
      exact htold file (hself ▸ hoffered)
    rw [hother heq] at hoffered
    obtain ⟨stop, ended, hstory, hlevel, hexpects⟩ := h.told r t file hoffered
    obtain ⟨hlag, howed, -⟩ := hsame r t heq
    refine ⟨stop, ended, (hother heq).symm ▸ hstory, hlag.symm ▸ hlevel, ?_⟩
    intro hlive hskip hfalse
    exact (hexpects hlive hskip hfalse).imp id howed.mpr
  · intro r t message hmem hmessage
    by_cases heq : r = session ∧ t = transferId
    · obtain ⟨rfl, rfl⟩ := heq
      rw [hself] at hmem
      rcases mem_append.mp hmem with hmem | hmem
      · exact h.ended r t message hmem hmessage
      · exact hends (mem_singleton.mp hmem ▸ hmessage)
    · rw [hother heq] at hmem
      exact h.ended r t message hmem hmessage
  · intro r t howed
    have hne : ¬ (r = session ∧ t = transferId) := fun heq => hnot (heq.1 ▸ heq.2 ▸ howed)
    rw [hother hne]
    exact h.owed r t ((hsame r t hne).2.1.mp howed)
  · intro r t hq entry hentry hid
    have hne : ¬ (r = session ∧ t = transferId) := by
      rintro ⟨rfl, rfl⟩
      exact hunoffered hq entry hentry hid
    rw [hother hne]
    exact h.unoffered r t ((hsame r t hne).2.2 hq) entry hentry hid

/-- The end of a transfer is told to a session that is owed it. -/
lemma Account.put_end (h : Account skipped (p.owing session transferId) s)
      (hclient : session ∈ s.clients)
    (hends : control.Ends transferId) (hnot : ¬ p.owed session transferId) :
    Account skipped p (s.put session control) := by
  obtain ⟨hbelow, hinactive, hopen⟩ := h.owed session transferId (.inr ⟨rfl, rfl⟩)
  apply h.put_about hclient hends.transfer hbelow _ hnot (fun _ => hinactive) (fun _ => hinactive)
  · intro file hfile
    rcases mem_append.mp hfile with hfile | hfile
    · obtain ⟨stop, ended, hstory, hlevel, -⟩ := h.told session transferId file hfile
      cases ended with
      | true =>
        obtain ⟨message, hmem, hmessage⟩ := hstory.exists_ends
        exact absurd hmessage (hopen message hmem)
      | false =>
        refine ⟨stop, true, ?_, hlevel, ?_⟩
        · rw [received_put_self s session hends.transfer]
          exact hstory.close hends
        · intro _ _ hfalse
          cases hfalse
    · rw [← mem_singleton.mp hfile] at hends
      cases hends
  · intro r t hne
    refine ⟨rfl, ⟨.inl, ?_⟩, id⟩
    exact fun howed => howed.resolve_right hne

variable {key : UploadKey}

variable {entry other : UploadKey × ServerUpload}

lemma Account.eq_of_key (h : Account skipped p s) (hentry : entry ∈ s.activeUploads)
    (hother : other ∈ s.activeUploads) (heq : entry.1 = other.1) : entry = other :=
  inj_on_of_nodup_map h.keys hentry hother heq

lemma Account.eq_of_id (h : Account skipped p s) (hentry : entry ∈ s.activeUploads)
      (hother : other ∈ s.activeUploads)
    (heq : entry.2.serverTransferId = other.2.serverTransferId) : entry = other :=
  inj_on_of_nodup_map h.ids hentry hother heq

/-- An upload is removed, and its recipients are to be told. -/
lemma Account.remove (h : Account skipped p s) (hupload : s.upload? key = some upload) :
    Account skipped (p.owingAll upload.recipients upload.serverTransferId)
      (s.removeUpload key upload) := by
  have hmem := mem_of_upload? hupload
  have hperm := perm_removeUpload h.keys hupload
  have hsub : (s.removeUpload key upload).activeUploads.Sublist s.activeUploads := filter_sublist
  have hids := (hperm.map fun entry => entry.2.serverTransferId).nodup_iff.mp h.ids
  have hgone : ∀ entry ∈ (s.removeUpload key upload).activeUploads,
      entry.2.serverTransferId ≠ upload.serverTransferId := by
    intro entry hentry heq
    rw [map_cons, nodup_cons] at hids
    exact hids.1 (mem_map.mpr ⟨entry, hentry, heq⟩)
  constructor
  · exact h.housed.of_sublist (.refl _) (.refl _) rfl rfl
  · exact h.keys.sublist (hsub.map _)
  · exact h.ids.sublist (hsub.map _)
  · intro entry hentry
    exact h.below entry (hsub.subset hentry)
  · intro entry hentry
    exact h.recipients entry (hsub.subset hentry)
  · exact namesReserved_removeUpload h.keys h.names hupload
  · exact h.fresh
  · intro session transferId file hoffered
    obtain ⟨stop, ended, hstory, hlevel, hexpects⟩ := h.told session transferId file hoffered
    refine ⟨stop, ended, hstory, ?_, ?_⟩
    · intro entry hentry
      exact hlevel entry (hsub.subset hentry)
    intro hlive hskip hfalse
    rcases hexpects hlive hskip hfalse with ⟨entry, hentry, hid, hrecipient⟩ | howed
    · rcases mem_cons.mp (hperm.subset hentry) with rfl | hrest
      · exact .inr (.inr ⟨hrecipient, hid.symm⟩)
      · exact .inl ⟨entry, hrest, hid, hrecipient⟩
    · exact .inr (.inl howed)
  · intro session transferId message hmessage hends entry hentry
    exact h.ended session transferId message hmessage hends entry (hsub.subset hentry)
  · rintro session transferId (howed | ⟨-, rfl⟩)
    · obtain ⟨hbelow, hinactive, hopen⟩ := h.owed session transferId howed
      exact ⟨hbelow, fun entry hentry => hinactive entry (hsub.subset hentry), hopen⟩
    · refine ⟨h.below _ hmem, hgone, ?_⟩
      intro message hmessage hends
      exact h.ended session _ message hmessage hends _ hmem rfl
  · intro session transferId hunoffered entry hentry
    exact h.unoffered session transferId hunoffered entry (hsub.subset hentry)

end Account

/-! ## Closing connections -/

/-- Connections close, and uploads of closed sessions go. -/
structure Shed (s s' : FileServer) : Prop where
  clients : s'.clients.Sublist s.clients
  live : ∀ {session}, s'.isLive session → s.isLive session
  uploads : s'.activeUploads.Sublist s.activeUploads
  kept : ∀ entry ∈ s.activeUploads, s'.isLive entry.1.1 → entry ∈ s'.activeUploads
  next : s'.nextFileTransfer = s.nextFileTransfer

lemma Shed.refl : Shed s s where
  clients := .refl _
  live := id
  uploads := .refl _
  kept _ hentry _ := hentry
  next := rfl

lemma Shed.trans {s s' s'' : FileServer} (h : Shed s s') (h' : Shed s' s'') : Shed s s'' where
  clients := h'.clients.trans h.clients
  live hlive := h.live (h'.live hlive)
  uploads := h'.uploads.trans h.uploads
  kept entry hentry hlive := h'.kept entry (h.kept entry hentry (h'.live hlive)) hlive
  next := h'.next.trans h.next

/-- Besides, nothing about files is said but the ends of uploads that go. -/
structure Quiet (s s' : FileServer) : Prop extends Shed s s' where
  account : ∀ {skipped p}, Account skipped p s → Account skipped p s'

lemma Quiet.refl : Quiet s s where
  toShed := .refl s
  account := id

lemma Quiet.trans {s s' s'' : FileServer} (h : Quiet s s') (h' : Quiet s' s'') : Quiet s s'' where
  toShed := h.toShed.trans h'.toShed
  account haccount := h'.account (h.account haccount)

/-- A change that leaves uploads and messages as they are. -/
lemma Quiet.of_eq {s s' : FileServer} (hsessions : s'.sessions.Sublist s.sessions)
      (hclients : s'.clients.Sublist s.clients)
    (hsession : s'.nextSession = s.nextSession) (huploads : s'.activeUploads = s.activeUploads)
    (hnames : s'.reservedFileNames = s.reservedFileNames)
    (hnext : s'.nextFileTransfer = s.nextFileTransfer) (hqueued : s'.queued = s.queued) :
    Quiet s s' := by
  have hlive : ∀ session, s'.isLive session → s.isLive session := by
    intro session h
    rw [isLive_iff] at h ⊢
    obtain ⟨⟨entry, hentry, heq⟩, hclient⟩ := h
    exact ⟨⟨entry, hsessions.subset hentry, heq⟩, hclients.subset hclient⟩
  refine ⟨⟨hclients, hlive _, huploads ▸ .refl _, ?_, hnext⟩, ?_⟩
  · intro entry hentry _
    exact huploads.symm ▸ hentry
  have hreceived : s'.received = s.received := by
    funext session transferId
    rw [FileServer.received, hqueued]
    rfl
  intro skipped p h
  exact h.of_eq huploads hnames hnext hreceived (fun session _ _ => hlive session)
    (h.housed.of_sublist hsessions hclients hqueued hsession)

lemma Shed.put (session : SessionId) (control : ServerControl) :
    Shed s (s.put session control) where
  clients := .refl _
  live := id
  uploads := .refl _
  kept _ hentry _ := hentry
  next := rfl

/-- The function puts its message, or quietly closes connections; a message without names then did
not find its session connected. -/
def Queues (depth : ℕ) (queue : Queue) : Prop :=
  ∀ s session control, s.clients.length ≤ depth →
    session ∈ s.clients ∧ (queue s session control).1 = s.put session control ∨
      Quiet s (queue s session control).1 ∧ (control.namedKind? = none →
      ¬ (queue s session control).1.isLive session)

section Queues

variable {order : IterationOrder} {queue : Queue} {depth : ℕ} {s : FileServer}

lemma Queues.shed (h : Queues depth queue) (hdepth : s.clients.length ≤ depth)
    (session : SessionId) (control : ServerControl) : Shed s (queue s session control).1 := by
  rcases h s session control hdepth with ⟨hclient, hput⟩ | ⟨hquiet, -⟩
  · rw [hput]
    exact .put s session control
  · exact hquiet.toShed

lemma Queues.other (h : Queues depth queue) (hdepth : s.clients.length ≤ depth)
      (session : SessionId)
    (hother : control.transfer? = none) : Quiet s (queue s session control).1 := by
  rcases h s session control hdepth with ⟨hclient, hput⟩ | ⟨hquiet, -⟩
  · rw [hput]
    exact ⟨.put s session control, fun haccount => haccount.put_other hclient hother⟩
  · exact hquiet

variable {skipped : List (SessionId × FileTransferId)} {transferId : FileTransferId} {p : Pending}

/-- A session that is owed the end of a transfer gets it, or is not connected any more. -/
lemma Queues.tellEnd (h : Queues depth queue) (hdepth : s.clients.length ≤ depth)
      (hends : control.Ends transferId) (hnot : ¬ p.owed session transferId)
    (haccount : Account skipped (p.owing session transferId) s) :
    Account skipped p (queue s session control).1 := by
  rcases h s session control hdepth with ⟨hclient, hput⟩ | ⟨hquiet, hdead⟩
  · rw [hput]
    exact haccount.put_end hclient hends hnot
  · exact (hquiet.account haccount).forget (hdead hends.not_named)

/-- One round of a loop that tells sessions of the end of a transfer. -/
def Tells (depth : ℕ) (transferId : FileTransferId) (f : FileServer → SessionId → FileServer) :
    Prop :=
  ∀ s session, s.clients.length ≤ depth → Shed s (f s session) ∧
    ∀ {skipped p}, ¬ p.owed session transferId →
      Account skipped (p.owing session transferId) s → Account skipped p (f s session)

lemma Shed.fits {s' : FileServer} (h : Shed s s') (hdepth : s.clients.length ≤ depth) :
    s'.clients.length ≤ depth :=
  h.clients.length_le.trans hdepth

lemma shed_foldl {α σ : Type} (server : σ → FileServer) {f : σ → α → σ}
      (h : ∀ x a, (server x).clients.length ≤ depth → Shed (server x) (server (f x a)))
    (l : List α) {x : σ} (hdepth : (server x).clients.length ≤ depth) :
    Shed (server x) (server (l.foldl f x)) := by
  induction l generalizing x with
  | nil => exact .refl _
  | cons a l ih =>
    have hfirst := h x a hdepth
    exact hfirst.trans (ih (hfirst.fits hdepth))

lemma quiet_foldl {α : Type} {f : FileServer → α → FileServer}
      (h : ∀ s a, s.clients.length ≤ depth → Quiet s (f s a))
    (l : List α) (hdepth : s.clients.length ≤ depth) : Quiet s (l.foldl f s) := by
  induction l generalizing s with
  | nil => exact .refl s
  | cons a l ih =>
    have hfirst := h s a hdepth
    exact hfirst.trans (ih (hfirst.fits hdepth))

/-- The whole loop: everyone who is owed the end is told, or not connected any more. -/
lemma Tells.foldl {f : FileServer → SessionId → FileServer} (h : Tells depth transferId f)
      {l : List SessionId}
    (hnodup : l.Nodup) (hdepth : s.clients.length ≤ depth)
    (hnot : ∀ session, ¬ p.owed session transferId)
    (haccount : Account skipped (p.owingAll l transferId) s) : Account skipped p (l.foldl f s) := by
  induction l generalizing s with
  | nil =>
    apply haccount.change
    · intro r t howed
      exact .inl howed
    · rintro r t - (howed | ⟨hmem, -⟩)
      · exact howed
      · cases hmem
    · intro r entry _ _ _
      rfl
    · intro r t hunoffered
      exact hunoffered
  | cons session l ih =>
    rw [nodup_cons] at hnodup
    obtain ⟨hshed, htell⟩ := h s session hdepth
    apply ih hnodup.2 (hshed.fits hdepth)
    apply htell
    · rintro (howed | ⟨hmem, -⟩)
      · exact hnot session howed
      · exact hnodup.1 hmem
    -- the first session is owed as one of the list, or by itself
    · apply haccount.change
      · rintro r t ((howed | ⟨hmem, ht⟩) | ⟨hr, ht⟩)
        · exact .inl howed
        · exact .inr ⟨.tail _ hmem, ht⟩
        · exact .inr ⟨hr ▸ .head _, ht⟩
      · rintro r t - (howed | ⟨hmem, ht⟩)
        · exact .inl (.inl howed)
        · rcases mem_cons.mp hmem with hr | hmem
          · exact .inr ⟨hr, ht⟩
          · exact .inl (.inr ⟨hmem, ht⟩)
      · intro r entry _ _ _
        rfl
      · intro r t hunoffered
        exact hunoffered

/-- Only the connected ones of a list are owed anything. -/
lemma Account.owing_of_live {recipients l : List SessionId}
      (h : Account skipped (p.owingAll recipients transferId) s)
    (hsub : ∀ r ∈ l, r ∈ recipients) (hlive : ∀ r ∈ recipients, s.isLive r → r ∈ l) :
    Account skipped (p.owingAll l transferId) s := by
  apply h.change
  · rintro r t (howed | ⟨hmem, ht⟩)
    · exact .inl howed
    · exact .inr ⟨hsub r hmem, ht⟩
  · rintro r t hr (howed | ⟨hmem, ht⟩)
    · exact .inl howed
    · exact .inr ⟨hlive r hmem hr, ht⟩
  · intro r entry _ _ _
    rfl
  · intro r t hunoffered
    exact hunoffered

section

variable (hqueue : Queues depth queue)

include hqueue

lemma tells_queue {transferId : FileTransferId} (hends : control.Ends transferId) :
    Tells depth transferId fun s session => (queue s session control).1 := by
  intro s session hdepth
  exact ⟨hqueue.shed hdepth session control, hqueue.tellEnd hdepth hends⟩

lemma tells_cancel (transferId : FileTransferId) (reason : String) :
    Tells depth transferId fun s session =>
      if s.isLive session then (queue s session (.fileCanceled transferId reason)).1 else s := by
  intro s session hdepth
  dsimp only
  split_ifs with hlive
  · exact tells_queue hqueue (.canceled reason) s session hdepth
  · exact ⟨.refl s, fun _ haccount => haccount.forget hlive⟩

variable (hdepth : s.clients.length ≤ depth)

include hdepth

lemma shed_sendFileCanceled (upload : ServerUpload) (reason : String) :
    Shed s (sendFileCanceled order queue s upload reason) :=
  shed_foldl id (fun s session h =>
    (tells_cancel hqueue upload.serverTransferId reason s session h).1) _ hdepth

variable {skipped : List (SessionId × FileTransferId)}

/-- An upload is removed and its recipients are told. -/
lemma account_sendFileCanceled (haccount : Account skipped p s) {key : UploadKey}
      (hupload : s.upload? key = some upload)
    (reason : String) :
    Account skipped p (sendFileCanceled order queue (s.removeUpload key upload) upload reason) := by
  have hmem := mem_of_upload? hupload
  have hperm := order.perm (s.removeUpload key upload) upload.recipients
  apply (tells_cancel hqueue upload.serverTransferId reason).foldl
  · exact hperm.nodup_iff.mpr (haccount.recipients _ hmem)
  · exact hdepth
  · intro session howed
    exact (haccount.owed session _ howed).2.1 _ hmem rfl
  · apply (haccount.remove hupload).owing_of_live
    · intro r hr
      exact hperm.subset hr
    · intro r hr _
      exact hperm.symm.subset hr

lemma account_cancelFileUpload (haccount : Account skipped p s) (session : SessionId)
      (clientTransferId : FileTransferId)
    (reason : String) :
    Account skipped p (cancelFileUpload order queue s session clientTransferId reason) := by
  unfold cancelFileUpload
  split
  · exact haccount
  next upload hupload => exact account_sendFileCanceled hqueue hdepth haccount hupload reason

/-- Canceling an upload of a session that is not connected. -/
lemma quiet_cancelFileUpload (hdead : ¬ s.isLive session) (clientTransferId : FileTransferId)
      (reason : String) :
    Quiet s (cancelFileUpload order queue s session clientTransferId reason) := by
  refine ⟨?_, fun haccount =>
    account_cancelFileUpload hqueue hdepth haccount session clientTransferId reason⟩
  unfold cancelFileUpload
  split
  · exact .refl s
  next upload hupload =>
  have hremove : Shed s (s.removeUpload (session, clientTransferId) upload) := by
    refine ⟨.refl _, id, filter_sublist, ?_, rfl⟩
    intro entry hentry hlive
    apply mem_filter.mpr
    refine ⟨hentry, decide_eq_true ?_⟩
    rintro heq
    rw [heq] at hlive
    exact hdead hlive
  refine hremove.trans (shed_sendFileCanceled hqueue ?_ upload reason)
  exact hdepth

lemma quiet_cancelUploadsForSession (hdead : ¬ s.isLive session) (reason : String) :
    Quiet s (cancelUploadsForSession order queue s session reason) := by
  unfold cancelUploadsForSession
  dsimp only
  generalize order.iter s _ = keys
  induction keys generalizing s with
  | nil => exact .refl s
  | cons key keys ih =>
    have hfirst : Quiet s (cancelFileUpload order queue s session key reason) :=
      quiet_cancelFileUpload hqueue hdepth hdead key reason
    exact hfirst.trans (ih (hfirst.fits hdepth) fun hlive => hdead (hfirst.live hlive))

lemma quiet_sendControlToTokens (hother : control.transfer? = none) (sessions : List SessionId) :
    Quiet s (sendControlToTokens queue s sessions control) :=
  quiet_foldl (fun _ session h => hqueue.other h session hother) sessions hdepth

lemma quiet_teardownSession (hdead : ¬ s.isLive session) (reason : String) :
    Quiet s (teardownSession order queue s session reason) := by
  have hcancel : Quiet s (cancelUploadsForSession order queue s session reason) :=
    quiet_cancelUploadsForSession hqueue hdepth hdead reason
  unfold teardownSession
  generalize cancelUploadsForSession order queue s session reason = canceled at hcancel
  refine hcancel.trans ?_
  have hpop : Quiet canceled { canceled with notices := canceled.notices.tail } :=
    .of_eq (.refl _) (.refl _) rfl rfl rfl rfl rfl
  refine hpop.trans ?_
  have hother : ServerControl.notice.transfer? = none := rfl
  refine (quiet_sendControlToTokens hqueue (hpop.fits (hcancel.fits hdepth)) hother
    (canceled.notices.headD [])).trans ?_
  exact .of_eq filter_sublist (.refl _) rfl rfl rfl rfl rfl

omit hdepth in
/-- Closing a connection, with one less to come. -/
lemma quiet_disconnectWith (session : SessionId) (hdepth : s.clients.length ≤ depth + 1) :
    Quiet s (disconnectWith order queue s session) ∧
    ¬ (disconnectWith order queue s session).isLive session := by
  unfold disconnectWith
  split_ifs with hmem
  · have hclosed : session ∉ s.clients.filter fun other => other ≠ session := by simp
    have hdead : ¬ isLive { s with clients := s.clients.filter fun other => other ≠ session }
        session := by
      rw [isLive_iff]
      exact fun h => hclosed h.2
    have hfits : (s.clients.filter fun other => other ≠ session).length ≤ depth := by
      have hlt : (s.clients.filter fun other => other ≠ session).length < s.clients.length :=
        length_filter_lt_length_iff_exists.mpr ⟨session, hmem, by simp⟩
      omega
    have hclose : Quiet s
        { s with clients := s.clients.filter fun other => other ≠ session } :=
      .of_eq (.refl _) filter_sublist rfl rfl rfl rfl rfl
    have hteardown : Quiet { s with clients := s.clients.filter fun other => other ≠ session }
        (teardownSession order queue { s with clients := s.clients.filter fun other =>
          other ≠ session } session "sender disconnected") :=
      quiet_teardownSession hqueue hfits hdead "sender disconnected"
    exact ⟨hclose.trans hteardown, fun hlive => hdead (hteardown.live hlive)⟩
  · refine ⟨.refl s, ?_⟩
    rw [isLive_iff]
    exact fun h => hmem h.2

end

/-- `queue_shared_control_payload` puts its message or closes connections. -/
lemma queues_queueWith (depth : ℕ) : Queues depth (queueWith order depth) := by
  induction depth with
  | zero =>
    intro s session control hdepth
    refine .inr ⟨.refl s, fun _ hlive => ?_⟩
    have hclients := length_eq_zero_iff.mp (Nat.le_zero.mp hdepth)
    exact absurd (isLive_iff.mp hlive).2 (hclients ▸ not_mem_nil)
  | succ depth ih =>
    intro s session control hdepth
    have hpop : Quiet s { s with outcomes := s.outcomes.tail } :=
      .of_eq (.refl _) (.refl _) rfl rfl rfl rfl rfl
    have hclose := @quiet_disconnectWith order _ depth
      { s with outcomes := s.outcomes.tail } ih session hdepth
    have hnamed : ∀ kind, control.namedKind? = some kind → control.namedKind? = none →
        ¬ isLive { s with outcomes := s.outcomes.tail } session := by
      intro kind hkind hnone
      rw [hkind] at hnone
      cases hnone
    unfold queueWith
    dsimp only
    split
    · next kind _ hkind => exact .inr ⟨hpop, hnamed kind hkind⟩
    by_cases hclient : session ∈ s.clients
    swap
    · rw [if_pos hclient]
      exact .inr ⟨.refl s, fun _ hlive => hclient (isLive_iff.mp hlive).2⟩
    rw [if_neg (not_not.mpr hclient)]
    split
    · next kind _ hkind => exact .inr ⟨hpop, hnamed kind hkind⟩
    · exact .inr ⟨hpop.trans hclose.1, fun _ => hclose.2⟩
    · exact .inr ⟨hpop.trans hclose.1, fun _ => hclose.2⟩
    · exact .inl ⟨hclient, rfl⟩

end Queues

end Chatt.FileTransfer
