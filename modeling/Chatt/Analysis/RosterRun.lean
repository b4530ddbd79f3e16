import Chatt.Analysis.Roster
import Chatt.Interface.RosterRun

/-!
# Rosters do not roll back

Whatever rosters a provider is handed and in whatever order, the devices it accepts are those
of the highest revision installed for each account, and no revision is accepted in two forms.
`install_historical_roster` records certificates before it has looked at all of them, so an
answer that is an error can leave some behind; `Undivided` says when it does not.
-/

namespace Chatt

open Chatt.Lib List OrdMap Option

namespace PolicyState

/-! ## The loops over the certificates -/

section Loops

variable {historical : OrdMap Bytes CertifiedDevice}
  {certificates : List SignedDeviceCertificate}

variable {certificate : SignedDeviceCertificate}

lemma agrees_of_none (h : historical.get? certificate.body.mlsClientId = none) :
    agrees historical certificate = true := by
  simp [agrees, h]

/-- A new entry matters to its own client only. -/
lemma agrees_insert {client : Bytes} {device : CertifiedDevice}
      (h : certificate.body.mlsClientId ≠ client) :
    agrees (historical.insert client device) certificate = agrees historical certificate := by
  unfold agrees
  rw [get?_insert_ne _ _ h]

lemma rememberDevices_cons (certificate : SignedDeviceCertificate)
      (rest : List SignedDeviceCertificate) :
    rememberDevices historical (certificate :: rest) =
      rememberDevices
        (if historical.contains certificate.body.mlsClientId then historical
          else historical.insert certificate.body.mlsClientId (certifiedDevice certificate))
        rest := rfl

/-- What is recorded stays, and every entry comes from a certificate. -/
lemma get?_rememberDevices (client : Bytes) :
    (rememberDevices historical certificates).get? client =
      (historical.get? client).or
        ((certificates.find? fun certificate => certificate.body.mlsClientId = client).map
        certifiedDevice) := by
  induction certificates generalizing historical with
  | nil => simp [rememberDevices]
  | cons certificate rest ih =>
    rw [rememberDevices_cons, ih, find?_cons]
    by_cases hclient : certificate.body.mlsClientId = client
    · subst hclient
      cases hget : historical.get? certificate.body.mlsClientId <;> simp [OrdMap.contains, hget]
    · have hne : client ≠ certificate.body.mlsClientId := fun h => hclient h.symm
      split_ifs <;> simp [hclient, get?_insert_ne _ _ hne]

/-- The loop changes nothing exactly when every client is already recorded. -/
lemma rememberDevices_eq_self :
    rememberDevices historical certificates = historical ↔
    ∀ certificate ∈ certificates, historical.contains certificate.body.mlsClientId = true := by
  constructor
  · intro h certificate hmem
    have hget := @get?_rememberDevices historical certificates certificate.body.mlsClientId
    rw [h] at hget
    unfold OrdMap.contains
    cases hold : historical.get? certificate.body.mlsClientId with
    | some device => rfl
    | none =>
      rw [hold, none_or, eq_comm, map_eq_none_iff, find?_eq_none] at hget
      exact absurd (hget certificate hmem) (by simp)
  · intro h
    induction certificates with
    | nil => rfl
    | cons certificate rest ih =>
      rw [rememberDevices_cons, if_pos (h certificate mem_cons_self)]
      exact ih fun other hother => h other (mem_cons_of_mem _ hother)

lemma takeWhile_congr {α : Type} {l : List α} {p q : α → Bool} (h : ∀ a ∈ l, p a = q a) :
    l.takeWhile p = l.takeWhile q := by
  induction l with
  | nil => rfl
  | cons a rest ih =>
    rw [takeWhile_cons, takeWhile_cons, h a mem_cons_self, ih fun b hb =>
      h b (mem_cons_of_mem _ hb)]

/-- The loop of a historical roster records the certificates up to the first that differs. -/
lemma recordDevices_eq (hnodup : (certificates.map (·.body.mlsClientId)).Nodup) :
    recordDevices historical certificates =
      (rememberDevices historical (certificates.takeWhile (agrees historical)),
        if certificates.all (agrees historical) then .ok ()
        else .error "invalid device roster: historical device credential equivocates") := by
  induction certificates generalizing historical with
  | nil => rfl
  | cons certificate rest ih =>
    rw [map_cons, nodup_cons] at hnodup
    unfold recordDevices
    cases hget : historical.get? certificate.body.mlsClientId with
    | none =>
      have hsame :
          ∀ other ∈ rest,
          agrees (historical.insert certificate.body.mlsClientId (certifiedDevice certificate))
          other = agrees historical other := by
        intro other hother
        exact agrees_insert fun h => hnodup.1 (h ▸ mem_map_of_mem hother)
      have hnew : historical.contains certificate.body.mlsClientId = false := by
        simp [OrdMap.contains, hget]
      have hagrees := agrees_of_none hget
      have hall : rest.all
          (agrees (historical.insert certificate.body.mlsClientId (certifiedDevice certificate))) =
          rest.all (agrees historical) := by
        rw [Bool.eq_iff_iff, List.all_eq_true, List.all_eq_true]
        exact forall₂_congr fun other hother => by rw [hsame other hother]
      simp only
      rw [ih hnodup.2, takeWhile_congr hsame, hall]
      simp [hagrees, rememberDevices_cons, hnew]
    | some existing =>
      simp only
      by_cases hne : existing ≠ certifiedDevice certificate
      · rw [if_pos hne]
        have hdiffers : agrees historical certificate = false := by simp [agrees, hget, hne]
        simp [hdiffers, rememberDevices]
      · rw [if_neg hne]
        have hagrees : agrees historical certificate = true := by simpa [agrees, hget] using hne
        have hknown : historical.contains certificate.body.mlsClientId = true := by
          simp [OrdMap.contains, hget]
        rw [ih hnodup.2]
        simp [hagrees, rememberDevices_cons, hknown]

end Loops

/-! ## What a call does -/

section Calls

variable {mls : Mls} {serverId : Bytes} {p q : PolicyState} {roster : SignedDeviceRoster}

lemma cacheHit_eq_ok {hit : Bool} (h : p.historicalRosterCacheHit roster = .ok hit) :
    p.historicalRosters.get? (toLex (roster.body.accountId, roster.body.revision)) =
      if hit then some roster else none := by
  unfold historicalRosterCacheHit at h
  cases hget : p.historicalRosters.get?
      (toLex (roster.body.accountId, roster.body.revision)) with
  | none =>
    rw [hget] at h
    cases h
    rfl
  | some old =>
    rw [hget] at h
    simp only at h
    split_ifs at h with hsame
    cases h
    rw [hsame]
    rfl

/-- Another roster at a recorded revision is refused. -/
lemma cacheHit_of_ne {old : SignedDeviceRoster}
      (hold : p.historicalRosters.get? (toLex (roster.body.accountId, roster.body.revision)) =
      some old)
    (hne : old ≠ roster) :
    p.historicalRosterCacheHit roster = .error
      "invalid device roster: historical device roster revision equivocates" := by
  unfold historicalRosterCacheHit
  rw [hold]
  simp [hne]

lemma rosterIsCurrent_eq_ok {current : Bool} (h : p.rosterIsCurrent mls roster = .ok current) :
    (∃ hit, p.historicalRosterCacheHit roster = .ok hit) ∧
    if current then p.rosters.get? roster.body.accountId = some (rosterCheckpoint mls roster)
    else ∀ old, p.rosters.get? roster.body.accountId = some old →
    old.revision < roster.body.revision := by
  obtain ⟨hit, hhit, h⟩ := bind_eq_ok.mp h
  refine ⟨⟨hit, hhit⟩, ?_⟩
  split at h
  next hget =>
    cases h
    simp [hget]
  next old hget =>
  split_ifs at h with hsame
  · cases h
    simp [hget, hsame]
  obtain ⟨_, hlater, h⟩ := bind_eq_ok.mp h
  cases h
  simpa [hget] using hlater

/-- The provider with the roster in the place of its account's. -/
def withRoster (mls : Mls) (p : PolicyState) (roster : SignedDeviceRoster) : PolicyState :=
  { p with
    accountUsers := p.accountUsers.insert roster.body.accountId roster.body.userId
    devices := certify p.devices roster.body
    historicalDevices := rememberDevices p.historicalDevices roster.body.activeDevices
    historicalRosters := p.historicalRosters.insert
      (toLex (roster.body.accountId, roster.body.revision)) roster
    rosters := p.rosters.insert roster.body.accountId (rosterCheckpoint mls roster) }

/-- A roster is installed when it is current already or when it is new. -/
lemma installRoster_cases (h : p.installRoster mls serverId roster = .ok q) :
    (∃ hit, p.historicalRosterCacheHit roster = .ok hit) ∧
    ((q = p ∧ p.rosters.get? roster.body.accountId = some (rosterCheckpoint mls roster)) ∨
     (q = p.withRoster mls roster ∧ RosterOk serverId roster.body.userId roster ∧
      (∀ user, p.accountUsers.get? roster.body.accountId = some user → user = roster.body.userId) ∧
      ∀ old, p.rosters.get? roster.body.accountId = some old →
      old.revision < roster.body.revision)) := by
  obtain ⟨current, hcurrent, h⟩ := bind_eq_ok.mp h
  obtain ⟨hhit, hcurrent⟩ := rosterIsCurrent_eq_ok hcurrent
  refine ⟨hhit, ?_⟩
  cases current with
  | true =>
    cases h
    exact Or.inl ⟨rfl, hcurrent⟩
  | false =>
    rw [if_neg (by simp)] at h
    split at h
    · cases h
    next u hvalid =>
    obtain ⟨indexed, hindexed, h⟩ := bind_eq_ok.mp h
    cases h
    obtain ⟨huser, rfl⟩ := indexAccountUser_eq_ok hindexed
    exact Or.inr ⟨rfl, validateDeviceRoster_eq_ok hvalid, huser, hcurrent⟩

/-- What a historical roster leaves once the loop over its certificates is entered. -/
lemma installHistoricalRoster_loop (henters : p.EntersLoop mls serverId roster) :
    (∀ user, p.accountUsers.get? roster.body.accountId = some user → user = roster.body.userId) ∧
    p.installHistoricalRoster mls serverId roster =
      let indexed := { p with
        accountUsers := p.accountUsers.insert roster.body.accountId roster.body.userId
        historicalDevices := rememberDevices p.historicalDevices
          (roster.body.activeDevices.takeWhile (agrees p.historicalDevices)) }
      if roster.body.activeDevices.all (agrees p.historicalDevices) then
        ({ indexed with
          historicalRosters := p.historicalRosters.insert
            (toLex (roster.body.accountId, roster.body.revision)) roster }, .ok ())
      else (indexed, .error "invalid device roster: historical device credential equivocates") := by
  obtain ⟨hhit, hvalid, hindex⟩ := henters
  obtain ⟨indexed, hindexed⟩ := exists_of_isOk hindex
  obtain ⟨huser, heq⟩ := indexAccountUser_eq_ok hindexed
  refine ⟨huser, ?_⟩
  unfold installHistoricalRoster
  simp only [hhit, hvalid, hindexed]
  rw [recordDevices_eq (validateDeviceRoster_eq_ok hvalid).clients_nodup]
  subst heq
  split_ifs <;> rfl

/-- In front of the loop nothing changes: either the roster is recorded already or the answer
is an error. -/
lemma installHistoricalRoster_of_not (henters : ¬ p.EntersLoop mls serverId roster) :
    (p.installHistoricalRoster mls serverId roster).1 = p ∧
    ((p.installHistoricalRoster mls serverId roster).2 = .ok () →
      p.historicalRosterCacheHit roster = .ok true) := by
  unfold installHistoricalRoster
  cases hhit : p.historicalRosterCacheHit roster with
  | error error => simp
  | ok hit =>
    cases hit with
    | true => simp
    | false =>
      cases hvalid : validateDeviceRoster mls roster serverId roster.body.userId with
      | error error => simp
      | ok u =>
        cases hindex : p.indexAccountUser roster.body.accountId roster.body.userId with
        | error error => simp
        | ok indexed => exact absurd ⟨hhit, hvalid, by rw [hindex]; rfl⟩ henters

end Calls

end PolicyState

/-! ## The invariant of a run -/

open PolicyState

/-- What the provider knows after the rosters of the run. -/
structure RosterInv (mls : Mls) (serverId : Bytes) (run : RosterRun) : Prop where
  valid : ∀ {roster}, roster ∈ run.installed → RosterOk serverId roster.body.userId roster
  accepted : ∀ {roster}, roster ∈ run.installed → roster ∈ run.accepted
  /-- a revision is accepted in one form -/
  history : ∀ {roster}, roster ∈ run.accepted →
    run.policy.historicalRosters.get? (toLex (roster.body.accountId, roster.body.revision)) =
    some roster
  /-- a checkpoint is of an installed roster, and none is above it -/
  checkpoint : ∀ {account checkpoint}, run.policy.rosters.get? account = some checkpoint →
    ∃ roster ∈ run.installed, roster.body.accountId = account ∧
    checkpoint = rosterCheckpoint mls roster
  below : ∀ {roster}, roster ∈ run.installed →
    ∃ checkpoint, run.policy.rosters.get? roster.body.accountId = some checkpoint ∧
    roster.body.revision ≤ checkpoint.revision
  device : ∀ {client device}, run.policy.devices.get? client = some device ↔
    ∃ roster ∈ run.installed, run.policy.rosters.get? roster.body.accountId =
    some (rosterCheckpoint mls roster) ∧
      ∃ certificate ∈ roster.body.activeDevices, certificate.body.mlsClientId = client ∧
      certifiedDevice certificate = device
  /-- a historical device is one of an account with a user -/
  recorded : ∀ {client device}, run.policy.historicalDevices.get? client = some device →
    (run.policy.accountUsers.get? device.accountId).isSome ∧
    mlsClientId serverId device.accountId device.deviceId = .ok client

namespace RosterInv

variable {mls : Mls} {serverId : Bytes} {run : RosterRun} {roster : SignedDeviceRoster}

lemma start : RosterInv mls serverId RosterRun.start := by
  constructor <;> simp [RosterRun.start, PolicyState.empty]

section

variable (h : RosterInv mls serverId run)

include h

/-- The rosters the checkpoints are of are the highest ones. -/
lemma highest_iff :
    run.Highest roster ↔ roster ∈ run.installed ∧
    run.policy.rosters.get? roster.body.accountId = some (rosterCheckpoint mls roster) := by
  constructor
  · rintro ⟨hmem, hhighest⟩
    refine ⟨hmem, ?_⟩
    obtain ⟨checkpoint, hget, hle⟩ := h.below hmem
    obtain ⟨top, htop, haccount, rfl⟩ := h.checkpoint hget
    have hrevision : top.body.revision = roster.body.revision :=
      le_antisymm (hhighest top htop haccount) hle
    have hsame := h.history (h.accepted htop)
    rw [haccount, hrevision, h.history (h.accepted hmem)] at hsame
    cases hsame
    exact hget
  · rintro ⟨hmem, hget⟩
    refine ⟨hmem, fun other hother haccount => ?_⟩
    obtain ⟨checkpoint, hcheckpoint, hle⟩ := h.below hother
    rw [haccount, hget] at hcheckpoint
    cases hcheckpoint
    exact hle

/-- A roster whose checkpoint is the installed one is the installed one. -/
lemma mem_of_checkpoint (hhit : ∃ hit, run.policy.historicalRosterCacheHit roster = .ok hit)
    (hget : run.policy.rosters.get? roster.body.accountId = some (rosterCheckpoint mls roster)) :
    roster ∈ run.installed := by
  obtain ⟨top, htop, haccount, hcheckpoint⟩ := h.checkpoint hget
  obtain ⟨hit, hhit⟩ := hhit
  have hrevision : roster.body.revision = top.body.revision :=
    congrArg RosterCheckpoint.revision hcheckpoint
  have hsame := cacheHit_eq_ok hhit
  rw [← haccount, hrevision, h.history (h.accepted htop)] at hsame
  cases hit with
  | false => cases hsame
  | true =>
    cases hsame
    exact htop

/-- The history keeps one form of each revision when a roster is added to it. -/
lemma history_insert (hhit : ∃ hit, run.policy.historicalRosterCacheHit roster = .ok hit)
      {other : SignedDeviceRoster} (hother : other ∈ roster :: run.accepted) :
    (run.policy.historicalRosters.insert (toLex (roster.body.accountId, roster.body.revision))
      roster).get? (toLex (other.body.accountId, other.body.revision)) = some other := by
  rcases mem_cons.mp hother with rfl | hother
  · exact get?_insert_self _ _ _
  rw [get?_insert]
  split_ifs with hkey
  · -- the same key: the history has `other` there, and the call has compared it
    obtain ⟨hit, hhit⟩ := hhit
    have hsame := h.history hother
    rw [hkey, cacheHit_eq_ok hhit] at hsame
    cases hit with
    | false => cases hsame
    | true => exact hsame
  · exact h.history hother

variable {device : CertifiedDevice} {certificates : List SignedDeviceCertificate}

/-- Certificates of an accepted roster may be remembered once its account is indexed. -/
lemma recorded_remember {user : UserId} (hroster : RosterOk serverId user roster)
      (hsub : certificates ⊆ roster.body.activeDevices)
    {client : Bytes}
    (hget : (rememberDevices run.policy.historicalDevices certificates).get? client = some device) :
    ((run.policy.accountUsers.insert roster.body.accountId user).get? device.accountId).isSome ∧
    mlsClientId serverId device.accountId device.deviceId = .ok client := by
  rw [get?_rememberDevices, or_eq_some_iff] at hget
  rcases hget with hold | ⟨-, hnew⟩
  · obtain ⟨hindexed, hclient⟩ := h.recorded hold
    refine ⟨?_, hclient⟩
    rw [get?_insert]
    split_ifs
    · rfl
    · exact hindexed
  · obtain ⟨certificate, hfind, rfl⟩ := map_eq_some_iff.mp hnew
    have hok := hroster.certificate (hsub (mem_of_find?_eq_some hfind))
    have hclient : certificate.body.mlsClientId = client := by simpa using find?_some hfind
    have haccount : (certifiedDevice certificate).accountId = roster.body.accountId :=
      hok.account_eq
    rw [haccount, get?_insert_self, ← hclient]
    exact ⟨rfl, hok.client_eq⟩

/-- A roster that is recorded already may be accepted again. -/
lemma accept (hhit : run.policy.historicalRosterCacheHit roster = .ok true) :
    RosterInv mls serverId { run with accepted := roster :: run.accepted } := by
  refine { h with accepted := fun hmem => mem_cons_of_mem _ (h.accepted hmem), history := ?_ }
  intro other hother
  rcases mem_cons.mp hother with rfl | hother
  · exact cacheHit_eq_ok hhit
  · exact h.history hother

/-- An installed roster may be installed again. -/
lemma reinstall (hmem : roster ∈ run.installed) :
    RosterInv mls serverId ⟨run.policy, roster :: run.installed, roster :: run.accepted⟩ := by
  have hcons : ∀ {l : List SignedDeviceRoster}, roster ∈ l → ∀ other, other ∈ roster :: l ↔
      other ∈ l := by
    intro l hmem other
    rw [mem_cons, or_iff_right_of_imp]
    rintro rfl
    exact hmem
  constructor <;> simp only [hcons hmem, hcons (h.accepted hmem)]
  · exact h.valid
  · exact h.accepted
  · exact h.history
  · exact h.checkpoint
  · exact h.below
  · exact h.device
  · exact h.recorded

/-- A historical roster leaves the active devices alone, however far its loop comes. -/
lemma record {user : UserId} (hroster : RosterOk serverId user roster)
    (hsub : certificates ⊆ roster.body.activeDevices) : RosterInv mls serverId { run with
      policy := { run.policy with
        accountUsers := run.policy.accountUsers.insert roster.body.accountId user
        historicalDevices := rememberDevices run.policy.historicalDevices certificates } } :=
  { h with recorded := h.recorded_remember hroster hsub }

/-- A historical roster whose certificates have all passed joins the history. -/
lemma archive (hhit : ∃ hit, run.policy.historicalRosterCacheHit roster = .ok hit) :
    RosterInv mls serverId { run with
      policy := { run.policy with
        historicalRosters := run.policy.historicalRosters.insert
          (toLex (roster.body.accountId, roster.body.revision)) roster }
      accepted := roster :: run.accepted } :=
  { h with
    accepted := fun hmem => mem_cons_of_mem _ (h.accepted hmem)
    history := h.history_insert hhit }

/-- After a new roster is installed, the checkpoint of its account is its own. -/
lemma current_iff (hlater : ∀ old, run.policy.rosters.get? roster.body.accountId = some old →
      old.revision < roster.body.revision) {other : SignedDeviceRoster} :
    (other ∈ roster :: run.installed ∧
      (run.policy.rosters.insert roster.body.accountId (rosterCheckpoint mls roster)).get?
        other.body.accountId = some (rosterCheckpoint mls other)) ↔
    other = roster ∨ (other ∈ run.installed ∧ other.body.accountId ≠ roster.body.accountId ∧
      run.policy.rosters.get? other.body.accountId = some (rosterCheckpoint mls other)) := by
  constructor
  · rintro ⟨hmem, hget⟩
    rcases mem_cons.mp hmem with rfl | hmem
    · exact Or.inl rfl
    right
    by_cases haccount : other.body.accountId = roster.body.accountId
    · -- an older roster of the account has a lower revision
      rw [haccount, get?_insert_self, some_inj] at hget
      have hrevision : roster.body.revision = other.body.revision :=
        congrArg RosterCheckpoint.revision hget
      obtain ⟨checkpoint, hcheckpoint, hle⟩ := h.below hmem
      rw [haccount] at hcheckpoint
      have := hlater checkpoint hcheckpoint
      omega
    · rw [get?_insert_ne _ _ haccount] at hget
      exact ⟨hmem, haccount, hget⟩
  · rintro (rfl | ⟨hmem, haccount, hget⟩)
    · exact ⟨mem_cons_self, get?_insert_self _ _ _⟩
    · rw [get?_insert_ne _ _ haccount]
      exact ⟨mem_cons_of_mem _ hmem, hget⟩

/-- The devices of the other accounts stay, those of the roster's account are its own. -/
lemma device_certify (hroster : RosterOk serverId roster.body.userId roster) {client : Bytes} :
    (certify run.policy.devices roster.body).get? client = some device ↔
      ∃ other, (other = roster ∨
        (other ∈ run.installed ∧ other.body.accountId ≠ roster.body.accountId ∧
        run.policy.rosters.get? other.body.accountId = some (rosterCheckpoint mls other))) ∧
      ∃ certificate ∈ other.body.activeDevices, certificate.body.mlsClientId = client ∧
      certifiedDevice certificate = device := by
  rw [get?_certify, or_eq_some_iff]
  constructor
  · rintro (hnew | ⟨-, hold⟩)
    · obtain ⟨certificate, hmem, hclient, hdevice⟩ := lastWrite_eq_some hnew
      exact ⟨roster, Or.inl rfl, certificate, hmem, hclient, hdevice⟩
    · obtain ⟨hold, haccount⟩ := filter_eq_some_iff.mp hold
      obtain ⟨other, hother, hcurrent, certificate, hmem, hclient, rfl⟩ := h.device.mp hold
      have hown := ((h.valid hother).certificate hmem).account_eq
      refine ⟨other, Or.inr ⟨hother, ?_, hcurrent⟩, certificate, hmem, hclient, rfl⟩
      simpa [certifiedDevice, hown] using haccount
  · rintro ⟨other, rfl | ⟨hother, haccount, hcurrent⟩, certificate, hmem, rfl, rfl⟩
    · exact Or.inl (lastWrite_certificate hroster hmem)
    · right
      have hown := ((h.valid hother).certificate hmem).account_eq
      constructor
      · rw [lastWrite_eq_none]
        intro certificate' hmem' hclient
        exact haccount (client_account (h.valid hother) hroster hmem hmem' hclient.symm).1
      · rw [h.device.mpr ⟨other, hother, hcurrent, certificate, hmem, rfl, rfl⟩]
        simpa [certifiedDevice, hown] using haccount

/-- A new roster takes the place of its account's. -/
lemma install (hhit : ∃ hit, run.policy.historicalRosterCacheHit roster = .ok hit)
      (hroster : RosterOk serverId roster.body.userId roster)
    (hlater : ∀ old, run.policy.rosters.get? roster.body.accountId = some old →
      old.revision < roster.body.revision) : RosterInv mls serverId
      ⟨run.policy.withRoster mls roster, roster :: run.installed, roster :: run.accepted⟩ where
  valid := by
    intro other hother
    rcases mem_cons.mp hother with rfl | hother
    · exact hroster
    · exact h.valid hother
  accepted := by
    intro other hother
    rcases mem_cons.mp hother with rfl | hother
    · exact mem_cons_self
    · exact mem_cons_of_mem _ (h.accepted hother)
  history := h.history_insert hhit
  checkpoint := by
    intro account checkpoint hget
    simp only [withRoster, get?_insert] at hget
    split_ifs at hget with haccount
    · cases hget
      exact ⟨roster, mem_cons_self, haccount.symm, rfl⟩
    · obtain ⟨other, hother, htop⟩ := h.checkpoint hget
      exact ⟨other, mem_cons_of_mem _ hother, htop⟩
  below := by
    intro other hother
    simp only [withRoster, get?_insert]
    rcases mem_cons.mp hother with rfl | hother
    · exact ⟨_, if_pos rfl, le_rfl⟩
    obtain ⟨checkpoint, hget, hle⟩ := h.below hother
    split_ifs with haccount
    · rw [haccount] at hget
      exact ⟨_, rfl, hle.trans (hlater checkpoint hget).le⟩
    · exact ⟨checkpoint, hget, hle⟩
  device := by
    intro client device
    rw [show (run.policy.withRoster mls roster).devices =
      certify run.policy.devices roster.body from rfl, h.device_certify hroster]
    refine exists_congr fun other => ?_
    rw [← h.current_iff hlater, and_assoc]
    rfl
  recorded := h.recorded_remember hroster (List.Subset.refl _)

lemma next {call : RosterCall} {run' : RosterRun} (hnext : run.next mls serverId call = some run') :
    RosterInv mls serverId run' := by
  cases call with
  | install roster =>
    simp only [RosterRun.next, rosterCall] at hnext
    cases hcall : run.policy.installRoster mls serverId roster with
    | error error =>
      rw [hcall] at hnext
      cases hnext
      exact h
    | ok policy =>
      rw [hcall] at hnext
      cases hnext
      obtain ⟨hhit, ⟨rfl, hcurrent⟩ | ⟨rfl, hroster, -, hlater⟩⟩ := installRoster_cases hcall
      · exact h.reinstall (h.mem_of_checkpoint hhit hcurrent)
      · exact h.install hhit hroster hlater
  | installHistorical roster =>
    simp only [RosterRun.next, rosterCall] at hnext
    by_cases henters : run.policy.EntersLoop mls serverId roster
    · have hroster := validateDeviceRoster_eq_ok henters.2.1
      have hrecord := h.record hroster
        (takeWhile_subset (agrees run.policy.historicalDevices))
      rw [(installHistoricalRoster_loop henters).2] at hnext
      split_ifs at hnext
      · cases hnext
        exact hrecord.archive ⟨false, henters.1⟩
      · cases hnext
        exact hrecord
    · obtain ⟨hsame, hok⟩ := installHistoricalRoster_of_not henters
      cases hcall : run.policy.installHistoricalRoster mls serverId roster with
      | mk policy answer =>
        rw [hcall] at hnext hsame hok
        cases answer with
        | error error =>
          cases hnext
          cases hsame
          exact h
        | ok u =>
          cases hnext
          cases hsame
          exact h.accept (hok rfl)

/-- A device a roster contradicts is one of an account with a user. -/
lemma indexed_of_disagrees (hroster : RosterOk serverId roster.body.userId roster)
    (huser : ∀ user, run.policy.accountUsers.get? roster.body.accountId = some user →
      user = roster.body.userId) {certificate : SignedDeviceCertificate}
    (hmem : certificate ∈ roster.body.activeDevices)
    (hdiffers : agrees run.policy.historicalDevices certificate = false) :
    run.policy.accountUsers.insert roster.body.accountId roster.body.userId =
      run.policy.accountUsers := by
  unfold agrees at hdiffers
  cases hget : run.policy.historicalDevices.get? certificate.body.mlsClientId with
  | none =>
    rw [hget] at hdiffers
    cases hdiffers
  | some device =>
    obtain ⟨hindexed, hclient⟩ := h.recorded hget
    have haccount := (mlsClientId_inj hclient (hroster.certificate hmem).client_eq).1
    rw [haccount] at hindexed
    obtain ⟨user, hindexed⟩ := isSome_iff_exists.mp hindexed
    rw [huser user hindexed] at hindexed
    exact insert_eq_self hindexed

/-- An answer that is an error leaves the state as it was exactly for undivided calls. -/
lemma error_unchanged_iff (call : RosterCall) :
    (∀ error, (run.policy.rosterCall mls serverId call).2 = .error error →
      (run.policy.rosterCall mls serverId call).1 = run.policy) ↔
    run.policy.Undivided mls serverId call := by
  cases call with
  | install roster =>
    simp only [rosterCall, Undivided, iff_true]
    intro error herror
    split at herror
    · rfl
    · cases herror
  | installHistorical roster =>
    simp only [rosterCall, Undivided]
    by_cases henters : run.policy.EntersLoop mls serverId roster
    · obtain ⟨huser, hloop⟩ := installHistoricalRoster_loop henters
      have hroster := validateDeviceRoster_eq_ok henters.2.1
      rw [hloop]
      by_cases hall : roster.body.activeDevices.all (agrees run.policy.historicalDevices) = true
      · -- every certificate agrees, so the answer is no error
        rw [List.all_eq_true] at hall
        simp only [List.all_eq_true, if_pos hall]
        refine iff_of_true (fun _ h => (by cases h)) ?_
        rintro - ⟨certificate, hmem, hdiffers⟩
        rw [hall certificate hmem] at hdiffers
        cases hdiffers
      · have hsome : ∃ certificate ∈ roster.body.activeDevices,
            agrees run.policy.historicalDevices certificate = false := by
          simpa using hall
        obtain ⟨certificate, hmem, hdiffers⟩ := hsome
        have hindexed := h.indexed_of_disagrees hroster huser hmem hdiffers
        simp only [if_neg hall, hindexed]
        rw [← rememberDevices_eq_self]
        constructor
        · intro hunchanged _ _
          exact congrArg PolicyState.historicalDevices (hunchanged _ rfl)
        · intro hundivided error _
          rw [hundivided henters ⟨certificate, hmem, hdiffers⟩]
    · exact iff_of_true (fun _ _ => (installHistoricalRoster_of_not henters).1)
        (fun h => absurd h henters)

/-- Another form of an accepted revision is refused by both calls. -/
lemma second_form_refused (hmem : roster ∈ run.accepted) {call : RosterCall}
      (hne : call.roster ≠ roster)
    (haccount : call.roster.body.accountId = roster.body.accountId)
    (hrevision : call.roster.body.revision = roster.body.revision) :
    (run.policy.rosterCall mls serverId call).2 =
      .error "invalid device roster: historical device roster revision equivocates" := by
  have hold := h.history hmem
  rw [← haccount, ← hrevision] at hold
  have hhit := cacheHit_of_ne hold fun heq => hne heq.symm
  cases call with
  | install other =>
    have hinstall : run.policy.installRoster mls serverId other =
        .error "invalid device roster: historical device roster revision equivocates" := by
      simp only [RosterCall.roster] at hhit
      simp [installRoster, rosterIsCurrent, hhit, bind, Except.bind]
    simp [rosterCall, hinstall]
  | installHistorical other =>
    simp only [RosterCall.roster] at hhit
    simp [rosterCall, installHistoricalRoster, hhit]

lemma certificateFor_iff {client key : Bytes} :
    run.policy.certificateFor false client key = .ok device ↔
      ∃ roster, run.Highest roster ∧ ∃ certificate ∈ roster.body.activeDevices,
      certificate.body.mlsClientId = client ∧
        certificate.body.mlsSignaturePublicKey = key ∧ certifiedDevice certificate = device := by
  have hfind : run.policy.certificateFor false client key = .ok device ↔
      run.policy.devices.get? client = some device ∧ device.signatureKey = key := by
    simp only [certificateFor, bind_eq_ok, require_eq_ok, reject_eq_ok, pure_eq_ok, ne_eq, not_not,
      Bool.false_eq_true, if_false, Except.ok.injEq]
    constructor
    · rintro ⟨found, hget, -, hkey, rfl⟩
      exact ⟨hget, hkey.symm⟩
    · rintro ⟨hget, hkey⟩
      exact ⟨device, hget, (), hkey.symm, rfl⟩
  simp only [hfind, h.device, h.highest_iff]
  constructor
  · rintro ⟨⟨roster, hmem, hcurrent, certificate, hcertificate, hclient, rfl⟩, rfl⟩
    exact ⟨roster, ⟨hmem, hcurrent⟩, certificate, hcertificate, hclient, rfl, rfl⟩
  · rintro ⟨roster, ⟨hmem, hcurrent⟩, certificate, hcertificate, hclient, rfl, rfl⟩
    exact ⟨⟨roster, hmem, hcurrent, certificate, hcertificate, hclient, rfl⟩, rfl⟩

lemma isClientActive_iff {client : Bytes} : run.policy.isClientActive client = true ↔
      ∃ roster, run.Highest roster ∧ ∃ certificate ∈ roster.body.activeDevices,
      certificate.body.mlsClientId = client := by
  simp only [isClientActive, OrdMap.contains_iff, h.device, h.highest_iff]
  constructor
  · rintro ⟨device, roster, hmem, hcurrent, certificate, hcertificate, hclient, -⟩
    exact ⟨roster, ⟨hmem, hcurrent⟩, certificate, hcertificate, hclient⟩
  · rintro ⟨roster, ⟨hmem, hcurrent⟩, certificate, hcertificate, hclient⟩
    exact ⟨_, roster, hmem, hcurrent, certificate, hcertificate, hclient, rfl⟩

end

end RosterInv

/-! ## Any sequence of calls -/

/-- After any calls the provider accepts exactly the devices, with their keys, of the highest
revision installed for each account; it refuses a second form of a revision; and a call that
fails leaves it as it was exactly when the call is undivided. -/
theorem rosters_never_roll_back {mls : Mls} {serverId : Bytes} {run : RosterRun}
    (h : Reachable (RosterRun.next mls serverId) (fun _ _ => True) RosterRun.start run) :
    (∀ client key device, run.policy.certificateFor false client key = .ok device ↔
      ∃ roster, run.Highest roster ∧ ∃ certificate ∈ roster.body.activeDevices,
      certificate.body.mlsClientId = client ∧
        certificate.body.mlsSignaturePublicKey = key ∧ certifiedDevice certificate = device) ∧
    (∀ client, run.policy.isClientActive client = true ↔
      ∃ roster, run.Highest roster ∧ ∃ certificate ∈ roster.body.activeDevices,
      certificate.body.mlsClientId = client) ∧
    (∀ roster ∈ run.accepted, ∀ call : RosterCall, call.roster ≠ roster →
      call.roster.body.accountId = roster.body.accountId →
      call.roster.body.revision = roster.body.revision →
      (run.policy.rosterCall mls serverId call).2 =
        .error "invalid device roster: historical device roster revision equivocates") ∧
    ∀ call, (∀ error, (run.policy.rosterCall mls serverId call).2 = .error error →
      (run.policy.rosterCall mls serverId call).1 = run.policy) ↔
      run.policy.Undivided mls serverId call := by
  have hinv : RosterInv mls serverId run := h.invariant RosterInv.start fun hinv _ hnext =>
      hinv.next hnext
  exact ⟨fun _ _ _ => hinv.certificateFor_iff, fun _ => hinv.isClientActive_iff,
    fun _ hmem _ => hinv.second_form_refused hmem, hinv.error_unchanged_iff⟩

/-! ## A roster that fails halfway

One account certifies the second of two devices, and then both under a new key for the second.
-/

namespace RosterSample

/-- Hashes add bytes up, and a signature is the key twice. -/
def library : Mls where
  sha256 bytes := ByteArr.replicate 32 bytes.sum
  verifySignature key _ signature := signature = key.val ++ key.val
  encodeCertificateBody body := body.deviceId.val ++ body.mlsSignaturePublicKey
  encodeRosterBody body := leBytes 8 body.revision
  encodeRoster roster := leBytes 8 roster.body.revision ++ roster.authoritySignature

def authority : ByteArr 32 := ByteArr.replicate 32 7

def account : AccountId := accountId library [] 1 authority

def certificate (device key : Byte) : SignedDeviceCertificate where
  body := {
    userId := 1
    accountId := account
    authorityPublicKey := authority
    deviceId := ByteArr.replicate 16 device
    deviceName := "laptop"
    mlsClientId := clientIdLabel ++ [0, 0] ++ account.val ++ List.replicate 16 device
    mlsSignaturePublicKey := List.replicate 32 key }
  authoritySignature := authority.val ++ authority.val

def roster (revision : ℕ) (devices : List SignedDeviceCertificate) : SignedDeviceRoster where
  body := {
    userId := 1
    accountId := account
    authorityPublicKey := authority
    revision := revision
    activeDevices := devices }
  authoritySignature := authority.val ++ authority.val

def first : SignedDeviceRoster := roster 1 [certificate 2 20]

def second : SignedDeviceRoster := roster 2 [certificate 1 10, certificate 2 21]

/-- The provider after the first roster. -/
def run : RosterRun :=
  after (RosterRun.next library []) RosterRun.start [.install first, .installHistorical first]

end RosterSample

open RosterSample in
/-- The second roster is refused, and an observer then accepts a device that only it
certifies. -/
theorem refused_roster_leaves_device :
    (run.policy.rosterCall library [] (.installHistorical second)).2 =
      .error "invalid device roster: historical device credential equivocates" ∧
    (run.policy.rosterCall library [] (.installHistorical second)).1 ≠ run.policy ∧
    (run.policy.certificateFor true (certificate 1 10).body.mlsClientId
      (List.replicate 32 10)).isOk = false ∧
    ((run.policy.rosterCall library [] (.installHistorical second)).1.certificateFor true
      (certificate 1 10).body.mlsClientId (List.replicate 32 10)).isOk = true := by
  decide +kernel

open RosterSample in
theorem rosters_never_roll_back_sample :
    run.policy.isClientActive (certificate 2 20).body.mlsClientId = true ∧
    ¬ run.policy.Undivided library [] (.installHistorical second) := by
  have hreachable : Reachable (RosterRun.next library []) (fun _ _ => True) RosterRun.start run :=
    reachable_after (by decide +kernel)
  obtain ⟨-, hactive, -, herror⟩ := rosters_never_roll_back hreachable
  constructor
  · exact (hactive _).mpr ⟨first, by decide +kernel, certificate 2 20, by decide +kernel, rfl⟩
  intro hundivided
  have hrefused : (run.policy.rosterCall library [] (.installHistorical second)).2 =
      .error "invalid device roster: historical device credential equivocates" := by
    decide +kernel
  have hchanged : (run.policy.rosterCall library [] (.installHistorical second)).1 ≠
      run.policy := by
    decide +kernel
  exact hchanged ((herror (.installHistorical second)).mpr hundivided _ hrefused)

end Chatt
