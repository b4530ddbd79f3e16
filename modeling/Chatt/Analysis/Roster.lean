import Chatt.Model.Identity

/-!
# What an accepted roster promises

The facts the checks of `validateDeviceRoster` establish, and that a client id names one
device of one account.
-/

namespace Chatt

open Chatt.Lib List

variable {serverId : Bytes} {user : UserId} {mls : Mls}

/-! ## Client ids -/

lemma mlsClientId_eq_ok {account : AccountId} {device : DeviceId} {clientId : Bytes}
      (h : mlsClientId serverId account device = .ok clientId) :
    clientId = clientIdLabel ++ (leBytes 2 serverId.length).reverse ++ serverId ++ account.val ++
      device.val := by
  obtain ⟨-, -, h⟩ := bind_eq_ok.mp h
  obtain ⟨-, -, h⟩ := bind_eq_ok.mp h
  cases h
  rfl

/-- A client id names its account and its device. -/
lemma mlsClientId_inj {account account' : AccountId} {device device' : DeviceId} {clientId : Bytes}
      (h : mlsClientId serverId account device = .ok clientId)
    (h' : mlsClientId serverId account' device' = .ok clientId) :
    account = account' ∧ device = device' := by
  have heq := (mlsClientId_eq_ok h).symm.trans (mlsClientId_eq_ok h')
  obtain ⟨hfront, hdevice⟩ := append_inj' heq (device.2.trans device'.2.symm)
  obtain ⟨_, haccount⟩ := append_inj' hfront (account.2.trans account'.2.symm)
  exact ⟨Subtype.ext haccount, Subtype.ext hdevice⟩

/-! ## Rosters -/

/-- A certificate of an accepted roster. -/
structure CertificateOk (serverId : Bytes) (user : UserId) (account : AccountId)
    (certificate : SignedDeviceCertificate) : Prop where
  user_eq : certificate.body.userId = user
  account_eq : certificate.body.accountId = account
  client_eq : mlsClientId serverId account certificate.body.deviceId =
    .ok certificate.body.mlsClientId

structure RosterOk (serverId : Bytes) (user : UserId) (roster : SignedDeviceRoster) : Prop where
  user_eq : roster.body.userId = user
  revision_pos : 0 < roster.body.revision
  devices_ne : roster.body.activeDevices ≠ []
  certificate : ∀ {certificate}, certificate ∈ roster.body.activeDevices →
    CertificateOk serverId user roster.body.accountId certificate
  clients_nodup : (roster.body.activeDevices.map (·.body.mlsClientId)).Nodup

lemma validateDeviceCertificate_eq_ok {certificate : SignedDeviceCertificate} {account : AccountId}
      {key : ByteArr 32}
    (h : validateDeviceCertificate mls certificate serverId user account key = .ok ()) :
    CertificateOk serverId user account certificate := by
  obtain ⟨_, hcontext, h⟩ := bind_eq_ok.mp h
  obtain ⟨-, -, h⟩ := bind_eq_ok.mp h
  obtain ⟨-, -, h⟩ := bind_eq_ok.mp h
  obtain ⟨clientId, hclient, h⟩ := bind_eq_ok.mp h
  obtain ⟨_, heq, -⟩ := bind_eq_ok.mp h
  rw [reject_eq_ok] at hcontext heq
  simp only [not_or, ne_eq, not_not] at hcontext heq
  exact ⟨hcontext.1, hcontext.2.1, heq ▸ hclient⟩

/-- The loop over the certificates, by induction on those that remain. -/
lemma validateRosterDevices_eq_ok {body : DeviceRosterBody}
      {passed rest : List SignedDeviceCertificate}
    (h : validateRosterDevices mls serverId body passed rest = .ok ())
    (hpassed : (passed.map (·.body.mlsClientId)).Nodup) :
    (∀ certificate ∈ rest, CertificateOk serverId body.userId body.accountId certificate) ∧
    ((passed ++ rest).map (·.body.mlsClientId)).Nodup := by
  induction rest generalizing passed with
  | nil => simpa using hpassed
  | cons certificate rest ih =>
    obtain ⟨_, hcertificate, h⟩ := bind_eq_ok.mp h
    obtain ⟨-, -, h⟩ := bind_eq_ok.mp h
    obtain ⟨_, hclient, h⟩ := bind_eq_ok.mp h
    obtain ⟨-, -, h⟩ := bind_eq_ok.mp h
    rw [reject_eq_ok] at hclient
    have hnext : ((passed ++ [certificate]).map (·.body.mlsClientId)).Nodup := by
      rw [map_append, map_singleton]
      exact nodup_append.mpr ⟨hpassed, nodup_singleton _, fun a ha b hb hab =>
        hclient (mem_singleton.mp hb ▸ hab ▸ ha)⟩
    obtain ⟨hrest, hnodup⟩ := ih h hnext
    refine ⟨?_, by simpa using hnodup⟩
    exact forall_mem_cons.mpr ⟨validateDeviceCertificate_eq_ok hcertificate, hrest⟩

lemma validateDeviceRoster_eq_ok {roster : SignedDeviceRoster}
    (h : validateDeviceRoster mls roster serverId user = .ok ()) :
    RosterOk serverId user roster := by
  obtain ⟨_, huser, h⟩ := bind_eq_ok.mp h
  obtain ⟨-, -, h⟩ := bind_eq_ok.mp h
  obtain ⟨_, hrevision, h⟩ := bind_eq_ok.mp h
  obtain ⟨_, hcount, h⟩ := bind_eq_ok.mp h
  obtain ⟨_, hdevices, -⟩ := bind_eq_ok.mp h
  rw [reject_eq_ok] at huser hrevision hcount
  rw [not_or] at hcount
  obtain ⟨hcertificates, hnodup⟩ := validateRosterDevices_eq_ok hdevices nodup_nil
  have huser : roster.body.userId = user := not_not.mp huser
  exact ⟨huser, Nat.pos_of_ne_zero hrevision, hcount.1, fun hmem =>
    huser ▸ hcertificates _ hmem, hnodup⟩

/-! ## Installing rosters -/

open OrdMap

section Install

variable {p : PolicyState} {roster : SignedDeviceRoster}

/-- The index of accounts after it has passed an account and its user. -/
lemma indexAccountUser_eq_ok {account : AccountId} {indexed : PolicyState}
      (h : p.indexAccountUser account user = .ok indexed) :
    (∀ existing, p.accountUsers.get? account = some existing → existing = user) ∧
    indexed = { p with accountUsers := p.accountUsers.insert account user } := by
  unfold PolicyState.indexAccountUser at h
  cases hget : p.accountUsers.get? account with
  | none =>
    rw [hget] at h
    cases h
    exact ⟨nofun, rfl⟩
  | some existing =>
    rw [hget] at h
    simp only at h
    split_ifs at h with hne
    cases h
    rw [ne_eq, not_not] at hne
    subst hne
    exact ⟨fun _ hsame => (Option.some.inj hsame).symm, by rw [insert_eq_self hget]⟩

lemma get?_certify {devices : OrdMap Bytes CertifiedDevice} {body : DeviceRosterBody}
    (client : Bytes) : (PolicyState.certify devices body).get? client =
      (OrdMap.lastWrite (fun certificate : SignedDeviceCertificate => certificate.body.mlsClientId)
        PolicyState.certifiedDevice body.activeDevices client).or
      ((devices.get? client).filter fun device => device.accountId ≠ body.accountId) := by
  unfold PolicyState.certify
  rw [get?_foldl_insert (fun certificate : SignedDeviceCertificate =>
    certificate.body.mlsClientId) PolicyState.certifiedDevice, get?_retain]

/-- A client is certified by the roster of its account only. -/
lemma client_account {user' : UserId} {other : SignedDeviceRoster}
      (hroster : RosterOk serverId user roster)
    (hother : RosterOk serverId user' other) {certificate certificate' : SignedDeviceCertificate}
    (hmem : certificate ∈ roster.body.activeDevices)
    (hmem' : certificate' ∈ other.body.activeDevices)
    (hclient : certificate.body.mlsClientId = certificate'.body.mlsClientId) :
    roster.body.accountId = other.body.accountId ∧
    certificate.body.deviceId = certificate'.body.deviceId :=
  mlsClientId_inj (hclient ▸ (hroster.certificate hmem).client_eq)
    (hother.certificate hmem').client_eq

lemma lastWrite_certificate (hroster : RosterOk serverId user roster)
      {certificate : SignedDeviceCertificate} (hmem : certificate ∈ roster.body.activeDevices) :
    OrdMap.lastWrite (fun certificate : SignedDeviceCertificate => certificate.body.mlsClientId)
      PolicyState.certifiedDevice roster.body.activeDevices certificate.body.mlsClientId =
      some (PolicyState.certifiedDevice certificate) :=
  lastWrite_of_nodup _ hroster.clients_nodup hmem

end Install

end Chatt
