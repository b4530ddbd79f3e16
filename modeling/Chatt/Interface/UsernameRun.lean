import Chatt.Lib.Run
import Chatt.Model.Usernames

/-!
# Runs of the username registry

Configured users are given names, dynamic users claim and change theirs, and any of it may be
refused.  A claim with a log is written first and installed in memory later; no other name is
changed in between.  `claims` is the records that were written, and no step reads it.
-/

namespace Chatt.Usernames

open Lib

structure NameServer where
  configured : OrdMap UserId Name
  registry : Registry
  log : Bytes
  /-- written, and not yet in memory -/
  pending : Option ClaimRecord
  claims : List ClaimRecord
  deriving DecidableEq

inductive NameAction where
  /-- a configured user is paired or renamed -/
  | setExplicit (userId : UserId) (name : Name)
  | claimDynamic (userId : UserId) (name : Name)
  /-- the claim is given to the identity writer -/
  | persist (userId : UserId) (name : Name)
  /-- the reply of the identity writer is handled -/
  | apply

namespace NameServer

variable (unicode : Unicode)

/-- The handlers check the name before they give it to `users.toml` and to the registry. -/
def setExplicit (s : NameServer) (userId : UserId) (name : Name) : NameServer :=
  if (validate unicode name).isOk ∧ s.registry.isAvailable unicode (trim name) (some userId) then
    { s with
      configured := s.configured.insert userId (trim name)
      registry := s.registry.setExplicit unicode userId (trim name) }
  else s

def claimDynamic (s : NameServer) (userId : UserId) (name : Name) : NameServer :=
  match s.registry.claimDynamic unicode s.log userId name with
  | .ok (registry, log) =>
    { s with
      registry, log
      claims := if log = s.log then s.claims else s.claims ++ [⟨userId, trim name⟩] }
  | .error _ => s

/-- The handlers check the name, and that it is a new one. -/
def persist (s : NameServer) (userId : UserId) (name : Name) : NameServer :=
  if (validate unicode name).isOk ∧ s.registry.isAvailable unicode (trim name) (some userId) ∧
      s.registry.needsDynamicClaim userId (trim name) then
    match persistDynamicClaim s.log userId (trim name) with
    | .ok log =>
      { s with
        log
        pending := some ⟨userId, trim name⟩
        claims := s.claims ++ [⟨userId, trim name⟩] }
    | .error _ => s
  else s

def apply (s : NameServer) (claim : ClaimRecord) : NameServer :=
  match s.registry.applyDynamicClaim unicode claim.userId claim.name with
  | .ok registry => { s with registry, pending := none }
  | .error _ => { s with pending := none }

def next (s : NameServer) : NameAction → Option NameServer
  | .setExplicit userId name =>
    if s.pending = none then some (s.setExplicit unicode userId name) else none
  | .claimDynamic userId name =>
    if s.pending = none then some (s.claimDynamic unicode userId name) else none
  | .persist userId name =>
    if s.pending = none then some (s.persist unicode userId name) else none
  | .apply => s.pending.map (s.apply unicode)

/-- What is in memory once the pending claim is. -/
def settled (s : NameServer) : Registry :=
  match s.pending with
  | some claim => s.registry.setInMemory unicode claim.userId claim.name
  | none => s.registry

end NameServer

/-- The ids of configured users are below those of dynamic users, which fit `u64`. -/
def NameAction.Ok : NameAction → Prop
  | .setExplicit userId _ => userId < firstDynamicUserId
  | .claimDynamic userId _ | .persist userId _ => userId < 2 ^ 64
  | .apply => True

instance decidableOk (action : NameAction) : Decidable action.Ok := by
  cases action <;> dsimp only [NameAction.Ok] <;> infer_instance

/-! ## What the registry says -/

section

variable (unicode : Unicode)

/-- The two maps are inverse to each other: a folded name has the owner whose name it is. -/
def Registry.Inverse (registry : Registry) : Prop :=
  ∀ key userId, registry.byFolded.get? key = some userId ↔
    ∃ name, registry.byUser.get? userId = some name ∧ fold unicode name = key

/-- The last name the user claimed. -/
def lastClaim (claims : List ClaimRecord) (userId : UserId) : Option Name :=
  OrdMap.lastWrite ClaimRecord.userId ClaimRecord.name claims userId

/-- The state after the claims: the names of the configured users, and the last name of each
user that made a claim. -/
structure Registry.Holds (registry : Registry) (configured : OrdMap UserId Name)
    (claims : List ClaimRecord) : Prop where
  inverse : registry.Inverse unicode
  names : ∀ userId, registry.byUser.get? userId =
    (lastClaim claims userId).or (configured.get? userId)

/-- A dynamic user holds the name after the claims, and a configured user has it too. -/
def Clashing (configured : OrdMap UserId Name) (claims : List ClaimRecord) (name' : Name) : Prop :=
  ∃ userId name userId', configured.get? userId = some name ∧
    lastClaim claims userId' = some name' ∧ fold unicode name = fold unicode name'

/-- A configured user has a name that a dynamic user holds after the claims. -/
def Clash (configured : OrdMap UserId Name) (claims : List ClaimRecord) : Prop :=
  ∃ name', Clashing unicode configured claims name'

/-- What `UserStore::validate` has checked of the configured users. -/
structure UsersOk (configured : OrdMap UserId Name) : Prop where
  explicit : ∀ userId name, configured.get? userId = some name → userId < firstDynamicUserId
  valid : ∀ userId name, configured.get? userId = some name → (validate unicode name).isOk
  unique : ∀ userId name userId' name', configured.get? userId = some name →
    configured.get? userId' = some name' → fold unicode name = fold unicode name' →
    userId = userId'

/-- A server that is opened for the first time. -/
def NameServer.Started (path : String) (s : NameServer) : Prop :=
  UsersOk unicode s.configured ∧ Registry.openRegistry unicode path s.configured [] =
    .ok s.registry ∧
    s.log = [] ∧ s.pending = none ∧ s.claims = []

end

end Chatt.Usernames
