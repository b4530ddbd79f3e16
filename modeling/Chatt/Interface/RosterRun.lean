import Chatt.Lib.Run
import Chatt.Model.Identity

/-!
# Runs of roster installations

A provider that is handed rosters in any order, current ones through `install_roster` and
past ones through `install_historical_roster`, with the rosters each of the two accepted.
-/

namespace Chatt

open Chatt.Lib

inductive RosterCall where
  | install (roster : SignedDeviceRoster)
  | installHistorical (roster : SignedDeviceRoster)
  deriving DecidableEq

def RosterCall.roster : RosterCall → SignedDeviceRoster
  | .install roster => roster
  | .installHistorical roster => roster

/-- The state a call leaves and its answer.  `install_roster` makes its last check before its
first write. -/
def PolicyState.rosterCall (mls : Mls) (serverId : Bytes) (state : PolicyState) :
    RosterCall → PolicyState × Except String Unit
  | .install roster =>
    match state.installRoster mls serverId roster with
    | .error error => (state, .error error)
    | .ok state => (state, .ok ())
  | .installHistorical roster => state.installHistoricalRoster mls serverId roster

structure RosterRun where
  policy : PolicyState
  /-- the rosters `install_roster` has answered `Ok` to -/
  installed : List SignedDeviceRoster
  /-- the rosters either call has answered `Ok` to -/
  accepted : List SignedDeviceRoster
  deriving DecidableEq

namespace RosterRun

def start : RosterRun := ⟨PolicyState.empty, [], []⟩

def next (mls : Mls) (serverId : Bytes) (run : RosterRun) (call : RosterCall) : Option RosterRun :=
  match run.policy.rosterCall mls serverId call with
  | (policy, .error _) => some { run with policy }
  | (policy, .ok ()) =>
    match call with
    | .install roster => some ⟨policy, roster :: run.installed, roster :: run.accepted⟩
    | .installHistorical roster => some ⟨policy, run.installed, roster :: run.accepted⟩

/-- No roster installed for the account has a higher revision. -/
def Highest (run : RosterRun) (roster : SignedDeviceRoster) : Prop :=
  roster ∈ run.installed ∧ ∀ other ∈ run.installed,
    other.body.accountId = roster.body.accountId → other.body.revision ≤ roster.body.revision

instance decidableHighest (run : RosterRun) (roster : SignedDeviceRoster) :
    Decidable (run.Highest roster) :=
  inferInstanceAs (Decidable (_ ∧ _))

end RosterRun

/-! ## Calls that fail halfway -/

namespace PolicyState

/-- The historical device recorded for the client, if there is one, is the certified one. -/
def agrees (historical : OrdMap Bytes CertifiedDevice) (certificate : SignedDeviceCertificate) :
    Bool :=
  (historical.get? certificate.body.mlsClientId).all fun existing =>
    existing = certifiedDevice certificate

/-- Every check in front of the loop over the certificates passes. -/
def EntersLoop (mls : Mls) (serverId : Bytes) (state : PolicyState)
    (roster : SignedDeviceRoster) : Prop :=
  state.historicalRosterCacheHit roster = .ok false ∧
  validateDeviceRoster mls roster serverId roster.body.userId = .ok () ∧
  (state.indexAccountUser roster.body.accountId roster.body.userId).isOk = true

/-- A historical roster that contradicts a recorded credential has no new device in front of
the first certificate that does. -/
def Undivided (mls : Mls) (serverId : Bytes) (state : PolicyState) : RosterCall → Prop
  | .install _ => True
  | .installHistorical roster =>
    state.EntersLoop mls serverId roster →
    (∃ certificate ∈ roster.body.activeDevices,
    agrees state.historicalDevices certificate = false) →
    ∀ certificate ∈ roster.body.activeDevices.takeWhile (agrees state.historicalDevices),
      state.historicalDevices.contains certificate.body.mlsClientId = true

end PolicyState

end Chatt
