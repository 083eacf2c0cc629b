import EscrowMix.Schedule

/-!
The parameters of a node, and the offers that a node with such parameters accepts.
-/

namespace EscrowMix

/-- What can be wrong with parameters or with an offer. -/
inductive Config.Error where
  /-- A fee rate of more than a whole. -/
  | feeRateTooHigh (bps : UInt16)
  /-- Deposits would count without a confirmation. -/
  | noConfirmation
  /-- The fee offered for the role is below this node's minimum. -/
  | feeBelowMinimum (role : Role) (offered minimum : UInt16)
  /-- The network fee offered is below this node's minimum. -/
  | networkFeeTooLow (offered minimum : Amount)
deriving DecidableEq

/-- The wording of a fault. -/
def Config.Error.message : Config.Error → String
  | feeRateTooHigh bps => "Fee rate of " ++ toString bps.toNat ++ " bps exceeds 100%"
  | noConfirmation => "At least one confirmation is required"
  | feeBelowMinimum role offered minimum =>
    role.name ++ " fee of " ++ toString offered.toNat ++ " bps offered, "
      ++ toString minimum.toNat ++ " bps required"
  | networkFeeTooLow offered minimum =>
    "Network fee of " ++ toString offered.toNat ++ " sat per party offered, "
      ++ toString minimum.toNat ++ " sat required"

/-- The parameters of a node. -/
structure Config where
  /-- Confirmations that a deposit needs. -/
  minConfirmations : UInt32
  /-- The network fee that each escrow input adds. -/
  feePerParty : Amount
  /-- The Mixer's share, in basis points. -/
  mixerBps : UInt16
  /-- The Guarantor's share, in basis points. -/
  guarantorBps : UInt16
  /-- Seconds without activity after which a session is swept. -/
  maxIdleSecs : UInt64
deriving DecidableEq

namespace Config

/-- The parameters of a node that was given none. -/
def standard : Config := ⟨1, ⟨10000⟩, 50, 25, 600⟩

/-- A rate of at most a whole. -/
def checkRate (bps : UInt16) : Except Error Unit :=
  if FeePolicy.bpsDenominator < bps.toNat then .error (.feeRateTooHigh bps) else .ok ()

/-- Whether a node may run with the parameters. -/
def validate (c : Config) : Except Error Unit := do
  checkRate c.mixerBps
  checkRate c.guarantorBps
  if c.minConfirmations = 0 then .error .noConfirmation else .ok ()

/-- Whether this node accepts the fees that a Sender offers to it in a role. Its own rates are the
least it accepts; the Sender offers nothing to itself. -/
def checkOffer (c : Config) (role : Role) (offered : FeePolicy) : Except Error Unit := do
  checkRate offered.mixerBps
  checkRate offered.guarantorBps
  let accept (given least : UInt16) : Except Error Unit :=
    if given < least then .error (.feeBelowMinimum role given least)
    else if offered.feePerParty.toNat < c.feePerParty.toNat then
      .error (.networkFeeTooLow offered.feePerParty c.feePerParty)
    else .ok ()
  match role with
  | .sender => .ok ()
  | .mixer => accept offered.mixerBps c.mixerBps
  | .guarantor => accept offered.guarantorBps c.guarantorBps

/-- The fees that this node offers as a Sender. -/
def feePolicy (c : Config) : FeePolicy := ⟨c.feePerParty, c.mixerBps, c.guarantorBps⟩

end Config

end EscrowMix
