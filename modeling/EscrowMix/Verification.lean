import EscrowMix.Escrow
import EscrowMix.Ledger

/-!
The check of the deposits against the chain. A plan is fixed while the session is locked and run
afterwards; it asks deposit after deposit and stops at the first that fails its check, or at the
first question that fails.
-/

namespace EscrowMix

/-- Why a deposit does not secure its share of the escrow. -/
inductive EscrowFailure where
  /-- Too few confirmations so far. -/
  | insufficientConfirmations (role : Role) (confirmations required : UInt32)
  /-- The output does not exist or is spent. -/
  | missingOutput (role : Role)
  /-- The output has another script than the one announced. -/
  | scriptMismatch (role : Role)
  /-- The output is worth less than the share of the role. -/
  | underpaid (role : Role) (required actual : Amount)
  /-- The output does not pay the escrow address. -/
  | wrongAddress (role : Role)
  /-- The output already is the deposit of `holder`. -/
  | sharedOutput (role holder : Role)
deriving DecidableEq

namespace EscrowFailure

/-- The role whose deposit failed. -/
def role : EscrowFailure → Role
  | insufficientConfirmations role _ _ => role
  | missingOutput role => role
  | scriptMismatch role => role
  | underpaid role _ _ => role
  | wrongAddress role => role
  | sharedOutput role _ => role

/-- The wording of a failure. -/
def message : EscrowFailure → String
  | insufficientConfirmations role confirmations required =>
    "Deposit of " ++ role.name ++ " has " ++ toString confirmations.toNat ++ " confirmation(s), "
      ++ toString required.toNat ++ " required"
  | missingOutput role => "Deposit output of " ++ role.name ++ " not found"
  | scriptMismatch role =>
    "Deposit of " ++ role.name ++ " does not match the announced locking script"
  | underpaid role required actual =>
    "Deposit of " ++ role.name ++ " is underpaid: " ++ actual.text ++ " sat, " ++ required.text
      ++ " sat required"
  | wrongAddress role => "Deposit of " ++ role.name ++ " does not pay the escrow address"
  | sharedOutput role holder =>
    "Deposit of " ++ role.name ++ " is the output already funding " ++ holder.name

/-- A tag for the kind of failure, then its fields. -/
instance : Codec EscrowFailure where
  encode
    | insufficientConfirmations role confirmations required =>
      Codec.encode (1 : UInt8) ++ Codec.encode role ++ Codec.encode confirmations
        ++ Codec.encode required
    | missingOutput role => Codec.encode (2 : UInt8) ++ Codec.encode role
    | scriptMismatch role => Codec.encode (3 : UInt8) ++ Codec.encode role
    | underpaid role required actual =>
      Codec.encode (4 : UInt8) ++ Codec.encode role ++ Codec.encode required
        ++ Codec.encode actual
    | wrongAddress role => Codec.encode (5 : UInt8) ++ Codec.encode role
    | sharedOutput role holder =>
      Codec.encode (6 : UInt8) ++ Codec.encode role ++ Codec.encode holder
  size
    | insufficientConfirmations role confirmations required =>
      Codec.size (1 : UInt8) + Codec.size role + Codec.size confirmations + Codec.size required
    | missingOutput role => Codec.size (2 : UInt8) + Codec.size role
    | scriptMismatch role => Codec.size (3 : UInt8) + Codec.size role
    | underpaid role required actual =>
      Codec.size (4 : UInt8) + Codec.size role + Codec.size required + Codec.size actual
    | wrongAddress role => Codec.size (5 : UInt8) + Codec.size role
    | sharedOutput role holder =>
      Codec.size (6 : UInt8) + Codec.size role + Codec.size holder
  read := do
    match (← Codec.read : UInt8) with
    | 1 => return insufficientConfirmations (← Codec.read) (← Codec.read) (← Codec.read)
    | 2 => return missingOutput (← Codec.read)
    | 3 => return scriptMismatch (← Codec.read)
    | 4 => return underpaid (← Codec.read) (← Codec.read) (← Codec.read)
    | 5 => return wrongAddress (← Codec.read)
    | 6 => return sharedOutput (← Codec.read) (← Codec.read)
    | _ => Codec.fail .unknownTag

end EscrowFailure

/-- The outcome of a check that could be carried through. -/
inductive Verdict where
  | accepted
  | rejected (failure : EscrowFailure)
deriving DecidableEq

/-- A deposit and the amount it must be worth. -/
structure DepositCheck where
  role : Role
  deposit : Deposit
  required : Amount
deriving DecidableEq

/-- All that is needed to check the deposits of a session. -/
structure VerificationPlan where
  escrowAddress : Address
  minConfirmations : UInt32
  checks : List DepositCheck
deriving DecidableEq

namespace VerificationPlan

open Ledger

/-- Finds the first check whose output an earlier one has, given the earlier ones in order. -/
def findShared (earlier : List DepositCheck) : List DepositCheck → Option EscrowFailure
  | [] => none
  | check :: rest =>
    match earlier.find? (·.deposit.outPoint = check.deposit.outPoint) with
    | some other => some (.sharedOutput check.role other.role)
    | none => findShared (earlier ++ [check]) rest

/-- An output counts for one share only. -/
def sharedOutput? (plan : VerificationPlan) : Option EscrowFailure := findShared [] plan.checks

/-- Checks one deposit: confirmations, existence, script, amount, address. -/
def checkDeposit (plan : VerificationPlan) (check : DepositCheck) :
    Asking (Option EscrowFailure) := do
  let confirmed ← confirmations check.deposit.txid
  if confirmed < plan.minConfirmations then
    return some (.insufficientConfirmations check.role confirmed plan.minConfirmations)
  match ← output check.deposit.outPoint with
  | none => return some (.missingOutput check.role)
  | some found =>
    if found.script ≠ check.deposit.script then
      return some (.scriptMismatch check.role)
    else if found.amount.toNat < check.required.toNat then
      return some (.underpaid check.role check.required found.amount)
    else if ← isConfirmedPaying check.deposit.outPoint plan.escrowAddress check.required then
      return none
    else
      return some (.wrongAddress check.role)

/-- Checks deposits in order, up to the first that fails. -/
def checkAll (plan : VerificationPlan) : List DepositCheck → Asking Verdict
  | [] => return .accepted
  | check :: rest => do
    match ← plan.checkDeposit check with
    | some failure => return .rejected failure
    | none => plan.checkAll rest

/-- The whole check; nothing is asked when two deposits share an output. -/
def run (plan : VerificationPlan) : Asking Verdict :=
  match plan.sharedOutput? with
  | some failure => return .rejected failure
  | none => plan.checkAll plan.checks

end VerificationPlan

end EscrowMix
