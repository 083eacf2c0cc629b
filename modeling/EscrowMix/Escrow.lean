import EscrowMix.Coin
import EscrowMix.Role

/-!
The record of an escrow: the deposit of each role, which deposits can be taken back without the
others, and the distribution transaction with its signatures. A deposit is recorded once for each
role and an output counts for one role only. The distribution is built in round 0 and gains one
signature in each later round. Once one is held no round is repeated or skipped. An empty record
counts no signature either, so the first distribution that it takes may be that of round 0 or that
of round 1.
-/

namespace EscrowMix

/-- An output that pays the escrow, with the script it was announced with. -/
structure Deposit where
  txid : Txid
  vout : UInt32
  script : Script
deriving DecidableEq

/-- The output that the deposit is. -/
def Deposit.outPoint (d : Deposit) : OutPoint := ⟨d.txid, d.vout⟩

instance : Codec Deposit where
  encode d := Codec.encode d.txid ++ Codec.encode d.vout ++ Codec.encode d.script
  size d := Codec.size d.txid + Codec.size d.vout + Codec.size d.script
  read := do return ⟨← Codec.read, ← Codec.read, ← Codec.read⟩

namespace Escrow

/-- The signatures that spend an escrow: two of three. -/
def signatureThreshold : UInt8 := 2

/-- How a record can be misused. -/
inductive Error where
  /-- The role already has a deposit. -/
  | duplicateDeposit (role : Role)
  /-- The output announced for a role is the deposit of `holder`. -/
  | duplicateOutPoint (role holder : Role)
  /-- The role has no deposit. -/
  | missingDeposit (role : Role)
  /-- No distribution has been built. -/
  | noCandidate
  /-- A distribution with fewer signatures, or the same round again. -/
  | staleRound (current given : UInt8)
  /-- A distribution that skips a round. -/
  | skippedRound (current given : UInt8)
  /-- More signatures than the escrow asks for. -/
  | thresholdExceeded (given : UInt8)
deriving DecidableEq

/-- The wording of a misuse. -/
def Error.message : Error → String
  | duplicateDeposit role => "A deposit is already recorded for " ++ role.name
  | duplicateOutPoint role holder =>
    "Deposit of " ++ role.name ++ " spends the output already announced by " ++ holder.name
  | missingDeposit role => "No deposit recorded for " ++ role.name
  | noCandidate => "No distribution transaction yet"
  | staleRound current given =>
    "Stale distribution transaction: " ++ toString given.toNat ++ " signature(s) while holding "
      ++ toString current.toNat
  | skippedRound current given =>
    "Distribution transaction skips rounds: " ++ toString given.toNat
      ++ " signature(s) while holding " ++ toString current.toNat
  | thresholdExceeded given => toString given.toNat ++ " signatures exceed the escrow threshold"

/-- The deposits and the distribution of a session. -/
structure Record where
  /-- The distribution transaction, once built. -/
  candidate : Option Bytes
  /-- The signatures it carries. -/
  signedCount : UInt8
  deposits : RoleMap (Option Deposit)
  /-- The deposits with a way back that needs no other party. -/
  reclaimable : RoleMap Bool
deriving DecidableEq

namespace Record

/-- No deposit and no distribution. -/
def empty : Record := ⟨none, 0, .replicate none, .replicate false⟩

/-- The deposit of a role. -/
def deposit (r : Record) (role : Role) : Option Deposit := r.deposits.get role

/-- The first role, in signing order, whose deposit is the given output. -/
def holder? (r : Record) (o : OutPoint) : Option Role :=
  Role.all.find? fun role => (r.deposit role).any (·.outPoint = o)

/-- Whether a deposit may be recorded: the role has none and no role holds the output. -/
def checkDeposit (r : Record) (role : Role) (d : Deposit) : Except Error Unit :=
  if (r.deposit role).isSome then .error (.duplicateDeposit role)
  else
    match r.holder? d.outPoint with
    | some holder => .error (.duplicateOutPoint role holder)
    | none => .ok ()

/-- Records the deposit of a role. -/
def recordDeposit (r : Record) (role : Role) (d : Deposit) : Except Error Record := do
  r.checkDeposit role d
  return { r with deposits := r.deposits.set role (some d) }

/-- All three deposits, once recorded. -/
def allDeposits (r : Record) : Option (RoleMap Deposit) := r.deposits.sequence

/-- Every role has a deposit. -/
def hasAllDeposits (r : Record) : Bool := r.deposits.all Option.isSome

/-- Some role has a deposit. -/
def hasAnyDeposit (r : Record) : Bool := r.deposits.any Option.isSome

/-- Whether a distribution with `count` signatures may be taken: at most two, and one more than are
counted. While no distribution is held, as many as are counted will do too, so an empty record takes
none or one. -/
def checkCandidate (r : Record) (count : UInt8) : Except Error Unit :=
  if signatureThreshold < count then .error (.thresholdExceeded count)
  else if count < r.signedCount ∨ (count = r.signedCount ∧ r.candidate.isSome) then
    .error (.staleRound r.signedCount count)
  else if r.signedCount.toNat + 1 < count.toNat then .error (.skippedRound r.signedCount count)
  else .ok ()

/-- Takes the distribution of the next round. -/
def setCandidate (r : Record) (tx : Bytes) (count : UInt8) : Except Error Record := do
  r.checkCandidate count
  return { r with candidate := some tx, signedCount := count }

/-- The distribution can be broadcast. -/
def isFullySigned (r : Record) : Bool :=
  r.candidate.isSome && r.signedCount == signatureThreshold

/-- Notes that the deposit of a role can be taken back without the other parties. -/
def markReclaimable (r : Record) (role : Role) : Except Error Record :=
  if (r.deposit role).isSome then .ok { r with reclaimable := r.reclaimable.set role true }
  else .error (.missingDeposit role)

/-- The roles with a deposit and no way back, in signing order. -/
def unreclaimed (r : Record) : List Role :=
  Role.all.filter fun role => (r.deposit role).isSome && !r.reclaimable.get role

/-- More signatures than the escrow asks for were written down. -/
def excessSignatures : Codec.Error := .malformed "signature count above threshold"

instance : Codec Record where
  encode r := Codec.encode r.candidate ++ Codec.encode r.signedCount ++ Codec.encode r.deposits
    ++ Codec.encode r.reclaimable
  size r := Codec.size r.candidate + Codec.size r.signedCount + Codec.size r.deposits
    + Codec.size r.reclaimable
  read := do
    let r : Record := ⟨← Codec.read, ← Codec.read, ← Codec.read, ← Codec.read⟩
    if signatureThreshold < r.signedCount then Codec.fail excessSignatures
    return r

end Record

end Escrow

end EscrowMix
