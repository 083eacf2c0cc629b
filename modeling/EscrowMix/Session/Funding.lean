import EscrowMix.Session.Basic

/-!
The transitions of the funding: deposits are recorded as they are made or announced, and checked
against the ledger once all three are there.
-/

namespace EscrowMix.Session

/-- Records a deposit and lets the status catch up. -/
def deposited (s : Session) (record : Escrow.Record) (event : String) (now : UInt64) : Session :=
  (({ s.logged now event with record := record }).promoted now).touched now

/-- The line that the own deposit leaves. -/
def ownDepositEvent (deposit : Deposit) : String := "own deposit " ++ deposit.outPoint.text

/-- Records the deposit that this node made. -/
def recordOwnDeposit (s : Session) (deposit : Deposit) (now : UInt64) : Except Error Session := do
  s.ensureIdle
  let role ← s.localRole
  let record ← (s.record.recordDeposit role deposit).mapError .escrow
  s.ensureStatus [.multisigAddr] .recordOwnDeposit
  return s.deposited record (ownDepositEvent deposit) now

/-- The line that another party's deposit leaves. -/
def learnedDepositEvent (role : Role) (deposit : Deposit) : String :=
  role.name ++ " deposit " ++ deposit.outPoint.text

/-- Records the deposit that another party announces, which may come before this node derived the
escrow itself. -/
def learnDeposit (s : Session) (role : Role) (deposit : Deposit) (now : UInt64) :
    Except Error Session := do
  s.ensureIdle
  s.ensurePeerRole role
  let record ← (s.record.recordDeposit role deposit).mapError .escrow
  s.ensureStatus [.reserved, .initData, .pubKey, .multisigAddr] .learnDeposit
  return s.deposited record (learnedDepositEvent role deposit) now

/-- The check of one role's deposit. -/
def depositCheck (s : Session) (role : Role) : Except Error DepositCheck :=
  match s.record.deposit role with
  | none => .error (.escrow (.missingDeposit role))
  | some deposit => do
    let required ← (s.fees.requiredCoins role s.schedule).mapError .schedule
    return ⟨role, deposit, required⟩

/-- Claims the check of the three deposits. -/
def claimVerification (s : Session) (minConfirmations : UInt32) :
    Except Error ((Ticket × VerificationPlan) × Session) := do
  s.ensureIdle
  s.ensureStatus [.depositsObserved] .verifyDeposits
  match s.escrow with
  | none => throw (.outOfOrder s.status .verifyDeposits)
  | some escrow =>
    let checks ← Role.all.mapM s.depositCheck
    let (ticket, s) := s.claim .verifyDeposits
    return ((ticket, ⟨escrow.address, minConfirmations, checks⟩), s)

/-- The line that a passed check of the deposits leaves. -/
def verifiedEvent : String := "deposits verified"

/-- The line that a failed check of the deposits leaves. -/
def rejectedEvent (failure : EscrowFailure) : String :=
  "deposit verification failed: " ++ failure.message

/-- Takes the verdict on the deposits. A rejection is noted, keeps the status, and is also the
error that the call ends with. -/
def completeVerification (s : Session) (ticket : Ticket) (verdict : Verdict) (now : UInt64) :
    Except Error Unit × Session :=
  match s.redeem ticket with
  | .error e => (.error e, s)
  | .ok s =>
    match verdict with
    | .accepted =>
      let s := { s.logged now verifiedEvent with escrowFailure := none }
      (.ok (), (s.advanced .depositsVerified now).touched now)
    | .rejected failure =>
      let s := { s.logged now (rejectedEvent failure) with escrowFailure := some failure }
      (.error (.verification failure), s.touched now)

/-- What a role has to place into escrow, for the own role if none is named. -/
def requiredCoins (s : Session) (role : Option Role) : Except Error Amount := do
  let role ← match role with
    | some role => pure role
    | none => s.localRole
  (s.fees.requiredCoins role s.schedule).mapError .schedule

end EscrowMix.Session
