import EscrowMix.Session.Funding
import EscrowMix.Session.Setup
import EscrowMix.Session.Signing
import EscrowMix.Session.Snapshot

/-!
The calls on a session as data, so that what happens to a session is a list of calls, and the one
function that performs them. Every call ends with an answer or an error and leaves a session.
-/

namespace EscrowMix.Session

/-- A call on a session. -/
inductive Call where
  | beginAsSender (schedule : Schedule) (constraints : CoinConstraints) (mixer guarantor : PeerId)
  | beginInvited (role : Role) (sender : PeerId) (schedule : Schedule) (fees : FeePolicy)
      (constraints : CoinConstraints)
  | setOwnKey (address : Address) (key : PublicKey)
  | learnKey (role : Role) (address : Address) (key : PublicKey) (peer : Option PeerId)
  | claimMultisig
  | completeMultisig (ticket : Ticket) (escrow : Multisig)
  | recordOwnDeposit (deposit : Deposit)
  | learnDeposit (role : Role) (deposit : Deposit)
  | claimVerification (minConfirmations : UInt32)
  | completeVerification (ticket : Ticket) (verdict : Verdict)
  | claimSignature
  | completeSignature (ticket : Ticket) (candidate : Bytes) (count : UInt8)
  | learnRound (round : UInt8) (candidate : Bytes)
  | claimCommit (final : Option Bytes)
  | completeCommit (ticket : Ticket)
  | release (ticket : Ticket)
  | markReclaimable (role : Role)
  | reset (keepLog : Bool)
  | forceReset (reason : String)
  | flag
  | setPeer (role : Role) (peer : PeerId)
deriving DecidableEq

namespace Call

/-- What a call that succeeds answers. -/
def Answer : Call → Type
  | setOwnKey .. | learnKey .. => Bool
  | claimMultisig => Ticket × RoleMap PublicKey
  | claimVerification _ => Ticket × VerificationPlan
  | claimSignature => Ticket × SigningPlan
  | completeSignature .. => UInt8
  | claimCommit _ => Ticket × Bytes
  | _ => Unit

end Call

/-- The end of a call that leaves the session as it was when it is refused. -/
def orKeep {α : Type} (s : Session) : Except Error (α × Session) → Except Error α × Session
  | .ok (answer, s') => (.ok answer, s')
  | .error e => (.error e, s)

/-- The same for a call with nothing to answer. -/
def orKeepUnit (s : Session) : Except Error Session → Except Error Unit × Session
  | .ok s' => (.ok (), s')
  | .error e => (.error e, s)

/-- Performs a call at a time. -/
def perform (s : Session) (now : UInt64) : (c : Call) → Except Error c.Answer × Session
  | .beginAsSender schedule constraints mixer guarantor =>
    s.orKeepUnit (s.beginAsSender schedule constraints mixer guarantor now)
  | .beginInvited role sender schedule fees constraints =>
    s.orKeepUnit (s.beginInvited role sender schedule fees constraints now)
  | .setOwnKey address key => s.orKeep (s.setOwnKey address key now)
  | .learnKey role address key peer => s.orKeep (s.learnKey role address key peer now)
  | .claimMultisig => s.orKeep s.claimMultisig
  | .completeMultisig ticket escrow => s.orKeepUnit (s.completeMultisig ticket escrow now)
  | .recordOwnDeposit deposit => s.orKeepUnit (s.recordOwnDeposit deposit now)
  | .learnDeposit role deposit => s.orKeepUnit (s.learnDeposit role deposit now)
  | .claimVerification minConfirmations => s.orKeep (s.claimVerification minConfirmations)
  | .completeVerification ticket verdict => s.completeVerification ticket verdict now
  | .claimSignature => s.orKeep s.claimSignature
  | .completeSignature ticket candidate count => s.completeSignature ticket candidate count now
  | .learnRound round candidate => s.orKeepUnit (s.learnRound round candidate now)
  | .claimCommit final => s.orKeep (s.claimCommit final)
  | .completeCommit ticket => s.orKeepUnit (s.completeCommit ticket now)
  | .release ticket => (.ok (), s.release ticket)
  | .markReclaimable role => s.orKeepUnit (s.markReclaimable role now)
  | .reset keepLog => s.orKeepUnit (s.reset keepLog now)
  | .forceReset reason => (.ok (), s.forceReset reason now)
  | .flag => (.ok (), s.flag now)
  | .setPeer role peer => s.orKeepUnit (s.setPeer role peer)

end EscrowMix.Session
