import EscrowMix.Session.Snapshot

/-!
What an observer of a session keeps track of from step to step: the state in short, with the lines
of the audit log that are new since the last look.
-/

namespace EscrowMix.Session

/-- What is left of the second list after the longest beginning that both have. -/
def dropCommon : List LogEntry → List LogEntry → List LogEntry
  | a :: as, b :: bs => if a = b then dropCommon as bs else b :: bs
  | _, bs => bs

/-- The state of a session in short. -/
structure View where
  id : SessionId
  status : Status
  role : Option Role
  lastActivity : UInt64
  isBusy : Bool
  expectedRound : Option UInt8
  signedCount : UInt8
  canReset : Bool
  unreclaimed : List Role
  escrowAddress : Option Address
  failure : Option EscrowFailure
  needsIntervention : Bool
  logLength : Nat
  /-- The lines that were not in the log at the last look. -/
  logNew : List LogEntry
deriving DecidableEq

/-- The view of a session, given its log at the last look. -/
def view (s : Session) (shown : List LogEntry) : View where
  id := s.id
  status := s.status
  role := s.role
  lastActivity := s.lastActivity
  isBusy := s.isBusy
  expectedRound := s.status.expectedRound?
  signedCount := s.record.signedCount
  canReset := s.canReset
  unreclaimed := s.record.unreclaimed
  escrowAddress := s.escrow.map (·.address)
  failure := s.escrowFailure
  needsIntervention := s.needsIntervention
  logLength := s.log.length
  logNew := dropCommon shown s.log

end EscrowMix.Session
