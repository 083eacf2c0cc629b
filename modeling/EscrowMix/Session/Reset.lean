import EscrowMix.Session.Basic

/-!
The ways out of a session: marking deposits that have a way back, resetting, and flagging a session
that nobody moves.
-/

namespace EscrowMix.Session

/-- The line that a deposit with a way back leaves. -/
def reclaimableEvent (role : Role) : String := "deposit of " ++ role.name ++ " is reclaimable"

/-- Notes that the deposit of a role can be taken back without the other parties. -/
def markReclaimable (s : Session) (role : Role) (now : UInt64) : Except Error Session := do
  s.ensureIdle
  let record ← (s.record.markReclaimable role).mapError .escrow
  return { s.logged now (reclaimableEvent role) with record := record }.touched now

/-- The line that a reset leaves. -/
def resetEvent (status : Status) : String := "reset from " ++ status.name

/-- Resets the session if that is harmless; the audit log is kept on request. -/
def reset (s : Session) (keepLog : Bool) (now : UInt64) : Except Error Session :=
  if s.canReset then
    .ok ((if keepLog then s.logged now (resetEvent s.status) else s).cleared keepLog now)
  else .error (.resetRefused s.status s.record.unreclaimed)

/-- The line that a forced reset leaves. -/
def forcedResetEvent (status : Status) (reason : String) : String :=
  "forced reset from " ++ status.name ++ ": " ++ reason

/-- The line that a deposit without a way back leaves. -/
def strandedEvent (role : Role) (o : OutPoint) : String :=
  "manual recovery needed for " ++ role.name ++ " deposit " ++ o.text

/-- The lines of all deposits without a way back, in signing order. -/
def strandedEvents (r : Escrow.Record) : List String :=
  r.unreclaimed.filterMap fun role => (r.deposit role).map fun d => strandedEvent role d.outPoint

/-- Resets the session whatever it holds. The audit log is kept and names the deposits that nobody
will take back on their own. -/
def forceReset (s : Session) (reason : String) (now : UInt64) : Session :=
  let s := s.logged now (forcedResetEvent s.status reason)
  ((strandedEvents s.record).foldl (fun s event => s.logged now event) s).cleared true now

/-- The line that a session which nobody moves leaves. -/
def idleEvent (status : Status) : String := "idle in " ++ status.name ++ ", needs intervention"

/-- Asks for an operator, once. -/
def flag (s : Session) (now : UInt64) : Session :=
  if s.needsIntervention then s
  else
    { s.logged now (idleEvent s.status) with needsIntervention := true }

/-- Lets a connection act in another party's role, in place of an earlier one. -/
def setPeer (s : Session) (role : Role) (peer : PeerId) : Except Error Session := do
  s.ensurePeerRole role
  return { s with parties := s.parties.setPeer role peer }

end EscrowMix.Session
