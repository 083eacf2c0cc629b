import EscrowMix.Error

/-!
The state of a session on one node. The transitions are in the modules beside this one; here stand
the data, the guards that they check first, and the small steps that they are made of.

A transition that needs the wallet or the ledger is split. A claim checks its guards, hands out what
the collaborator needs together with a ticket, and makes the transition outstanding. When the
collaborator has answered, the ticket either completes the transition or is released. A session
with an outstanding transition refuses every other one. The epoch counts the changes that were
committed, so a ticket is stale once anything was committed after its claim. It is a counter of 64
bits that starts at 0 and grows by one with each change. Here it is a natural number, so runs of
fewer than 2⁶⁴ changes are meant.
-/

namespace EscrowMix

/-- One line of the audit log. -/
structure LogEntry where
  time : UInt64
  event : String
deriving DecidableEq

instance : Codec LogEntry where
  encode e := Codec.encode e.time ++ Codec.encode e.event
  size e := Codec.size e.time + Codec.size e.event
  read := do return ⟨← Codec.read, ← Codec.read⟩

/-- The transitions that wait for a collaborator. -/
inductive Transition where
  /-- The wallet derives the escrow. -/
  | deriveMultisig
  /-- The ledger confirms the deposits. -/
  | verifyDeposits
  /-- The wallet produces a distribution round. -/
  | signature (round : UInt8)
  /-- The wallet broadcasts the distribution. -/
  | commit
deriving DecidableEq

/-- How a transition is shown. -/
def Transition.name : Transition → String
  | deriveMultisig => "DeriveMultisig"
  | verifyDeposits => "VerifyDeposits"
  | signature round => "Signature(" ++ toString round.toNat ++ ")"
  | commit => "Commit"

/-- The right to complete a transition, as long as the session is in the epoch of the claim. -/
structure Ticket where
  transition : Transition
  /-- The epoch of the claim; below 2⁶⁴, as that of the session. -/
  epoch : Nat
deriving DecidableEq

/-- The state of a session on one node. -/
structure Session where
  id : SessionId
  status : Status
  lastActivity : UInt64
  schedule : Schedule
  constraints : CoinConstraints
  fees : FeePolicy
  escrow : Option Multisig
  parties : Registry
  record : Escrow.Record
  /-- The last failed check of the deposits. -/
  escrowFailure : Option EscrowFailure
  needsIntervention : Bool
  log : List LogEntry
  /-- Counts committed changes, fewer than 2⁶⁴ in the runs that are meant; never written. -/
  epoch : Nat
  /-- The outstanding transition; never written. -/
  pending : Option Transition
deriving DecidableEq

namespace Session

/-- A session that has not begun. -/
def fresh (id : SessionId) (fees : FeePolicy) (now : UInt64) : Session where
  id := id
  status := .notBegun
  lastActivity := now
  schedule := .empty
  constraints := .none
  fees := fees
  escrow := none
  parties := .empty
  record := .empty
  escrowFailure := none
  needsIntervention := false
  log := []
  epoch := 0
  pending := none

/-- The role of this node, once the session began. -/
def role (s : Session) : Option Role := s.parties.role

/-- Begun and not complete. -/
def isInProgress (s : Session) : Bool := s.status.isInProgress

/-- A transition is outstanding. -/
def isBusy (s : Session) : Bool := s.pending.isSome

/-- Identifies the terms that the parties agree on. -/
def termsFingerprint (s : Session) : Fingerprint := s.schedule.termsFingerprint s.fees

/-- The two other roles and their connections. -/
def counterparts (s : Session) : List (Role × Option PeerId) := s.parties.counterparts

/-! ### Guards -/

/-- No transition is outstanding. -/
def ensureIdle (s : Session) : Except Error Unit :=
  match s.pending with
  | some _ => .error .concurrentTransition
  | none => .ok ()

/-- The status is one of those allowed. -/
def ensureStatus (s : Session) (allowed : List Status) (operation : Operation) :
    Except Error Unit :=
  if s.status ∈ allowed then .ok () else .error (.outOfOrder s.status operation)

/-- The role of this node is known. -/
def localRole (s : Session) : Except Error Role := s.parties.localRole.mapError .party

/-- The role is that of another node. -/
def ensurePeerRole (s : Session) (role : Role) : Except Error Unit := do
  let own ← s.localRole
  if role = own then .error (.unexpectedRole role) else .ok ()

/-- A distribution was signed by all who must, or every deposit has a way back: only in the second
case is a reset harmless. -/
def canReset (s : Session) : Bool :=
  match s.status with
  | .distTxComplete | .complete => false
  | _ => s.record.unreclaimed.isEmpty

/-! ### Small steps -/

/-- Adds a line to the audit log. -/
def logged (s : Session) (now : UInt64) (event : String) : Session :=
  { s with log := s.log ++ [⟨now, event⟩] }

/-- The line that a change of status leaves. -/
def advanceEvent (old new : Status) : String := old.name ++ " -> " ++ new.name

/-- Moves to a status and notes it. -/
def advanced (s : Session) (status : Status) (now : UInt64) : Session :=
  { s.logged now (advanceEvent s.status status) with status := status }

/-- Commits a change: the time of the last activity is renewed and the epoch ends. -/
def touched (s : Session) (now : UInt64) : Session :=
  { s with lastActivity := now, epoch := s.epoch + 1 }

/-- The status that data kept from before already allows. -/
def caughtUp? (s : Session) : Option Status :=
  match s.status with
  | .initData => if s.parties.hasAllKeys then some .pubKey else none
  | .multisigAddr => if s.record.hasAllDeposits then some .depositsObserved else none
  | _ => none

/-- Data may arrive ahead of time and is kept; the status catches up when it can. -/
def promoted (s : Session) (now : UInt64) : Session :=
  match s.caughtUp? with
  | some status => s.advanced status now
  | none => s

/-- Makes a transition outstanding. -/
def claim (s : Session) (transition : Transition) : Ticket × Session :=
  (⟨transition, s.epoch⟩, { s with pending := some transition })

/-- The ticket is for the outstanding transition and nothing was committed since its claim. -/
def honours (s : Session) (ticket : Ticket) : Bool :=
  s.pending == some ticket.transition && s.epoch == ticket.epoch

/-- Takes a ticket, unless it is stale. -/
def redeem (s : Session) (ticket : Ticket) : Except Error Session :=
  if s.honours ticket then .ok { s with pending := none } else .error .concurrentTransition

/-- Gives a ticket back after its collaborator failed; a stale one is ignored. -/
def release (s : Session) (ticket : Ticket) : Session :=
  if s.honours ticket then { s with pending := none } else s

/-- Back to a session that has not begun, in a new epoch. -/
def cleared (s : Session) (keepLog : Bool) (now : UInt64) : Session :=
  { fresh s.id s.fees now with log := if keepLog then s.log else [], epoch := s.epoch + 1 }

end Session

end EscrowMix
