import EscrowMix.Session.Reset

/-!
The transitions of the distribution: it is built in round 0, signed in rounds 1 and 2, and then
broadcast. Each round is produced by one role and learned by the two others.
-/

namespace EscrowMix

namespace Wallet

/-- A run of requests that ends at the first failure, with a failure of the call. -/
abbrev Asking (α : Type) := ExceptT EscrowMix.Error (Program interface) α

/-- Asks for one thing. -/
def ask (q : Request) : Asking q.Value :=
  ExceptT.mk do
    let answer ← Program.request (I := interface) q
    return Except.mapError EscrowMix.Error.wallet answer

end Wallet

/-- What the wallet does for the own distribution round. -/
inductive SigningPlan where
  /-- Round 0: build the distribution. -/
  | build (inputs : List Deposit) (outputs : List Payout) (constraints : CoinConstraints)
  /-- Rounds 1 and 2: check that the distribution spends these inputs to these outputs, then sign
  it. -/
  | sign (candidate : Bytes) (key : PublicKey) (inputs : List Deposit) (outputs : List Payout)
deriving DecidableEq

namespace SigningPlan

/-- A distribution that does not match the session is never signed. -/
def mismatch : Error :=
  .inconsistentData "distribution transaction does not match the escrow and the schedule"

/-- Carries the plan out: the distribution and the signatures it then has. -/
def run : SigningPlan → Wallet.Asking (Bytes × UInt8)
  | build inputs outputs constraints => do
    return (← Wallet.ask (.build inputs outputs constraints), 0)
  | sign candidate key inputs outputs => do
    let isMatch : Bool ← Wallet.ask (.verify candidate inputs outputs)
    if isMatch then Wallet.ask (.sign candidate key) else throw mismatch

end SigningPlan

namespace Session

/-- The distribution round that comes next. -/
def expectedRound? (s : Session) : Option UInt8 := s.status.expectedRound?

/-- The round that comes next and the role that produces it. -/
def nextTurn? (s : Session) : Option (UInt8 × Role) := do
  let round ← s.expectedRound?
  return (round, ← Role.forRound? round)

/-- The deposit of a role, which the distribution spends. -/
def distributionInput (s : Session) (role : Role) : Except Error Deposit :=
  match s.record.deposit role with
  | some deposit => .ok deposit
  | none => .error (.escrow (.missingDeposit role))

/-- The outputs of the distribution. -/
def distributionOutputs (s : Session) : Except Error (List Payout) :=
  (s.fees.distributionOutputs s.schedule (s.parties.address .mixer)
    (s.parties.address .guarantor)).mapError .schedule

/-- What the wallet has to do for a round, given the inputs and the outputs. -/
def signingPlan (s : Session) (own : Role) (round : UInt8) (inputs : List Deposit)
    (outputs : List Payout) : Except Error SigningPlan :=
  if round = 0 then .ok (.build inputs outputs s.constraints)
  else
    match s.record.candidate, s.parties.key own with
    | none, _ => .error (.escrow .noCandidate)
    | some _, none => .error (.party (.missingKey own))
    | some candidate, some key => .ok (.sign candidate key inputs outputs)

/-- Claims the next distribution round, if it is this node's turn. -/
def claimSignature (s : Session) : Except Error ((Ticket × SigningPlan) × Session) := do
  s.ensureIdle
  let own ← s.localRole
  match s.nextTurn? with
  | none => throw (.outOfOrder s.status .contributeSignature)
  | some (round, signer) =>
    if signer ≠ own then throw (.notOurTurn round signer)
    let inputs ← Role.all.mapM s.distributionInput
    let outputs ← s.distributionOutputs
    let plan ← s.signingPlan own round inputs outputs
    let (ticket, s) := s.claim (.signature round)
    return ((ticket, plan), s)

/-- The line that a distribution round leaves. -/
def roundEvent (verb : String) (round : UInt8) : String :=
  verb ++ " distribution round " ++ toString round.toNat

/-- Takes the distribution of a round and notes it. -/
def roundRecorded (s : Session) (record : Escrow.Record) (round : UInt8) (verb : String)
    (now : UInt64) : Session :=
  let s := { s.logged now (roundEvent verb round) with record := record }
  (s.advanced (.afterRound round) now).touched now

/-- The reason of the reset that a wrong number of signatures forces. -/
def wrongCountReason (count round : UInt8) : String :=
  "wallet returned " ++ toString count.toNat ++ " signature(s) for round " ++ toString round.toNat

/-- Takes the round that the own wallet produced. A wallet that returns another number of signatures
than the round asks for breaks the escrow: the session is reset by force. -/
def completeSignature (s : Session) (ticket : Ticket) (candidate : Bytes) (count : UInt8)
    (now : UInt64) : Except Error UInt8 × Session :=
  match ticket.transition with
  | .signature round =>
    match s.redeem ticket with
    | .error e => (.error e, s)
    | .ok s =>
      if count ≠ round then
        let reason := wrongCountReason count round
        (.error (.fatal reason), s.forceReset reason now)
      else
        match s.record.setCandidate candidate round with
        | .error e => (.error (.escrow e), s)
        | .ok record => (.ok round, s.roundRecorded record round "produced" now)
  | _ => (.error .concurrentTransition, s)

/-- The round that a peer may send; once the distribution is complete all rounds are over. -/
def awaitedRound (s : Session) : Except Error UInt8 :=
  match s.status with
  | .distTxComplete | .complete => .ok (Escrow.signatureThreshold + 1)
  | _ =>
    match s.expectedRound? with
    | some round => .ok round
    | none => .error (.outOfOrder s.status .learnRound)

/-- Takes a round that a peer produced. Earlier rounds are stale, later ones out of order. -/
def learnRound (s : Session) (round : UInt8) (candidate : Bytes) (now : UInt64) :
    Except Error Session := do
  s.ensureIdle
  let own ← s.localRole
  let expected ← s.awaitedRound
  if round < expected then throw (.escrow (.staleRound s.record.signedCount round))
  if expected < round then throw (.outOfOrder s.status .learnRound)
  if Role.forRound? round = some own then throw (.unexpectedRole own)
  if candidate.isEmpty then
    throw (.inconsistentData ("empty distribution transaction in round " ++ toString round.toNat))
  let record ← (s.record.setCandidate candidate round).mapError .escrow
  return s.roundRecorded record round "received" now

/-- A peer's final transaction is not the one that was signed. -/
def finalDiffers : Error := .inconsistentData "final transaction differs from the signed candidate"

/-- Claims the broadcast of the distribution. A final transaction given by a peer must be it. -/
def claimCommit (s : Session) (final : Option Bytes) :
    Except Error ((Ticket × Bytes) × Session) := do
  s.ensureIdle
  s.ensureStatus [.distTxComplete] .commit
  match s.record.candidate with
  | none => throw (.escrow .noCandidate)
  | some candidate =>
    if final.any (· ≠ candidate) then throw finalDiffers
    let (ticket, s) := s.claim .commit
    return ((ticket, candidate), s)

/-- The line that the broadcast leaves. -/
def broadcastEvent : String := "distribution transaction broadcast"

/-- Notes that the distribution was broadcast. -/
def completeCommit (s : Session) (ticket : Ticket) (now : UInt64) : Except Error Session := do
  let s ← s.redeem ticket
  let s := s.logged now broadcastEvent
  return (s.advanced .complete now).touched now

end Session

end EscrowMix
