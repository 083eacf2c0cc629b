import EscrowMix.Config
import EscrowMix.Party
import EscrowMix.Status
import EscrowMix.Store
import EscrowMix.Verification
import EscrowMix.Wallet

/-!
Why a call was refused or failed: one cause for each rule, its wording, and the category that tells
the caller what to do next.
-/

namespace EscrowMix

/-- The call that was tried, as it is named to users. -/
structure Operation where
  name : String
deriving DecidableEq

namespace Operation

def begin : Operation := ⟨"begin"⟩
def setOwnKey : Operation := ⟨"set_self_address_and_key"⟩
def learnKey : Operation := ⟨"receive_peer_address_and_key"⟩
def deriveMultisig : Operation := ⟨"derive_multisig_address"⟩
def recordOwnDeposit : Operation := ⟨"record_own_deposit"⟩
def learnDeposit : Operation := ⟨"receive_deposit_notice"⟩
def verifyDeposits : Operation := ⟨"verify_deposits"⟩
def contributeSignature : Operation := ⟨"contribute_signature"⟩
def learnRound : Operation := ⟨"receive_signature_round"⟩
def commit : Operation := ⟨"commit"⟩

end Operation

/-- The categories of failure. -/
inductive ErrorKind where
  /-- A rule refused the call; the session is as it was and usable. -/
  | protocolViolation
  /-- A peer is gone or sent contradicting data. -/
  | peerFault
  /-- A deposit does not secure its share. -/
  | escrowVerificationFailure
  /-- The wallet, the ledger or the store failed. -/
  | collaboratorFailure
  /-- Another transition came first. -/
  | concurrency
  /-- An invariant broke, and the session was reset. -/
  | fatal
deriving DecidableEq

namespace ErrorKind

/-- All categories. -/
def all : List ErrorKind :=
  [protocolViolation, peerFault, escrowVerificationFailure, collaboratorFailure, concurrency,
    fatal]

/-- The name shown to users. -/
def name : ErrorKind → String
  | protocolViolation => "ProtocolViolation"
  | peerFault => "PeerFault"
  | escrowVerificationFailure => "EscrowVerificationFailure"
  | collaboratorFailure => "CollaboratorFailure"
  | concurrency => "Concurrency"
  | fatal => "Fatal"

/-- The category of a name. -/
def parse? (text : String) : Option ErrorKind := all.find? (·.name = text)

end ErrorKind

/-- Why a call was refused or failed. -/
inductive Error where
  /-- Bytes were refused. -/
  | codec (e : Codec.Error)
  /-- A schedule or an amount is invalid. -/
  | schedule (e : Schedule.Error)
  /-- The registry was misused. -/
  | party (e : Registry.Error)
  /-- The escrow record was misused. -/
  | escrow (e : Escrow.Error)
  /-- A deposit failed its check. -/
  | verification (f : EscrowFailure)
  /-- The ledger failed. -/
  | ledger (e : Ledger.Error)
  /-- The wallet failed. -/
  | wallet (e : Wallet.Error)
  /-- The store failed. -/
  | store (e : Store.Error)
  /-- Parameters or an offer are invalid. -/
  | config (e : Config.Error)
  /-- Not the time for the call. -/
  | outOfOrder (status : Status) (operation : Operation)
  /-- The role does not fit the call. -/
  | unexpectedRole (role : Role)
  /-- Another role produces the next round. -/
  | notOurTurn (round : UInt8) (expected : Role)
  /-- Another transition is outstanding or came first. -/
  | concurrentTransition
  /-- This node runs another session that cannot be reset. -/
  | sessionAlreadyActive (id : SessionId)
  /-- No such session on this node. -/
  | unknownSession (id : SessionId)
  /-- A reset would leave deposits behind, or a distribution that can be broadcast. -/
  | resetRefused (status : Status) (unreclaimed : List Role)
  /-- No open connection acts in the role. -/
  | peerDisconnected (role : Role)
  /-- A peer contradicts the session. -/
  | inconsistentData (text : String)
  /-- An invariant broke, and the session was reset. -/
  | fatal (reason : String)
deriving DecidableEq

namespace Error

/-- The category of a failure. -/
def kind : Error → ErrorKind
  | peerDisconnected _ | inconsistentData _ => .peerFault
  | verification _ => .escrowVerificationFailure
  | ledger _ | wallet _ | store _ => .collaboratorFailure
  | concurrentTransition => .concurrency
  | fatal _ => .fatal
  | _ => .protocolViolation

/-- Roles in brackets, with commas between them. -/
def listRoles (roles : List Role) : String :=
  "[" ++ String.intercalate ", " (roles.map Role.name) ++ "]"

/-- The wording of a failure. -/
def message : Error → String
  | codec e => "Consensus error: " ++ e.message
  | schedule e => "Schedule error: " ++ e.message
  | party e => "Party error: " ++ e.message
  | escrow e => "Escrow error: " ++ e.message
  | verification f => "Escrow verification failed: " ++ f.message
  | ledger e => "Ledger error: " ++ e.message
  | wallet e => "Wallet error: " ++ e.message
  | store e => "Store error: " ++ e.message
  | config e => "Configuration error: " ++ e.message
  | outOfOrder status operation =>
    operation.name ++ " is not allowed in status " ++ status.name
  | unexpectedRole role => "Unexpected role " ++ role.name
  | notOurTurn round expected =>
    "Round " ++ toString round.toNat ++ " must be produced by " ++ expected.name
  | concurrentTransition => "Concurrent transition, retry against the current state"
  | sessionAlreadyActive id => "Session " ++ id.text ++ " is already active"
  | unknownSession id => "Unknown session " ++ id.text
  | resetRefused status unreclaimed =>
    "Reset refused in status " ++ status.name ++ ", unreclaimed deposits: "
      ++ listRoles unreclaimed
  | peerDisconnected role => "Peer playing " ++ role.name ++ " is disconnected"
  | inconsistentData text => "Inconsistent data: " ++ text
  | fatal reason => "Fatal error, session reset: " ++ reason

end Error

end EscrowMix
