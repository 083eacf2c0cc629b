import EscrowMix.Error
import EscrowMix.Json

/-!
The JSON form of errors: the name of the cause for programs, the category, and the wording for
people. The cause of an error that comes from a part of the library is named after that part.
-/

namespace EscrowMix

/-- The name of a cause. -/
def Codec.Error.name : Codec.Error → String
  | unknownTag => "UnknownType"
  | wrongMagic => "IncorrectMagicBytes"
  | unsupportedVersion _ => "UnsupportedVersion"
  | input _ => "Io"
  | malformed _ => "ParseFailed"
  | other _ => "Other"

/-- The name of a cause. -/
def Schedule.Error.name : Schedule.Error → String
  | emptyAddress => "EmptyAddress"
  | zeroAmount _ => "ZeroAmount"
  | emptySchedule => "EmptySchedule"
  | amountOverflow => "AmountOverflow"
  | missingPayoutAddress _ => "MissingPayoutAddress"

/-- The name of a cause. -/
def Registry.Error.name : Registry.Error → String
  | roleAlreadySet .. => "RoleAlreadySet"
  | roleUnset => "RoleUnset"
  | missingKey _ => "MissingKey"
  | keyAlreadySet _ => "KeyAlreadySet"

/-- The name of a cause. -/
def Escrow.Error.name : Escrow.Error → String
  | duplicateDeposit _ => "DuplicateDeposit"
  | duplicateOutPoint .. => "DuplicateOutpoint"
  | missingDeposit _ => "MissingDeposit"
  | noCandidate => "NoCandidate"
  | staleRound .. => "StaleSignatureRegression"
  | skippedRound .. => "SignatureGap"
  | thresholdExceeded _ => "ThresholdExceeded"

/-- The name of a failure. -/
def EscrowFailure.name : EscrowFailure → String
  | insufficientConfirmations .. => "InsufficientConfirmations"
  | missingOutput _ => "MissingOutput"
  | scriptMismatch _ => "ScriptMismatch"
  | underpaid .. => "Underpaid"
  | wrongAddress _ => "WrongAddress"
  | sharedOutput .. => "SharedOutput"

/-- The name of a cause. -/
def Ledger.Error.name : Ledger.Error → String
  | unavailable => "Unavailable"
  | other _ => "Other"

/-- The name of a cause. -/
def Wallet.Error.name : Wallet.Error → String
  | locked => "Locked"
  | missingKey _ => "MissingKey"
  | invalidTransaction _ => "InvalidTransaction"
  | broadcastRejected _ => "BroadcastRejected"
  | other _ => "Other"

/-- The name of a cause. -/
def Store.Error.name : Store.Error → String
  | unavailable => "Unavailable"
  | other _ => "Other"

/-- The name of a cause. -/
def Config.Error.name : Config.Error → String
  | feeRateTooHigh _ => "FeeRateTooHigh"
  | noConfirmation => "NoConfirmation"
  | feeBelowMinimum .. => "FeeBelowMinimum"
  | networkFeeTooLow .. => "NetworkFeeTooLow"

namespace Error

/-- The name of the cause. -/
def name : Error → String
  | codec e => "Consensus." ++ e.name
  | schedule e => "Schedule." ++ e.name
  | party e => "Party." ++ e.name
  | escrow e => "Escrow." ++ e.name
  | verification f => "EscrowVerification." ++ f.name
  | ledger e => "Ledger." ++ e.name
  | wallet e => "Wallet." ++ e.name
  | store e => "Store." ++ e.name
  | config e => "Config." ++ e.name
  | outOfOrder .. => "OutOfOrderTransition"
  | unexpectedRole _ => "UnexpectedRole"
  | notOurTurn .. => "NotOurTurn"
  | concurrentTransition => "ConcurrentTransition"
  | sessionAlreadyActive _ => "SessionAlreadyActive"
  | unknownSession _ => "UnknownSession"
  | resetRefused .. => "ResetRefused"
  | peerDisconnected _ => "PeerDisconnected"
  | inconsistentData _ => "InconsistentData"
  | fatal _ => "Fatal"

/-- The text of a failure that came from outside the library. -/
def inner? : Error → Option String
  | codec e => e.inner?
  | ledger e => e.inner?
  | wallet e => e.inner?
  | store e => e.inner?
  | _ => none

/-- The name of the cause, the category and the wording. -/
def toJson (e : Error) : Json :=
  .object [("error", .text e.name), ("kind", .text e.kind.name), ("message", .text e.message)]

end Error

namespace JsonForm

instance : JsonForm ErrorKind := ⟨fun k => .text k.name, fun j => do ErrorKind.parse? (← j.name?)⟩

end JsonForm

end EscrowMix
