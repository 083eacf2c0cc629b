import EscrowMix.Json.View
import EscrowMix.Message

/-!
The JSON form of the messages between nodes, where transactions are arrays of numbers, and how
messages are shown to observers, where they are hexadecimal text.
-/

namespace EscrowMix.JsonForm

/-- A message is an object named for its kind, which always holds the session. -/
instance : JsonForm PeerMessage where
  write m :=
    let of (kind : String) (content : List (String × Json)) : Json :=
      .tagged kind (.object (("session_id", write m.sessionId) :: content))
    match m with
    | .invite _ role schedule fees =>
      of "Invite" [("role", write role), ("schedule", write schedule), ("fees", write fees)]
    | .addressAndKey _ role address key =>
      of "AddressAndKey" [("role", write role), ("address", write address), ("pubkey", write key)]
    | .depositNotice _ role deposit =>
      of "DepositNotice" [("role", write role), ("deposit", write deposit)]
    | .signatureRound _ round candidate =>
      of "SignatureRound" [("round", write round), ("candidate_tx", write candidate)]
    | .commit _ final => of "Commit" [("final_tx", write final)]
    | .cancel _ => of "Cancel" []
  read? j := do
    let (kind, j) ← j.tagged?
    let id : SessionId ← j.get? "session_id"
    match kind with
    | "Invite" => return .invite id (← j.get? "role") (← j.get? "schedule") (← j.get? "fees")
    | "AddressAndKey" =>
      return .addressAndKey id (← j.get? "role") (← j.get? "address") (← j.get? "pubkey")
    | "DepositNotice" => return .depositNotice id (← j.get? "role") (← j.get? "deposit")
    | "SignatureRound" =>
      return .signatureRound id (← j.get? "round") (← j.get? "candidate_tx")
    | "Commit" => return .commit id (← j.get? "final_tx")
    | "Cancel" => return .cancel id
    | _ => none

instance : JsonForm Outbound where
  write o :=
    .object [("role", write o.role), ("peer", write o.peer), ("message", write o.message)]
  read? j := do
    let [role, peer, message] ← j.fields? ["role", "peer", "message"] | none
    return ⟨← read? role, ← read? peer, ← read? message⟩

end EscrowMix.JsonForm

namespace EscrowMix

open JsonForm (write)

/-- A message as it is shown: its kind, its session and its content beside each other. -/
def PeerMessage.toView (m : PeerMessage) : Json :=
  let of (kind : String) (content : List (String × Json)) : Json :=
    .object (("type", .text kind) :: ("id", write m.sessionId) :: content)
  match m with
  | invite _ role schedule fees =>
    of "Invite" [("role", write role), ("schedule", write schedule), ("fees", write fees)]
  | addressAndKey _ role address key =>
    of "AddressAndKey" [("role", write role), ("address", write address), ("pubkey", write key)]
  | depositNotice _ role deposit =>
    of "DepositNotice" [("role", write role), ("deposit", write deposit)]
  | signatureRound _ round candidate =>
    of "SignatureRound" [("round", write round), ("tx", .hex candidate)]
  | commit _ final => of "Commit" [("tx", .hex final)]
  | cancel _ => of "Cancel" []

/-- A message with its target as it is shown. -/
def Outbound.toView (o : Outbound) : Json :=
  .object [("role", write o.role), ("peer", .text o.peer.text), ("message", o.message.toView)]

end EscrowMix
