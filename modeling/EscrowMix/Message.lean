import EscrowMix.Escrow
import EscrowMix.Party
import EscrowMix.Schedule
import EscrowMix.SessionId

/-!
The messages between the nodes of a session.
-/

namespace EscrowMix

/-- A message to another node. -/
inductive PeerMessage where
  /-- The Sender asks a node to play a role for a schedule and fees. -/
  | invite (id : SessionId) (role : Role) (schedule : Schedule) (fees : FeePolicy)
  /-- The address and the key of the role that sends it. -/
  | addressAndKey (id : SessionId) (role : Role) (address : Address) (key : PublicKey)
  /-- The role that sends it paid its share. -/
  | depositNotice (id : SessionId) (role : Role) (deposit : Deposit)
  /-- The distribution after a round. -/
  | signatureRound (id : SessionId) (round : UInt8) (candidate : Bytes)
  /-- The distribution was broadcast. -/
  | commit (id : SessionId) (final : Bytes)
  /-- The node that sends it reset the session. -/
  | cancel (id : SessionId)
deriving DecidableEq

/-- The session that a message is about. -/
def PeerMessage.sessionId : PeerMessage → SessionId
  | invite id .. => id
  | addressAndKey id .. => id
  | depositNotice id .. => id
  | signatureRound id .. => id
  | commit id _ => id
  | cancel id => id

/-- A message with the connection it goes to and the role that acts there. -/
structure Outbound where
  role : Role
  peer : PeerId
  message : PeerMessage
deriving DecidableEq

/-- The same message to every target, in order. -/
def Outbound.toAll (targets : List (Role × PeerId)) (message : PeerMessage) : List Outbound :=
  targets.map fun (role, peer) => ⟨role, peer, message⟩

end EscrowMix
