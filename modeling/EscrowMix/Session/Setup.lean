import EscrowMix.Session.Basic

/-!
The transitions from the beginning of a session to the derivation of its escrow: terms, roles,
addresses and keys.
-/

namespace EscrowMix.Session

/-- The line that beginning as the Sender leaves. -/
def senderEvent (schedule : Schedule) (fees : FeePolicy) : String :=
  "begin as Sender, " ++ toString schedule.length ++ " payout(s), terms "
    ++ (schedule.termsFingerprint fees).text

/-- Begins a session as the Sender, with the connections of the two others. -/
def beginAsSender (s : Session) (schedule : Schedule) (constraints : CoinConstraints)
    (mixer guarantor : PeerId) (now : UInt64) : Except Error Session := do
  s.ensureIdle
  s.ensureStatus [.notBegun] .begin
  if schedule.isEmpty then throw (.schedule .emptySchedule)
  let parties ← (s.parties.setRole .sender).mapError .party
  let s := { s.logged now (senderEvent schedule s.fees) with
    parties := (parties.setPeer .mixer mixer).setPeer .guarantor guarantor
    schedule := schedule
    constraints := constraints }
  return (s.advanced .reserved now).touched now

/-- The line that joining on an invitation leaves. -/
def invitedEvent (role : Role) (sender : PeerId) (schedule : Schedule) (fees : FeePolicy) : String :=
  "invited as " ++ role.name ++ " by " ++ sender.text ++ ", terms "
    ++ (schedule.termsFingerprint fees).text

/-- Begins a session that the Sender invited this node to, under the fees it offered. -/
def beginInvited (s : Session) (role : Role) (sender : PeerId) (schedule : Schedule)
    (fees : FeePolicy) (constraints : CoinConstraints) (now : UInt64) : Except Error Session := do
  s.ensureIdle
  s.ensureStatus [.notBegun] .begin
  if role = .sender then throw (.unexpectedRole role)
  if schedule.isEmpty then throw (.schedule .emptySchedule)
  let parties ← (s.parties.setRole role).mapError .party
  let s := { s.logged now (invitedEvent role sender schedule fees) with
    parties := parties.setPeer .sender sender
    schedule := schedule
    fees := fees
    constraints := constraints }
  return (s.advanced .reserved now).touched now

/-- The statuses in which an address and a key may be registered. -/
def keyStatuses : List Status := [.reserved, .initData, .pubKey]

/-- The line that setting the own address and key leaves. -/
def ownKeyEvent (address : Address) (key : PublicKey) : String :=
  "own address " ++ address.text ++ " and key " ++ key.text

/-- Sets the own address and key. The same values again only renew the time of the last activity,
and the answer is `false`. -/
def setOwnKey (s : Session) (address : Address) (key : PublicKey) (now : UInt64) :
    Except Error (Bool × Session) := do
  s.ensureIdle
  let role ← s.localRole
  s.ensureStatus keyStatuses .setOwnKey
  let (news, parties) ← (s.parties.register role address key).mapError .party
  if news then
    let s : Session := { s.logged now (ownKeyEvent address key) with parties := parties }
    let s := if s.status = .reserved then s.advanced .initData now else s
    return (true, (s.promoted now).touched now)
  else
    return (false, { s with lastActivity := now })

/-- Lets a connection act in a role that has none yet. -/
def introduced (parties : Registry) (role : Role) (peer : Option PeerId) : Registry :=
  match peer, parties.peer role with
  | some peer, none => parties.setPeer role peer
  | _, _ => parties

/-- The line that another party's address and key leave. -/
def learnedKeyEvent (role : Role) (address : Address) (key : PublicKey) : String :=
  role.name ++ " announced address " ++ address.text ++ " and key " ++ key.text

/-- Registers the address and the key that another party announces. The same values again only
renew the time of the last activity, at any time after the beginning, and the answer is `false`. -/
def learnKey (s : Session) (role : Role) (address : Address) (key : PublicKey)
    (peer : Option PeerId) (now : UInt64) : Except Error (Bool × Session) := do
  s.ensureIdle
  s.ensurePeerRole role
  if s.status = .notBegun then throw (.outOfOrder s.status .learnKey)
  let (news, parties) ← (s.parties.register role address key).mapError .party
  if news then
    s.ensureStatus keyStatuses .learnKey
    let s := { s.logged now (learnedKeyEvent role address key) with
      parties := introduced parties role peer }
    return (true, (s.promoted now).touched now)
  else
    return (false, { s with lastActivity := now })

/-- Claims the derivation of the escrow from the three keys. -/
def claimMultisig (s : Session) : Except Error ((Ticket × RoleMap PublicKey) × Session) := do
  s.ensureIdle
  s.ensureStatus [.pubKey] .deriveMultisig
  match s.parties.keys with
  | none => throw (.outOfOrder s.status .deriveMultisig)
  | some keys =>
    let (ticket, s) := s.claim .deriveMultisig
    return ((ticket, keys), s)

/-- The line that the derived escrow leaves. -/
def escrowEvent (escrow : Multisig) : String := "escrow address " ++ escrow.address.text

/-- Takes the escrow that the wallet derived. -/
def completeMultisig (s : Session) (ticket : Ticket) (escrow : Multisig) (now : UInt64) :
    Except Error Session := do
  let s ← s.redeem ticket
  let s := { s.logged now (escrowEvent escrow) with escrow := some escrow }
  return ((s.advanced .multisigAddr now).promoted now).touched now

end EscrowMix.Session
