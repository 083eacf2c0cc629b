import EscrowMix.Message
import EscrowMix.Node.Step

/-!
What a node is told to do, by its user or by a message from another node, and how it does it. A
command is a program of locked steps and of requests to the clock, the connections, the store, the
wallet and the ledger. No session is locked while a collaborator answers, so anything may happen to
it in the meantime; a claimed transition is completed or released afterwards.
-/

namespace EscrowMix.Node

/-- A request of a running command. -/
inductive Request where
  /-- The time, in seconds. -/
  | clock
  /-- An identifier that no session has yet. -/
  | freshId
  /-- Whether a connection is open. -/
  | isConnected (peer : PeerId)
  | store (q : Store.Request)
  | wallet (q : Wallet.Request)
  | ledger (q : Ledger.Query)
  /-- A locked step on the node itself. -/
  | step (q : Step)
deriving DecidableEq

/-- What answers a request. -/
def Request.Answer : Request → Type
  | clock => UInt64
  | freshId => SessionId
  | isConnected _ => Bool
  | store q => Except Store.Error q.Value
  | wallet q => Except Wallet.Error q.Value
  | ledger q => Except Ledger.Error q.Value
  | step q => q.Answer

/-- The surroundings of a running command. -/
def interface : Interface := ⟨Request, Request.Answer⟩

/-- A command that runs: it ends with a value or an error. -/
abbrev Running (α : Type) := ExceptT Error (Program interface) α

namespace Running

/-- Asks for something that cannot fail. -/
def ask (q : Request) : Running q.Answer :=
  ExceptT.mk do
    let answer ← Program.request (I := interface) q
    return .ok answer

/-- Asks the store; its failure is one of the command. -/
def store (q : Store.Request) : Running q.Value :=
  ExceptT.mk do
    let answer : Except Store.Error q.Value ← Program.request (I := interface) (.store q)
    return answer.mapError .store

/-- Asks the store and ignores its failure. -/
def storeAnyway (q : Store.Request) : Running Unit := do
  let _ ← ask (.store q)

/-- Ends the command with an error, if there is one. -/
def orFail {α : Type} (answer : Except Error α) : Running α := ExceptT.mk (pure answer)

/-- Performs a locked step that can be refused. -/
def step {α : Type} (q : Step) (h : q.Answer = Except Error α) : Running α :=
  ExceptT.mk do
    let answer : q.Answer ← Program.request (I := interface) (.step q)
    return cast h answer

/-- Finds the slot of the active session. -/
def lookup (id : SessionId) : Running Slot := step (.lookup id) rfl

/-- Performs a call on a session. -/
def call (slot : Slot) (c : Session.Call) : Running c.Answer := do
  let (answer, _) ← ask (.step (.call slot none c))
  orFail answer

end Running

/-- What a command answers. -/
inductive Reply where
  /-- Nothing to say. -/
  | done
  /-- Messages to relay. -/
  | messages (out : List Outbound)
  /-- A session was begun. -/
  | started (id : SessionId) (out : List Outbound)
  | amount (a : Amount)
  | report (r : Session.Report)
  | swept (outcomes : List SweepOutcome)
  | restored (id : Option SessionId)
deriving DecidableEq

open Running

/-! ### Making way for a session -/

/-- The counterparts with an open connection, asked one after the other. -/
def askReachable : List (Role × Option PeerId) → Running Targets
  | [] => return []
  | (role, some peer) :: rest => do
    let isOpen : Bool ← ask (.isConnected peer)
    let targets ← askReachable rest
    return if isOpen then (role, peer) :: targets else targets
  | (_, none) :: rest => askReachable rest

/-- Forgets the snapshot of a replaced session, and finds who is to be told. -/
def evict : Option Eviction → Running (List Outbound)
  | none => return []
  | some e => do
    storeAnyway (.remove e.id)
    return Outbound.toAll (← askReachable e.counterparts) (.cancel e.id)

/-- Drops a session that was enrolled and never began. -/
def discardIfUnused (slot : Slot) (id : SessionId) : Running Unit := do
  let s : Session ← ask (.step (.view slot))
  if s.status = .notBegun then ask (.step (.drop id))

/-- A connection must be open. -/
def ensureConnected (role : Role) (peer : PeerId) : Running Unit := do
  let isOpen : Bool ← ask (.isConnected peer)
  if !isOpen then throw (.peerDisconnected role)

/-- Begins a session as the Sender. The answer holds the cancellation of a replaced session and the
invitations. -/
def beginSend (destinations : List Address) (each : Amount) (constraints : CoinConstraints)
    (mixer guarantor : PeerId) : Running Reply := do
  let schedule ← orFail ((Schedule.uniform destinations each).mapError .schedule)
  if schedule.isEmpty then throw (.schedule .emptySchedule)
  ensureConnected .mixer mixer
  ensureConnected .guarantor guarantor
  let id : SessionId ← ask .freshId
  let now : UInt64 ← ask .clock
  let (slot, evicted) ← step (.enroll id now) rfl
  let cancellations ← evict evicted
  let c : Session.Call := .beginAsSender schedule constraints mixer guarantor
  let (begun, s) ← ask (.step (.call slot (some now) c))
  match begun with
  | .error e =>
    discardIfUnused slot id
    throw e
  | .ok _ =>
    let invite (role : Role) (peer : PeerId) : Outbound :=
      ⟨role, peer, .invite id role schedule s.fees⟩
    return .started id (cancellations ++ [invite .mixer mixer, invite .guarantor guarantor])

/-- Joins a session that the Sender invited this node to. The invitation is checked before it can
replace the active session. -/
def onInvite (from_ : PeerId) (id : SessionId) (role : Role) (schedule : Schedule)
    (fees : FeePolicy) (constraints : CoinConstraints) (config : Config) : Running Reply := do
  ensureConnected .sender from_
  if role = .sender then throw (.unexpectedRole role)
  if schedule.isEmpty then throw (.schedule .emptySchedule)
  orFail ((config.checkOffer role fees).mapError .config)
  let now : UInt64 ← ask .clock
  let (slot, evicted) ← step (.enroll id now) rfl
  let cancellations ← evict evicted
  let (begun, _) ← ask (.step (.call slot (some now)
    (.beginInvited role from_ schedule fees constraints)))
  match begun with
  | .error e =>
    discardIfUnused slot id
    throw e
  | .ok _ =>
    ask (.step (.save slot))
    return .messages cancellations

/-! ### Keys, deposits and rounds -/

/-- Lets a connection act in a role. -/
def attachPeer (id : SessionId) (role : Role) (peer : PeerId) : Running Reply := do
  let slot ← lookup id
  call slot (.setPeer role peer)
  return .done

/-- Sets the own address and key and announces them. -/
def setOwnKey (id : SessionId) (address : Address) (key : PublicKey) : Running Reply := do
  let slot ← lookup id
  let ((role, targets), _) ← step (.announce slot (.setOwnKey address key)) rfl
  return .messages (Outbound.toAll targets (.addressAndKey id role address key))

/-- Takes the address and the key of another party. -/
def onAddressAndKey (from_ : PeerId) (id : SessionId) (role : Role) (address : Address)
    (key : PublicKey) : Running Reply := do
  let slot ← lookup id
  let _ ← call slot (.learnKey role address key (some from_))
  return .messages []

/-- Asks the wallet in the midst of a command; how that ended is the answer. -/
def askWallet {α : Type} (p : Wallet.Asking α) : Running (Except Error α) :=
  ExceptT.mk do
    let answer ← Program.embed (J := interface)
      (fun q => Program.request (I := interface) (.wallet q)) (ExceptT.run p)
    return .ok answer

/-- Asks the ledger in the midst of a command; how that ended is the answer. -/
def askLedger {α : Type} (p : Ledger.Asking α) : Running (Except Error α) :=
  ExceptT.mk do
    let answer ← Program.embed (J := interface)
      (fun q => Program.request (I := interface) (.ledger q)) (ExceptT.run p)
    return .ok (answer.mapError .ledger)

/-- Gives a ticket back after its collaborator failed, and fails with that. -/
def giveBack {α : Type} (slot : Slot) (ticket : Ticket) (e : Error) : Running α := do
  call slot (.release ticket)
  throw e

/-- What follows the wallet's answer to the derivation of the escrow. -/
def settleMultisig (slot : Slot) (ticket : Ticket) : Except Error Multisig → Running Reply
  | .ok escrow => do
    call slot (.completeMultisig ticket escrow)
    return .messages []
  | .error e => giveBack slot ticket e

/-- Derives the escrow. -/
def deriveMultisig (id : SessionId) : Running Reply := do
  let slot ← lookup id
  let (ticket, keys) ← call slot .claimMultisig
  settleMultisig slot ticket
    (← askWallet (Wallet.ask (.deriveMultisig keys Escrow.signatureThreshold)))

/-- Records the own deposit and announces it. -/
def recordOwnDeposit (id : SessionId) (deposit : Deposit) : Running Reply := do
  let slot ← lookup id
  let ((role, targets), _) ← step (.announce slot (.recordOwnDeposit deposit)) rfl
  return .messages (Outbound.toAll targets (.depositNotice id role deposit))

/-- Takes the deposit of another party. -/
def onDepositNotice (id : SessionId) (role : Role) (deposit : Deposit) : Running Reply := do
  let slot ← lookup id
  call slot (.learnDeposit role deposit)
  return .messages []

/-- What follows the check of the deposits. -/
def settleVerification (slot : Slot) (ticket : Ticket) : Except Error Verdict → Running Reply
  | .ok verdict => do
    call slot (.completeVerification ticket verdict)
    return .messages []
  | .error e => giveBack slot ticket e

/-- Checks the three deposits against the ledger. -/
def verifyDeposits (id : SessionId) (config : Config) : Running Reply := do
  let slot ← lookup id
  let (ticket, plan) ← call slot (.claimVerification config.minConfirmations)
  settleVerification slot ticket (← askLedger plan.run)

/-- What follows the wallet's work on a distribution round. -/
def settleSignature (id : SessionId) (slot : Slot) (ticket : Ticket) (targets : Targets) :
    Except Error (Bytes × UInt8) → Running Reply
  | .ok (candidate, count) => do
    let round ← call slot (.completeSignature ticket candidate count)
    return .messages (Outbound.toAll targets (.signatureRound id round candidate))
  | .error e => giveBack slot ticket e

/-- Produces the next distribution round and sends it. -/
def contributeSignature (id : SessionId) : Running Reply := do
  let slot ← lookup id
  let ((_, targets), (ticket, plan)) ← step (.announce slot .claimSignature) rfl
  settleSignature id slot ticket targets (← askWallet plan.run)

/-- Takes a distribution round of another party. -/
def onSignatureRound (id : SessionId) (round : UInt8) (candidate : Bytes) : Running Reply := do
  let slot ← lookup id
  call slot (.learnRound round candidate)
  return .messages []

/-- What follows the broadcast of the distribution. -/
def settleBroadcast (slot : Slot) (ticket : Ticket) (tx : Bytes) :
    Except Error Unit → Running Bytes
  | .ok _ => do
    call slot (.completeCommit ticket)
    return tx
  | .error e => giveBack slot ticket e

/-- Broadcasts the distribution of a session and completes it. -/
def broadcast (slot : Slot) (final : Option Bytes) : Running Bytes := do
  let (ticket, tx) ← call slot (.claimCommit final)
  settleBroadcast slot ticket tx (← askWallet (Wallet.ask (.broadcast tx)))

/-- Tells the counterparts that can be told about the broadcast. -/
def tellCommit (id : SessionId) (slot : Slot) (final : Bytes) : Running Reply := do
  let targets : Targets ← ask (.step (.reachable slot))
  return .messages (Outbound.toAll targets (.commit id final))

/-- Broadcasts the distribution and tells the counterparts. -/
def commit (id : SessionId) : Running Reply := do
  let slot ← lookup id
  tellCommit id slot (← broadcast slot none)

/-- A peer's final transaction is not the one that was broadcast. -/
def broadcastDiffers : Error :=
  .inconsistentData "final transaction differs from the broadcast one"

/-- Another party broadcast the distribution; this node does so too. -/
def onCommit (id : SessionId) (final : Bytes) : Running Reply := do
  let slot ← lookup id
  let s : Session ← ask (.step (.view slot))
  if s.status = .complete then
    if s.record.candidate = some final then return .messages [] else throw broadcastDiffers
  else
    let _ ← broadcast slot (some final)
    return .messages []

/-! ### Leaving a session -/

/-- Notes that a deposit can be taken back. -/
def markReclaimable (id : SessionId) (role : Role) : Running Reply := do
  let slot ← lookup id
  call slot (.markReclaimable role)
  return .messages []

/-- Abandons a session if that is harmless, and tells the counterparts that can be told. -/
def cancel (id : SessionId) : Running Reply := do
  let slot ← lookup id
  let targets ← step (.abandon slot) rfl
  ask (.step (.drop id))
  return .messages (Outbound.toAll targets (.cancel id))

/-- Another party abandoned the session; this node follows if that is harmless. -/
def onCancel (id : SessionId) : Running Reply := do
  let slot ← lookup id
  call slot (.reset true)
  ask (.step (.drop id))
  return .messages []

/-- Brings the store up to date after a sweep. -/
def recordSweep : List SweepOutcome → Running Unit
  | [] => return ()
  | .reset id :: rest => do
    storeAnyway (.remove id)
    recordSweep rest
  | .flagged id :: rest => do
    let found : Except Error Slot ← ask (.step (.lookup id))
    match found with
    | .ok slot => ask (.step (.save slot))
    | .error _ => pure ()
    recordSweep rest

/-- Resets or flags an idle session. -/
def sweep : Running Reply := do
  let now : UInt64 ← ask .clock
  let outcomes : List SweepOutcome ← ask (.step (.sweep now))
  recordSweep outcomes
  return .swept outcomes

/-- Goes through stored sessions: those not in progress are forgotten, and the first in progress
becomes the active one. -/
def restoreFrom : List SessionId → Option SessionId → Running (Option SessionId)
  | [], restored => return restored
  | id :: ids, restored => do
    match ← Running.store (.load id) with
    | none => restoreFrom ids restored
    | some bytes =>
      let s ← orFail (Session.ofSnapshot bytes)
      if !s.isInProgress then
        Running.store (.remove id)
        restoreFrom ids restored
      else if restored.isSome then restoreFrom ids restored
      else
        let now : UInt64 ← ask .clock
        let (_, evicted) ← step (.install s now) rfl
        let _ ← evict evicted
        restoreFrom ids (some id)

/-- Resumes the session in progress after a restart. -/
def restore : Running Reply := do
  let ids ← Running.store .list
  return .restored (← restoreFrom ids none)

/-! ### Looking -/

/-- What a role has to place into escrow. -/
def requiredCoins (id : SessionId) (role : Option Role) : Running Reply := do
  let slot ← lookup id
  let s : Session ← ask (.step (.view slot))
  return .amount (← orFail (s.requiredCoins role))

/-- The report on a session. -/
def status (id : SessionId) : Running Reply := do
  let slot ← lookup id
  let s : Session ← ask (.step (.view slot))
  return .report s.report

/-! ### Commands -/

/-- What a node is told to do. -/
inductive Command where
  | beginSend (destinations : List Address) (each : Amount) (constraints : CoinConstraints)
      (mixer guarantor : PeerId)
  | onInvite (from_ : PeerId) (id : SessionId) (role : Role) (schedule : Schedule)
      (fees : FeePolicy) (constraints : CoinConstraints)
  | attachPeer (id : SessionId) (role : Role) (peer : PeerId)
  | setOwnKey (id : SessionId) (address : Address) (key : PublicKey)
  | onAddressAndKey (from_ : PeerId) (id : SessionId) (role : Role) (address : Address)
      (key : PublicKey)
  | deriveMultisig (id : SessionId)
  | recordOwnDeposit (id : SessionId) (deposit : Deposit)
  | onDepositNotice (id : SessionId) (role : Role) (deposit : Deposit)
  | verifyDeposits (id : SessionId)
  | contributeSignature (id : SessionId)
  | onSignatureRound (id : SessionId) (round : UInt8) (candidate : Bytes)
  | commit (id : SessionId)
  | onCommit (id : SessionId) (final : Bytes)
  | markReclaimable (id : SessionId) (role : Role)
  | cancel (id : SessionId)
  | onCancel (id : SessionId)
  | sweep
  | restore
  | requiredCoins (id : SessionId) (role : Option Role)
  | status (id : SessionId)
deriving DecidableEq

namespace Command

/-- The program of a command on a node with these parameters. -/
def program (config : Config) : Command → Program interface (Except Error Reply)
  | beginSend destinations each constraints mixer guarantor =>
    (Node.beginSend destinations each constraints mixer guarantor).run
  | onInvite from_ id role schedule fees constraints =>
    (Node.onInvite from_ id role schedule fees constraints config).run
  | attachPeer id role peer => (Node.attachPeer id role peer).run
  | setOwnKey id address key => (Node.setOwnKey id address key).run
  | onAddressAndKey from_ id role address key =>
    (Node.onAddressAndKey from_ id role address key).run
  | deriveMultisig id => (Node.deriveMultisig id).run
  | recordOwnDeposit id deposit => (Node.recordOwnDeposit id deposit).run
  | onDepositNotice id role deposit => (Node.onDepositNotice id role deposit).run
  | verifyDeposits id => (Node.verifyDeposits id config).run
  | contributeSignature id => (Node.contributeSignature id).run
  | onSignatureRound id round candidate => (Node.onSignatureRound id round candidate).run
  | commit id => (Node.commit id).run
  | onCommit id final => (Node.onCommit id final).run
  | markReclaimable id role => (Node.markReclaimable id role).run
  | cancel id => (Node.cancel id).run
  | onCancel id => (Node.onCancel id).run
  | sweep => Node.sweep.run
  | restore => Node.restore.run
  | requiredCoins id role => (Node.requiredCoins id role).run
  | status id => (Node.status id).run

/-- What a message from another node tells this one to do. An invitation comes without wishes about
coins. -/
def ofMessage (from_ : PeerId) : PeerMessage → Command
  | .invite id role schedule fees => onInvite from_ id role schedule fees .none
  | .addressAndKey id role address key => onAddressAndKey from_ id role address key
  | .depositNotice id role deposit => onDepositNotice id role deposit
  | .signatureRound id round candidate => onSignatureRound id round candidate
  | .commit id final => onCommit id final
  | .cancel id => onCancel id

end Command

end EscrowMix.Node
