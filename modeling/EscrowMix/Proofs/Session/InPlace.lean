import EscrowMix.Proofs.Session.Rounds

/-!
The calls, carried out in place. A call reads the session, checks, and writes field after field, and
it may stop at any check on the way: what it wrote before stays written. Here every call stands in
the order of its steps. In a session that calls can lead to, no call stops after it has written,
unless it reports what a collaborator did, and so a call that fails leaves nothing behind.
-/

namespace EscrowMix

/-- An error that reports what a collaborator did, and not that the call was refused. -/
def Error.isFinding : Error → Bool
  | .verification _ | .fatal _ => true
  | _ => false

namespace Session

variable {s : Session}

/-! ### Calls as steps -/

namespace InPlace

variable {α β : Type}

/-- Why a call stops before its end. -/
inductive Stop where
  /-- A check failed. -/
  | refused (e : Error)
  /-- The data did not take a change. -/
  | rejected (e : Error)
  /-- The session took what a collaborator did, and the call reports it. -/
  | reported (e : Error)

/-- The error that the call ends with. -/
def Stop.error : Stop → Error
  | refused e | rejected e | reported e => e

/-- A session in the middle of a call. -/
structure Draft where
  session : Session
  /-- The call has written to the session. -/
  isDirty : Bool

/-- Steps on a session. Where they stop, the session stays as it is at that moment. -/
abbrev Edit := EStateM Stop Draft

/-- Looks at the session. -/
def look (f : Session → α) : Edit α := fun d => .ok (f d.session) d

/-- Looks at the session and may refuse the call. -/
def check (f : Session → Except Error α) : Edit α := fun d =>
  match f d.session with
  | .ok a => .ok a d
  | .error e => .error (.refused e) d

/-- Refuses the call. -/
def refuse (e : Error) : Edit α := fun d => .error (.refused e) d

/-- Writes to the session. -/
def write (f : Session → Session) : Edit Unit := fun d => .ok () ⟨f d.session, true⟩

/-- Writes to the session, if its data takes the change. -/
def change (f : Session → Except Error Session) : Edit Unit := fun d =>
  match f d.session with
  | .ok s => .ok () ⟨s, true⟩
  | .error e => .error (.rejected e) d

/-- Ends the call with what a collaborator did. -/
def report (e : Error) : Edit α := fun d => .error (.reported e) d

/-- Ends a call that changed the session: the status catches up, and a new epoch begins. -/
def settle (now : UInt64) : Edit Unit := do
  write (·.promoted now)
  write (·.touched now)

/-! #### Changes that may fail -/

/-- Takes up a role. -/
def takeRole (role : Role) : Edit Unit :=
  change fun s => do
    let parties ← (s.parties.setRole role).mapError .party
    return { s with parties := parties }

/-- Registers an address and a key. -/
def registerKey (role : Role) (address : Address) (key : PublicKey) : Edit Unit :=
  change fun s => do
    let (_, parties) ← (s.parties.register role address key).mapError .party
    return { s with parties := parties }

/-- Records a deposit. -/
def recordDeposit (role : Role) (deposit : Deposit) : Edit Unit :=
  change fun s => do
    let record ← (s.record.recordDeposit role deposit).mapError .escrow
    return { s with record := record }

/-- Takes the distribution of a round. -/
def setCandidate (candidate : Bytes) (round : UInt8) : Edit Unit :=
  change fun s => do
    let record ← (s.record.setCandidate candidate round).mapError .escrow
    return { s with record := record }

/-! #### The calls -/

def beginAsSender (schedule : Schedule) (constraints : CoinConstraints) (mixer guarantor : PeerId)
    (now : UInt64) : Edit Unit := do
  check (·.ensureIdle)
  check (·.ensureStatus [.notBegun] .begin)
  if schedule.isEmpty then refuse (.schedule .emptySchedule)
  takeRole .sender
  write fun s => { s with parties := s.parties.setPeer .mixer mixer }
  write fun s => { s with parties := s.parties.setPeer .guarantor guarantor }
  write fun s => s.logged now (senderEvent schedule s.fees)
  write fun s => { s with schedule := schedule, constraints := constraints }
  write (·.advanced .reserved now)
  write (·.touched now)

def beginInvited (role : Role) (sender : PeerId) (schedule : Schedule) (fees : FeePolicy)
    (constraints : CoinConstraints) (now : UInt64) : Edit Unit := do
  check (·.ensureIdle)
  check (·.ensureStatus [.notBegun] .begin)
  if role = .sender then refuse (.unexpectedRole role)
  if schedule.isEmpty then refuse (.schedule .emptySchedule)
  takeRole role
  write fun s => { s with parties := s.parties.setPeer .sender sender }
  write (·.logged now (invitedEvent role sender schedule fees))
  write fun s => { s with schedule := schedule, fees := fees, constraints := constraints }
  write (·.advanced .reserved now)
  write (·.touched now)

def setOwnKey (address : Address) (key : PublicKey) (now : UInt64) : Edit Bool := do
  check (·.ensureIdle)
  let role ← check (·.localRole)
  check (·.ensureStatus keyStatuses .setOwnKey)
  let news ← check fun s => (s.parties.isNews role address key).mapError .party
  if news then
    write (·.logged now (ownKeyEvent address key))
    registerKey role address key
    write fun s => if s.status = .reserved then s.advanced .initData now else s
    settle now
    return true
  else
    write ({ · with lastActivity := now })
    return false

def learnKey (role : Role) (address : Address) (key : PublicKey) (peer : Option PeerId)
    (now : UInt64) : Edit Bool := do
  check (·.ensureIdle)
  check (·.ensurePeerRole role)
  let status ← look (·.status)
  if status = .notBegun then refuse (.outOfOrder status .learnKey)
  let news ← check fun s => (s.parties.isNews role address key).mapError .party
  if news then
    check (·.ensureStatus keyStatuses .learnKey)
    write (·.logged now (learnedKeyEvent role address key))
    registerKey role address key
    write fun s => { s with parties := introduced s.parties role peer }
    settle now
    return true
  else
    write ({ · with lastActivity := now })
    return false

/-- Makes a transition outstanding. -/
def claim (transition : Transition) : Edit Ticket := do
  let ticket ← look fun s => (s.claim transition).1
  write fun s => (s.claim transition).2
  return ticket

/-- Takes a ticket, unless it is stale. -/
def redeem (ticket : Ticket) : Edit Unit := do
  let s ← check (·.redeem ticket)
  write fun _ => s

def claimMultisig : Edit (Ticket × RoleMap PublicKey) := do
  check (·.ensureIdle)
  check (·.ensureStatus [.pubKey] .deriveMultisig)
  match ← look (·.parties.keys) with
  | none => refuse (.outOfOrder (← look (·.status)) .deriveMultisig)
  | some keys => return (← claim .deriveMultisig, keys)

def completeMultisig (ticket : Ticket) (escrow : Multisig) (now : UInt64) : Edit Unit := do
  redeem ticket
  write (·.logged now (escrowEvent escrow))
  write fun s => { s with escrow := some escrow }
  write (·.advanced .multisigAddr now)
  settle now

def recordOwnDeposit (deposit : Deposit) (now : UInt64) : Edit Unit := do
  check (·.ensureIdle)
  let role ← check (·.localRole)
  check fun s => (s.record.checkDeposit role deposit).mapError .escrow
  check (·.ensureStatus [.multisigAddr] .recordOwnDeposit)
  write (·.logged now (ownDepositEvent deposit))
  recordDeposit role deposit
  settle now

def learnDeposit (role : Role) (deposit : Deposit) (now : UInt64) : Edit Unit := do
  check (·.ensureIdle)
  check (·.ensurePeerRole role)
  check fun s => (s.record.checkDeposit role deposit).mapError .escrow
  check (·.ensureStatus depositStatuses .learnDeposit)
  write (·.logged now (learnedDepositEvent role deposit))
  recordDeposit role deposit
  settle now

def claimVerification (minConfirmations : UInt32) : Edit (Ticket × VerificationPlan) := do
  check (·.ensureIdle)
  check (·.ensureStatus [.depositsObserved] .verifyDeposits)
  match ← look (·.escrow) with
  | none => refuse (.outOfOrder (← look (·.status)) .verifyDeposits)
  | some escrow =>
    let checks ← check fun s => Role.all.mapM s.depositCheck
    return (← claim .verifyDeposits, ⟨escrow.address, minConfirmations, checks⟩)

def completeVerification (ticket : Ticket) (verdict : Verdict) (now : UInt64) : Edit Unit := do
  redeem ticket
  match verdict with
  | .accepted =>
    write fun s => { s with escrowFailure := none }
    write (·.logged now verifiedEvent)
    write (·.advanced .depositsVerified now)
    write (·.touched now)
  | .rejected failure =>
    write (·.logged now (rejectedEvent failure))
    write fun s => { s with escrowFailure := some failure }
    write (·.touched now)
    report (.verification failure)

def claimSignature : Edit (Ticket × SigningPlan) := do
  check (·.ensureIdle)
  let own ← check (·.localRole)
  match ← look (·.nextTurn?) with
  | none => refuse (.outOfOrder (← look (·.status)) .contributeSignature)
  | some (round, signer) =>
    if signer ≠ own then refuse (.notOurTurn round signer)
    let inputs ← check fun s => Role.all.mapM s.distributionInput
    let outputs ← check (·.distributionOutputs)
    let plan ← check (·.signingPlan own round inputs outputs)
    return (← claim (.signature round), plan)

/-- Takes the distribution of a round and notes it. -/
def takeRound (candidate : Bytes) (round : UInt8) (verb : String) (now : UInt64) : Edit Unit := do
  setCandidate candidate round
  write (·.logged now (roundEvent verb round))
  write (·.advanced (.afterRound round) now)
  write (·.touched now)

def completeSignature (ticket : Ticket) (candidate : Bytes) (count : UInt8) (now : UInt64) :
    Edit UInt8 :=
  match ticket.transition with
  | .signature round => do
    redeem ticket
    if count ≠ round then
      write (·.forceReset (wrongCountReason count round) now)
      report (.fatal (wrongCountReason count round))
    else
      takeRound candidate round "produced" now
      return round
  | _ => refuse .concurrentTransition

def learnRound (round : UInt8) (candidate : Bytes) (now : UInt64) : Edit Unit := do
  check (·.ensureIdle)
  let own ← check (·.localRole)
  let expected ← check (·.awaitedRound)
  let held ← look (·.record.signedCount)
  if round < expected then refuse (.escrow (.staleRound held round))
  let status ← look (·.status)
  if expected < round then refuse (.outOfOrder status .learnRound)
  if Role.forRound? round = some own then refuse (.unexpectedRole own)
  if candidate.isEmpty then
    refuse (.inconsistentData ("empty distribution transaction in round " ++ toString round.toNat))
  takeRound candidate round "received" now

def claimCommit (final : Option Bytes) : Edit (Ticket × Bytes) := do
  check (·.ensureIdle)
  check (·.ensureStatus [.distTxComplete] .commit)
  match ← look (·.record.candidate) with
  | none => refuse (.escrow .noCandidate)
  | some candidate =>
    if final.any (· ≠ candidate) then refuse finalDiffers
    return (← claim .commit, candidate)

def completeCommit (ticket : Ticket) (now : UInt64) : Edit Unit := do
  redeem ticket
  write (·.logged now broadcastEvent)
  write (·.advanced .complete now)
  write (·.touched now)

def markReclaimable (role : Role) (now : UInt64) : Edit Unit := do
  check (·.ensureIdle)
  let record ← check fun s => (s.record.markReclaimable role).mapError .escrow
  write fun s => { s with record := record }
  write (·.logged now (reclaimableEvent role))
  write (·.touched now)

def reset (keepLog : Bool) (now : UInt64) : Edit Unit := do
  if ← look (·.canReset) then
    if keepLog then write fun s => s.logged now (resetEvent s.status)
    write (·.cleared keepLog now)
  else
    refuse (← look fun s => .resetRefused s.status s.record.unreclaimed)

def setPeer (role : Role) (peer : PeerId) : Edit Unit := do
  check (·.ensurePeerRole role)
  write fun s => { s with parties := s.parties.setPeer role peer }

end InPlace

open InPlace in
/-- A call, carried out in place. -/
def Call.edit (now : UInt64) : (c : Call) → Edit c.Answer
  | .beginAsSender schedule constraints mixer guarantor =>
    InPlace.beginAsSender schedule constraints mixer guarantor now
  | .beginInvited role sender schedule fees constraints =>
    InPlace.beginInvited role sender schedule fees constraints now
  | .setOwnKey address key => InPlace.setOwnKey address key now
  | .learnKey role address key peer => InPlace.learnKey role address key peer now
  | .claimMultisig => InPlace.claimMultisig
  | .completeMultisig ticket escrow => InPlace.completeMultisig ticket escrow now
  | .recordOwnDeposit deposit => InPlace.recordOwnDeposit deposit now
  | .learnDeposit role deposit => InPlace.learnDeposit role deposit now
  | .claimVerification minConfirmations => InPlace.claimVerification minConfirmations
  | .completeVerification ticket verdict => InPlace.completeVerification ticket verdict now
  | .claimSignature => InPlace.claimSignature
  | .completeSignature ticket candidate count =>
    InPlace.completeSignature ticket candidate count now
  | .learnRound round candidate => InPlace.learnRound round candidate now
  | .claimCommit final => InPlace.claimCommit final
  | .completeCommit ticket => InPlace.completeCommit ticket now
  | .release ticket => write (·.release ticket)
  | .markReclaimable role => InPlace.markReclaimable role now
  | .reset keepLog => InPlace.reset keepLog now
  | .forceReset reason => write (·.forceReset reason now)
  | .flag => write (·.flag now)
  | .setPeer role peer => InPlace.setPeer role peer

namespace InPlace

variable {α β γ : Type} {s s' : Session} {d : Draft} {now : UInt64}

/-- A round after the last is more than a record takes. -/
def overrun : Error := .escrow (.thresholdExceeded (Escrow.signatureThreshold + 1))

/-- How a call ends that is carried out in place, beside what it does as a whole. -/
inductive Ends (s : Session) : Except Error α × Session → EStateM.Result Stop Draft α → Prop
  | done (a : α) (s' : Session) (isDirty : Bool) : Ends s (.ok a, s') (.ok a ⟨s', isDirty⟩)
  /-- A check fails before anything is written. -/
  | refused (e : Error) : Ends s (.error e, s) (.error (.refused e) ⟨s, false⟩)
  /-- If the data agrees with the status, then it takes every change but a round after the last, and
  nothing is written before that. -/
  | rejected (e : Error) (d : Draft) (h : Consistent s → e = overrun ∧ d = ⟨s, false⟩) :
    Ends s (.error e, d.session) (.error (.rejected e) d)
  | reported (e : Error) (d : Draft) (he : e.isFinding = true) :
    Ends s (.error e, d.session) (.error (.reported e) d)

/-! ### Steps of the call in place -/

theorem run_ok {x : Edit β} {b : β} {d' : Draft} {k : β → Edit α} (hx : x d = .ok b d') :
    (x >>= k) d = k b d' := by
  simp only [bind, EStateM.bind, hx]

theorem run_error {x : Edit β} {stop : Stop} {d' : Draft} {k : β → Edit α}
    (hx : x d = .error stop d') : (x >>= k) d = .error stop d' := by
  simp only [bind, EStateM.bind, hx]

theorem Ends.look {o : Except Error α × Session} {f : Session → β} {b : β} {k : β → Edit α}
    (hb : f d.session = b) (h : Ends s o (k b d)) : Ends s o ((look f >>= k) d) := by
  subst hb
  exact h

theorem Ends.step {o : Except Error α × Session} {x : Edit β} {b : β} {d' : Draft}
    {k : β → Edit α} (hx : x d = .ok b d') (h : Ends s o (k b d')) : Ends s o ((x >>= k) d) := by
  rw [run_ok hx]
  exact h

theorem Ends.stop {o : Except Error α × Session} {x : Edit β} {stop : Stop} {d' : Draft}
    {k : β → Edit α} (hx : x d = .error stop d') (h : Ends s o (.error stop d')) :
    Ends s o ((x >>= k) d) := by
  rw [run_error hx]
  exact h

theorem check_ok {f : Session → Except Error α} {a : α} (h : f d.session = .ok a) :
    check f d = .ok a d := by
  rw [check, h]

theorem check_error {f : Session → Except Error α} {e : Error} (h : f d.session = .error e) :
    check f d = .error (.refused e) d := by
  rw [check, h]

/-! ### Steps that both make -/

/-- The whole call ends with its first error, which leaves the session as it was. -/
def Keeping (s : Session) (out : Except Error γ → Except Error α × Session) : Prop :=
  ∀ e, out (.error e) = (.error e, s)

theorem orKeep_keeping (s : Session) : Keeping s (@orKeep α s) := fun _ => rfl

theorem orKeepUnit_keeping (s : Session) : Keeping s s.orKeepUnit := fun _ => rfl

section

variable {out : Except Error γ → Except Error α × Session}

theorem Ends.check (hout : Keeping s out) {x : Except Error β} {y : β → Except Error γ}
    {f : Session → Except Error β} {k : β → Edit α} (hf : f s = x)
    (h : ∀ b, x = .ok b → Ends s (out (y b)) (k b ⟨s, false⟩)) :
    Ends s (out (x >>= y)) ((check f >>= k) ⟨s, false⟩) := by
  subst hf
  cases hb : f s with
  | error e => exact .stop (check_error hb) ((hout e).symm ▸ .refused e)
  | ok b => exact .step (check_ok hb) (h b hb)

/-- A condition under which both refuse the call. -/
theorem Ends.unless (hout : Keeping s out) {p : Prop} [Decidable p] {e : Error}
    {y : PUnit → Except Error γ} {k : PUnit → Edit α}
    (h : ¬p → Ends s (out (y ⟨⟩)) (k ⟨⟩ ⟨s, false⟩)) :
    Ends s (out (if p then throw e >>= y else y ⟨⟩))
      ((if p then refuse e >>= k else k ⟨⟩) ⟨s, false⟩) := by
  by_cases hp : p
  · rw [if_pos hp, if_pos hp]
    exact (hout e).symm ▸ .refused e
  · rw [if_neg hp, if_neg hp]
    exact h hp

/-- A step of the whole call alone, which is known to succeed. -/
theorem Ends.known {x : Except Error β} {b : β} {y : β → Except Error γ}
    {r : EStateM.Result Stop Draft α} (hx : x = .ok b) (h : Ends s (out (y b)) r) :
    Ends s (out (x >>= y)) r := by
  rw [bind_of_ok hx]
  exact h

end

/-! ### Changes that the data takes -/

section

variable {role : Role} {address : Address} {key : PublicKey} {deposit : Deposit} {candidate : Bytes}
  {round : UInt8}

/-- Before the beginning no role is taken up. -/
theorem setRole_of_consistent (h : Consistent s) (hst : s.status = .notBegun) (role : Role) :
    s.parties.setRole role = .ok { s.parties with role := some role } :=
  (Registry.setRole_eq_ok (h.parties.role_iff.2 hst)).2 rfl

theorem setRole_rejected {u : Unit} (hst : s.ensureStatus [.notBegun] .begin = .ok u)
    {e : Registry.Error} (he : s.parties.setRole role = .error e) : ¬Consistent s := fun h =>
  nomatch he.symm.trans
    (setRole_of_consistent h (List.mem_singleton.1 (ensureStatus_eq_ok.1 hst)) role)

theorem takeRole_ok {parties : Registry} (h : d.session.parties.setRole role = .ok parties) :
    takeRole role d = .ok () ⟨{ d.session with parties := parties }, true⟩ := by
  simp only [takeRole, change, h]
  rfl

theorem takeRole_error {e : Registry.Error} (h : d.session.parties.setRole role = .error e) :
    takeRole role d = .error (.rejected (.party e)) d := by
  simp only [takeRole, change, h]
  rfl

/-- What is news to a registry is registered. -/
theorem registerKey_ok (h : d.session.parties.isNews role address key = .ok true) :
    registerKey role address key d = .ok ()
      ⟨{ d.session with parties := d.session.parties.registered role address key }, true⟩ := by
  simp only [registerKey, change, Registry.register, h]
  rfl

/-- A deposit that passes the check is recorded. -/
theorem recordDeposit_ok (h : d.session.record.checkDeposit role deposit = .ok ()) :
    recordDeposit role deposit d = .ok ()
      ⟨{ d.session with record := d.session.record.deposited role deposit }, true⟩ := by
  simp only [recordDeposit, change, Escrow.Record.recordDeposit, h]
  rfl

theorem setCandidate_ok {record : Escrow.Record}
    (h : d.session.record.setCandidate candidate round = .ok record) :
    setCandidate candidate round d = .ok () ⟨{ d.session with record := record }, true⟩ := by
  simp only [setCandidate, change, h]
  rfl

theorem setCandidate_error {e : Escrow.Error}
    (h : d.session.record.setCandidate candidate round = .error e) :
    setCandidate candidate round d = .error (.rejected (.escrow e)) d := by
  simp only [setCandidate, change, h]
  rfl

theorem takeRound_ok {record : Escrow.Record}
    (h : d.session.record.setCandidate candidate round = .ok record) (verb : String) :
    takeRound candidate round verb now d =
      .ok () ⟨d.session.roundRecorded record round verb now, true⟩ :=
  run_ok (setCandidate_ok h)

theorem takeRound_error {e : Escrow.Error}
    (h : d.session.record.setCandidate candidate round = .error e) (verb : String) :
    takeRound candidate round verb now d = .error (.rejected (.escrow e)) d :=
  run_error (setCandidate_error h)

/-- The record takes the round that is expected. -/
theorem setCandidate_of_expected (h : Consistent s) (hround : s.expectedRound? = some round)
    {e : Escrow.Error} : s.record.setCandidate candidate round ≠ .error e := by
  rw [Escrow.Record.setCandidate_eq_ok.2 ⟨h.checkCandidate hround, rfl⟩]
  exact nofun

end

/-! ### One call after the other -/

theorem beginAsSender_ends (schedule : Schedule) (constraints : CoinConstraints)
    (mixer guarantor : PeerId) :
    Ends s (s.orKeepUnit (s.beginAsSender schedule constraints mixer guarantor now))
      (beginAsSender schedule constraints mixer guarantor now ⟨s, false⟩) := by
  unfold Session.beginAsSender beginAsSender
  refine .check (orKeepUnit_keeping s) rfl fun _ _ => ?_
  refine .check (orKeepUnit_keeping s) rfl fun _ hst => ?_
  refine .unless (orKeepUnit_keeping s) fun _ => ?_
  cases hrole : s.parties.setRole .sender with
  | error e =>
    have hbroken := setRole_rejected hst hrole
    exact .stop (takeRole_error hrole) (.rejected (.party e) ⟨s, false⟩ (absurd · hbroken))
  | ok parties => exact .step (takeRole_ok hrole) (.done ..)

theorem beginInvited_ends (role : Role) (sender : PeerId) (schedule : Schedule) (fees : FeePolicy)
    (constraints : CoinConstraints) :
    Ends s (s.orKeepUnit (s.beginInvited role sender schedule fees constraints now))
      (beginInvited role sender schedule fees constraints now ⟨s, false⟩) := by
  unfold Session.beginInvited beginInvited
  refine .check (orKeepUnit_keeping s) rfl fun _ _ => ?_
  refine .check (orKeepUnit_keeping s) rfl fun _ hst => ?_
  refine .unless (orKeepUnit_keeping s) fun _ => ?_
  refine .unless (orKeepUnit_keeping s) fun _ => ?_
  cases hrole : s.parties.setRole role with
  | error e =>
    have hbroken := setRole_rejected hst hrole
    exact .stop (takeRole_error hrole) (.rejected (.party e) ⟨s, false⟩ (absurd · hbroken))
  | ok parties => exact .step (takeRole_ok hrole) (.done ..)

theorem setOwnKey_ends (address : Address) (key : PublicKey) :
    Ends s (s.orKeep (s.setOwnKey address key now)) (setOwnKey address key now ⟨s, false⟩) := by
  unfold Session.setOwnKey setOwnKey
  refine .check (orKeep_keeping s) rfl fun _ _ => ?_
  refine .check (orKeep_keeping s) rfl fun role _ => ?_
  refine .check (orKeep_keeping s) rfl fun _ _ => ?_
  rw [Registry.register, mapError_bind, bind_assoc]
  refine .check (orKeep_keeping s) rfl fun news hn => ?_
  cases news with
  | false => exact .done ..
  | true => exact .step rfl (.step (registerKey_ok (mapError_eq_ok.1 hn)) (.done ..))

theorem learnKey_ends (role : Role) (address : Address) (key : PublicKey) (peer : Option PeerId) :
    Ends s (s.orKeep (s.learnKey role address key peer now))
      (learnKey role address key peer now ⟨s, false⟩) := by
  unfold Session.learnKey learnKey
  refine .check (orKeep_keeping s) rfl fun _ _ => ?_
  refine .check (orKeep_keeping s) rfl fun _ _ => ?_
  refine .step rfl ?_
  refine .unless (orKeep_keeping s) fun _ => ?_
  rw [Registry.register, mapError_bind, bind_assoc]
  refine .check (orKeep_keeping s) rfl fun news hn => ?_
  cases news with
  | false => exact .done ..
  | true =>
    refine .known rfl ?_
    refine .check (orKeep_keeping s) rfl fun _ _ => ?_
    exact .step rfl (.step (registerKey_ok (mapError_eq_ok.1 hn)) (.done ..))

theorem claimMultisig_ends : Ends s (s.orKeep s.claimMultisig) (claimMultisig ⟨s, false⟩) := by
  unfold Session.claimMultisig claimMultisig
  refine .check (orKeep_keeping s) rfl fun _ _ => ?_
  refine .check (orKeep_keeping s) rfl fun _ _ => ?_
  cases hk : s.parties.keys with
  | none => exact .look hk (.refused _)
  | some keys => exact .look hk (.done ..)

theorem redeem_ok {ticket : Ticket} (h : d.session.redeem ticket = .ok s') :
    redeem ticket d = .ok () ⟨s', true⟩ :=
  run_ok (check_ok (f := (·.redeem ticket)) h)

theorem redeem_error {ticket : Ticket} {e : Error} (h : d.session.redeem ticket = .error e) :
    redeem ticket d = .error (.refused e) d :=
  run_error (check_error (f := (·.redeem ticket)) h)

/-- A ticket is taken by both, or refused. -/
theorem Ends.redeem {out : Except Error γ → Except Error α × Session} (hout : Keeping s out)
    {ticket : Ticket} {y : Session → Except Error γ} {k : PUnit → Edit α}
    (h : ∀ s', s.redeem ticket = .ok s' → Ends s (out (y s')) (k ⟨⟩ ⟨s', true⟩)) :
    Ends s (out (s.redeem ticket >>= y)) ((InPlace.redeem ticket >>= k) ⟨s, false⟩) := by
  cases hr : s.redeem ticket with
  | error e => exact .stop (redeem_error hr) ((hout e).symm ▸ .refused e)
  | ok s' => exact .step (redeem_ok hr) (h s' hr)

theorem completeMultisig_ends (ticket : Ticket) (escrow : Multisig) :
    Ends s (s.orKeepUnit (s.completeMultisig ticket escrow now))
      (completeMultisig ticket escrow now ⟨s, false⟩) := by
  unfold Session.completeMultisig completeMultisig
  refine .redeem (orKeepUnit_keeping s) fun s' _ => ?_
  exact .done ..

theorem recordOwnDeposit_ends (deposit : Deposit) :
    Ends s (s.orKeepUnit (s.recordOwnDeposit deposit now))
      (recordOwnDeposit deposit now ⟨s, false⟩) := by
  unfold Session.recordOwnDeposit recordOwnDeposit
  refine .check (orKeepUnit_keeping s) rfl fun _ _ => ?_
  refine .check (orKeepUnit_keeping s) rfl fun role _ => ?_
  rw [Escrow.Record.recordDeposit, mapError_bind, bind_assoc]
  refine .check (orKeepUnit_keeping s) rfl fun _ hd => ?_
  refine .known rfl ?_
  refine .check (orKeepUnit_keeping s) rfl fun _ _ => ?_
  exact .step rfl (.step (recordDeposit_ok (mapError_eq_ok.1 hd)) (.done ..))

theorem learnDeposit_ends (role : Role) (deposit : Deposit) :
    Ends s (s.orKeepUnit (s.learnDeposit role deposit now))
      (learnDeposit role deposit now ⟨s, false⟩) := by
  unfold Session.learnDeposit learnDeposit
  refine .check (orKeepUnit_keeping s) rfl fun _ _ => ?_
  refine .check (orKeepUnit_keeping s) rfl fun _ _ => ?_
  rw [Escrow.Record.recordDeposit, mapError_bind, bind_assoc]
  refine .check (orKeepUnit_keeping s) rfl fun _ hd => ?_
  refine .known rfl ?_
  refine .check (orKeepUnit_keeping s) rfl fun _ _ => ?_
  exact .step rfl (.step (recordDeposit_ok (mapError_eq_ok.1 hd)) (.done ..))

theorem claimVerification_ends (minConfirmations : UInt32) :
    Ends s (s.orKeep (s.claimVerification minConfirmations))
      (claimVerification minConfirmations ⟨s, false⟩) := by
  unfold Session.claimVerification claimVerification
  refine .check (orKeep_keeping s) rfl fun _ _ => ?_
  refine .check (orKeep_keeping s) rfl fun _ _ => ?_
  cases he : s.escrow with
  | none => exact .look he (.refused _)
  | some escrow =>
    refine .look he ?_
    refine .check (orKeep_keeping s) rfl fun checks _ => ?_
    exact .done ..

theorem completeVerification_ends (ticket : Ticket) (verdict : Verdict) :
    Ends s (s.completeVerification ticket verdict now)
      (completeVerification ticket verdict now ⟨s, false⟩) := by
  unfold Session.completeVerification completeVerification
  cases hr : s.redeem ticket with
  | error e => exact .stop (redeem_error hr) (.refused e)
  | ok s₀ =>
    refine .step (redeem_ok hr) ?_
    cases verdict with
    | accepted => exact .done ..
    | rejected failure => exact .reported (.verification failure) ⟨_, _⟩ rfl

theorem claimSignature_ends : Ends s (s.orKeep s.claimSignature) (claimSignature ⟨s, false⟩) := by
  unfold Session.claimSignature claimSignature
  refine .check (orKeep_keeping s) rfl fun _ _ => ?_
  refine .check (orKeep_keeping s) rfl fun own _ => ?_
  cases ht : s.nextTurn? with
  | none => exact .look ht (.refused _)
  | some turn =>
    refine .look ht ?_
    refine .unless (orKeep_keeping s) fun _ => ?_
    refine .check (orKeep_keeping s) rfl fun inputs _ => ?_
    refine .check (orKeep_keeping s) rfl fun outputs _ => ?_
    refine .check (orKeep_keeping s) rfl fun plan _ => ?_
    exact .done ..

theorem completeSignature_ends (ticket : Ticket) (candidate : Bytes) (count : UInt8) :
    Ends s (s.completeSignature ticket candidate count now)
      (completeSignature ticket candidate count now ⟨s, false⟩) := by
  unfold Session.completeSignature completeSignature
  obtain ⟨transition, epoch⟩ := ticket
  cases transition with
  | signature round =>
    cases hr : s.redeem ⟨.signature round, epoch⟩ with
    | error e => exact .stop (redeem_error hr) (.refused e)
    | ok s₀ =>
      refine .step (redeem_ok hr) ?_
      by_cases hc : count = round
      · obtain ⟨hp, -, rfl⟩ := redeem_eq_ok.1 hr
        rw [if_neg (not_not_intro hc)]
        dsimp only
        rw [if_neg (not_not_intro hc)]
        cases hrec : s.idle.record.setCandidate candidate round with
        | error e =>
          -- the ticket is already redeemed, but only the expected round can have been outstanding
          refine .stop (takeRound_error hrec _) (.rejected (.escrow e) ⟨s.idle, true⟩ fun h => ?_)
          have hround : s.Awaits (.signature round) := h.awaits hp rfl
          exact absurd hrec (setCandidate_of_expected h hround.1)
        | ok record => exact .step (takeRound_ok hrec _) (.done ..)
      · rw [if_pos hc]
        dsimp only
        rw [if_pos hc]
        exact .reported (.fatal (wrongCountReason count round)) ⟨_, _⟩ rfl
  | deriveMultisig | verifyDeposits | commit => exact .refused _

theorem learnRound_ends (round : UInt8) (candidate : Bytes) :
    Ends s (s.orKeepUnit (s.learnRound round candidate now))
      (learnRound round candidate now ⟨s, false⟩) := by
  unfold Session.learnRound learnRound
  refine .check (orKeepUnit_keeping s) rfl fun _ _ => ?_
  refine .check (orKeepUnit_keeping s) rfl fun own _ => ?_
  refine .check (orKeepUnit_keeping s) rfl fun expected ha => ?_
  refine .look rfl ?_
  refine .unless (orKeepUnit_keeping s) fun hge => ?_
  refine .look rfl ?_
  refine .unless (orKeepUnit_keeping s) fun hle => ?_
  refine .unless (orKeepUnit_keeping s) fun _ => ?_
  refine .unless (orKeepUnit_keeping s) fun _ => ?_
  -- neither stale nor early, the round is the expected one, or the one after the last
  obtain rfl : round = expected := UInt8.le_antisymm (UInt8.not_lt.1 hle) (UInt8.not_lt.1 hge)
  cases hrec : s.record.setCandidate candidate round with
  | error e =>
    dsimp only
    rw [takeRound_error hrec]
    refine .rejected (.escrow e) ⟨s, false⟩ fun h => ⟨?_, rfl⟩
    rcases awaitedRound_eq_ok.1 ha with ⟨-, rfl⟩ | hround
    · cases hrec
      rfl
    · exact absurd hrec (setCandidate_of_expected h hround)
  | ok record =>
    dsimp only
    rw [takeRound_ok hrec]
    exact .done ..

theorem claimCommit_ends (final : Option Bytes) :
    Ends s (s.orKeep (s.claimCommit final)) (claimCommit final ⟨s, false⟩) := by
  unfold Session.claimCommit claimCommit
  refine .check (orKeep_keeping s) rfl fun _ _ => ?_
  refine .check (orKeep_keeping s) rfl fun _ _ => ?_
  cases hc : s.record.candidate with
  | none => exact .look hc (.refused _)
  | some candidate =>
    refine .look hc ?_
    refine .unless (orKeep_keeping s) fun _ => ?_
    exact .done ..

theorem completeCommit_ends (ticket : Ticket) :
    Ends s (s.orKeepUnit (s.completeCommit ticket now)) (completeCommit ticket now ⟨s, false⟩) := by
  unfold Session.completeCommit completeCommit
  refine .redeem (orKeepUnit_keeping s) fun s' _ => ?_
  exact .done ..

theorem markReclaimable_ends (role : Role) :
    Ends s (s.orKeepUnit (s.markReclaimable role now)) (markReclaimable role now ⟨s, false⟩) := by
  unfold Session.markReclaimable markReclaimable
  refine .check (orKeepUnit_keeping s) rfl fun _ _ => ?_
  exact .check (orKeepUnit_keeping s) rfl fun record _ => .done ..

theorem reset_ends (keepLog : Bool) :
    Ends s (s.orKeepUnit (s.reset keepLog now)) (reset keepLog now ⟨s, false⟩) := by
  unfold Session.reset reset
  refine .step rfl ?_
  split
  · cases keepLog <;> exact .done ..
  · exact .refused _

theorem setPeer_ends (role : Role) (peer : PeerId) :
    Ends s (s.orKeepUnit (s.setPeer role peer)) (setPeer role peer ⟨s, false⟩) := by
  unfold Session.setPeer setPeer
  exact .check (orKeepUnit_keeping s) rfl fun _ _ => .done ..

/-- What is seen of a call from outside. -/
def outcome : EStateM.Result Stop Draft α → Except Error α × Session
  | .ok a d => (.ok a, d.session)
  | .error stop d => (.error stop.error, d.session)

theorem Ends.outcome_eq {o : Except Error α × Session} {r : EStateM.Result Stop Draft α}
    (h : Ends s o r) : outcome r = o := by
  cases h <;> rfl

end InPlace

open InPlace in
theorem edit_ends (s : Session) (now : UInt64) (c : Call) :
    Ends s (s.perform now c) (c.edit now ⟨s, false⟩) := by
  cases c with
  | beginAsSender => exact beginAsSender_ends ..
  | beginInvited => exact beginInvited_ends ..
  | setOwnKey => exact setOwnKey_ends ..
  | learnKey => exact learnKey_ends ..
  | claimMultisig => exact claimMultisig_ends
  | completeMultisig => exact completeMultisig_ends ..
  | recordOwnDeposit => exact recordOwnDeposit_ends ..
  | learnDeposit => exact learnDeposit_ends ..
  | claimVerification => exact claimVerification_ends ..
  | completeVerification => exact completeVerification_ends ..
  | claimSignature => exact claimSignature_ends
  | completeSignature => exact completeSignature_ends ..
  | learnRound => exact learnRound_ends ..
  | claimCommit => exact claimCommit_ends ..
  | completeCommit => exact completeCommit_ends ..
  | markReclaimable => exact markReclaimable_ends ..
  | reset => exact reset_ends ..
  | setPeer => exact setPeer_ends ..
  | release | forceReset | flag => exact .done ..

/-! ### Calls that fail -/

/-- How a call ends that starts from a session, step by step and seen from outside. -/
structure Clean (s : Session) (now : UInt64) (c : Call) : Prop where
  /-- Carried out in place it ends as it does as a whole. -/
  outcome : InPlace.outcome (c.edit now ⟨s, false⟩) = s.perform now c
  /-- Every check comes before all that is written. -/
  refused : ∀ e d, c.edit now ⟨s, false⟩ = .error (.refused e) d → d = ⟨s, false⟩
  /-- Roles, keys and deposits that were checked are taken, and so is the round that a ticket is
  for. Only a peer's round after the last is not taken, before anything is written. -/
  rejected : ∀ e d, c.edit now ⟨s, false⟩ = .error (.rejected e) d →
    e = InPlace.overrun ∧ d = ⟨s, false⟩
  reported : ∀ e d, c.edit now ⟨s, false⟩ = .error (.reported e) d → e.isFinding = true
  /-- An error that is no finding leaves the session as it was. -/
  unchanged : ∀ e, (s.perform now c).1 = .error e → e.isFinding = false →
    (s.perform now c).2 = s

/-- A call that is refused leaves the session as it was. -/
theorem Consistent.unchanged_of_refusal (h : Consistent s) {now : UInt64} {c : Call} {e : Error}
    (he : (s.perform now c).1 = .error e) (hf : e.isFinding = false) :
    (s.perform now c).2 = s := by
  have hends := edit_ends s now c
  generalize c.edit now ⟨s, false⟩ = r at hends
  generalize s.perform now c = o at he hends
  cases hends with
  | done => cases he
  | refused => rfl
  | rejected _ d hclean => rw [(hclean h).2]
  | reported _ _ hfinding =>
    cases he
    cases hfinding.symm.trans hf

/-- In every session that calls can lead to, a call that fails leaves nothing behind, unless it
reports what a collaborator did. -/
theorem Reachable.fails_cleanly (h : Reachable s) (now : UInt64) (c : Call) : Clean s now c := by
  have hends := edit_ends s now c
  generalize hr : c.edit now ⟨s, false⟩ = r at hends
  refine ⟨?_, fun e d he => ?_, fun e d he => ?_, fun e d he => ?_, fun e he hf => ?_⟩
  · rw [hr]
    exact hends.outcome_eq
  · rw [hr] at he
    subst he
    generalize s.perform now c = o at hends
    cases hends
    rfl
  · rw [hr] at he
    subst he
    generalize s.perform now c = o at hends
    cases hends with
    | rejected _ _ hclean => exact hclean h.consistent
  · rw [hr] at he
    subst he
    generalize s.perform now c = o at hends
    cases hends with
    | reported _ _ hfinding => exact hfinding
  · exact h.consistent.unchanged_of_refusal he hf

open Misused Distributed in
/-- A stale ticket while another is outstanding, and a fourth round. -/
theorem Reachable.fails_cleanly_of_mixer :
    let stale : Call := .completeMultisig ⟨.deriveMultisig, 3⟩ ⟨⟨"escrow"⟩, ⟨[]⟩⟩
    let signed := invited.after (verified ++ distribution)
    (claimed.perform 6 stale).1 = .error .concurrentTransition ∧
      (claimed.perform 6 stale).2 = claimed ∧
      (signed.perform 16 (.learnRound 3 [3])).1 = .error InPlace.overrun ∧
      (signed.perform 16 (.learnRound 3 [3])).2 = signed := by
  have hsigned : Reachable (invited.after (verified ++ distribution)) :=
    ((Reachable.fresh ..).perform 1 invitation trivial).after isMatched
  have hstale : (claimed.perform 6
      (.completeMultisig ⟨.deriveMultisig, 3⟩ ⟨⟨"escrow"⟩, ⟨[]⟩⟩)).1 =
        .error .concurrentTransition := failure?_eq_some.1 (by decide +kernel)
  have hover : ((invited.after (verified ++ distribution)).perform 16 (.learnRound 3 [3])).1 =
      .error InPlace.overrun := failure?_eq_some.1 (by decide +kernel)
  exact ⟨hstale, (claimed_reachable.fails_cleanly 6 _).unchanged _ hstale rfl, hover,
    (hsigned.fails_cleanly 16 _).unchanged _ hover rfl⟩

end Session

end EscrowMix
