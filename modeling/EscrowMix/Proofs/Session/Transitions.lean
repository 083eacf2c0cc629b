import EscrowMix.Proofs.Escrow
import EscrowMix.Proofs.Party
import EscrowMix.Session.Call

/-!
Each transition of a session, opened once: which guards held when it succeeded, and what session it
left. Later modules cite these facts and never unfold a transition.
-/

namespace EscrowMix.Session

variable {s s' : Session} {role : Role} {now : UInt64}

/-! ### Guards and small steps -/

theorem ensureIdle_eq_ok {u : Unit} : s.ensureIdle = .ok u ↔ s.pending = none := by
  unfold ensureIdle
  cases s.pending <;> simp

theorem ensureStatus_eq_ok {allowed : List Status} {op : Operation} {u : Unit} :
    s.ensureStatus allowed op = .ok u ↔ s.status ∈ allowed := by
  unfold ensureStatus
  split <;> simp_all

theorem localRole_eq_ok : s.localRole = .ok role ↔ s.role = some role := by
  rw [localRole, mapError_eq_ok, Registry.localRole_eq_ok, Session.role]

theorem ensurePeerRole_eq_ok {u : Unit} :
    s.ensurePeerRole role = .ok u ↔ ∃ own, s.role = some own ∧ role ≠ own := by
  simp only [ensurePeerRole, bind_eq_ok, localRole_eq_ok]
  refine exists_congr fun own => and_congr_right fun _ => ?_
  split <;> simp_all

theorem honours_iff {ticket : Ticket} : s.honours ticket = true ↔
    s.pending = some ticket.transition ∧ s.epoch = ticket.epoch := by
  simp [honours]

/-- A session whose outstanding transition came to its end. -/
def idle (s : Session) : Session := { s with pending := none }

theorem redeem_eq_ok {ticket : Ticket} : s.redeem ticket = .ok s' ↔
    s.pending = some ticket.transition ∧ s.epoch = ticket.epoch ∧ s' = s.idle := by
  unfold redeem idle
  split
  · next h => simp [honours_iff.1 h, eq_comm]
  · next h =>
    simp only [honours_iff, not_and] at h
    exact ⟨nofun, fun ⟨h₁, h₂, _⟩ => absurd h₂ (h h₁)⟩

/-- The lines that catching up leaves in the log. -/
def caughtUpLines (s : Session) (now : UInt64) : List LogEntry :=
  match s.caughtUp? with
  | some status => [⟨now, advanceEvent s.status status⟩]
  | none => []

/-- Catching up changes the status and the log only. -/
theorem promoted_eq (s : Session) (now : UInt64) : s.promoted now =
    { s with status := s.caughtUp?.getD s.status, log := s.log ++ s.caughtUpLines now } := by
  unfold promoted caughtUpLines
  cases s.caughtUp? with
  | none => simp
  | some status => rfl

theorem promoted_parties (s : Session) (now : UInt64) : (s.promoted now).parties = s.parties := by
  rw [promoted_eq]

theorem promoted_record (s : Session) (now : UInt64) : (s.promoted now).record = s.record := by
  rw [promoted_eq]

/-! ### From the beginning to the escrow -/

theorem beginAsSender_ok {schedule : Schedule} {constraints : CoinConstraints}
    {mixer guarantor : PeerId}
    (h : s.beginAsSender schedule constraints mixer guarantor now = .ok s') :
    s.pending = none ∧ s.status = .notBegun ∧ schedule.isEmpty = false ∧
    ∃ parties, s.parties.setRole .sender = .ok parties ∧
      s' = (({ s.logged now (senderEvent schedule s.fees) with
        parties := (parties.setPeer .mixer mixer).setPeer .guarantor guarantor
        schedule := schedule
        constraints := constraints }).advanced .reserved now).touched now := by
  simp only [beginAsSender, bind_eq_ok, ensureIdle_eq_ok, ensureStatus_eq_ok, check_eq_ok,
    mapError_eq_ok, pure_eq_ok, List.mem_singleton, Bool.not_eq_true] at h
  obtain ⟨_, hp, _, hst, he, parties, hr, rfl⟩ := h
  exact ⟨hp, hst, he, parties, hr, rfl⟩

theorem beginInvited_ok {sender : PeerId} {schedule : Schedule} {fees : FeePolicy}
    {constraints : CoinConstraints}
    (h : s.beginInvited role sender schedule fees constraints now = .ok s') :
    s.pending = none ∧ s.status = .notBegun ∧ role ≠ .sender ∧ schedule.isEmpty = false ∧
    ∃ parties, s.parties.setRole role = .ok parties ∧
      s' = (({ s.logged now (invitedEvent role sender schedule fees) with
        parties := parties.setPeer .sender sender
        schedule := schedule
        fees := fees
        constraints := constraints }).advanced .reserved now).touched now := by
  simp only [beginInvited, bind_eq_ok, ensureIdle_eq_ok, ensureStatus_eq_ok, check_eq_ok,
    mapError_eq_ok, pure_eq_ok, List.mem_singleton, Bool.not_eq_true] at h
  obtain ⟨_, hp, _, hst, hr, he, parties, hset, rfl⟩ := h
  exact ⟨hp, hst, hr, he, parties, hset, rfl⟩

/-- A session with the own address and key, before the status catches up. -/
def keyed (s : Session) (role : Role) (address : Address) (key : PublicKey) (now : UInt64) :
    Session :=
  let s := { s.logged now (ownKeyEvent address key) with
    parties := s.parties.registered role address key }
  if s.status = .reserved then s.advanced .initData now else s

theorem keyed_of_reserved (h : s.status = .reserved) (role : Role) (address : Address)
    (key : PublicKey) (now : UInt64) : s.keyed role address key now =
      { s.logged now (ownKeyEvent address key) with
        parties := s.parties.registered role address key }.advanced .initData now :=
  if_pos h

theorem keyed_parties (s : Session) (role : Role) (a : Address) (k : PublicKey) (now : UInt64) :
    (s.keyed role a k now).parties = s.parties.registered role a k := by
  unfold keyed
  dsimp only
  split <;> rfl

theorem keyed_record (s : Session) (role : Role) (a : Address) (k : PublicKey) (now : UInt64) :
    (s.keyed role a k now).record = s.record := by
  unfold keyed
  dsimp only
  split <;> rfl

theorem setOwnKey_ok {address : Address} {key : PublicKey} {news : Bool}
    (h : s.setOwnKey address key now = .ok (news, s')) :
    s.pending = none ∧ s.status ∈ keyStatuses ∧ ∃ own, s.role = some own ∧
      ((news = true ∧ s.parties.address own = none ∧ s.parties.key own = none ∧
          s' = ((s.keyed own address key now).promoted now).touched now) ∨
        (news = false ∧ s.parties.address own = some address ∧ s.parties.key own = some key ∧
          s' = { s with lastActivity := now })) := by
  simp only [setOwnKey, bind_eq_ok, ensureIdle_eq_ok, localRole_eq_ok, ensureStatus_eq_ok,
    mapError_eq_ok] at h
  obtain ⟨_, hp, own, hown, _, hst, ⟨_, _⟩, hreg, h⟩ := h
  refine ⟨hp, hst, own, hown, ?_⟩
  rcases Registry.register_eq_ok.1 hreg with ⟨rfl, ha, hk, rfl⟩ | ⟨rfl, ha, hk, rfl⟩
  · obtain ⟨rfl, rfl⟩ := Prod.mk.inj (Except.ok.inj h)
    exact .inl ⟨rfl, ha, hk, rfl⟩
  · obtain ⟨rfl, rfl⟩ := Prod.mk.inj (Except.ok.inj h)
    exact .inr ⟨rfl, ha, hk, rfl⟩

theorem learnKey_ok {address : Address} {key : PublicKey} {peer : Option PeerId} {news : Bool}
    (h : s.learnKey role address key peer now = .ok (news, s')) :
    s.pending = none ∧ s.status ≠ .notBegun ∧ (∃ own, s.role = some own ∧ role ≠ own) ∧
      ((news = true ∧ s.status ∈ keyStatuses ∧ s.parties.address role = none ∧
          s.parties.key role = none ∧
          s' = (({ s.logged now (learnedKeyEvent role address key) with
            parties := introduced (s.parties.registered role address key) role
              peer }).promoted now).touched now) ∨
        (news = false ∧ s.parties.address role = some address ∧ s.parties.key role = some key ∧
          s' = { s with lastActivity := now })) := by
  simp only [learnKey, bind_eq_ok, ensureIdle_eq_ok, ensurePeerRole_eq_ok, check_eq_ok,
    mapError_eq_ok] at h
  obtain ⟨_, hp, _, hrole, hst, ⟨_, _⟩, hreg, h⟩ := h
  refine ⟨hp, hst, hrole, ?_⟩
  rcases Registry.register_eq_ok.1 hreg with ⟨rfl, ha, hk, rfl⟩ | ⟨rfl, ha, hk, rfl⟩
  · simp only [if_true, bind_eq_ok, ensureStatus_eq_ok, pure_eq_ok, Prod.mk.injEq] at h
    obtain ⟨_, hst, rfl, rfl⟩ := h
    exact .inl ⟨rfl, hst, ha, hk, rfl⟩
  · obtain ⟨rfl, rfl⟩ := Prod.mk.inj (Except.ok.inj h)
    exact .inr ⟨rfl, ha, hk, rfl⟩

theorem claimMultisig_ok {ticket : Ticket} {keys : RoleMap PublicKey}
    (h : s.claimMultisig = .ok ((ticket, keys), s')) :
    s.pending = none ∧ s.status = .pubKey ∧ s.parties.keys = some keys ∧
      ticket = ⟨.deriveMultisig, s.epoch⟩ ∧ s' = { s with pending := some .deriveMultisig } := by
  simp only [claimMultisig, bind_eq_ok, ensureIdle_eq_ok, ensureStatus_eq_ok,
    List.mem_singleton] at h
  obtain ⟨_, hp, _, hst, h⟩ := h
  cases hk : s.parties.keys with
  | none => simp only [hk] at h; exact absurd h throw_ne_ok
  | some keys' =>
    simp only [hk, claim, pure_eq_ok, Prod.mk.injEq] at h
    obtain ⟨⟨rfl, rfl⟩, rfl⟩ := h
    exact ⟨hp, hst, rfl, rfl, rfl⟩

theorem claimMultisig_of {keys : RoleMap PublicKey} (hp : s.pending = none)
    (hst : s.status = .pubKey) (hk : s.parties.keys = some keys) : s.claimMultisig =
      .ok ((⟨.deriveMultisig, s.epoch⟩, keys), { s with pending := some .deriveMultisig }) := by
  have hidle : s.ensureIdle = .ok () := ensureIdle_eq_ok.2 hp
  have hstatus : s.ensureStatus [.pubKey] .deriveMultisig = .ok () :=
    ensureStatus_eq_ok.2 (List.mem_singleton.2 hst)
  rw [claimMultisig, bind_of_ok hidle, bind_of_ok hstatus, hk]
  rfl

theorem completeMultisig_ok {ticket : Ticket} {escrow : Multisig}
    (h : s.completeMultisig ticket escrow now = .ok s') :
    s.pending = some ticket.transition ∧ s.epoch = ticket.epoch ∧
      s' = ((({ s.idle.logged now (escrowEvent escrow) with escrow := some escrow }.advanced
        .multisigAddr now).promoted now).touched now) := by
  simp only [completeMultisig, bind_eq_ok, redeem_eq_ok, pure_eq_ok] at h
  obtain ⟨_, ⟨hp, he, rfl⟩, rfl⟩ := h
  exact ⟨hp, he, rfl⟩

/-! ### Deposits -/

theorem recordOwnDeposit_ok {deposit : Deposit} (h : s.recordOwnDeposit deposit now = .ok s') :
    s.pending = none ∧ s.status = .multisigAddr ∧ ∃ own record, s.role = some own ∧
      s.record.recordDeposit own deposit = .ok record ∧
      s' = s.deposited record (ownDepositEvent deposit) now := by
  simp only [recordOwnDeposit, bind_eq_ok, ensureIdle_eq_ok, localRole_eq_ok, mapError_eq_ok,
    ensureStatus_eq_ok, pure_eq_ok, List.mem_singleton] at h
  obtain ⟨_, hp, own, hown, record, hrec, _, hst, rfl⟩ := h
  exact ⟨hp, hst, own, record, hown, hrec, rfl⟩

/-- The statuses in which another party's deposit may be recorded. -/
def depositStatuses : List Status := [.reserved, .initData, .pubKey, .multisigAddr]

theorem learnDeposit_ok {deposit : Deposit} (h : s.learnDeposit role deposit now = .ok s') :
    s.pending = none ∧ s.status ∈ depositStatuses ∧ (∃ own, s.role = some own ∧ role ≠ own) ∧
      ∃ record, s.record.recordDeposit role deposit = .ok record ∧
        s' = s.deposited record (learnedDepositEvent role deposit) now := by
  simp only [learnDeposit, bind_eq_ok, ensureIdle_eq_ok, ensurePeerRole_eq_ok, mapError_eq_ok,
    ensureStatus_eq_ok, pure_eq_ok] at h
  obtain ⟨_, hp, _, hrole, record, hrec, _, hst, rfl⟩ := h
  exact ⟨hp, hst, hrole, record, hrec, rfl⟩

theorem depositCheck_eq_ok {check : DepositCheck} : s.depositCheck role = .ok check ↔
    ∃ deposit required, s.record.deposit role = some deposit ∧
      s.fees.requiredCoins role s.schedule = .ok required ∧ check = ⟨role, deposit, required⟩ := by
  unfold depositCheck
  cases s.record.deposit role with
  | none => simp
  | some deposit =>
    simp only [bind_eq_ok, mapError_eq_ok, pure_eq_ok, Option.some.injEq]
    exact ⟨fun ⟨a, h, h'⟩ => ⟨_, a, rfl, h, h'.symm⟩, fun ⟨_, a, h₀, h, h'⟩ => ⟨a, h, h₀ ▸ h'.symm⟩⟩

theorem claimVerification_ok {minConfirmations : UInt32} {ticket : Ticket}
    {plan : VerificationPlan}
    (h : s.claimVerification minConfirmations = .ok ((ticket, plan), s')) :
    s.pending = none ∧ s.status = .depositsObserved ∧
      (∃ escrow, s.escrow = some escrow ∧ plan.escrowAddress = escrow.address) ∧
      plan.minConfirmations = minConfirmations ∧
      Role.all.mapM s.depositCheck = .ok plan.checks ∧
      ticket = ⟨.verifyDeposits, s.epoch⟩ ∧ s' = { s with pending := some .verifyDeposits } := by
  simp only [claimVerification, bind_eq_ok, ensureIdle_eq_ok, ensureStatus_eq_ok,
    List.mem_singleton] at h
  obtain ⟨_, hp, _, hst, h⟩ := h
  cases he : s.escrow with
  | none => simp only [he] at h; exact absurd h throw_ne_ok
  | some escrow =>
    simp only [he, bind_eq_ok, claim, pure_eq_ok, Prod.mk.injEq] at h
    obtain ⟨checks, hc, ⟨rfl, rfl⟩, rfl⟩ := h
    exact ⟨hp, hst, ⟨escrow, rfl, rfl⟩, rfl, hc, rfl, rfl⟩

/-- A session that took a verdict. -/
def judged (s : Session) (verdict : Verdict) (now : UInt64) : Session :=
  match verdict with
  | .accepted =>
    ({ s.logged now verifiedEvent with escrowFailure := none }.advanced .depositsVerified
      now).touched now
  | .rejected failure =>
    { s.logged now (rejectedEvent failure) with escrowFailure := some failure }.touched now

/-- A verdict is taken only with a ticket that is honoured; else nothing happens. -/
theorem completeVerification_cases (s : Session) (ticket : Ticket) (verdict : Verdict)
    (now : UInt64) :
    (¬s.honours ticket ∧
      s.completeVerification ticket verdict now = (.error .concurrentTransition, s)) ∨
    (s.honours ticket ∧
      (s.completeVerification ticket verdict now).2 = s.idle.judged verdict now ∧
      ((s.completeVerification ticket verdict now).1 = .ok () ↔ verdict = .accepted)) := by
  unfold completeVerification redeem
  cases hh : s.honours ticket with
  | false => exact .inl ⟨Bool.false_ne_true, rfl⟩
  | true =>
    cases verdict with
    | accepted => exact .inr ⟨rfl, rfl, by simp⟩
    | rejected failure => exact .inr ⟨rfl, rfl, by simp⟩

/-! ### Distribution rounds -/

theorem nextTurn?_eq_some {round : UInt8} {signer : Role} : s.nextTurn? = some (round, signer) ↔
    s.status.expectedRound? = some round ∧ Role.forRound? round = some signer := by
  simp only [nextTurn?, expectedRound?, bind, Option.bind_eq_some_iff, pure, Option.some.injEq,
    Prod.mk.injEq]
  exact ⟨fun ⟨_, h, _, h', e, e'⟩ => e ▸ e' ▸ ⟨h, h'⟩, fun ⟨h, h'⟩ => ⟨_, h, _, h', rfl, rfl⟩⟩

theorem distributionInput_eq_ok {deposit : Deposit} :
    s.distributionInput role = .ok deposit ↔ s.record.deposit role = some deposit := by
  unfold distributionInput
  cases s.record.deposit role <;> simp

theorem signingPlan_eq_ok {own : Role} {round : UInt8} {inputs : List Deposit}
    {outputs : List Payout} {plan : SigningPlan} :
    s.signingPlan own round inputs outputs = .ok plan ↔
      (round = 0 ∧ plan = .build inputs outputs s.constraints) ∨
      (round ≠ 0 ∧ ∃ candidate key, s.record.candidate = some candidate ∧
        s.parties.key own = some key ∧ plan = .sign candidate key inputs outputs) := by
  unfold signingPlan
  split
  · next h => simp [h, eq_comm]
  · next h =>
    cases s.record.candidate with
    | none => simp [h]
    | some candidate => cases s.parties.key own <;> simp [h, eq_comm]

theorem claimSignature_ok {ticket : Ticket} {plan : SigningPlan}
    (h : s.claimSignature = .ok ((ticket, plan), s')) :
    s.pending = none ∧ ∃ own round inputs outputs, s.role = some own ∧
      s.status.expectedRound? = some round ∧ Role.forRound? round = some own ∧
      Role.all.mapM s.distributionInput = .ok inputs ∧ s.distributionOutputs = .ok outputs ∧
      s.signingPlan own round inputs outputs = .ok plan ∧
      ticket = ⟨.signature round, s.epoch⟩ ∧
      s' = { s with pending := some (.signature round) } := by
  simp only [claimSignature, bind_eq_ok, ensureIdle_eq_ok, localRole_eq_ok] at h
  obtain ⟨_, hp, own, hown, h⟩ := h
  cases ht : s.nextTurn? with
  | none => simp only [ht] at h; exact absurd h throw_ne_ok
  | some turn =>
    obtain ⟨round, signer⟩ := turn
    simp only [ht, check_eq_ok, Decidable.not_not, bind_eq_ok, claim, pure_eq_ok,
      Prod.mk.injEq] at h
    obtain ⟨rfl, inputs, hin, outputs, hout, plan', hplan, ⟨rfl, rfl⟩, rfl⟩ := h
    obtain ⟨hround, hsigner⟩ := nextTurn?_eq_some.1 ht
    exact ⟨hp, signer, round, inputs, outputs, hown, hround, hsigner, hin, hout, hplan, rfl, rfl⟩

/-- Producing a round ends in one of three ways: the ticket is refused and nothing happens; the
number of signatures is wrong and the session is reset by force; or the record takes the round, or
refuses it. -/
theorem completeSignature_cases (s : Session) (ticket : Ticket) (candidate : Bytes) (count : UInt8)
    (now : UInt64) :
    ((∀ round, ticket.transition = .signature round → ¬s.honours ticket) ∧
      s.completeSignature ticket candidate count now = (.error .concurrentTransition, s)) ∨
    ∃ round, ticket.transition = .signature round ∧ s.honours ticket ∧
      ((count ≠ round ∧ s.completeSignature ticket candidate count now =
          (.error (.fatal (wrongCountReason count round)),
            s.idle.forceReset (wrongCountReason count round) now)) ∨
        (count = round ∧ ∃ e, s.record.setCandidate candidate round = .error e ∧
          s.completeSignature ticket candidate count now = (.error (.escrow e), s.idle)) ∨
        (count = round ∧ ∃ record, s.record.setCandidate candidate round = .ok record ∧
          s.completeSignature ticket candidate count now =
            (.ok round, s.idle.roundRecorded record round "produced" now))) := by
  unfold completeSignature redeem
  obtain ⟨transition, epoch⟩ := ticket
  cases transition with
  | signature round =>
    cases hh : s.honours ⟨.signature round, epoch⟩ with
    | false => exact .inl ⟨fun _ _ => Bool.false_ne_true, rfl⟩
    | true =>
      refine .inr ⟨round, rfl, rfl, ?_⟩
      by_cases hc : count = round
      · subst hc
        refine .inr ?_
        cases hs : s.record.setCandidate candidate count with
        | error e => exact .inl ⟨rfl, e, rfl, by simp [hs, idle]⟩
        | ok record => exact .inr ⟨rfl, record, rfl, by simp [hs, idle]⟩
      · exact .inl ⟨hc, by simp [hc, idle]⟩
  | deriveMultisig => exact .inl ⟨nofun, rfl⟩
  | verifyDeposits => exact .inl ⟨nofun, rfl⟩
  | commit => exact .inl ⟨nofun, rfl⟩

theorem awaitedRound_eq_ok {round : UInt8} : s.awaitedRound = .ok round ↔
    ((s.status = .distTxComplete ∨ s.status = .complete) ∧
      round = Escrow.signatureThreshold + 1) ∨
    s.status.expectedRound? = some round := by
  unfold awaitedRound expectedRound?
  cases s.status <;> simp [Status.expectedRound?, eq_comm]

/-- Three signatures are more than a record takes, so a round that is taken is one that comes
next. -/
theorem expected_of_awaited {round : UInt8} {candidate : Bytes} {record : Escrow.Record}
    (ha : s.awaitedRound = .ok round) (hrec : s.record.setCandidate candidate round = .ok record) :
    s.status.expectedRound? = some round := by
  rcases awaitedRound_eq_ok.1 ha with ⟨-, rfl⟩ | hround
  · obtain ⟨hc, -⟩ := Escrow.Record.setCandidate_eq_ok.1 hrec
    exact absurd (Escrow.Record.checkCandidate_ok hc).1 (by decide)
  · exact hround

theorem learnRound_ok {round : UInt8} {candidate : Bytes}
    (h : s.learnRound round candidate now = .ok s') :
    s.pending = none ∧ ∃ own record, s.role = some own ∧ s.status.expectedRound? = some round ∧
      Role.forRound? round ≠ some own ∧ candidate.isEmpty = false ∧
      s.record.setCandidate candidate round = .ok record ∧
      s' = s.roundRecorded record round "received" now := by
  simp only [learnRound, bind_eq_ok, ensureIdle_eq_ok, localRole_eq_ok, check_eq_ok,
    mapError_eq_ok, pure_eq_ok, Bool.not_eq_true] at h
  obtain ⟨_, hp, own, hown, expected, hexp, hge, hle, hsig, hne, record, hrec, rfl⟩ := h
  have hround : round = expected := UInt8.le_antisymm (UInt8.not_lt.1 hle) (UInt8.not_lt.1 hge)
  exact ⟨hp, own, record, hown, expected_of_awaited (hround ▸ hexp) hrec, hsig, hne, hrec, rfl⟩

theorem claimCommit_ok {final : Option Bytes} {ticket : Ticket} {tx : Bytes}
    (h : s.claimCommit final = .ok ((ticket, tx), s')) :
    s.pending = none ∧ s.status = .distTxComplete ∧ s.record.candidate = some tx ∧
      (∀ f, final = some f → f = tx) ∧
      ticket = ⟨.commit, s.epoch⟩ ∧ s' = { s with pending := some .commit } := by
  simp only [claimCommit, bind_eq_ok, ensureIdle_eq_ok, ensureStatus_eq_ok,
    List.mem_singleton] at h
  obtain ⟨_, hp, _, hst, h⟩ := h
  cases hc : s.record.candidate with
  | none => simp only [hc] at h; exact absurd h throw_ne_ok
  | some candidate =>
    simp only [hc, check_eq_ok, claim, pure_eq_ok, Prod.mk.injEq] at h
    obtain ⟨hf, ⟨rfl, rfl⟩, rfl⟩ := h
    exact ⟨hp, hst, rfl, fun f e => by simpa [e] using hf, rfl, rfl⟩

theorem completeCommit_ok {ticket : Ticket} (h : s.completeCommit ticket now = .ok s') :
    s.pending = some ticket.transition ∧ s.epoch = ticket.epoch ∧
      s' = ((s.idle.logged now broadcastEvent).advanced .complete now).touched now := by
  simp only [completeCommit, bind_eq_ok, redeem_eq_ok, pure_eq_ok] at h
  obtain ⟨_, ⟨hp, he, rfl⟩, rfl⟩ := h
  exact ⟨hp, he, rfl⟩

/-! ### Ways out -/

theorem release_cases (s : Session) (ticket : Ticket) :
    (¬s.honours ticket ∧ s.release ticket = s) ∨ (s.honours ticket ∧ s.release ticket = s.idle) := by
  unfold release idle
  split
  · next h => exact .inr ⟨h, rfl⟩
  · next h => exact .inl ⟨h, rfl⟩

theorem markReclaimable_ok (h : s.markReclaimable role now = .ok s') :
    s.pending = none ∧ (s.record.deposit role).isSome ∧
      s' = { s.logged now (reclaimableEvent role) with
        record := s.record.reclaimed role }.touched now := by
  simp only [markReclaimable, bind_eq_ok, ensureIdle_eq_ok, mapError_eq_ok,
    Escrow.Record.markReclaimable_eq_ok, pure_eq_ok] at h
  obtain ⟨_, hp, _, ⟨hd, rfl⟩, rfl⟩ := h
  exact ⟨hp, hd, rfl⟩

theorem canReset_iff : s.canReset = true ↔
    s.status ≠ .distTxComplete ∧ s.status ≠ .complete ∧ s.record.unreclaimed = [] := by
  unfold canReset
  cases s.status <;> simp

theorem reset_ok {keepLog : Bool} (h : s.reset keepLog now = .ok s') :
    s.canReset = true ∧ s' =
      (if keepLog then s.logged now (resetEvent s.status) else s).cleared keepLog now := by
  unfold reset at h
  split at h
  · next hc => exact ⟨hc, (Except.ok.inj h).symm⟩
  · cases h

/-- Several lines are added as each of them is. -/
theorem foldl_logged (s : Session) (now : UInt64) (events : List String) :
    events.foldl (fun s event => s.logged now event) s =
      { s with log := s.log ++ events.map (LogEntry.mk now) } := by
  induction events generalizing s with
  | nil => simp
  | cons event events ih => rw [List.foldl_cons, ih]; simp [logged]

/-- A forced reset leaves the session cleared, with more lines in its log. -/
theorem forceReset_eq (s : Session) (reason : String) (now : UInt64) :
    s.forceReset reason now = { s with log := s.log ++
      (LogEntry.mk now (forcedResetEvent s.status reason) ::
        (strandedEvents s.record).map (LogEntry.mk now)) }.cleared true now := by
  rw [forceReset, foldl_logged]
  simp [logged]

theorem setPeer_ok {peer : PeerId} (h : s.setPeer role peer = .ok s') :
    (∃ own, s.role = some own ∧ role ≠ own) ∧
      s' = { s with parties := s.parties.setPeer role peer } := by
  simp only [setPeer, bind_eq_ok, ensurePeerRole_eq_ok, pure_eq_ok] at h
  obtain ⟨_, hrole, rfl⟩ := h
  exact ⟨hrole, rfl⟩

/-! ### Calls -/

theorem orKeep_eq_ok {α : Type} {x : Except Error (α × Session)} {a : α} :
    s.orKeep x = (.ok a, s') ↔ x = .ok (a, s') := by
  rcases x with e | ⟨a', s''⟩
  · exact ⟨nofun, nofun⟩
  · simp [orKeep]

theorem orKeep_error {α : Type} {x : Except Error (α × Session)} {e : Error}
    (h : s.orKeep x = (.error e, s')) : s' = s := by
  rcases x with e' | ⟨a, s''⟩
  · exact (Prod.mk.inj h).2.symm
  · cases (Prod.mk.inj h).1

theorem orKeepUnit_eq_ok {x : Except Error Session} {u : Unit} :
    s.orKeepUnit x = (.ok u, s') ↔ x = .ok s' := by
  rcases x with e | s''
  · exact ⟨nofun, nofun⟩
  · simp [orKeepUnit]

theorem orKeepUnit_error {x : Except Error Session} {e : Error}
    (h : s.orKeepUnit x = (.error e, s')) : s' = s := by
  rcases x with e' | s''
  · exact (Prod.mk.inj h).2.symm
  · cases (Prod.mk.inj h).1

theorem perform_beginAsSender {schedule : Schedule} {constraints : CoinConstraints}
    {mixer guarantor : PeerId}
    (h : s.beginAsSender schedule constraints mixer guarantor now = .ok s') :
    s.perform now (.beginAsSender schedule constraints mixer guarantor) = (.ok (), s') :=
  orKeepUnit_eq_ok.2 h

theorem perform_beginInvited {sender : PeerId} {schedule : Schedule} {fees : FeePolicy}
    {constraints : CoinConstraints}
    (h : s.beginInvited role sender schedule fees constraints now = .ok s') :
    s.perform now (.beginInvited role sender schedule fees constraints) = (.ok (), s') :=
  orKeepUnit_eq_ok.2 h

theorem perform_reset {keepLog : Bool} (h : s.reset keepLog now = .ok s') :
    s.perform now (.reset keepLog) = (.ok (), s') :=
  orKeepUnit_eq_ok.2 h

/-- The calls that take what a collaborator found; all others leave the session as it was when they
are refused. -/
def Call.isVerdict : Call → Bool
  | .completeVerification .. | .completeSignature .. => true
  | _ => false

theorem perform_error {c : Call} {e : Error} (hc : c.isVerdict = false)
    (h : s.perform now c = (.error e, s')) : s' = s := by
  cases c with
  | setOwnKey | learnKey | claimMultisig | claimVerification | claimSignature | claimCommit =>
    exact orKeep_error h
  | beginAsSender | beginInvited | completeMultisig | recordOwnDeposit | learnDeposit | learnRound
  | completeCommit | markReclaimable | reset | setPeer => exact orKeepUnit_error h
  | completeVerification | completeSignature => cases hc
  | release | forceReset | flag => cases (Prod.mk.inj h).1

end EscrowMix.Session
