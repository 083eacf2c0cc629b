import EscrowMix.Proofs.Session.Transitions

/-!
All that a call can come to, in one place: each way for it to end, with what held before, the answer
and the session that is left. Whatever calls keep and whatever they change is read off these cases.
-/

namespace EscrowMix.Session

variable {s s' : Session} {now : UInt64} {c : Call}

/-- How a call ends. -/
inductive Outcome (s : Session) (now : UInt64) :
    (c : Call) → Except Error c.Answer → Session → Prop
  /-- Nothing was written. A verdict is refused so only for its ticket. -/
  | refused {c : Call} {e : Error} (h : c.isVerdict = false ∨ e = .concurrentTransition) :
    Outcome s now c (.error e) s
  | begunAsSender {schedule : Schedule} {constraints : CoinConstraints} {mixer guarantor : PeerId}
      {parties : Registry} (hp : s.pending = none) (hst : s.status = .notBegun)
      (hne : schedule.isEmpty = false) (hset : s.parties.setRole .sender = .ok parties) :
    Outcome s now (.beginAsSender schedule constraints mixer guarantor) (.ok ())
      ((({ s.logged now (senderEvent schedule s.fees) with
        parties := (parties.setPeer .mixer mixer).setPeer .guarantor guarantor
        schedule := schedule
        constraints := constraints }).advanced .reserved now).touched now)
  | begunInvited {role : Role} {sender : PeerId} {schedule : Schedule} {fees : FeePolicy}
      {constraints : CoinConstraints} {parties : Registry} (hp : s.pending = none)
      (hst : s.status = .notBegun) (hrole : role ≠ .sender) (hne : schedule.isEmpty = false)
      (hset : s.parties.setRole role = .ok parties) :
    Outcome s now (.beginInvited role sender schedule fees constraints) (.ok ())
      ((({ s.logged now (invitedEvent role sender schedule fees) with
        parties := parties.setPeer .sender sender
        schedule := schedule
        fees := fees
        constraints := constraints }).advanced .reserved now).touched now)
  | ownKey {own : Role} {address : Address} {key : PublicKey} (hp : s.pending = none)
      (hst : s.status ∈ keyStatuses) (ho : s.role = some own)
      (ha : s.parties.address own = none) (hk : s.parties.key own = none) :
    Outcome s now (.setOwnKey address key) (.ok true)
      (((s.keyed own address key now).promoted now).touched now)
  | ownKeyAgain {own : Role} {address : Address} {key : PublicKey} (hp : s.pending = none)
      (hst : s.status ∈ keyStatuses) (ho : s.role = some own)
      (ha : s.parties.address own = some address) (hk : s.parties.key own = some key) :
    Outcome s now (.setOwnKey address key) (.ok false) { s with lastActivity := now }
  | peerKey {own role : Role} {address : Address} {key : PublicKey} {peer : Option PeerId}
      (hp : s.pending = none) (hst : s.status ∈ keyStatuses) (ho : s.role = some own)
      (hrole : role ≠ own) (ha : s.parties.address role = none)
      (hk : s.parties.key role = none) :
    Outcome s now (.learnKey role address key peer) (.ok true)
      ((({ s.logged now (learnedKeyEvent role address key) with
        parties := introduced (s.parties.registered role address key) role
          peer }).promoted now).touched now)
  | peerKeyAgain {own role : Role} {address : Address} {key : PublicKey} {peer : Option PeerId}
      (hp : s.pending = none) (hst : s.status ≠ .notBegun) (ho : s.role = some own)
      (hrole : role ≠ own) (ha : s.parties.address role = some address)
      (hk : s.parties.key role = some key) :
    Outcome s now (.learnKey role address key peer) (.ok false) { s with lastActivity := now }
  | claimedMultisig {keys : RoleMap PublicKey} (hp : s.pending = none)
      (hst : s.status = .pubKey) (hk : s.parties.keys = some keys) :
    Outcome s now .claimMultisig (.ok (⟨.deriveMultisig, s.epoch⟩, keys))
      { s with pending := some .deriveMultisig }
  | multisig {ticket : Ticket} {escrow : Multisig} (hp : s.pending = some ticket.transition)
      (he : s.epoch = ticket.epoch) :
    Outcome s now (.completeMultisig ticket escrow) (.ok ())
      ((({ s.idle.logged now (escrowEvent escrow) with
        escrow := some escrow }.advanced .multisigAddr now).promoted now).touched now)
  | ownDeposit {own : Role} {deposit : Deposit} {record : Escrow.Record} (hp : s.pending = none)
      (hst : s.status = .multisigAddr) (ho : s.role = some own)
      (hrec : s.record.recordDeposit own deposit = .ok record) :
    Outcome s now (.recordOwnDeposit deposit) (.ok ())
      (s.deposited record (ownDepositEvent deposit) now)
  | peerDeposit {own role : Role} {deposit : Deposit} {record : Escrow.Record}
      (hp : s.pending = none) (hst : s.status ∈ depositStatuses) (ho : s.role = some own)
      (hrole : role ≠ own) (hrec : s.record.recordDeposit role deposit = .ok record) :
    Outcome s now (.learnDeposit role deposit) (.ok ())
      (s.deposited record (learnedDepositEvent role deposit) now)
  | claimedVerification {minConfirmations : UInt32} {plan : VerificationPlan}
      (hp : s.pending = none) (hst : s.status = .depositsObserved) :
    Outcome s now (.claimVerification minConfirmations) (.ok (⟨.verifyDeposits, s.epoch⟩, plan))
      { s with pending := some .verifyDeposits }
  | accepted {ticket : Ticket} (hh : s.honours ticket) :
    Outcome s now (.completeVerification ticket .accepted) (.ok ())
      (s.idle.judged .accepted now)
  | rejected {ticket : Ticket} {failure : EscrowFailure} (hh : s.honours ticket) :
    Outcome s now (.completeVerification ticket (.rejected failure))
      (.error (.verification failure)) (s.idle.judged (.rejected failure) now)
  | claimedSignature {own : Role} {round : UInt8} {plan : SigningPlan} (hp : s.pending = none)
      (ho : s.role = some own) (hround : s.status.expectedRound? = some round)
      (hturn : Role.forRound? round = some own) :
    Outcome s now .claimSignature (.ok (⟨.signature round, s.epoch⟩, plan))
      { s with pending := some (.signature round) }
  /-- The wallet returned another number of signatures than the round asks for. -/
  | miscounted {ticket : Ticket} {candidate : Bytes} {count round : UInt8}
      (ht : ticket.transition = .signature round) (hh : s.honours ticket) (hc : count ≠ round) :
    Outcome s now (.completeSignature ticket candidate count)
      (.error (.fatal (wrongCountReason count round)))
      (s.idle.forceReset (wrongCountReason count round) now)
  /-- The record does not take the round. -/
  | unfit {ticket : Ticket} {candidate : Bytes} {round : UInt8} {e : Escrow.Error}
      (ht : ticket.transition = .signature round) (hh : s.honours ticket)
      (hrec : s.record.setCandidate candidate round = .error e) :
    Outcome s now (.completeSignature ticket candidate round) (.error (.escrow e)) s.idle
  | produced {ticket : Ticket} {candidate : Bytes} {round : UInt8} {record : Escrow.Record}
      (ht : ticket.transition = .signature round) (hh : s.honours ticket)
      (hrec : s.record.setCandidate candidate round = .ok record) :
    Outcome s now (.completeSignature ticket candidate round) (.ok round)
      (s.idle.roundRecorded record round "produced" now)
  | received {own : Role} {round : UInt8} {candidate : Bytes} {record : Escrow.Record}
      (hp : s.pending = none) (ho : s.role = some own)
      (hround : s.status.expectedRound? = some round)
      (hturn : Role.forRound? round ≠ some own)
      (hrec : s.record.setCandidate candidate round = .ok record) :
    Outcome s now (.learnRound round candidate) (.ok ())
      (s.roundRecorded record round "received" now)
  | claimedCommit {final : Option Bytes} {tx : Bytes} (hp : s.pending = none)
      (hst : s.status = .distTxComplete) (hc : s.record.candidate = some tx)
      (hf : ∀ f, final = some f → f = tx) :
    Outcome s now (.claimCommit final) (.ok (⟨.commit, s.epoch⟩, tx))
      { s with pending := some .commit }
  | committed {ticket : Ticket} (hp : s.pending = some ticket.transition)
      (he : s.epoch = ticket.epoch) :
    Outcome s now (.completeCommit ticket) (.ok ())
      (((s.idle.logged now broadcastEvent).advanced .complete now).touched now)
  | returned {ticket : Ticket} (hh : s.honours ticket) :
    Outcome s now (.release ticket) (.ok ()) s.idle
  | ignored {ticket : Ticket} (hh : ¬s.honours ticket) : Outcome s now (.release ticket) (.ok ()) s
  | reclaimable {role : Role} (hp : s.pending = none) (hd : (s.record.deposit role).isSome) :
    Outcome s now (.markReclaimable role) (.ok ())
      ({ s.logged now (reclaimableEvent role) with
        record := s.record.reclaimed role }.touched now)
  | reset {keepLog : Bool} (hc : s.canReset = true) :
    Outcome s now (.reset keepLog) (.ok ())
      ((if keepLog then s.logged now (resetEvent s.status) else s).cleared keepLog now)
  | forced {reason : String} :
    Outcome s now (.forceReset reason) (.ok ()) (s.forceReset reason now)
  | flagged : Outcome s now .flag (.ok ())
      { s.logged now (idleEvent s.status) with needsIntervention := true }
  | flaggedBefore : Outcome s now .flag (.ok ()) s
  | peerSet {own role : Role} {peer : PeerId} (ho : s.role = some own) (hrole : role ≠ own) :
    Outcome s now (.setPeer role peer) (.ok ())
      { s with parties := s.parties.setPeer role peer }

/-- A call that fails leaves the session as it was, but for a verdict with a ticket that is
honoured. -/
theorem perform_outcome_error {e : Error} (hs : s.perform now c = (.error e, s')) :
    Outcome s now c (.error e) s' := by
  cases hc : c.isVerdict with
  | false =>
    rw [perform_error hc hs]
    exact .refused (.inl hc)
  | true =>
    cases c with
    | completeVerification ticket verdict =>
      cases hh : s.honours ticket with
      | false =>
        rw [perform, completeVerification, redeem, hh] at hs
        cases hs
        exact .refused (.inr rfl)
      | true =>
        rw [perform, completeVerification, redeem, hh] at hs
        cases verdict with
        | accepted => cases hs
        | rejected failure =>
          cases hs
          exact .rejected hh
    | completeSignature ticket candidate count =>
      rcases completeSignature_cases s ticket candidate count now with
        ⟨-, he⟩ | ⟨round, ht, hh, ⟨hc, he⟩ | ⟨rfl, _, hrec, he⟩ | ⟨-, _, -, he⟩⟩ <;>
          cases hs.symm.trans he
      · exact .refused (.inr rfl)
      · exact .miscounted ht hh hc
      · exact .unfit ht hh hrec
    | _ => cases hc

theorem perform_outcome_ok {a : c.Answer} (hs : s.perform now c = (.ok a, s')) :
    Outcome s now c (.ok a) s' := by
  cases c with
  | beginAsSender =>
    obtain ⟨hp, hst, hne, parties, hset, rfl⟩ := beginAsSender_ok (orKeepUnit_eq_ok.1 hs)
    exact .begunAsSender hp hst hne hset
  | beginInvited =>
    obtain ⟨hp, hst, hrole, hne, parties, hset, rfl⟩ := beginInvited_ok (orKeepUnit_eq_ok.1 hs)
    exact .begunInvited hp hst hrole hne hset
  | setOwnKey =>
    obtain ⟨hp, hst, own, ho, ⟨rfl, ha, hk, rfl⟩ | ⟨rfl, ha, hk, rfl⟩⟩ :=
      setOwnKey_ok (orKeep_eq_ok.1 hs)
    · exact .ownKey hp hst ho ha hk
    · exact .ownKeyAgain hp hst ho ha hk
  | learnKey =>
    obtain ⟨hp, hst, ⟨own, ho, hrole⟩, ⟨rfl, hmem, ha, hk, rfl⟩ | ⟨rfl, ha, hk, rfl⟩⟩ :=
      learnKey_ok (orKeep_eq_ok.1 hs)
    · exact .peerKey hp hmem ho hrole ha hk
    · exact .peerKeyAgain hp hst ho hrole ha hk
  | claimMultisig =>
    obtain ⟨ticket, keys⟩ := a
    obtain ⟨hp, hst, hk, rfl, rfl⟩ := claimMultisig_ok (orKeep_eq_ok.1 hs)
    exact .claimedMultisig hp hst hk
  | completeMultisig =>
    obtain ⟨hp, he, rfl⟩ := completeMultisig_ok (orKeepUnit_eq_ok.1 hs)
    exact .multisig hp he
  | recordOwnDeposit =>
    obtain ⟨hp, hst, own, record, ho, hrec, rfl⟩ := recordOwnDeposit_ok (orKeepUnit_eq_ok.1 hs)
    exact .ownDeposit hp hst ho hrec
  | learnDeposit =>
    obtain ⟨hp, hst, ⟨own, ho, hrole⟩, record, hrec, rfl⟩ := learnDeposit_ok (orKeepUnit_eq_ok.1 hs)
    exact .peerDeposit hp hst ho hrole hrec
  | claimVerification =>
    obtain ⟨ticket, plan⟩ := a
    obtain ⟨hp, hst, -, -, -, rfl, rfl⟩ := claimVerification_ok (orKeep_eq_ok.1 hs)
    exact .claimedVerification hp hst
  | completeVerification ticket verdict =>
    rcases completeVerification_cases s ticket verdict now with ⟨-, he⟩ | ⟨hh, he, hok⟩
    · cases hs.symm.trans he
    · obtain rfl : verdict = .accepted := hok.1 (Prod.mk.inj hs).1
      obtain rfl : (s.completeVerification ticket .accepted now).2 = s' := (Prod.mk.inj hs).2
      rw [he]
      exact .accepted hh
  | claimSignature =>
    obtain ⟨ticket, plan⟩ := a
    obtain ⟨hp, own, round, _, _, ho, hround, hturn, -, -, -, rfl, rfl⟩ :=
      claimSignature_ok (orKeep_eq_ok.1 hs)
    exact .claimedSignature hp ho hround hturn
  | completeSignature ticket candidate count =>
    rcases completeSignature_cases s ticket candidate count now with
      ⟨-, he⟩ | ⟨round, ht, hh, ⟨-, he⟩ | ⟨-, _, -, he⟩ | ⟨rfl, record, hrec, he⟩⟩ <;>
        cases hs.symm.trans he
    exact .produced ht hh hrec
  | learnRound =>
    obtain ⟨hp, own, record, ho, hround, hturn, -, hrec, rfl⟩ :=
      learnRound_ok (orKeepUnit_eq_ok.1 hs)
    exact .received hp ho hround hturn hrec
  | claimCommit =>
    obtain ⟨ticket, tx⟩ := a
    obtain ⟨hp, hst, hc, hf, rfl, rfl⟩ := claimCommit_ok (orKeep_eq_ok.1 hs)
    exact .claimedCommit hp hst hc hf
  | completeCommit =>
    obtain ⟨hp, he, rfl⟩ := completeCommit_ok (orKeepUnit_eq_ok.1 hs)
    exact .committed hp he
  | release ticket =>
    obtain rfl : s.release ticket = s' := (Prod.mk.inj hs).2
    rcases release_cases s ticket with ⟨hh, he⟩ | ⟨hh, he⟩
    · rw [he]
      exact .ignored hh
    · rw [he]
      exact .returned hh
  | markReclaimable =>
    obtain ⟨hp, hd, rfl⟩ := markReclaimable_ok (orKeepUnit_eq_ok.1 hs)
    exact .reclaimable hp hd
  | reset =>
    obtain ⟨hc, rfl⟩ := reset_ok (orKeepUnit_eq_ok.1 hs)
    exact .reset hc
  | forceReset reason =>
    obtain rfl : s.forceReset reason now = s' := (Prod.mk.inj hs).2
    exact .forced
  | flag =>
    obtain rfl : s.flag now = s' := (Prod.mk.inj hs).2
    rw [flag]
    split
    · exact .flaggedBefore
    · exact .flagged
  | setPeer =>
    obtain ⟨⟨own, ho, hrole⟩, rfl⟩ := setPeer_ok (orKeepUnit_eq_ok.1 hs)
    exact .peerSet ho hrole

/-- Every call ends in one of these ways. -/
theorem perform_outcome {answer : Except Error c.Answer} (hs : s.perform now c = (answer, s')) :
    Outcome s now c answer s' := by
  rcases answer with e | a
  · exact perform_outcome_error hs
  · exact perform_outcome_ok hs

end EscrowMix.Session
