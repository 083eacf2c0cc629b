import EscrowMix.Proofs.Session.Evolution

/-!
What a call does to the outstanding transition and to the epoch, in any session at all, also in one
that a store gave back and in which status and data need not agree.

    call                                  outstanding    epoch     tickets that were honoured before
    refused, or the node's own notes      as before      as before honoured
    a claim                               none -> some   as before (there were none)
    a ticket given back                   some -> none   as before refused
    a change that is committed            -> none        + 1       refused
-/

namespace EscrowMix.Session

variable {s s' s'' : Session} {now : UInt64} {c : Call} {t : Ticket}

/-! ### Kinds of calls -/

namespace Call

/-- The ticket with which a call completes a transition. -/
def redeemed? : Call → Option Ticket
  | .completeMultisig ticket _ | .completeVerification ticket _ | .completeSignature ticket _ _
  | .completeCommit ticket => some ticket
  | _ => none

/-- The ticket that a call uses, to complete a transition or to give it back. -/
def ticket? : Call → Option Ticket
  | .release ticket => some ticket
  | c => c.redeemed?

/-- The ticket that a call hands out. -/
def claimed? : (c : Call) → Except Error c.Answer → Option Ticket
  | .claimMultisig, .ok answer => some answer.1
  | .claimVerification _, .ok answer => some answer.1
  | .claimSignature, .ok answer => some answer.1
  | .claimCommit _, .ok answer => some answer.1
  | _, _ => none

/-- The calls that change nothing the parties share, and that any session takes at any time. -/
def isAside : Call → Bool
  | .flag | .setPeer .. => true
  | _ => false

/-- The calls that have to wait for an outstanding transition. -/
def needsIdle : Call → Bool
  | .completeMultisig .. | .completeVerification .. | .completeSignature .. | .completeCommit ..
  | .release .. | .reset .. | .forceReset .. | .flag | .setPeer .. => false
  | _ => true

/-- A reset that succeeded. -/
def resets : (c : Call) → Except Error c.Answer → Bool
  | .reset _, .ok _ => true
  | .forceReset _, _ => true
  | _, _ => false

theorem ticket?_of_redeemed? (h : c.redeemed? = some t) : c.ticket? = some t := by
  cases c <;> first | exact h | cases h

end Call

/-! ### Refusals -/

theorem ensureIdle_of_busy {t : Transition} (h : s.pending = some t) :
    s.ensureIdle = .error .concurrentTransition := by
  rw [ensureIdle, h]

theorem orKeep_of_busy {α : Type} {t : Transition} (h : s.pending = some t)
    (f : Unit → Except Error (α × Session)) :
    s.orKeep (s.ensureIdle >>= f) = (.error .concurrentTransition, s) := by
  rw [ensureIdle_of_busy h]
  rfl

theorem orKeepUnit_of_busy {t : Transition} (h : s.pending = some t)
    (f : Unit → Except Error Session) :
    s.orKeepUnit (s.ensureIdle >>= f) = (.error .concurrentTransition, s) := by
  rw [ensureIdle_of_busy h]
  rfl

/-- While a transition is outstanding, nothing else is begun. -/
theorem perform_busy {t : Transition} (h : s.pending = some t) (hc : c.needsIdle = true)
    (now : UInt64) : s.perform now c = (.error .concurrentTransition, s) := by
  cases c with
  | setOwnKey | learnKey | claimMultisig | claimVerification | claimSignature | claimCommit =>
    exact orKeep_of_busy h _
  | beginAsSender | beginInvited | recordOwnDeposit | learnDeposit | learnRound | markReclaimable =>
    exact orKeepUnit_of_busy h _
  | completeMultisig | completeVerification | completeSignature | completeCommit | release | reset
  | forceReset | flag | setPeer => cases hc

theorem redeem_of_not_honours (h : ¬s.honours t) : s.redeem t = .error .concurrentTransition := by
  rw [redeem, if_neg h]

theorem redeem_of_honours (h : s.honours t) : s.redeem t = .ok s.idle := by
  rw [redeem, if_pos h, idle]

theorem release_of_not_honours (h : ¬s.honours t) : s.release t = s := by
  rcases release_cases s t with ⟨-, e⟩ | ⟨hh, -⟩
  · exact e
  · exact absurd hh h

theorem release_of_honours (h : s.honours t) : s.release t = s.idle := by
  rcases release_cases s t with ⟨hn, -⟩ | ⟨-, e⟩
  · exact absurd h hn
  · exact e

/-- A ticket that the session does not honour completes nothing. -/
theorem perform_refused (h : ¬s.honours t) (hc : c.redeemed? = some t) (now : UInt64) :
    s.perform now c = (.error .concurrentTransition, s) := by
  cases c with
  | completeMultisig =>
    cases hc
    rw [perform, completeMultisig, redeem_of_not_honours h]
    rfl
  | completeVerification =>
    cases hc
    rcases completeVerification_cases s t _ now with ⟨-, e⟩ | ⟨hh, -⟩
    · exact e
    · exact absurd hh h
  | completeSignature =>
    cases hc
    rcases completeSignature_cases s t _ _ now with ⟨-, e⟩ | ⟨_, -, hh, -⟩
    · exact e
    · exact absurd hh h
  | completeCommit =>
    cases hc
    rw [perform, completeCommit, redeem_of_not_honours h]
    rfl
  | _ => cases hc

/-- Neither does it change anything when it is given back. -/
theorem perform_unhonoured (h : ¬s.honours t) (hc : c.ticket? = some t) (now : UInt64) :
    (s.perform now c).2 = s := by
  cases hr : c.redeemed? with
  | some t' =>
    obtain rfl := Option.some.inj (hc.symm.trans (Call.ticket?_of_redeemed? hr))
    rw [perform_refused h hr]
  | none =>
    cases c with
    | release =>
      cases hc
      exact release_of_not_honours h
    | completeMultisig | completeVerification | completeSignature | completeCommit => cases hr
    | _ => cases hc

/-- A completion with an honoured ticket of its own transition gets past the ticket. -/
theorem perform_honoured (h : s.honours t) (hc : c.redeemed? = some t) (hm : c.IsMatched)
    (now : UInt64) : (s.perform now c).1 ≠ .error .concurrentTransition := by
  cases c with
  | completeMultisig =>
    cases hc
    rw [perform, completeMultisig, redeem_of_honours h]
    intro he
    cases he
  | completeVerification =>
    cases hc
    rename_i verdict
    rw [perform, completeVerification, redeem_of_honours h]
    intro he
    cases verdict <;> cases he
  | completeSignature =>
    cases hc
    obtain ⟨round, hround⟩ := hm
    rcases completeSignature_cases s t _ _ now with
      ⟨hn, -⟩ | ⟨_, -, -, ⟨-, e⟩ | ⟨-, _, -, e⟩ | ⟨-, _, -, e⟩⟩
    · exact absurd h (hn round hround)
    · rw [perform, e]
      intro he
      cases he
    · rw [perform, e]
      intro he
      cases he
    · rw [perform, e]
      intro he
      cases he
  | completeCommit =>
    cases hc
    rw [perform, completeCommit, redeem_of_honours h]
    intro he
    cases he
  | _ => cases hc

/-- Whether or not what the collaborator found is accepted, the ticket is used up. -/
theorem perform_settles (h : s.honours t) (hc : c.ticket? = some t) (hm : c.IsMatched)
    (now : UInt64) : (s.perform now c).2.pending = none := by
  cases c with
  | release =>
    cases hc
    rw [perform, release_of_honours h]
    rfl
  | completeMultisig ticket escrow =>
    cases hc
    rw [perform, completeMultisig, redeem_of_honours h]
    exact congrArg Session.pending (promoted_eq _ now)
  | completeVerification =>
    cases hc
    rename_i verdict
    rw [perform, completeVerification, redeem_of_honours h]
    cases verdict <;> rfl
  | completeSignature =>
    cases hc
    obtain ⟨round, hround⟩ := hm
    rcases completeSignature_cases s t _ _ now with
      ⟨hn, -⟩ | ⟨_, -, -, ⟨-, e⟩ | ⟨-, _, -, e⟩ | ⟨-, _, -, e⟩⟩
    · exact absurd h (hn round hround)
    · rw [perform, e, forceReset_eq]
      rfl
    · rw [perform, e]
      rfl
    · rw [perform, e]
      rfl
  | completeCommit =>
    cases hc
    rw [perform, completeCommit, redeem_of_honours h]
    rfl
  | _ => cases hc

/-- A session with this transition outstanding. -/
def occupied (s : Session) (transition : Transition) : Session :=
  { s with pending := some transition }

theorem occupied_honours (h : s.epoch = t.epoch) : (s.occupied t.transition).honours t :=
  honours_iff.2 ⟨rfl, h⟩

theorem idle_occupied (h : s.pending = none) (transition : Transition) :
    (s.occupied transition).idle = s := by
  rw [occupied, idle, ← h]

theorem setPeer_occupied (s : Session) (role : Role) (peer : PeerId) (p : Transition) :
    (s.occupied p).setPeer role peer = (s.setPeer role peer).map (·.occupied p) := by
  unfold setPeer ensurePeerRole localRole occupied
  cases s.parties.localRole with
  | error e => rfl
  | ok own => cases role <;> cases own <;> rfl

/-- What is noted aside has nothing to do with the outstanding transition. -/
theorem perform_aside (hc : c.isAside = true) (now : UInt64) (p : Transition) :
    ((s.occupied p).perform now c).2 = (s.perform now c).2.occupied p := by
  cases c with
  | flag =>
    by_cases h : s.needsIntervention = true <;> simp [perform, flag, occupied, h, logged]
  | setPeer role peer =>
    rw [perform, perform, setPeer_occupied]
    cases s.setPeer role peer <;> rfl
  | _ => cases hc

theorem perform_aside_kept (hc : c.isAside = true) (s : Session) (now : UInt64) :
    Same s (s.perform now c).2 ∧ (s.perform now c).2.pending = s.pending ∧
      (s.perform now c).2.epoch = s.epoch := by
  cases c with
  | flag =>
    refine ⟨flag_same s now, ?_⟩
    rw [perform, flag]
    split <;> exact ⟨rfl, rfl⟩
  | setPeer role peer =>
    cases hs : s.setPeer role peer with
    | error e =>
      rw [perform, hs]
      exact ⟨.refl s, rfl, rfl⟩
    | ok s' =>
      rw [perform, hs]
      have hsame := setPeer_same hs
      obtain ⟨-, rfl⟩ := setPeer_ok hs
      exact ⟨hsame, rfl, rfl⟩
  | _ => cases hc

/-! ### Effects -/

/-- A begun session keeps its terms, and deposits that were recorded. -/
structure Retains (s s' : Session) : Prop where
  fees : s'.fees = s.fees
  schedule : s'.schedule = s.schedule
  deposit : ∀ r d, s.record.deposit r = some d → s'.record.deposit r = some d

theorem Retains.refl (s : Session) : Retains s s := ⟨rfl, rfl, fun _ _ h => h⟩

theorem Retains.trans (h : Retains s s') (h' : Retains s' s'') : Retains s s'' where
  fees := h'.fees.trans h.fees
  schedule := h'.schedule.trans h.schedule
  deposit r d hd := h'.deposit r d (h.deposit r d hd)

theorem Same.retains (h : Same s s') : Retains s s' :=
  ⟨h.fees, h.schedule, fun r d hd => by rw [h.record, hd]⟩

/-- What a call does, as the table above has it. -/
inductive Effect (s : Session) (c : Call) (answer : Except Error c.Answer) : Session → Prop
  | kept {s' : Session} (h : Same s s') (he : s'.epoch = s.epoch) (hp : s'.pending = s.pending) :
    Effect s c answer s'
  | claimed (t : Ticket) (ht : c.claimed? answer = some t) (hp : s.pending = none)
      (hst : s.status ≠ .notBegun) (he : t.epoch = s.epoch) :
    Effect s c answer (s.occupied t.transition)
  | returned (t : Ticket) (ht : c.ticket? = some t) (hh : s.honours t) : Effect s c answer s.idle
  | committed {s' : Session} (he : s'.epoch = s.epoch + 1) (hp : s'.pending = none)
      (hst : s'.status = .notBegun → s.status = .notBegun ∧ s'.role = s.role)
      (h : s.status ≠ .notBegun → Retains s s') : Effect s c answer s'
  | cleared {s' : Session} (he : s'.epoch = s.epoch + 1) (hp : s'.pending = none)
      (hst : s'.status = .notBegun) (hr : s'.role = none) : Effect s c answer s'

/-- A ticket is handed out when no transition is outstanding, and for the epoch. -/
theorem perform_claimed {answer : Except Error c.Answer} (hs : s.perform now c = (answer, s'))
    (ht : c.claimed? answer = some t) : s.pending = none ∧ s.status ≠ .notBegun ∧
      t.epoch = s.epoch ∧ s' = s.occupied t.transition := by
  cases perform_outcome hs with
  | refused => cases c <;> cases ht
  | claimedMultisig hp hst | claimedVerification hp hst | claimedCommit hp hst =>
    cases ht
    exact ⟨hp, by rw [hst]; decide, rfl, rfl⟩
  | claimedSignature hp _ hround =>
    cases ht
    refine ⟨hp, fun hst => ?_, rfl, rfl⟩
    rw [hst] at hround
    cases hround
  | _ => cases ht

/-- The transition is one that the call claims. -/
def Call.Claims : Call → Transition → Prop
  | .claimMultisig, t => t = .deriveMultisig
  | .claimVerification _, t => t = .verifyDeposits
  | .claimSignature, t => ∃ round, t = .signature round
  | .claimCommit _, t => t = .commit
  | _, _ => False

/-- A ticket that is handed out is for what was claimed. -/
theorem perform_claims {answer : Except Error c.Answer} (hs : s.perform now c = (answer, s'))
    (ht : c.claimed? answer = some t) : c.Claims t.transition := by
  cases perform_outcome hs with
  | refused => cases c <;> cases ht
  | claimedMultisig | claimedVerification | claimedCommit =>
    cases ht
    rfl
  | claimedSignature =>
    cases ht
    exact ⟨_, rfl⟩
  | _ => cases ht

variable {answer : Except Error c.Answer}

theorem Effect.refl : Effect s c answer s := .kept (.refl s) rfl rfl

/-- Data that allows a later status never leads back to the beginning. -/
theorem promoted_begun (h : s.status ≠ .notBegun) (now : UInt64) :
    ((s.promoted now).touched now).status ≠ .notBegun := by
  unfold promoted caughtUp?
  split
  · next st hc =>
    split at hc
    · obtain ⟨-, hc⟩ := Option.ite_none_right_eq_some.1 hc
      cases hc
      exact nofun
    · obtain ⟨-, hc⟩ := Option.ite_none_right_eq_some.1 hc
      cases hc
      exact nofun
    · cases hc
  · exact h

/-- The end of a call that adds to the record or to the registry and lets the status catch up. -/
theorem promoted_effect (he : s'.epoch = s.epoch) (hp : s'.pending = none)
    (hst : s'.status ≠ .notBegun) (h : s.status ≠ .notBegun → Retains s s') (now : UInt64) :
    Effect s c answer ((s'.promoted now).touched now) := by
  have hpr := promoted_eq s' now
  refine .committed ?_ ?_ (fun e => absurd e (promoted_begun hst now)) fun hst => ?_
  · rw [hpr]
    exact congrArg (· + 1) he
  · rw [hpr]
    exact hp
  · have hr := h hst
    rw [hpr]
    exact ⟨hr.fees, hr.schedule, hr.deposit⟩

theorem deposited_effect {role : Role} {deposit : Deposit} {record : Escrow.Record}
    (hp : s.pending = none) (hst : s.status ≠ .notBegun)
    (h : s.record.recordDeposit role deposit = .ok record) (event : String) (now : UInt64) :
    Effect s c answer (s.deposited record event now) := by
  have hg := (Grows.logged s now event).trans (.deposited (s.logged now event) h)
  have hr : Retains s { s.logged now event with record := record } := ⟨rfl, rfl, hg.deposit⟩
  refine promoted_effect ?_ ?_ ?_ (fun _ => hr) now
  · rfl
  · exact hp
  · exact hst

theorem roundRecorded_effect {record : Escrow.Record} {candidate : Bytes} {round : UInt8}
    (he : s'.epoch = s.epoch) (hp : s'.pending = none) (h : Retains s s')
    (hrec : s'.record.setCandidate candidate round = .ok record) (verb : String) (now : UInt64) :
    Effect s c answer (s'.roundRecorded record round verb now) := by
  refine .committed (congrArg (· + 1) he) hp (fun e => absurd e (afterRound_ne round)) fun _ => ?_
  obtain ⟨-, rfl⟩ := Escrow.Record.setCandidate_eq_ok.1 hrec
  exact ⟨h.fees, h.schedule, h.deposit⟩

theorem begun_effect {g : Registry} {schedule : Schedule} {constraints : CoinConstraints}
    {fees : FeePolicy} {log : List LogEntry} (hp : s.pending = none) (hst : s.status = .notBegun)
    (now : UInt64) : Effect s c answer ((({ s with
      log := log
      parties := g
      schedule := schedule
      fees := fees
      constraints := constraints } : Session).advanced .reserved now).touched now) :=
  .committed rfl hp nofun fun h => absurd hst h

theorem bookkept_effect (s : Session) (log : List LogEntry) (lastActivity : UInt64)
    (needsIntervention : Bool) : Effect s c answer { s with
      log := log
      lastActivity := lastActivity
      needsIntervention := needsIntervention } :=
  .kept ⟨rfl, rfl, rfl, rfl, rfl, rfl, fun _ => rfl, fun _ => rfl, rfl⟩ rfl rfl

theorem keyed_retains (s : Session) (role : Role) (a : Address) (k : PublicKey) (now : UInt64) :
    Retains s (s.keyed role a k now) ∧ (s.keyed role a k now).epoch = s.epoch ∧
      (s.keyed role a k now).pending = s.pending ∧
      (s.status ≠ .notBegun → (s.keyed role a k now).status ≠ .notBegun) := by
  unfold keyed
  dsimp only
  split
  · exact ⟨⟨rfl, rfl, fun _ _ hd => hd⟩, rfl, rfl, fun _ => by simp [advanced]⟩
  · exact ⟨⟨rfl, rfl, fun _ _ hd => hd⟩, rfl, rfl, fun hst => hst⟩

/-- A status in which data is taken from others is not the first one. -/
theorem begun_of_mem {statuses : List Status} (h : s.status ∈ statuses)
    (hall : .notBegun ∉ statuses) : s.status ≠ .notBegun :=
  fun e => hall (e ▸ h)

theorem judged_effect (s : Session) (verdict : Verdict) (now : UInt64) :
    Effect s c answer (s.idle.judged verdict now) := by
  cases verdict with
  | accepted => exact .committed rfl rfl nofun fun _ => ⟨rfl, rfl, fun _ _ hd => hd⟩
  | rejected failure =>
    exact .committed rfl rfl (fun hst => ⟨hst, rfl⟩) fun _ => ⟨rfl, rfl, fun _ _ hd => hd⟩

theorem Outcome.effect (h : Outcome s now c answer s') : Effect s c answer s' := by
  cases h with
  | refused | ignored | flaggedBefore => exact .refl
  | begunAsSender hp hst | begunInvited hp hst => exact begun_effect hp hst now
  | ownKey hp hst =>
    obtain ⟨hr, he, hp', hst'⟩ := keyed_retains s _ _ _ now
    exact promoted_effect he (hp'.trans hp) (hst' (begun_of_mem hst (by decide))) (fun _ => hr) now
  | peerKey hp hst =>
    refine promoted_effect ?_ ?_ ?_ (fun _ => ⟨?_, ?_, fun _ _ hd => ?_⟩) now
    · rfl
    · exact hp
    · exact begun_of_mem hst (by decide)
    · rfl
    · rfl
    · exact hd
  | ownKeyAgain | peerKeyAgain => exact bookkept_effect s s.log now s.needsIntervention
  | claimedMultisig hp hst =>
    exact .claimed ⟨.deriveMultisig, s.epoch⟩ rfl hp (by rw [hst]; decide) rfl
  | claimedVerification hp hst =>
    exact .claimed ⟨.verifyDeposits, s.epoch⟩ rfl hp (by rw [hst]; decide) rfl
  | @claimedSignature _ round _ hp _ hround =>
    refine .claimed ⟨.signature round, s.epoch⟩ rfl hp (fun hst => ?_) rfl
    rw [hst] at hround
    cases hround
  | claimedCommit hp hst => exact .claimed ⟨.commit, s.epoch⟩ rfl hp (by rw [hst]; decide) rfl
  | multisig =>
    refine promoted_effect ?_ ?_ ?_ (fun _ => ⟨?_, ?_, fun _ _ hd => ?_⟩) now
    · rfl
    · rfl
    · exact nofun
    · rfl
    · rfl
    · exact hd
  | ownDeposit hp hst _ hrec => exact deposited_effect hp (by rw [hst]; exact nofun) hrec _ now
  | peerDeposit hp hst _ _ hrec =>
    exact deposited_effect hp (begun_of_mem hst (by decide)) hrec _ now
  | accepted | rejected => exact judged_effect s _ now
  | produced _ _ hrec =>
    have hr : Retains s s.idle := ⟨rfl, rfl, fun _ _ hd => hd⟩
    have hp : s.idle.pending = none := rfl
    have he : s.idle.epoch = s.epoch := rfl
    exact roundRecorded_effect he hp hr hrec _ now
  | received hp _ _ _ hrec => exact roundRecorded_effect rfl hp (.refl s) hrec _ now
  | unfit _ hh | returned hh => exact .returned _ rfl hh
  | committed => exact .committed rfl rfl nofun fun _ => ⟨rfl, rfl, fun _ _ hd => hd⟩
  | reclaimable hp =>
    exact .committed rfl hp (fun hst => ⟨hst, rfl⟩) fun _ => ⟨rfl, rfl, fun _ _ hd => hd⟩
  | @reset keepLog => cases keepLog <;> exact .cleared rfl rfl rfl rfl
  | miscounted | forced =>
    rw [forceReset_eq]
    exact .cleared rfl rfl rfl rfl
  | flagged => exact bookkept_effect s _ s.lastActivity true
  | peerSet => exact .kept ⟨rfl, rfl, rfl, rfl, rfl, rfl, by simp, by simp, rfl⟩ rfl rfl

/-- Every call has one of these effects. -/
theorem perform_effect (hs : s.perform now c = (answer, s')) : Effect s c answer s' :=
  (perform_outcome hs).effect

/-! ### What follows for the epoch -/

theorem Effect.epoch_le (h : Effect s c answer s') : s.epoch ≤ s'.epoch := by
  cases h with
  | kept _ he => exact Nat.le_of_eq he.symm
  | claimed | returned => exact Nat.le_refl _
  | committed he | cleared he => exact he ▸ Nat.le_succ _

/-- While the epoch lasts, nothing that matters changes. -/
theorem Effect.same (h : Effect s c answer s') (he : s'.epoch = s.epoch) : Same s s' := by
  cases h with
  | kept h => exact h
  | claimed | returned => exact ⟨rfl, rfl, rfl, rfl, rfl, rfl, fun _ => rfl, fun _ => rfl, rfl⟩
  | committed he' | cleared he' => exact absurd (he'.symm.trans he) (Nat.succ_ne_self _)

/-- Until it is reset, a session keeps its terms and its deposits. -/
theorem Effect.retains (h : Effect s c answer s') (hst : s.status ≠ .notBegun)
    (hst' : s'.status ≠ .notBegun) : Retains s s' := by
  cases h with
  | kept h => exact h.retains
  | claimed | returned => exact ⟨rfl, rfl, fun _ _ hd => hd⟩
  | committed _ _ _ h => exact h hst
  | cleared _ _ h => exact absurd h hst'

/-- What is outstanding afterwards was just claimed, or was outstanding before. -/
theorem Effect.pending (h : Effect s c answer s') {p : Transition} (hp : s'.pending = some p) :
    c.claimed? answer = some ⟨p, s'.epoch⟩ ∨ (s.pending = some p ∧ s'.epoch = s.epoch) := by
  cases h with
  | kept _ he hp' => exact .inr ⟨hp'.symm.trans hp, he⟩
  | claimed t ht _ _ he =>
    obtain rfl := Option.some.inj hp
    obtain ⟨transition, epoch⟩ := t
    obtain rfl : epoch = s.epoch := he
    exact .inl ht
  | returned => cases hp
  | committed _ hp' | cleared _ hp' => cases hp'.symm.trans hp

/-- Before the beginning there is no role, and nothing is outstanding. -/
def Ready (s : Session) : Prop := s.status = .notBegun → s.role = none ∧ s.pending = none

theorem fresh_ready (id : SessionId) (fees : FeePolicy) (now : UInt64) :
    Ready (fresh id fees now) :=
  fun _ => ⟨rfl, rfl⟩

theorem Effect.ready (h : Effect s c answer s') (hs : s.Ready) : s'.Ready := by
  intro hst
  cases h with
  | kept h _ hp =>
    obtain ⟨hr, hp₀⟩ := hs (h.status ▸ hst)
    exact ⟨h.role.trans hr, hp.trans hp₀⟩
  | claimed t _ _ hne => exact absurd hst hne
  | returned t _ hh => exact ⟨(hs hst).1, rfl⟩
  | committed _ hp hst' =>
    obtain ⟨hst₀, hr⟩ := hst' hst
    exact ⟨hr.trans (hs hst₀).1, hp⟩
  | cleared _ hp _ hr => exact ⟨hr, hp⟩

end EscrowMix.Session
