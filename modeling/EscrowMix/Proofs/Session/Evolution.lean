import EscrowMix.Proofs.Session.Consistent

/-!
How a session changes over time. What the parties share is written once: a call adds to it, leaves
it alone, or clears the session as a whole. Every change ends the epoch, so two looks at a session in
the same epoch see the same data.
-/

namespace EscrowMix.Session

variable {s s' s'' : Session} {now : UInt64}

/-- Only what is kept for the own node may differ: the log, the times, the connections, the flag
and the outstanding transition. -/
structure Same (s s' : Session) : Prop where
  id : s'.id = s.id
  status : s'.status = s.status
  schedule : s'.schedule = s.schedule
  fees : s'.fees = s.fees
  escrow : s'.escrow = s.escrow
  role : s'.role = s.role
  address : ∀ r, s'.parties.address r = s.parties.address r
  key : ∀ r, s'.parties.key r = s.parties.key r
  record : s'.record = s.record

/-- Whatever is known stays as it is, except for the distribution, which a later round replaces. -/
structure Grows (s s' : Session) : Prop where
  id : s'.id = s.id
  status : s.status ≤ s'.status
  schedule : s.status ≠ .notBegun → s'.schedule = s.schedule
  fees : s.status ≠ .notBegun → s'.fees = s.fees
  role : s.status ≠ .notBegun → s'.role = s.role
  address : ∀ r a, s.parties.address r = some a → s'.parties.address r = some a
  key : ∀ r k, s.parties.key r = some k → s'.parties.key r = some k
  escrow : ∀ m, s.escrow = some m → s'.escrow = some m
  deposit : ∀ r d, s.record.deposit r = some d → s'.record.deposit r = some d
  reclaimable : ∀ r, s.record.reclaimable.get r = true → s'.record.reclaimable.get r = true
  signedCount : s.record.signedCount ≤ s'.record.signedCount
  candidate : ∀ tx, s.record.candidate = some tx →
    s'.record.signedCount = s.record.signedCount → s'.record.candidate = some tx

namespace Same

theorem refl (s : Session) : Same s s := ⟨rfl, rfl, rfl, rfl, rfl, rfl, fun _ => rfl, fun _ => rfl, rfl⟩

theorem trans (h : Same s s') (h' : Same s' s'') : Same s s'' where
  id := h'.id.trans h.id
  status := h'.status.trans h.status
  schedule := h'.schedule.trans h.schedule
  fees := h'.fees.trans h.fees
  escrow := h'.escrow.trans h.escrow
  role := h'.role.trans h.role
  address r := (h'.address r).trans (h.address r)
  key r := (h'.key r).trans (h.key r)
  record := h'.record.trans h.record

theorem grows (h : Same s s') : Grows s s' where
  id := h.id
  status := Nat.le_of_eq (congrArg Status.rank h.status.symm)
  schedule _ := h.schedule
  fees _ := h.fees
  role _ := h.role
  address r a ha := by rw [h.address, ha]
  key r k hk := by rw [h.key, hk]
  escrow m hm := by rw [h.escrow, hm]
  deposit r d hd := by rw [h.record, hd]
  reclaimable r hr := by rw [h.record, hr]
  signedCount := by rw [h.record]; exact UInt8.le_refl _
  candidate tx htx _ := by rw [h.record, htx]

end Same

namespace Grows

theorem not_notBegun (h : Grows s s') (hst : s.status ≠ .notBegun) : s'.status ≠ .notBegun := by
  intro e
  have hle := h.status
  rw [e] at hle
  exact hst (Status.rank_inj (Nat.le_zero.1 hle))

theorem trans (h : Grows s s') (h' : Grows s' s'') : Grows s s'' where
  id := h'.id.trans h.id
  status := Nat.le_trans h.status h'.status
  schedule hst := (h'.schedule (h.not_notBegun hst)).trans (h.schedule hst)
  fees hst := (h'.fees (h.not_notBegun hst)).trans (h.fees hst)
  role hst := (h'.role (h.not_notBegun hst)).trans (h.role hst)
  address r a ha := h'.address r a (h.address r a ha)
  key r k hk := h'.key r k (h.key r k hk)
  escrow m hm := h'.escrow m (h.escrow m hm)
  deposit r d hd := h'.deposit r d (h.deposit r d hd)
  reclaimable r hr := h'.reclaimable r (h.reclaimable r hr)
  signedCount := UInt8.le_trans h.signedCount h'.signedCount
  candidate tx htx he := by
    have hle := h'.signedCount
    rw [he] at hle
    have he' : s'.record.signedCount = s.record.signedCount := UInt8.le_antisymm hle h.signedCount
    exact h'.candidate tx (h.candidate tx htx he') (he.trans he'.symm)

/-! ### Small steps -/

theorem logged (s : Session) (now : UInt64) (event : String) : Grows s (s.logged now event) :=
  Same.grows ⟨rfl, rfl, rfl, rfl, rfl, rfl, fun _ => rfl, fun _ => rfl, rfl⟩

theorem touched (s : Session) (now : UInt64) : Grows s (s.touched now) :=
  Same.grows ⟨rfl, rfl, rfl, rfl, rfl, rfl, fun _ => rfl, fun _ => rfl, rfl⟩

theorem idle (s : Session) : Grows s s.idle :=
  Same.grows ⟨rfl, rfl, rfl, rfl, rfl, rfl, fun _ => rfl, fun _ => rfl, rfl⟩

theorem failed (s : Session) (failure : Option EscrowFailure) :
    Grows s { s with escrowFailure := failure } :=
  Same.grows ⟨rfl, rfl, rfl, rfl, rfl, rfl, fun _ => rfl, fun _ => rfl, rfl⟩

theorem advanced (s : Session) {st : Status} (h : s.status ≤ st) (now : UInt64) :
    Grows s (s.advanced st now) where
  id := rfl
  status := h
  schedule _ := rfl
  fees _ := rfl
  role _ := rfl
  address _ _ ha := ha
  key _ _ hk := hk
  escrow _ hm := hm
  deposit _ _ hd := hd
  reclaimable _ hr := hr
  signedCount := UInt8.le_refl _
  candidate _ htx _ := htx

theorem promoted (s : Session) (now : UInt64) : Grows s (s.promoted now) := by
  unfold Session.promoted caughtUp?
  split
  · next st hc =>
    refine advanced s ?_ now
    split at hc
    · next hst =>
      obtain ⟨-, hc⟩ := Option.ite_none_right_eq_some.1 hc
      cases hc
      rw [hst]
      decide
    · next hst =>
      obtain ⟨-, hc⟩ := Option.ite_none_right_eq_some.1 hc
      cases hc
      rw [hst]
      decide
    · cases hc
  · exact (Same.refl s).grows

/-- A growth that ends with a change of status. -/
theorem thenAdvanced (h : Grows s s') {st : Status} (hst : s'.status ≤ st) (now : UInt64) :
    Grows s (s'.advanced st now) :=
  h.trans (advanced s' hst now)

/-- A registry with no less in it. -/
theorem parties (s : Session) {g : Registry} (hr : g.role = s.role)
    (ha : ∀ r a, s.parties.address r = some a → g.address r = some a)
    (hk : ∀ r k, s.parties.key r = some k → g.key r = some k) : Grows s { s with parties := g } where
  id := rfl
  status := Nat.le_refl _
  schedule _ := rfl
  fees _ := rfl
  role _ := hr
  address := ha
  key := hk
  escrow _ hm := hm
  deposit _ _ hd := hd
  reclaimable _ hr := hr
  signedCount := UInt8.le_refl _
  candidate _ htx _ := htx

/-- An address and a key for a role without them. -/
theorem registered (s : Session) {role : Role} (a : Address) (k : PublicKey)
    (ha : s.parties.address role = none) (hk : s.parties.key role = none) :
    Grows s { s with parties := s.parties.registered role a k } := by
  refine parties s rfl (fun r a' h => ?_) fun r k' h => ?_
  · rw [Registry.registered_address, if_neg fun e => ?_, h]
    rw [e, ha] at h
    cases h
  · rw [Registry.registered_key, if_neg fun e => ?_, h]
    rw [e, hk] at h
    cases h

/-- A record with no less in it. -/
theorem record (s : Session) {r : Escrow.Record}
    (hd : ∀ q d, s.record.deposit q = some d → r.deposit q = some d)
    (hr : ∀ q, s.record.reclaimable.get q = true → r.reclaimable.get q = true)
    (hc : s.record.signedCount ≤ r.signedCount)
    (ht : ∀ tx, s.record.candidate = some tx → r.signedCount = s.record.signedCount →
      r.candidate = some tx) : Grows s { s with record := r } where
  id := rfl
  status := Nat.le_refl _
  schedule _ := rfl
  fees _ := rfl
  role _ := rfl
  address _ _ ha := ha
  key _ _ hk := hk
  escrow _ hm := hm
  deposit := hd
  reclaimable := hr
  signedCount := hc
  candidate := ht

/-- A deposit for a role without one. -/
theorem deposited (s : Session) {role : Role} {d : Deposit} {r : Escrow.Record}
    (h : s.record.recordDeposit role d = .ok r) : Grows s { s with record := r } := by
  obtain ⟨hnone, -, rfl⟩ := Escrow.Record.recordDeposit_eq_ok.1 h
  refine record s (fun q d' hd => ?_) (fun _ hr => hr) (UInt8.le_refl _) fun _ ht _ => ht
  rw [Escrow.Record.deposited_deposit, if_neg fun e => ?_, hd]
  rw [e, hnone] at hd
  cases hd

theorem reclaimed (s : Session) (role : Role) :
    Grows s { s with record := s.record.reclaimed role } := by
  refine record s (fun _ _ hd => hd) (fun q hq => ?_) (UInt8.le_refl _) fun _ ht _ => ht
  rw [Escrow.Record.reclaimed_reclaimable]
  split
  · rfl
  · exact hq

/-- A distribution that comes next. -/
theorem proposed (s : Session) {tx : Bytes} {round : UInt8} {r : Escrow.Record}
    (h : s.record.setCandidate tx round = .ok r) : Grows s { s with record := r } := by
  obtain ⟨hc, rfl⟩ := Escrow.Record.setCandidate_eq_ok.1 h
  obtain ⟨-, hle, hnone⟩ := Escrow.Record.checkCandidate_ok hc
  refine record s (fun _ _ hd => hd) (fun _ hr => hr) hle fun tx' htx he => ?_
  rw [hnone he] at htx
  cases htx

end Grows

/-! ### Calls -/

/-- A session that was reset. -/
structure Cleared (s s' : Session) : Prop where
  id : s'.id = s.id
  status : s'.status = .notBegun
  epoch : s'.epoch = s.epoch + 1

/-- The deposits passed their check. -/
def IsVerified (s : Session) : Prop := .depositsVerified ≤ s.status

/-- What a call does to a session: nothing that matters, an addition in a new epoch, or a reset that
leaves no deposit behind unless the own wallet failed or the reset was forced. The deposits pass
their check only when it is judged so. -/
inductive Evolves (s : Session) (excused judged : Prop) : Session → Prop
  | same {s' : Session} (h : Same s s') (he : s'.epoch = s.epoch) : Evolves s excused judged s'
  | grown {s' : Session} (h : Grows s s') (he : s'.epoch = s.epoch + 1)
      (hv : s'.IsVerified → s.IsVerified ∨ judged) : Evolves s excused judged s'
  | cleared {s' : Session} (h : Cleared s s') (hc : s.canReset = true ∨ excused) :
      Evolves s excused judged s'

variable {excused judged : Prop}

theorem Evolves.refl (s : Session) : Evolves s excused judged s := .same (.refl s) rfl

theorem Evolves.id_eq (h : Evolves s excused judged s') : s'.id = s.id := by
  cases h with
  | same h => exact h.id
  | grown h => exact h.id
  | cleared h => exact h.id

theorem Evolves.mono {excused' judged' : Prop} (h : Evolves s excused judged s')
    (he : excused → excused') (hj : judged → judged') : Evolves s excused' judged' s' := by
  cases h with
  | same h he => exact .same h he
  | grown h he hv => exact .grown h he fun h => (hv h).imp_right hj
  | cleared h hc => exact .cleared h (hc.imp_right he)

theorem Evolves.grows (h : Evolves s excused judged s') (hst : s'.status ≠ .notBegun) :
    Grows s s' := by
  cases h with
  | same h => exact h.grows
  | grown h => exact h
  | cleared h => exact absurd h.status hst

theorem Cleared.not_isVerified (h : Cleared s s') : ¬s'.IsVerified := by
  rw [IsVerified, h.status]
  decide

theorem IsVerified.begun (h : s.IsVerified) : s.status ≠ .notBegun := by
  intro e
  rw [IsVerified, e] at h
  exact absurd h (by decide)

theorem Same.isVerified_iff (h : Same s s') : s'.IsVerified ↔ s.IsVerified := by
  rw [IsVerified, IsVerified, h.status]

theorem Evolves.isVerified (h : Evolves s excused judged s') (hv : s'.IsVerified) :
    s.IsVerified ∨ judged := by
  cases h with
  | same h => exact .inl (h.isVerified_iff.1 hv)
  | grown _ _ h => exact h hv
  | cleared h => exact absurd hv h.not_isVerified

theorem Same.canReset_eq (h : Same s s') : s'.canReset = s.canReset := by
  rw [canReset, canReset, h.status, h.record]

/-- A change after one that does not matter. -/
theorem Same.evolves (h : Same s s') (he : s'.epoch = s.epoch)
    (h' : Evolves s' excused judged s'') : Evolves s excused judged s'' := by
  cases h' with
  | same h' he' => exact .same (h.trans h') (he'.trans he)
  | grown h' he' hv =>
    exact .grown (h.grows.trans h') (he'.trans (by rw [he])) fun hv' =>
      (hv hv').imp_left h.isVerified_iff.1
  | cleared h' hc =>
    refine .cleared ⟨h'.id.trans h.id, h'.status, h'.epoch.trans (by rw [he])⟩ ?_
    rwa [h.canReset_eq] at hc

theorem bookkept_evolves (s : Session) (log : List LogEntry) (lastActivity : UInt64)
    (needsIntervention : Bool) (pending : Option Transition) : Evolves s excused judged { s with
      log := log
      lastActivity := lastActivity
      needsIntervention := needsIntervention
      pending := pending } :=
  .same ⟨rfl, rfl, rfl, rfl, rfl, rfl, fun _ => rfl, fun _ => rfl, rfl⟩ rfl

theorem flag_same (s : Session) (now : UInt64) : Same s (s.flag now) := by
  unfold flag
  split
  · exact .refl s
  · exact ⟨rfl, rfl, rfl, rfl, rfl, rfl, fun _ => rfl, fun _ => rfl, rfl⟩

theorem setPeer_same {role : Role} {peer : PeerId} (h : s.setPeer role peer = .ok s') :
    Same s s' := by
  obtain ⟨-, rfl⟩ := setPeer_ok h
  exact ⟨rfl, rfl, rfl, rfl, rfl, rfl, by simp, by simp, rfl⟩

theorem not_isVerified (st : Status) (h : s.status = st) (hst : ¬.depositsVerified ≤ st) :
    ¬s.IsVerified := by
  rw [IsVerified, h]
  exact hst

/-- No session passes the check of its deposits by catching up. -/
theorem promoted_isVerified (now : UInt64) (h : (s.promoted now).IsVerified) : s.IsVerified := by
  rw [promoted_eq] at h
  cases hc : s.caughtUp? with
  | none =>
    rw [hc] at h
    exact h
  | some status =>
    rw [hc] at h
    have h : .depositsVerified ≤ status := h
    unfold caughtUp? at hc
    split at hc
    · cases (Option.ite_none_right_eq_some.1 hc).2
      exact absurd h (by decide)
    · cases (Option.ite_none_right_eq_some.1 hc).2
      exact absurd h (by decide)
    · cases hc

/-- The end of a call that adds something: the status catches up, and the epoch ends. -/
theorem Grows.committed (h : Grows s s') (he : s'.epoch = s.epoch)
    (hv : s'.IsVerified → s.IsVerified) (now : UInt64) :
    Evolves s excused judged ((s'.promoted now).touched now) := by
  refine .grown ((h.trans (.promoted s' now)).trans (.touched _ now)) ?_ fun h =>
    .inl (hv (promoted_isVerified now h))
  rw [promoted_eq]
  exact congrArg (· + 1) he

theorem Grows.ended (h : Grows s s') (he : s'.epoch = s.epoch)
    (hv : s'.IsVerified → s.IsVerified ∨ judged) (now : UInt64) :
    Evolves s excused judged (s'.touched now) :=
  .grown (h.trans (.touched _ now)) (congrArg (· + 1) he) hv

theorem begun_evolves (h : Consistent s) (hst : s.status = .notBegun) (g : Registry)
    (schedule : Schedule) (constraints : CoinConstraints)
    (fees : FeePolicy) (log : List LogEntry) (now : UInt64) : Evolves s excused judged ((({ s with
      log := log
      parties := g
      schedule := schedule
      fees := fees
      constraints := constraints } : Session).advanced .reserved now).touched now) := by
  obtain ⟨-, -, hparties, -⟩ := h.blank hst
  refine .grown ⟨rfl, ?_, fun e => absurd hst e, fun e => absurd hst e, fun e => absurd hst e,
    fun r a ha => ?_, fun r k hk => ?_, fun _ hm => hm, fun _ _ hd => hd, fun _ hr => hr,
    UInt8.le_refl _, fun _ htx _ => htx⟩ rfl fun hv =>
      absurd hv (not_isVerified .reserved rfl (by decide))
  · rw [hst]
    exact Nat.zero_le _
  · rw [hparties, Registry.empty_address] at ha
    cases ha
  · rw [hparties, Registry.empty_key] at hk
    cases hk

theorem setOwnKey_evolves (h : Consistent s) {address : Address} {key : PublicKey} {news : Bool}
    (hs : s.setOwnKey address key now = .ok (news, s')) : Evolves s excused judged s' := by
  obtain ⟨-, hst, own, ho, ⟨-, ha, hk, rfl⟩ | ⟨-, -, -, rfl⟩⟩ := setOwnKey_ok hs
  · have hr : s.status = .reserved := h.reserved_of_no_key ho hst hk
    rw [keyed_of_reserved hr]
    have hg := (Grows.logged s now (ownKeyEvent address key)).trans
      (.registered (s.logged now (ownKeyEvent address key)) address key ha hk)
    have hle : s.status ≤ .initData := by rw [hr]; decide
    exact (hg.thenAdvanced hle now).committed rfl (fun hv =>
      absurd hv (not_isVerified .initData rfl (by decide))) now
  · exact bookkept_evolves s s.log now s.needsIntervention s.pending

theorem learnKey_evolves {role : Role} {address : Address} {key : PublicKey}
    {peer : Option PeerId} {news : Bool}
    (hs : s.learnKey role address key peer now = .ok (news, s')) : Evolves s excused judged s' := by
  obtain ⟨-, -, -, ⟨-, -, ha, hk, rfl⟩ | ⟨-, -, -, rfl⟩⟩ := learnKey_ok hs
  · have hg := (Grows.logged s now (learnedKeyEvent role address key)).trans
      (.registered (s.logged now (learnedKeyEvent role address key)) address key ha hk)
    refine (hg.trans (.parties _ (introduced_role _ role peer) (fun r a h => ?_)
      fun r k h => ?_)).committed rfl (fun hv => hv) now
    · rw [introduced_address]; exact h
    · rw [introduced_key]; exact h
  · exact bookkept_evolves s s.log now s.needsIntervention s.pending

theorem deposited_evolves {role : Role} {deposit : Deposit} {record : Escrow.Record}
    (h : s.record.recordDeposit role deposit = .ok record) (event : String) (now : UInt64) :
    Evolves s excused judged (s.deposited record event now) :=
  ((Grows.logged s now event).trans (.deposited (s.logged now event) h)).committed rfl (fun hv => hv) now

theorem completeMultisig_evolves (h : Consistent s) {ticket : Ticket} {escrow : Multisig}
    (ht : ticket.transition = .deriveMultisig)
    (hs : s.completeMultisig ticket escrow now = .ok s') : Evolves s excused judged s' := by
  obtain ⟨hp, -, rfl⟩ := completeMultisig_ok hs
  have hst : s.status = .pubKey := h.awaits hp ht
  have hle : s.status ≤ .multisigAddr := by rw [hst]; decide
  have hnone : s.escrow = none := h.not_escrowed (by rw [hst]; decide)
  have hg : Grows s { s.idle.logged now (escrowEvent escrow) with escrow := some escrow } := {
    (Grows.idle s).trans (.logged s.idle now (escrowEvent escrow)) with
    escrow := fun m hm => by rw [hnone] at hm; cases hm }
  exact (hg.thenAdvanced hle now).committed rfl (fun hv =>
    absurd hv (not_isVerified .multisigAddr rfl (by decide))) now

/-- A round that comes next leads on. -/
theorem lt_afterRound {st : Status} {round : UInt8} (h : st.expectedRound? = some round) :
    st < .afterRound round := by
  cases st <;> cases h <;> decide

theorem afterRound_ne (n : UInt8) : Status.afterRound n ≠ .notBegun := by
  unfold Status.afterRound
  split <;> decide

/-- The distribution is begun once the deposits passed their check. -/
theorem isVerified_of_round {round : UInt8} (h : s.status.expectedRound? = some round) :
    s.IsVerified := by
  unfold IsVerified
  cases hst : s.status <;> rw [hst] at h <;> cases h <;> decide

theorem roundRecorded_evolves {t : Session} (hg : Grows s t) (he : t.epoch = s.epoch)
    {round : UInt8} {candidate : Bytes} {record : Escrow.Record}
    (hv : t.IsVerified → s.IsVerified) (hround : t.status.expectedRound? = some round)
    (hrec : t.record.setCandidate candidate round = .ok record) (verb : String) (now : UInt64) :
    Evolves s excused judged (t.roundRecorded record round verb now) := by
  have hg := (hg.trans (.logged t now (roundEvent verb round))).trans
    (.proposed (t.logged now (roundEvent verb round)) hrec)
  have hle : t.status ≤ .afterRound round := Nat.le_of_lt (lt_afterRound hround)
  exact (hg.thenAdvanced hle now).ended he (fun _ => .inl (hv (isVerified_of_round hround))) now

theorem completeSignature_evolves (h : Consistent s) {ticket : Ticket} {candidate : Bytes}
    {count : UInt8} {answer : Except Error UInt8}
    (hs : s.completeSignature ticket candidate count now = (answer, s')) :
    Evolves s (∃ reason, answer = .error (.fatal reason)) judged s' := by
  rcases completeSignature_cases s ticket candidate count now with
    ⟨-, e⟩ | ⟨round, ht, hh, ⟨-, e⟩ | ⟨-, _, -, e⟩ | ⟨-, record, hrec, e⟩⟩
  · cases hs.symm.trans e
    exact .refl s
  · cases hs.symm.trans e
    rw [forceReset_eq]
    exact .cleared ⟨rfl, rfl, rfl⟩ (.inr ⟨_, rfl⟩)
  · cases hs.symm.trans e
    exact bookkept_evolves s s.log s.lastActivity s.needsIntervention none
  · cases hs.symm.trans e
    have hround : s.Awaits (.signature round) := h.awaits (honours_iff.1 hh).1 ht
    exact roundRecorded_evolves (.idle s) rfl (fun hv => hv) hround.1 hrec _ now

theorem learnRound_evolves {round : UInt8} {candidate : Bytes}
    (hs : s.learnRound round candidate now = .ok s') : Evolves s excused judged s' := by
  obtain ⟨-, own, record, -, hround, -, -, hrec, rfl⟩ := learnRound_ok hs
  exact roundRecorded_evolves (Same.refl s).grows rfl (fun hv => hv) hround hrec _ now

theorem completeCommit_evolves (h : Consistent s) {ticket : Ticket}
    (ht : ticket.transition = .commit) (hs : s.completeCommit ticket now = .ok s') :
    Evolves s excused judged s' := by
  obtain ⟨hp, -, rfl⟩ := completeCommit_ok hs
  have hst : s.status = .distTxComplete := h.awaits hp ht
  have hle : s.status ≤ .complete := by rw [hst]; decide
  have hg := (Grows.idle s).trans (.logged s.idle now broadcastEvent)
  have hv : s.IsVerified := by rw [IsVerified, hst]; decide
  exact (hg.thenAdvanced hle now).ended rfl (fun _ => .inl hv) now

theorem reset_evolves {keepLog : Bool} (hs : s.reset keepLog now = .ok s') :
    Evolves s excused judged s' := by
  obtain ⟨hc, rfl⟩ := reset_ok hs
  cases keepLog <;> exact .cleared ⟨rfl, rfl, rfl⟩ (.inl hc)

/-- A reset by force; no command asks for one. -/
def Call.isForced : Call → Bool
  | .forceReset _ => true
  | _ => false

/-- A call that neither clears the session by force, nor marks a deposit as reclaimable, nor completes
the session. -/
def Call.isRoutine : Call → Bool
  | .forceReset _ | .markReclaimable _ | .completeCommit _ => false
  | _ => true

/-- What may clear a session that has something to lose: a failure of the own wallet, or force. -/
def Call.Overrides (c : Call) (answer : Except Error c.Answer) : Prop :=
  (∃ reason, answer = .error (.fatal reason)) ∨ c.isForced = true

theorem Call.not_overrides {c : Call} (hc : c.isForced = false) (a : c.Answer) :
    ¬c.Overrides (.ok a) := by
  rintro (⟨reason, he⟩ | he)
  · cases he
  · rw [hc] at he
    cases he

/-- The ticket of a verdict that the deposits passed their check. -/
def Call.acceptance? : Call → Option Ticket
  | .completeVerification ticket .accepted => some ticket
  | _ => none

/-- The call is such a verdict, on the deposits as they are. -/
def Judges (s : Session) (c : Call) : Prop :=
  ∃ ticket, c.acceptance? = some ticket ∧ ticket.epoch = s.epoch

theorem not_judges {c : Call} (hc : c.acceptance? = none) : ¬s.Judges c := by
  rintro ⟨ticket, h, -⟩
  rw [hc] at h
  cases h

theorem perform_evolves (h : Consistent s) {c : Call} (hc : c.IsMatched)
    {answer : Except Error c.Answer} (hs : s.perform now c = (answer, s')) :
    Evolves s (c.Overrides answer) (s.Judges c) s' := by
  cases perform_outcome hs with
  | refused | ignored | flaggedBefore => exact .refl s
  | begunAsSender _ hst _ hset | begunInvited _ hst _ _ hset =>
    obtain ⟨-, -, hparties, -⟩ := h.blank hst
    rw [hparties, Registry.setRole_eq_ok rfl] at hset
    subst hset
    exact begun_evolves h hst _ _ _ _ _ now
  | ownKey | ownKeyAgain => exact setOwnKey_evolves h (orKeep_eq_ok.1 hs)
  | peerKey | peerKeyAgain => exact learnKey_evolves (orKeep_eq_ok.1 hs)
  | multisig => exact completeMultisig_evolves h hc (orKeepUnit_eq_ok.1 hs)
  | ownDeposit _ _ _ hrec | peerDeposit _ _ _ _ hrec => exact deposited_evolves hrec _ now
  | @accepted ticket hh =>
    have hst : s.status = .depositsObserved := h.awaits (honours_iff.1 hh).1 hc
    have hle : s.status ≤ .depositsVerified := by rw [hst]; decide
    have hg := (Grows.idle s).trans (.logged s.idle now verifiedEvent)
    have hjudges : s.Judges (.completeVerification ticket .accepted) :=
      ⟨ticket, rfl, (honours_iff.1 hh).2.symm⟩
    exact ((hg.trans (.failed _ none)).thenAdvanced hle now).ended rfl (fun _ => .inr hjudges) now
  | @rejected _ failure =>
    have hg := (Grows.idle s).trans (.logged s.idle now (rejectedEvent failure))
    exact (hg.trans (.failed _ (some failure))).ended rfl .inl now
  | produced | miscounted | unfit => exact (completeSignature_evolves h hs).mono .inl fun h => h
  | received => exact learnRound_evolves (orKeepUnit_eq_ok.1 hs)
  | committed => exact completeCommit_evolves h hc (orKeepUnit_eq_ok.1 hs)
  | reclaimable => exact ((Grows.logged s now _).trans (.reclaimed _ _)).ended rfl .inl now
  | reset => exact reset_evolves (orKeepUnit_eq_ok.1 hs)
  | forced =>
    rw [forceReset_eq]
    exact .cleared ⟨rfl, rfl, rfl⟩ (.inr (.inr rfl))
  | peerSet => exact .same ⟨rfl, rfl, rfl, rfl, rfl, rfl, by simp, by simp, rfl⟩ rfl
  | claimedMultisig | claimedVerification | claimedSignature | claimedCommit | returned | flagged =>
    exact bookkept_evolves s _ s.lastActivity _ _

/-! ### Later looks -/

/-- A session and a later look at it: it is the same one, and as long as the epoch is the same, so is
what matters. -/
structure Later (s s' : Session) : Prop where
  id : s'.id = s.id
  epoch : s.epoch ≤ s'.epoch
  same : s'.epoch = s.epoch → Same s s'

theorem Later.refl (s : Session) : Later s s := ⟨rfl, Nat.le_refl _, fun _ => .refl s⟩

theorem Later.trans (h : Later s s') (h' : Later s' s'') : Later s s'' where
  id := h'.id.trans h.id
  epoch := Nat.le_trans h.epoch h'.epoch
  same he := by
    have he' : s'.epoch = s.epoch := Nat.le_antisymm (he ▸ h'.epoch) h.epoch
    exact (h.same he').trans (h'.same (he.trans he'.symm))

theorem Evolves.later (h : Evolves s excused judged s') : Later s s' := by
  cases h with
  | same h he => exact ⟨h.id, Nat.le_of_eq he.symm, fun _ => h⟩
  | grown h he =>
    exact ⟨h.id, he ▸ Nat.le_succ _, fun e => absurd (he.symm.trans e) (Nat.succ_ne_self _)⟩
  | cleared h =>
    exact ⟨h.id, h.epoch ▸ Nat.le_succ _,
      fun e => absurd (h.epoch.symm.trans e) (Nat.succ_ne_self _)⟩

end EscrowMix.Session
