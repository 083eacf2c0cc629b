import EscrowMix.Proofs.Schedule
import EscrowMix.Proofs.Session.Defects
import EscrowMix.Proofs.Session.Rounds
import EscrowMix.Proofs.Verdict

/-!
When a session grants a claim. Each claim has guards in front and then reads data, and would fail if
it were not there. In a session that calls can lead to, the data is always there once the guards let
the claim through: what the status does not promise follows from the terms, which stay as they were
when the deposits were checked.

    claim            granted in an idle session if
    derivation       the status is PubKey
    verification     the status is DepositsObserved and 64 bits hold what the Sender has to place
    signature        the next round is that of the own role
    commit           the status is DistTxComplete, and a final transaction is the one held
-/

namespace EscrowMix.Session

variable {s s' : Session} {now : UInt64} {c : Call} {role : Role} {e : Error}

/-! ### Terms that were checked -/

/-- Once the deposits are being checked, 64 bits hold what the Sender has to place into escrow, and
so all that is computed from the terms. -/
def Afforded (s : Session) : Prop :=
  s.pending = some .verifyDeposits ∨ s.IsVerified → s.fees.senderSum s.schedule < UInt64.size

theorem claimVerification_afforded {least : UInt32} {ticket : Ticket} {plan : VerificationPlan}
    (hs : s.claimVerification least = .ok ((ticket, plan), s')) :
    s.fees.senderSum s.schedule < UInt64.size := by
  obtain ⟨-, -, -, -, hchecks, -, -⟩ := claimVerification_ok hs
  obtain ⟨check, hcheck, -⟩ := mapM_roles_eq_ok.1 hchecks
  obtain ⟨-, required, -, hrequired, -⟩ := depositCheck_eq_ok.1 (hcheck .sender)
  exact FeePolicy.requiredCoins_sender_isOk_iff.1 ⟨required, hrequired⟩

/-- Only the claim of the check makes the check outstanding, and it computes the sum. -/
theorem Afforded.outstanding (h : s.Afforded) (hs : s' = (s.perform now c).2)
    (hp : s'.pending = some .verifyDeposits) : s'.fees.senderSum s'.schedule < UInt64.size := by
  cases perform_effect (Prod.ext rfl hs.symm : s.perform now c = ((s.perform now c).1, s')) with
  | kept hsame _ hkept =>
    rw [hsame.fees, hsame.schedule]
    exact h (.inl (hkept.symm.trans hp))
  | claimed t ht =>
    have htransition : t.transition = .verifyDeposits := Option.some.inj hp
    have hclaims := perform_claims rfl ht
    rw [htransition] at hclaims
    cases c with
    | claimVerification least =>
      cases hout : s.claimVerification least with
      | error e =>
        rw [perform, hout] at ht
        cases ht
      | ok out =>
        have hsum := claimVerification_afforded hout
        exact hsum
    | claimSignature =>
      obtain ⟨round, hround⟩ := hclaims
      cases hround
    | claimMultisig | claimCommit => cases hclaims
    | _ => exact hclaims.elim
  | returned => cases hp
  | committed _ hnone | cleared _ hnone => cases hnone.symm.trans hp

theorem Afforded.perform (ha : s.Afforded) (h : s.Consistent) (hc : c.IsMatched) :
    (s.perform now c).2.Afforded := by
  rintro (hp | hv)
  · exact ha.outstanding rfl hp
  have hs : s.perform now c = ((s.perform now c).1, (s.perform now c).2) := rfl
  have hevolves := perform_evolves h hc hs
  have hgrows : Grows s (s.perform now c).2 := hevolves.grows hv.begun
  have hbefore : s.status ≠ .notBegun ∧ s.fees.senderSum s.schedule < UInt64.size := by
    rcases hevolves.isVerified hv with hv | ⟨ticket, hticket, -⟩
    · exact ⟨hv.begun, ha (.inr hv)⟩
    cases c with
    | completeVerification t verdict =>
      rcases completeVerification_cases s t verdict now with ⟨-, e⟩ | ⟨hh, -⟩
      · rw [Session.perform, e] at hv
        exact ⟨hv.begun, ha (.inr hv)⟩
      · -- the verdict is on the deposits whose check is outstanding
        have hpending : s.pending = some .verifyDeposits := hc ▸ (honours_iff.1 hh).1
        have hst : s.status = .depositsObserved := h.pending _ hpending
        exact ⟨by rw [hst]; decide, ha (.inl hpending)⟩
    | _ => cases hticket
  rw [hgrows.fees hbefore.1, hgrows.schedule hbefore.1]
  exact hbefore.2

theorem Reachable.afforded (h : Reachable s) : s.Afforded := by
  induction h with
  | fresh id fees now => exact fun h => h.elim nofun fun hv => absurd rfl hv.begun
  | perform h now c hc ih => exact ih.perform h.consistent hc

/-! ### Claims -/

/-- The deposits are all there from DepositsObserved on. -/
theorem Consistent.exists_deposits (h : s.Consistent) (hst : .depositsObserved ≤ s.status) :
    ∃ d : Role → Deposit, ∀ r, s.record.deposit r = some (d r) :=
  ⟨fun r => (s.record.deposit r).get (h.record.allDeposits hst r),
    fun r => (Option.some_get (h.record.allDeposits hst r)).symm⟩

theorem claimMultisig_isOk_iff (h : s.Consistent) (hp : s.pending = none) :
    (∃ out, s.claimMultisig = .ok out) ↔ s.status = .pubKey := by
  refine ⟨fun ⟨out, hs⟩ => (claimMultisig_ok hs).2.1, fun hst => ?_⟩
  obtain ⟨keys, hkeys⟩ := Registry.exists_keys (h.parties.allKeys (by rw [hst]; decide))
  exact ⟨_, claimMultisig_of hp hst hkeys⟩

theorem claimVerification_isOk_iff (h : s.Consistent) (hp : s.pending = none) (least : UInt32) :
    (∃ out, s.claimVerification least = .ok out) ↔
      s.status = .depositsObserved ∧ ∃ a, s.fees.requiredCoins .sender s.schedule = .ok a := by
  refine ⟨fun ⟨out, hs⟩ => ⟨(claimVerification_ok hs).2.1,
    FeePolicy.requiredCoins_sender_isOk_iff.2 (claimVerification_afforded hs)⟩, ?_⟩
  rintro ⟨hst, hcoins⟩
  obtain ⟨d, hd⟩ := h.exists_deposits (Nat.le_of_eq (congrArg Status.rank hst.symm))
  obtain ⟨escrow, hescrow⟩ := Option.isSome_iff_exists.1 (h.escrow.2 (by rw [hst]; decide))
  -- what the two other roles have to place is less
  have hall := FeePolicy.requiredCoins_isOk_iff.2 (FeePolicy.requiredCoins_sender_isOk_iff.1 hcoins)
  choose required hrequired using hall
  have hchecks : Role.all.mapM s.depositCheck = .ok (Role.all.map fun r => ⟨r, d r, required r⟩) :=
    mapM_roles_eq_ok.2 ⟨_, fun r => depositCheck_eq_ok.2 ⟨_, _, hd r, hrequired r, rfl⟩, rfl⟩
  have hidle : s.ensureIdle = .ok () := ensureIdle_eq_ok.2 hp
  have hstatus : s.ensureStatus [.depositsObserved] .verifyDeposits = .ok () :=
    ensureStatus_eq_ok.2 (List.mem_singleton.2 hst)
  rw [claimVerification, bind_of_ok hidle, bind_of_ok hstatus, hescrow]
  dsimp only
  rw [bind_of_ok hchecks]
  exact ⟨_, rfl⟩

/-- The distribution is there from DistTxRound0 on. -/
theorem Consistent.exists_candidate (h : s.Consistent) (hst : .distTxRound0 ≤ s.status) :
    ∃ tx, s.record.candidate = some tx :=
  Option.isSome_iff_exists.1 (h.record.candidate.2 hst)

/-- What a round is built on is there: rounds 1 and 2 sign the distribution of the round before. -/
theorem Consistent.exists_signingPlan (h : s.Consistent) {own : Role} {round : UInt8}
    (hkey : (s.parties.key own).isSome) (hround : s.status.expectedRound? = some round)
    (inputs : List Deposit) (outputs : List Payout) :
    ∃ plan, s.signingPlan own round inputs outputs = .ok plan := by
  by_cases h0 : round = 0
  · exact ⟨_, signingPlan_eq_ok.2 (.inl ⟨h0, rfl⟩)⟩
  · have hst : .distTxRound0 ≤ s.status := by
      generalize s.status = st at hround
      cases st <;> cases hround <;> first | decide | exact absurd rfl h0
    obtain ⟨candidate, hc⟩ := h.exists_candidate hst
    obtain ⟨key, hk⟩ := Option.isSome_iff_exists.1 hkey
    exact ⟨_, signingPlan_eq_ok.2 (.inr ⟨h0, candidate, key, hc, hk, rfl⟩)⟩

/-- What a round is made of can be computed. -/
theorem Consistent.exists_round (h : s.Consistent) (ha : s.Afforded) {round : UInt8}
    (hround : s.status.expectedRound? = some round) (own : Role) :
    ∃ inputs outputs plan, Role.all.mapM s.distributionInput = .ok inputs ∧
      s.distributionOutputs = .ok outputs ∧ s.signingPlan own round inputs outputs = .ok plan := by
  have hv : s.IsVerified := isVerified_of_round hround
  obtain ⟨d, hd⟩ := h.exists_deposits (Nat.le_trans (by decide) hv)
  have hkeys := h.parties.allKeys (Nat.le_trans (by decide) hv)
  have haddress : ∀ r, ∃ a, s.parties.address r = some a := fun r => by
    rw [← Option.isSome_iff_exists, h.parties.paired]
    exact hkeys r
  obtain ⟨mixer, hmixer⟩ := haddress .mixer
  obtain ⟨guarantor, hguarantor⟩ := haddress .guarantor
  obtain ⟨toMixer, toGuarantor, -, -, houtputs⟩ :=
    FeePolicy.distributionOutputs_of_senderSum (ha (.inr hv)) mixer guarantor
  have hinputs : Role.all.mapM s.distributionInput = .ok (Role.all.map d) :=
    mapM_roles_eq_ok.2 ⟨d, fun r => distributionInput_eq_ok.2 (hd r), rfl⟩
  have hout : s.distributionOutputs = .ok (s.schedule.payouts ++
      [⟨mixer, toMixer⟩, ⟨guarantor, toGuarantor⟩]) := by
    rw [Session.distributionOutputs, hmixer, hguarantor]
    exact mapError_eq_ok.2 houtputs
  obtain ⟨plan, hplan⟩ := h.exists_signingPlan (hkeys own) hround (Role.all.map d) _
  exact ⟨_, _, plan, hinputs, hout, hplan⟩

theorem claimSignature_isOk_iff (h : s.Consistent) (ha : s.Afforded) (hp : s.pending = none) :
    (∃ out, s.claimSignature = .ok out) ↔
      ∃ own, s.role = some own ∧ s.expectedRound? = some own.signingRound := by
  constructor
  · rintro ⟨out, hs⟩
    obtain ⟨-, own, round, _, _, ho, hround, hsigner, -⟩ := claimSignature_ok hs
    rw [forRound?_eq_some.1 hsigner] at hround
    exact ⟨own, ho, hround⟩
  · rintro ⟨own, ho, hround⟩
    obtain ⟨inputs, outputs, plan, hinputs, houtputs, hplan⟩ := h.exists_round ha hround own
    have hidle : s.ensureIdle = .ok () := ensureIdle_eq_ok.2 hp
    have hown : s.localRole = .ok own := localRole_eq_ok.2 ho
    have hturn : s.nextTurn? = some (own.signingRound, own) :=
      nextTurn?_eq_some.2 ⟨hround, Role.forRound?_signingRound own⟩
    rw [claimSignature, bind_of_ok hidle, bind_of_ok hown, hturn]
    dsimp only
    rw [if_neg (not_not_intro rfl), bind_of_ok hinputs, bind_of_ok houtputs, bind_of_ok hplan]
    exact ⟨_, rfl⟩

theorem claimCommit_of {final : Option Bytes} {tx : Bytes} (hp : s.pending = none)
    (hst : s.status = .distTxComplete) (hc : s.record.candidate = some tx)
    (hf : ∀ f, final = some f → f = tx) : ∃ out, s.claimCommit final = .ok out := by
  have hidle : s.ensureIdle = .ok () := ensureIdle_eq_ok.2 hp
  have hstatus : s.ensureStatus [.distTxComplete] .commit = .ok () :=
    ensureStatus_eq_ok.2 (List.mem_singleton.2 hst)
  have hsame : ¬final.any (· ≠ tx) = true := by
    cases final with
    | none => exact Bool.false_ne_true
    | some f => simp [hf f rfl]
  rw [claimCommit, bind_of_ok hidle, bind_of_ok hstatus, hc]
  dsimp only
  rw [if_neg hsame]
  exact ⟨_, rfl⟩

theorem claimCommit_isOk_iff (h : s.Consistent) (hp : s.pending = none) (final : Option Bytes) :
    (∃ out, s.claimCommit final = .ok out) ↔
      s.status = .distTxComplete ∧ ∀ f, final = some f → s.record.candidate = some f := by
  constructor
  · rintro ⟨out, hs⟩
    obtain ⟨-, hst, hc, hf, -, -⟩ := claimCommit_ok hs
    exact ⟨hst, fun f e => (hf f e).symm ▸ hc⟩
  · rintro ⟨hst, hf⟩
    obtain ⟨tx, hc⟩ := h.exists_candidate (by rw [hst]; decide)
    exact claimCommit_of hp hst hc fun f e => Option.some.inj ((hf f e).symm.trans hc)

/-! ### Claims that are refused -/

theorem requiredCoins_failsAs (f : FeePolicy) (role : Role) (schedule : Schedule) :
    FailsAs (fun e => Error.schedule e = .schedule .amountOverflow)
      (f.requiredCoins role schedule) := by
  have hexactly : ∀ n, FailsAs (fun e => Error.schedule e = .schedule .amountOverflow)
      (Amount.exactly n) := fun n => by
    rcases Nat.lt_or_ge n UInt64.size with hlt | hle
    · obtain ⟨a, ha, -⟩ := Amount.exactly_of_lt hlt
      rw [ha]
      exact failsAs_ok _ _
    · rw [Amount.exactly_of_le hle]
      exact failsAs_error rfl
  by_cases hr : role = .sender
  · rw [hr, FeePolicy.requiredCoins_sender_eq]
    exact hexactly _
  · rw [FeePolicy.requiredCoins_other_eq hr]
    exact hexactly _

theorem depositCheck_failsAs (h : (s.record.deposit role).isSome) :
    FailsAs (· = .schedule .amountOverflow) (s.depositCheck role) := by
  obtain ⟨d, hd⟩ := Option.isSome_iff_exists.1 h
  unfold depositCheck
  rw [hd]
  exact .bind (.mapError (requiredCoins_failsAs _ _ _)) fun _ _ => failsAs_ok _ _

theorem claimVerification_failsAs (h : s.Consistent) (least : UInt32) :
    FailsAs (fun e => e.isDefect = true →
      s.status = .depositsObserved ∧ e = .schedule .amountOverflow)
      (s.claimVerification least) := by
  refine .bind ensureIdle_noDefect.failsAs fun _ _ => ?_
  refine .bind ensureStatus_noDefect.failsAs fun _ hst => ?_
  have hst : s.status = .depositsObserved := List.mem_singleton.1 (ensureStatus_eq_ok.1 hst)
  have hall := h.record.allDeposits (Nat.le_of_eq (congrArg Status.rank hst.symm))
  split
  · exact failsAs_error nofun
  · have hchecks : FailsAs (· = .schedule .amountOverflow) (Role.all.mapM s.depositCheck) :=
      .mapM_roles fun r => depositCheck_failsAs (hall r)
    exact .bind (hchecks.mono fun e he _ => ⟨hst, he⟩) fun _ _ => failsAs_ok _ _

theorem claimSignature_noDefect (h : s.Consistent) (ha : s.Afforded) :
    NoDefect s.claimSignature := by
  refine .bind ensureIdle_noDefect fun _ _ => .bind localRole_noDefect fun own _ => ?_
  cases hturn : s.nextTurn? with
  | none => exact failsAs_error rfl
  | some turn =>
    obtain ⟨round, signer⟩ := turn
    refine .check rfl fun _ => ?_
    have hround := (nextTurn?_eq_some.1 hturn).1
    obtain ⟨inputs, outputs, plan, hinputs, houtputs, hplan⟩ := h.exists_round ha hround own
    rw [bind_of_ok hinputs, bind_of_ok houtputs, bind_of_ok hplan]
    exact failsAs_ok _ _

theorem claimCommit_noDefect (h : s.Consistent) (final : Option Bytes) :
    NoDefect (s.claimCommit final) := by
  refine .bind ensureIdle_noDefect fun _ _ => .bind ensureStatus_noDefect fun _ hst => ?_
  have hst : s.status = .distTxComplete := List.mem_singleton.1 (ensureStatus_eq_ok.1 hst)
  obtain ⟨tx, hc⟩ := h.exists_candidate (by rw [hst]; decide)
  rw [hc]
  exact .check rfl fun _ => failsAs_ok _ _

theorem markReclaimable_failsAs (s : Session) (role : Role) (now : UInt64) :
    FailsAs (fun e => e.isDefect = true →
      s.record.deposit role = none ∧ e = .escrow (.missingDeposit role))
      (s.markReclaimable role now) := by
  refine .bind ensureIdle_noDefect.failsAs fun _ _ => .bind (.mapError ?_) fun _ _ => failsAs_ok _ _
  unfold Escrow.Record.markReclaimable
  split
  · exact failsAs_ok _ _
  · next hd => exact failsAs_error fun _ => ⟨Option.not_isSome_iff_eq_none.1 hd, rfl⟩

/-- Only two calls fail for want of data: marking a deposit that is not there, and the claim of the
check under terms that 64 bits do not hold. -/
theorem perform_defect (h : s.Consistent) (ha : s.Afforded)
    (he : (s.perform now c).1 = .error e) (hd : e.isDefect = true) :
    (∃ r, c = .markReclaimable r ∧ s.record.deposit r = none ∧ e = .escrow (.missingDeposit r)) ∨
      ∃ least, c = .claimVerification least ∧ s.status = .depositsObserved ∧
        e = .schedule .amountOverflow := by
  cases hc : c.readsEscrow with
  | false =>
    rw [perform_noDefect hc e he] at hd
    cases hd
  | true =>
    cases c with
    | markReclaimable r =>
      have hfails := orKeepUnit_failsAs (s := s) (markReclaimable_failsAs s r now)
      exact .inl ⟨r, rfl, hfails e he hd⟩
    | claimVerification least =>
      have hfails := orKeep_failsAs (s := s) (claimVerification_failsAs h least)
      exact .inr ⟨least, rfl, hfails e he hd⟩
    | claimSignature =>
      rw [orKeep_failsAs (claimSignature_noDefect h ha) e he] at hd
      cases hd
    | claimCommit final =>
      rw [orKeep_failsAs (claimCommit_noDefect h final) e he] at hd
      cases hd
    | _ => cases hc

/-! ### What is granted -/

/-- Past the check of the deposits, everyone can be told what to place into escrow. -/
theorem requiredCoins_of_verified (h : s.Consistent) (ha : s.Afforded) (hv : s.IsVerified)
    (role : Option Role) : ∃ a, s.requiredCoins role = .ok a := by
  have hall := FeePolicy.requiredCoins_isOk_iff.2 (ha (.inr hv))
  cases role with
  | some role =>
    obtain ⟨a, hcoins⟩ := hall role
    exact ⟨a, mapError_eq_ok.2 hcoins⟩
  | none =>
    obtain ⟨own, ho⟩ := h.exists_role hv.begun
    obtain ⟨a, hcoins⟩ := hall own
    refine ⟨a, ?_⟩
    rw [requiredCoins, bind_of_ok (localRole_eq_ok.2 ho)]
    exact mapError_eq_ok.2 hcoins

/-- The deposits of a session are different outputs, so a check of them is not refused for that. -/
theorem claimVerification_distinct (h : s.Consistent) {least : UInt32} {ticket : Ticket}
    {plan : VerificationPlan} (hs : s.claimVerification least = .ok ((ticket, plan), s')) :
    VerificationPlan.Distinct plan.checks := by
  obtain ⟨-, -, -, -, hchecks, -, -⟩ := claimVerification_ok hs
  obtain ⟨check, hcheck, he⟩ := mapM_roles_eq_ok.1 hchecks
  rw [he, VerificationPlan.Distinct, List.pairwise_map]
  have hne : ∀ r r', r ≠ r' → (check r).deposit.outPoint ≠ (check r').deposit.outPoint := by
    intro r r' hr
    obtain ⟨d, _, hd, -, hc⟩ := depositCheck_eq_ok.1 (hcheck r)
    obtain ⟨d', _, hd', -, hc'⟩ := depositCheck_eq_ok.1 (hcheck r')
    rw [hc, hc']
    exact fun ho => hr (h.record.outPoints r r' d d' hd hd' ho)
  simp [Role.all, hne]

/-- The claims that a session grants, and what no call of it comes to. -/
structure Enabled (s : Session) : Prop where
  multisig : (∃ out, s.claimMultisig = .ok out) ↔ s.status = .pubKey
  verification : ∀ least, (∃ out, s.claimVerification least = .ok out) ↔
    s.status = .depositsObserved ∧ ∃ a, s.fees.requiredCoins .sender s.schedule = .ok a
  signature : (∃ out, s.claimSignature = .ok out) ↔
    ∃ own, s.role = some own ∧ s.expectedRound? = some own.signingRound
  commit : (∃ out, s.claimCommit none = .ok out) ↔ s.status = .distTxComplete
  commitOf : ∀ tx, (∃ out, s.claimCommit (some tx) = .ok out) ↔
    s.status = .distTxComplete ∧ s.record.candidate = some tx
  /-- Only marking a deposit that is not there and the check under unaffordable terms find data
  missing or too large. -/
  defect : ∀ now c e, (s.perform now c).1 = .error e → e.isDefect = true →
    (∃ r, c = .markReclaimable r ∧ s.record.deposit r = none ∧ e = .escrow (.missingDeposit r)) ∨
      ∃ least, c = .claimVerification least ∧ s.status = .depositsObserved ∧
        e = .schedule .amountOverflow
  affordable : .depositsVerified ≤ s.status → ∀ role, ∃ a, s.requiredCoins role = .ok a
  /-- No check that was granted is refused because two deposits share an output. -/
  unshared : ∀ least ticket plan s', s.claimVerification least = .ok ((ticket, plan), s') →
    ∀ log role holder,
      ¬Program.After plan.run.run log (.done (.ok (.rejected (.sharedOutput role holder))))

/-- An idle session grants a claim just when the protocol has come to it. No call finds that data is
missing or too large, except for a deposit that the caller names and for the check under terms that
were not checked before, and no deposit is ever refused as that of another role. -/
theorem Reachable.enabled (h : Reachable s) (hp : s.pending = none) : Enabled s where
  multisig := claimMultisig_isOk_iff h.consistent hp
  verification := claimVerification_isOk_iff h.consistent hp
  signature := claimSignature_isOk_iff h.consistent h.afforded hp
  commit := by
    rw [claimCommit_isOk_iff h.consistent hp]
    exact ⟨And.left, fun hst => ⟨hst, nofun⟩⟩
  commitOf tx := by
    rw [claimCommit_isOk_iff h.consistent hp]
    exact and_congr_right fun _ => ⟨fun hf => hf tx rfl, fun hc f hf => Option.some.inj hf ▸ hc⟩
  defect _ _ _ := perform_defect h.consistent h.afforded
  affordable := requiredCoins_of_verified h.consistent h.afforded
  unshared _ _ _ _ hs :=
    VerificationPlan.not_shared_of_distinct (claimVerification_distinct h.consistent hs)

open Distributed in
/-- The Mixer has the Sender's distribution and is to sign it. -/
theorem Reachable.enabled_of_mixer :
    let s := invited.after (verified ++ distribution.take 1)
    Enabled s ∧ s.status = .distTxRound0 ∧ ∃ out, s.claimSignature = .ok out := by
  have hstart : Reachable Reclaimed.start := .fresh ..
  have hreach : Reachable (invited.after (verified ++ distribution.take 1)) :=
    (hstart.perform 1 invitation trivial).after fun e he =>
      isMatched e ((List.mem_append.1 he).elim (List.mem_append_left _) fun he =>
        List.mem_append_right _ (List.mem_of_mem_take he))
  have henabled := hreach.enabled (by decide +kernel)
  exact ⟨henabled, by decide +kernel,
    henabled.signature.2 ⟨.mixer, by decide +kernel, by decide +kernel⟩⟩

end EscrowMix.Session
