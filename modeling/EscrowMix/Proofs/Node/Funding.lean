import EscrowMix.Proofs.Node.Interleaving
import EscrowMix.Proofs.Node.Signing
import EscrowMix.Proofs.Schedule
import EscrowMix.Proofs.Verification

/-!
The distribution is always funded. The check of the deposits sees three different outputs, each
worth what its role has to place into escrow. The terms and the deposits do not change between the
claim of the check and its completion, because the epoch does not, and afterwards they stay until a
reset. So whatever is signed later spends these three outputs, and pays out what was required of
them but for three network fees.
-/

namespace EscrowMix

namespace SigningPlan

/-- The deposits that the distribution spends. -/
def inputs : SigningPlan → List Deposit
  | build inputs _ _ => inputs
  | sign _ _ inputs _ => inputs

/-- The payouts of the distribution. -/
def outputs : SigningPlan → List Payout
  | build _ outputs _ => outputs
  | sign _ _ _ outputs => outputs

end SigningPlan

/-! ### Sessions whose deposits suffice -/

namespace Session

variable {s s' : Session} {deposit : Role → Deposit} {worth : Role → Nat}

/-- The session holds these deposits, and each is worth what its terms ask of the role. -/
structure Covered (s : Session) (deposit : Role → Deposit) (worth : Role → Nat) : Prop where
  deposits : ∀ role, s.record.deposit role = some (deposit role)
  required : ∃ required : Role → Amount, ∀ role,
    s.fees.requiredCoins role s.schedule = .ok (required role) ∧
      (required role).toNat ≤ worth role

/-- The plan spends just these deposits. Its payouts and three network fees are what the roles had
to place into escrow, and no more than the deposits are worth. -/
structure Funds (s : Session) (plan : SigningPlan) (deposit : Role → Deposit)
    (worth : Role → Nat) : Prop where
  inputs : plan.inputs = Role.all.map deposit
  balance : ∃ required : Role → Amount,
    (∀ role, s.fees.requiredCoins role s.schedule = .ok (required role)) ∧
      Payout.sum plan.outputs + 3 * s.fees.feePerParty.toNat =
        (Role.all.map fun role => (required role).toNat).sum ∧
      (Role.all.map fun role => (required role).toNat).sum ≤ (Role.all.map worth).sum

theorem Retains.covered (h : Retains s s') (hc : s.Covered deposit worth) :
    s'.Covered deposit worth := by
  obtain ⟨hd, required, hr⟩ := hc
  refine ⟨fun role => h.deposit role _ (hd role), required, fun role => ?_⟩
  rw [h.fees, h.schedule]
  exact hr role

/-- What the wallet is asked to sign is what the deposits were placed for. -/
theorem Covered.funds (hc : s.Covered deposit worth) {ticket : Ticket} {plan : SigningPlan}
    (h : s.claimSignature = .ok ((ticket, plan), s')) : s.Funds plan deposit worth := by
  obtain ⟨-, own, round, inputs, outputs, -, -, -, hin, hout, hplan, -, -⟩ := claimSignature_ok h
  obtain ⟨hd, required, hr⟩ := hc
  have hplan : plan.inputs = inputs ∧ plan.outputs = outputs := by
    rcases signingPlan_eq_ok.1 hplan with ⟨-, rfl⟩ | ⟨-, _, _, -, -, rfl⟩
    · exact ⟨rfl, rfl⟩
    · exact ⟨rfl, rfl⟩
  obtain ⟨input, hinput, rfl⟩ := mapM_roles_eq_ok.1 hin
  have hdeposit : input = deposit := by
    funext role
    exact Option.some.inj ((distributionInput_eq_ok.1 (hinput role)).symm.trans (hd role))
  refine ⟨by rw [hplan.1, hdeposit], required, fun role => (hr role).1, ?_, ?_⟩
  · rw [hplan.2]
    exact FeePolicy.distribution_balances (fun role => (hr role).1) (mapError_eq_ok.1 hout)
  · have hs := (hr .sender).2
    have hm := (hr .mixer).2
    have hg := (hr .guarantor).2
    simp only [Role.all, List.map_cons, List.map_nil, List.sum_cons, List.sum_nil]
    omega

/-- A verdict that accepts leaves the terms and the deposits as they are. -/
theorem judged_accepted (s : Session) (now : UInt64) :
    Retains s (s.idle.judged .accepted now) ∧
      (s.idle.judged .accepted now).status = .depositsVerified :=
  ⟨⟨rfl, rfl, fun _ _ hd => hd⟩, rfl⟩

/-- As a session ages, its epoch grows; while it lasts, nothing that matters changes. -/
structure Ages (s s' : Session) : Prop where
  epoch : s.epoch ≤ s'.epoch
  same : s'.epoch = s.epoch → Same s s'

theorem Ages.refl (s : Session) : Ages s s := ⟨Nat.le_refl _, fun _ => .refl s⟩

theorem Ages.trans {s'' : Session} (h : Ages s s') (h' : Ages s' s'') : Ages s s'' := by
  refine ⟨Nat.le_trans h.epoch h'.epoch, fun he => ?_⟩
  have he' : s'.epoch = s.epoch := Nat.le_antisymm (he ▸ h'.epoch) h.epoch
  exact (h.same he').trans (h'.same (he.trans he'.symm))

end Session

namespace Node

open Session (Ages Retains Covered Funds)

variable {n n' : Node} {slot : Slot} {es : List Event} {id : SessionId} {config : Config}
  {reply : Reply}

/-! ### A session among others -/

/-- The steps of others put no restored session into the slot. -/
def Undisturbed (es : List Event) (slot : Slot) : Prop :=
  ∀ q a, .other q a ∈ es → Step.restored? q a ≠ some slot

theorem Drifts.ages (h : Drifts n es n') (hlt : slot < n.directory.sessions.length)
    (hu : Undisturbed es slot) : Ages (n.directory.session slot) (n'.directory.session slot) := by
  induction h with
  | refl => exact .refl _
  | told _ ih => exact ih hlt fun q a hq => hu q a (List.mem_cons_of_mem _ hq)
  | @other n n' es env q h ih =>
    obtain ⟨c, answer, he⟩ := perform_effect n env q hlt (hu _ _ List.mem_cons_self)
    have hlt' := Nat.lt_of_lt_of_le hlt (perform_length n env q)
    have hrest := ih hlt' fun q a hq => hu q a (List.mem_cons_of_mem _ hq)
    exact Ages.trans ⟨he.epoch_le, he.same⟩ hrest

/-- From a session in a slot of a node to a later state of it, which may be in another slot or on
another node: it goes on through steps that neither reset it nor put a restored session in its
place, or is itself read back from its written form. -/
inductive Lives (n : Node) (slot : Slot) : Node → Slot → Prop
  | refl : Lives n slot n slot
  | step {n' : Node} {slot' : Slot} (h : Lives n slot n' slot') (env : Surroundings) (q : Step)
      (hq : q.restored? (n'.perform env q).answer ≠ some slot')
      (hst : ((n'.perform env q).node.directory.session slot').status ≠ .notBegun) :
      Lives n slot (n'.perform env q).node slot'
  | resumed {n' n'' : Node} {slot' slot'' : Slot} (h : Lives n slot n' slot')
      (hs : n''.directory.session slot'' = (n'.directory.session slot').resumed) :
      Lives n slot n'' slot''

/-- A session that goes on keeps its terms and its deposits. -/
theorem Lives.retains {slot' : Slot} (h : Lives n slot n' slot')
    (hst : (n.directory.session slot).status ≠ .notBegun) :
    Retains (n.directory.session slot) (n'.directory.session slot') ∧
      (n'.directory.session slot').status ≠ .notBegun := by
  induction h with
  | refl => exact ⟨.refl _, hst⟩
  | @step n' slot' h env q hq hst' ih =>
    obtain ⟨hr, hst⟩ := ih
    obtain ⟨c, answer, he⟩ := perform_effect n' env q (Directory.lt_length_of_begun hst) hq
    exact ⟨hr.trans (he.retains hst hst'), hst'⟩
  | @resumed n' n'' slot' slot'' h hs ih =>
    obtain ⟨hr, hst⟩ := ih
    rw [hs]
    exact ⟨⟨hr.fees, hr.schedule, hr.deposit⟩, hst⟩

/-! ### The check of the deposits -/

/-- A check that ends well was claimed, accepted by the ledger's answers and completed with its
ticket. -/
theorem among_verifyDeposits (h : Among n (verifyDeposits id config).run es (.ok reply) n') :
    ∃ (slot : Slot) (n₁ : Node) (ticket : Ticket) (plan : VerificationPlan) (s : Session)
      (n₂ : Node) (es₂ : List Event) (log : List Ledger.interface.Exchange) (now : UInt64),
      .own (.step (.lookup id)) (.ok slot) ∈ es ∧
      (n₁.directory.session slot).claimVerification config.minConfirmations =
        .ok ((ticket, plan), s) ∧
      Drifts (n₁.put slot s) es₂ n₂ ∧ (∀ e ∈ es₂, e ∈ es) ∧
      plan.run.run.After log (.done (.ok .accepted)) ∧
      (∀ x ∈ log, Event.own (.ledger x.1) x.2 ∈ es) ∧
      (n₂.directory.session slot).honours ticket ∧
      n' = n₂.put slot ((n₂.directory.session slot).idle.judged .accepted now) := by
  obtain ⟨es₁, n₀, slot, es', -, -, hfound, rfl⟩ := among_lookup h
  obtain ⟨es₂, n₁, now, ⟨ticket, plan⟩, s, es', -, hclaim, hclaimed, rfl⟩ := among_call hfound
  obtain ⟨es₃, n₂, log, outcome, es', hd, hlog, hmem, hasked, rfl⟩ := among_askLedger hclaimed
  cases outcome with
  | error e =>
    obtain ⟨_, _, _, _, _, es', -, -, hthrown, rfl⟩ := among_call hasked
    obtain ⟨-, hr, -⟩ := among_done hthrown
    cases hr
  | ok verdict =>
    obtain ⟨es₄, n₃, now', _, s', es', hd', hverdict, hend, rfl⟩ := among_call hasked
    obtain ⟨rfl, -, rfl⟩ := among_done hend
    have hclaim := Session.orKeep_eq_ok.1 hclaim
    have hverdict : (n₃.directory.session slot).completeVerification ticket verdict now' =
        (.ok (), s') := hverdict
    rcases Session.completeVerification_cases _ ticket verdict now' with
      ⟨-, hc⟩ | ⟨hh, hs, hok⟩
    · rw [hc] at hverdict
      cases hverdict
    · rw [hverdict] at hs hok
      obtain rfl := hok.1 rfl
      refine ⟨slot, n₁, ticket, plan, s, n₃, es₃ ++ es₄, log, now', ?_, hclaim, hd.append hd', ?_,
        hlog, ?_, hh, by rw [← hs]⟩
      · simp
      · intro e he
        rcases List.mem_append.1 he with he | he <;> simp [he]
      · intro x hx
        simp [hmem x hx]

/-- The ledger answered that these outputs are not spent, and they are different ones. -/
structure Backed (es : List Event) (deposit : Role → Deposit)
    (found : Role → Ledger.TxOutput) : Prop where
  unspent : ∀ role, .own (.ledger (.output (deposit role).outPoint)) (.ok (some (found role))) ∈ es
  distinct : ∀ role role', (deposit role).outPoint = (deposit role').outPoint → role = role'

/-- What a check has shown when it accepts: outputs for all deposits of the session. -/
theorem backed_of_accepted {s : Session} {plan : VerificationPlan}
    {log : List Ledger.interface.Exchange} (hc : s.IsCheckedBy plan)
    (hlog : plan.run.run.After log (.done (.ok .accepted)))
    (hmem : ∀ x ∈ log, Event.own (.ledger x.1) x.2 ∈ es) :
    ∃ deposit found, Backed es deposit found ∧
      s.Covered deposit fun role => (found role).amount.toNat := by
  obtain ⟨-, deposit, required, hd, hr, hchecks⟩ := hc
  obtain ⟨hdistinct, hshown⟩ := VerificationPlan.run_accepted hlog
  rw [hchecks] at hdistinct hshown
  have hall : ∀ role, ∃ found : Ledger.TxOutput,
      ⟨.output (deposit role).outPoint, .ok (some found)⟩ ∈ log ∧
        (required role).toNat ≤ found.amount.toNat := by
    intro role
    obtain ⟨found, hfound, -, hle⟩ := hshown _ (List.mem_map_of_mem role.mem_all)
    exact ⟨found, hfound, hle⟩
  obtain ⟨found, hfound⟩ := Classical.axiomOfChoice hall
  refine ⟨deposit, found, ⟨fun role => hmem _ (hfound role).1, fun role role' he => ?_⟩, hd,
    required, fun role => ⟨hr role, (hfound role).2⟩⟩
  simp only [VerificationPlan.Distinct, Role.all, List.map_cons, List.map_nil, List.pairwise_cons,
    List.mem_cons, List.not_mem_nil, or_false, forall_eq_or_imp, forall_eq] at hdistinct
  obtain ⟨⟨hsm, hsg⟩, hmg, -⟩ := hdistinct
  cases role <;> cases role' <;> first | rfl | simp_all

/-- While the check was outstanding, the deposits and the terms stayed what they were when it was
claimed. -/
theorem Drifts.covered {s : Session} {ticket : Ticket} {plan : VerificationPlan}
    {minConfirmations : UInt32} {deposit : Role → Deposit} {worth : Role → Nat}
    (hclaim : (n.directory.session slot).claimVerification minConfirmations =
      .ok ((ticket, plan), s))
    (h : Drifts (n.put slot s) es n') (hu : Undisturbed es slot)
    (hh : (n'.directory.session slot).honours ticket)
    (hc : (n.directory.session slot).Covered deposit worth) :
    (n'.directory.session slot).Covered deposit worth := by
  obtain ⟨-, hst, -, -, -, rfl, hs⟩ := Session.claimVerification_ok hclaim
  have hlt : slot < n.directory.sessions.length :=
    Directory.lt_length_of_begun (by rw [hst]; exact nofun)
  have hput : (n.put slot s).directory.session slot = s := Directory.session_update_self hlt
  have hlt' : slot < (n.put slot s).directory.sessions.length := by
    rw [put, Directory.length_update]
    exact hlt
  have hsame : Session.Same (n.directory.session slot) s := by
    rw [hs]
    exact ⟨rfl, rfl, rfl, rfl, rfl, rfl, fun _ => rfl, fun _ => rfl, rfl⟩
  have ha := h.ages hlt' hu
  rw [hput] at ha
  have hepoch : (n'.directory.session slot).epoch = s.epoch := by
    rw [hs]
    exact (Session.honours_iff.1 hh).2
  exact (hsame.trans (ha.same hepoch)).retains.covered hc

/-- If the check of the deposits ends well, then the answers of the ledger during that run show a
different unspent output for the deposit of every role. For what follows from that the slot must be
`Undisturbed`: no restored session is put into it while the ledger is asked. Whatever state the same
session is in later, as long as it was not reset: if it lets a distribution round be claimed, then
the plan spends exactly these three deposits, and its payouts and three network fees are together
what the three roles had to place into escrow, and no more than the outputs that were shown are
worth. -/
theorem distribution_is_funded (h : Among n (verifyDeposits id config).run es (.ok reply) n') :
    ∃ slot deposit found, .own (.step (.lookup id)) (.ok slot) ∈ es ∧ Backed es deposit found ∧
      (n'.directory.session slot).status = .depositsVerified ∧
      (Undisturbed es slot → ∀ later slot' ticket plan s, Lives n' slot later slot' →
        (later.directory.session slot').claimSignature = .ok ((ticket, plan), s) →
        (later.directory.session slot').Funds plan deposit
          fun role => (found role).amount.toNat) := by
  obtain ⟨slot, n₁, ticket, plan, s, n₂, es₂, log, now, hlookup, hclaim, hd, hes, hlog, hmem, hh,
    rfl⟩ := among_verifyDeposits h
  obtain ⟨deposit, found, hbacked, hcovered⟩ :=
    backed_of_accepted (Session.claimVerification_isCheckedBy hclaim) hlog hmem
  have hlt : slot < n₂.directory.sessions.length :=
    Directory.lt_length_of_pending (Session.honours_iff.1 hh).1
  obtain ⟨hjudged, hst⟩ := Session.judged_accepted (n₂.directory.session slot) now
  generalize (n₂.directory.session slot).idle.judged .accepted now = s₂ at hjudged hst ⊢
  have hput : (n₂.put slot s₂).directory.session slot = s₂ := Directory.session_update_self hlt
  refine ⟨slot, deposit, found, hlookup, hbacked, by rw [hput, hst], ?_⟩
  intro hu later slot' ticket' plan' s' hl hsign
  have hc := hd.covered hclaim (fun q a hq => hu q a (hes _ hq)) hh hcovered
  obtain ⟨hr, -⟩ := hl.retains (by rw [hput, hst]; exact nofun)
  rw [hput] at hr
  exact ((hjudged.trans hr).covered hc).funds hsign

/-! ### A Mixer that checks the deposits -/

namespace CheckingMixer

open SigningMixer

/-- An invited Mixer knows the three deposits. -/
def informed : Node :=
  ((Process.start .standard).afterAll
    ((Process.start .standard).play circumstances (turns.take 10))).node

/-- The check of the deposits. -/
def check : Program interface (Except Error Reply) := (verifyDeposits sessionId .standard).run

/-- The ledger finds all of them. -/
def checked : Node := (check.run (answerIn circumstances) informed).2

/-- The Sender's distribution arrives. -/
def asked : Node :=
  (checked.perform circumstances.surroundings (.call 0 none (.learnRound 0 [1]))).node

end CheckingMixer

open SigningMixer CheckingMixer in
theorem distribution_is_funded_of_mixer :
    ∃ es reply deposit found ticket plan s, Among informed check es (.ok reply) checked ∧
      Undisturbed es 0 ∧ Lives checked 0 asked 0 ∧ Backed es deposit found ∧
      (asked.directory.session 0).claimSignature = .ok ((ticket, plan), s) ∧
      (asked.directory.session 0).Funds plan deposit
        fun role => (found role).amount.toNat := by
  have hreply : (check.run (answerIn circumstances) informed).1.isOk = true := by decide +kernel
  have hlength : checked.directory.sessions.length = 1 := by decide +kernel
  have hasked : (asked.directory.session 0).status ≠ .notBegun := by decide +kernel
  have hsigns : (asked.directory.session 0).claimSignature.isOk = true := by decide +kernel
  obtain ⟨reply, hreply⟩ := exists_eq_ok hreply
  obtain ⟨⟨⟨ticket, plan⟩, s⟩, hsigns⟩ := exists_eq_ok hsigns
  obtain ⟨es, h, halone⟩ := among_run circumstances check informed
  rw [hreply] at h
  have hu : Undisturbed es 0 := fun q a hq => absurd hq (halone q a)
  have hl : Lives checked 0 asked 0 := .step .refl circumstances.surroundings _ nofun hasked
  obtain ⟨slot, deposit, found, -, hbacked, hst, hfunds⟩ := distribution_is_funded h
  have hslot : slot < checked.directory.sessions.length :=
    Directory.lt_length_of_begun (by rw [checked, hst]; exact nofun)
  obtain rfl : slot = 0 := Nat.lt_one_iff.1 (hlength ▸ hslot)
  exact ⟨es, reply, deposit, found, ticket, plan, s, h, hu, hl, hbacked, hsigns,
    hfunds hu asked 0 ticket plan s hl hsigns⟩

end Node

end EscrowMix
