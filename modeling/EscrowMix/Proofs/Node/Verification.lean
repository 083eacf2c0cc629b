import EscrowMix.Proofs.Node.Sessions

/-!
Where a check of the deposits comes from. A session whose deposits passed their check looks back on
a moment at which a node claimed the check of just these deposits, and on answers of the ledger that
the check accepted; since then the session was never reset.
-/

namespace EscrowMix

open Node (Wait)
open Session (Later Same Grows)

variable {config : Config} {ms ms' : List Moment} {w w' : Process} {m : Moment} {slot : Slot}

/-! ### Looks at a slot -/

theorem Path.later (h₀ : Path (.start config) ms w) (h : Path w ms' w')
    (hlt : slot < w.node.directory.sessions.length) :
    Later (w.session slot) (w'.session slot) ∧ slot < w'.node.directory.sessions.length := by
  induction h with
  | refl => exact ⟨.refl _, hlt⟩
  | snoc h hm ih =>
    obtain ⟨hl, hlt⟩ := ih
    have hs := (h₀.append h).sound
    have ht := (hm.acts hs.jobs).turns hs.directory
    exact ⟨hl.trans (ht.evolves slot hlt).later, Nat.lt_of_lt_of_le hlt ht.length⟩

/-- While the epoch lasts, every look at the session is the same. -/
theorem Path.same_of_epoch_eq (h : Path (.start config) (ms ++ m :: ms') w)
    (hlt : slot < m.before.node.directory.sessions.length)
    (he : (w.session slot).epoch = (m.before.session slot).epoch) :
    Same (m.before.session slot) (w.session slot) ∧
      ∀ m' ∈ ms', Same (m.before.session slot) (m'.before.session slot) := by
  obtain ⟨h₁, hm, h₂⟩ := h.split
  have hstep : Path m.before [m] m.after := Path.refl.snoc hm
  refine ⟨(h₁.later (hstep.append h₂) hlt).1.same he, fun m' hm' => ?_⟩
  obtain ⟨front, back, rfl⟩ := List.append_of_mem hm'
  obtain ⟨h₃, hm'', h₄⟩ := h₂.split
  obtain ⟨hl, hlt'⟩ := h₁.later (hstep.append h₃) hlt
  have hstep' : Path m'.before [m'] m'.after := Path.refl.snoc hm''
  have hl' := ((h₁.append hstep).append h₃).later (hstep'.append h₄) hlt'
  exact hl.same (Nat.le_antisymm (he ▸ hl'.1.epoch) hl.epoch)

/-- The same from a moment to the last one. -/
theorem Path.same_until {past during : List Moment} {first : Moment}
    (h : Path (.start config) ms m.before) (hms : ms ++ [m] = past ++ first :: during)
    (hlt : slot < first.before.node.directory.sessions.length)
    (he : (m.before.session slot).epoch = (first.before.session slot).epoch) :
    Same (first.before.session slot) (m.before.session slot) ∧
      ∀ m' ∈ during, Same (first.before.session slot) (m'.before.session slot) := by
  rcases cut_eq_snoc hms.symm with ⟨rfl, rfl, rfl⟩ | ⟨front, rfl, rfl⟩
  · exact ⟨.refl _, fun _ hm' => absurd hm' List.not_mem_nil⟩
  · obtain ⟨hsame, hall⟩ := h.same_of_epoch_eq hlt he
    refine ⟨hsame, fun m' hm' => ?_⟩
    rcases List.mem_append.1 hm' with hm' | hm'
    · exact hall m' hm'
    · rw [List.mem_singleton.1 hm']
      exact hsame

/-! ### Checks -/

/-- The plan checks what the session holds: that its escrow address has received its three deposits,
each with what its terms ask of the role. -/
structure Session.IsCheckedBy (s : Session) (plan : VerificationPlan) : Prop where
  escrow : ∃ escrow, s.escrow = some escrow ∧ plan.escrowAddress = escrow.address
  checks : ∃ deposit : Role → Deposit, ∃ required : Role → Amount,
    (∀ r, s.record.deposit r = some (deposit r)) ∧
    (∀ r, s.fees.requiredCoins r s.schedule = .ok (required r)) ∧
    plan.checks = Role.all.map fun r => ⟨r, deposit r, required r⟩

theorem Session.claimVerification_isCheckedBy {s s' : Session} {minConfirmations : UInt32}
    {ticket : Ticket} {plan : VerificationPlan}
    (h : s.claimVerification minConfirmations = .ok ((ticket, plan), s')) : s.IsCheckedBy plan := by
  obtain ⟨-, -, he, -, hc, -⟩ := claimVerification_ok h
  obtain ⟨check, hcheck, hall⟩ := mapM_roles_eq_ok.1 hc
  have hparts : ∀ r, s.record.deposit r = some (check r).deposit ∧
      s.fees.requiredCoins r s.schedule = .ok (check r).required ∧
      check r = ⟨r, (check r).deposit, (check r).required⟩ := by
    intro r
    obtain ⟨deposit, required, hd, hreq, hr⟩ := depositCheck_eq_ok.1 (hcheck r)
    rw [hr]
    exact ⟨hd, hreq, rfl⟩
  refine ⟨he, _, _, fun r => (hparts r).1, fun r => (hparts r).2.1, ?_⟩
  rw [hall]
  exact List.map_congr_left fun r _ => (hparts r).2.2

theorem Session.Grows.isCheckedBy {s s' : Session} {plan : VerificationPlan} (h : Grows s s')
    (hst : s.status ≠ .notBegun) (hc : s.IsCheckedBy plan) : s'.IsCheckedBy plan := by
  obtain ⟨⟨escrow, he, ha⟩, deposit, required, hd, hr, hchecks⟩ := hc
  refine ⟨⟨escrow, h.escrow _ he, ha⟩, deposit, required, fun r => h.deposit r _ (hd r),
    fun r => ?_, hchecks⟩
  rw [h.fees hst, h.schedule hst]
  exact hr r

/-- The deposits of a session were checked earlier: the check was claimed while the same session was
active, the ledger's answers made it accept, and no reset came in between. -/
inductive Verified (ms : List Moment) (slot : Slot) (s : Session) : Prop
  | intro {past during since : List Moment} {check : Moment} {plan : VerificationPlan}
      {log : List Ledger.interface.Exchange} (hms : ms = past ++ check :: (during ++ since))
      (hmove : check.move = .start (.verifyDeposits s.id))
      (hactive : check.before.active = some (s.id, slot)) (hplan : s.IsCheckedBy plan)
      (hmin : plan.minConfirmations = check.before.node.config.minConfirmations)
      (hlog : conversation check.job during = log.map Node.ledgerExchange)
      (hrun : plan.run.run.After log (.done (.ok .accepted)))
      (hbegun : ∀ m ∈ during ++ since, (m.before.session slot).status ≠ .notBegun) :
      Verified ms slot s

theorem Verified.later {s : Session} (h : Verified ms slot (m.before.session slot))
    (hst : (m.before.session slot).status ≠ .notBegun) (hg : Grows (m.before.session slot) s) :
    Verified (ms ++ [m]) slot s := by
  obtain @⟨past, during, since, check, plan, log, rfl, hmove, hactive, hplan, hmin, hlog, hrun, hb⟩ := h
  have hms : past ++ check :: (during ++ since) ++ [m] =
      past ++ check :: (during ++ (since ++ [m])) := by simp
  refine .intro hms ?_ ?_ (hg.isCheckedBy hst hplan) hmin hlog hrun fun m' hm' => ?_
  · rw [hg.id]
    exact hmove
  · rw [hg.id]
    exact hactive
  · rw [← List.append_assoc] at hm'
    rcases List.mem_append.1 hm' with hm' | hm'
    · exact hb m' hm'
    · rw [List.mem_singleton.1 hm']
      exact hst

/-- The deposits pass their check when the ledger's answers made the check accept. -/
theorem Moment.Judges.verified {s : Session} (h : Path (.start config) ms m.before)
    (hm : m.Happens) (hj : m.Judges ms slot) (hg : Grows (m.before.session slot) s) :
    Verified (ms ++ [m]) slot s := by
  obtain ⟨c, @⟨past, during, check, n, wait, w, hms, hmove, hi, hc, hw⟩⟩ := hj
  generalize hlog : conversation m.job during = log at hw
  cases hw with
  | verify hrun =>
    cases hc with
    | @verify id _ epoch plan s' hactive hs =>
      have hplan := Session.claimVerification_isCheckedBy hs
      obtain ⟨-, hst, -, hmin, -, ht, -⟩ := Session.claimVerification_ok hs
      have he : (m.before.session slot).epoch = (check.before.session slot).epoch :=
        congrArg Ticket.epoch ht
      have hcut : Path (.start config) (past ++ check :: during) m.after := by
        rw [← hms]
        exact h.snoc hm
      obtain ⟨hlt, hid⟩ := hcut.split.1.sound.directory.active id slot hactive
      obtain ⟨hsame, hall⟩ := h.same_until hms hlt he
      have hbegun : (check.before.session slot).status ≠ .notBegun := by
        rw [Process.session, hst]
        nofun
      have hg := hsame.grows.trans hg
      rw [← hi, ← Moment.job_of_start hmove] at hlog
      have hsid : s.id = id := hg.id.trans hid
      have hms : ms ++ [m] = past ++ check :: (during ++ []) := by rw [List.append_nil]; exact hms
      refine .intro hms ?_ ?_ (hg.isCheckedBy hbegun hplan) hmin hlog hrun fun m' hm' => ?_
      · rw [hsid]
        exact hmove
      · rw [hsid]
        exact hactive
      · rw [List.append_nil] at hm'
        rw [(hall m' hm').status]
        exact hbegun

theorem Path.verified (h : Path (.start config) ms w) (hv : (w.session slot).IsVerified) :
    Verified ms slot (w.session slot) := by
  induction h with
  | refl =>
    exact absurd hv (Directory.fresh_not_isVerified _ _ _)
  | @snoc ms m h hm ih =>
    have hs := h.sound
    have ht := (hm.acts hs.jobs).turns hs.directory
    rcases Nat.lt_or_ge slot m.before.node.directory.sessions.length with hlt | hle
    · cases ht.evolves slot hlt with
      | same hsame =>
        have hv' := hsame.isVerified_iff.1 hv
        exact (ih hv').later hv'.begun hsame.grows
      | grown hg _ hj =>
        rcases hj hv with hv' | hj
        · exact (ih hv').later hv'.begun hg
        · exact hj.verified h hm hg
      | cleared hc => exact absurd hv hc.not_isVerified
    · exact absurd hv (ht.unverified slot hle)

end EscrowMix
