import EscrowMix.Proofs.Program
import EscrowMix.Verification

/-!
What the answers of the ledger have shown once a plan accepted: no two of its deposits are the same
output, and each of them is an output that is not spent, with the script that was announced and an
amount that is no less than the required one.
-/

namespace EscrowMix

/-- The ledger answered that the deposit of a check is not spent and secures its share. -/
def DepositCheck.Shown (check : DepositCheck) (log : List Ledger.interface.Exchange) : Prop :=
  ∃ found : Ledger.TxOutput, ⟨.output check.deposit.outPoint, .ok (some found)⟩ ∈ log ∧
    found.script = check.deposit.script ∧ check.required.toNat ≤ found.amount.toNat

theorem DepositCheck.Shown.mono {check : DepositCheck} {log log' : List Ledger.interface.Exchange}
    (h : check.Shown log) (hlog : ∀ x ∈ log, x ∈ log') : check.Shown log' := by
  obtain ⟨found, hmem, hrest⟩ := h
  exact ⟨found, hlog _ hmem, hrest⟩

namespace VerificationPlan

open Program (After)

variable {plan : VerificationPlan} {check : DepositCheck} {checks earlier : List DepositCheck}
  {log : List Ledger.interface.Exchange}

/-- The checks are of different outputs. -/
def Distinct (checks : List DepositCheck) : Prop :=
  checks.Pairwise fun c c' => c.deposit.outPoint ≠ c'.deposit.outPoint

/-- One more check, of an output that none of the others has. -/
theorem Distinct.snoc (h : Distinct checks)
    (hnone : checks.find? (·.deposit.outPoint = check.deposit.outPoint) = none) :
    Distinct (checks ++ [check]) := by
  refine List.pairwise_append.2 ⟨h, List.pairwise_singleton _ _, fun c hc c' hc' => ?_⟩
  rw [List.mem_singleton.1 hc']
  have hc := List.find?_eq_none.1 hnone c hc
  rwa [decide_eq_true_eq] at hc

/-- The search carries along that the checks it has left behind differ in their outputs. -/
theorem findShared_eq_none (he : Distinct earlier) (h : findShared earlier checks = none) :
    Distinct (earlier ++ checks) := by
  induction checks generalizing earlier with
  | nil =>
    rw [List.append_nil]
    exact he
  | cons check rest ih =>
    unfold findShared at h
    split at h
    · cases h
    · next hnone =>
      rw [List.append_cons]
      exact ih (he.snoc hnone) h

theorem sharedOutput?_eq_none (h : plan.sharedOutput? = none) : Distinct plan.checks :=
  findShared_eq_none .nil h

/-- A deposit that fails nothing was found. -/
theorem checkDeposit_shown
    (h : After (plan.checkDeposit check).run log (.done (.ok none))) : check.Shown log := by
  obtain ⟨confirmed, log₁, log₂, -, hmin, rfl⟩ := h.bind_ok
  split at hmin
  · obtain ⟨-, hr⟩ := hmin.of_done
    cases hr
  obtain ⟨found?, log₃, log₄, hout, hrest, rfl⟩ := hmin.bind_ok
  cases hout with
  | @ask _ _ answer _ _ hout =>
    obtain ⟨rfl, hr⟩ := hout.of_done
    cases hr
    cases found? with
    | none =>
      obtain ⟨-, hr⟩ := hrest.of_done
      cases hr
    | some found =>
      dsimp only at hrest
      split at hrest
      · obtain ⟨-, hr⟩ := hrest.of_done
        cases hr
      next hscript =>
      split at hrest
      · obtain ⟨-, hr⟩ := hrest.of_done
        cases hr
      next hamount =>
      refine ⟨found, ?_, Decidable.not_not.1 hscript, Nat.le_of_not_lt hamount⟩
      exact List.mem_append_right _ List.mem_cons_self

theorem checkAll_shown (h : After (plan.checkAll checks).run log (.done (.ok .accepted))) :
    ∀ check ∈ checks, check.Shown log := by
  induction checks generalizing log with
  | nil => exact fun _ hc => absurd hc List.not_mem_nil
  | cons check rest ih =>
    obtain ⟨failure?, log₁, log₂, h₁, h₂, rfl⟩ := h.bind_ok
    cases failure? with
    | some failure =>
      obtain ⟨-, hr⟩ := h₂.of_done
      cases hr
    | none =>
      intro c hc
      rcases List.mem_cons.1 hc with rfl | hc
      · exact (checkDeposit_shown h₁).mono fun x hx => List.mem_append_left _ hx
      · exact (ih h₂ c hc).mono fun x hx => List.mem_append_right _ hx

/-- A plan that accepts has seen every deposit, and no output twice. -/
theorem run_accepted (h : After plan.run.run log (.done (.ok .accepted))) :
    Distinct plan.checks ∧ ∀ check ∈ plan.checks, check.Shown log := by
  unfold run at h
  split at h
  · obtain ⟨-, hr⟩ := h.of_done
    cases hr
  · next hshared => exact ⟨sharedOutput?_eq_none hshared, checkAll_shown h⟩

end VerificationPlan

end EscrowMix
