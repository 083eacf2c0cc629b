import EscrowMix.Proofs.Verification

/-!
Which verdict a plan comes to, and what it asks on the way, when the ledger's answers are fixed
beforehand. The checks are gone through in order, and each has up to three questions:

    question                      passes if the answer is        else
    confirmations of the deposit  at least the minimum           insufficient confirmations
    output of the deposit         there, with the script and     missing, another script,
                                  no less than required          underpaid
    pays the escrow address       yes                            wrong address

The first answer that a check does not pass, or that is an error, is the last one that is asked for.
If two deposits share an output then nothing is asked at all.
-/

namespace EscrowMix

namespace VerificationPlan

open Ledger
open Program (After Gives)

variable {plan : VerificationPlan} {answer : (q : interface.Request) → interface.Answer q}
  {check other : DepositCheck} {earlier checks passed rest : List DepositCheck} {n : Nat}
  {failure : EscrowFailure} {result : Except Ledger.Error EscrowFailure}

/-! ### Shared outputs -/

/-- Checks of different outputs are passed over. -/
theorem findShared_append (h : Distinct (earlier ++ passed)) :
    findShared earlier (passed ++ rest) = findShared (earlier ++ passed) rest := by
  induction passed generalizing earlier with
  | nil => rw [List.nil_append, List.append_nil]
  | cons check passed ih =>
    have hnone : earlier.find? (·.deposit.outPoint = check.deposit.outPoint) = none := by
      refine List.find?_eq_none.2 fun c hc => ?_
      rw [decide_eq_true_eq]
      exact (List.pairwise_append.1 h).2.2 c hc check List.mem_cons_self
    rw [List.append_cons] at h ⊢
    rw [List.cons_append, findShared, hnone]
    exact ih h

theorem findShared_of_distinct (h : Distinct checks) : findShared [] checks = none := by
  have happend : findShared [] (checks ++ []) = findShared ([] ++ checks) [] := findShared_append h
  rwa [List.append_nil] at happend

/-- The check is the first in order that has the output of an earlier one, and the other one is the
earliest with that output. -/
def Repeats (checks : List DepositCheck) (check other : DepositCheck) : Prop :=
  ∃ front middle rest, checks = front ++ other :: middle ++ check :: rest ∧
    Distinct (front ++ other :: middle) ∧ other.deposit.outPoint = check.deposit.outPoint ∧
    ∀ c ∈ front, c.deposit.outPoint ≠ check.deposit.outPoint

theorem Repeats.findShared_eq (h : Repeats checks check other) :
    findShared [] checks = some (.sharedOutput check.role other.role) := by
  obtain ⟨front, middle, rest, rfl, hd, he, hfront⟩ := h
  have hfind : (front ++ other :: middle).find? (·.deposit.outPoint = check.deposit.outPoint) =
      some other := by
    rw [List.find?_eq_some_iff_append]
    exact ⟨decide_eq_true he, front, middle, rfl, fun c hc => by simpa using hfront c hc⟩
  rw [← List.nil_append (front ++ other :: middle)] at hd
  rw [findShared_append hd, List.nil_append, findShared, hfind]

theorem exists_repeats (h : findShared earlier checks = some failure) (hd : Distinct earlier) :
    ∃ check other, Repeats (earlier ++ checks) check other := by
  induction checks generalizing earlier with
  | nil => cases h
  | cons check checks ih =>
    rw [findShared] at h
    split at h
    · next other hfind =>
      obtain ⟨he, front, middle, rfl, hfront⟩ := List.find?_eq_some_iff_append.1 hfind
      exact ⟨check, other, front, middle, checks, rfl, hd, of_decide_eq_true he,
        fun c hc => by simpa using hfront c hc⟩
    · next hnone =>
      rw [List.append_cons]
      exact ih h (hd.snoc hnone)

theorem run_of_distinct (h : Distinct plan.checks) : plan.run = plan.checkAll plan.checks := by
  unfold run sharedOutput?
  rw [findShared_of_distinct h]

/-- No single deposit is found to be shared, whatever the ledger answers. -/
theorem checkDeposit_not_shared {log : List interface.Exchange} {role holder : Role} :
    ¬After (plan.checkDeposit check).run log (.done (.ok (some (.sharedOutput role holder)))) := by
  intro h
  obtain ⟨_, _, _, -, h, -⟩ := h.bind_ok
  split at h
  · cases h.of_done.2
  obtain ⟨found?, _, _, -, h, -⟩ := h.bind_ok
  cases found? with
  | none => cases h.of_done.2
  | some found =>
    dsimp only at h
    split at h
    · cases h.of_done.2
    split at h
    · cases h.of_done.2
    obtain ⟨_, _, _, -, h, -⟩ := h.bind_ok
    split at h <;> cases h.of_done.2

theorem checkAll_not_shared {log : List interface.Exchange} {role holder : Role} :
    ¬After (plan.checkAll checks).run log
      (.done (.ok (.rejected (.sharedOutput role holder)))) := by
  intro h
  induction checks generalizing log with
  | nil => cases h.of_done.2
  | cons check rest ih =>
    obtain ⟨failure?, _, _, hfirst, hrest, -⟩ := h.bind_ok
    cases failure? with
    | some failure =>
      cases hrest.of_done.2
      exact checkDeposit_not_shared hfirst
    | none => exact ih hrest

/-- Only a plan with one output twice is rejected for that, whatever the ledger answers. -/
theorem not_shared_of_distinct (h : Distinct plan.checks) (log : List interface.Exchange)
    (role holder : Role) :
    ¬After plan.run.run log (.done (.ok (.rejected (.sharedOutput role holder)))) := by
  rw [run_of_distinct h]
  exact checkAll_not_shared

/-! ### One deposit -/

/-- The questions about a check, in order. -/
def questions (plan : VerificationPlan) (check : DepositCheck) : List interface.Request :=
  [.confirmations check.deposit.txid, .output check.deposit.outPoint,
    .isConfirmedPaying check.deposit.outPoint plan.escrowAddress check.required]

/-- The deposit has the confirmations that the plan asks for. -/
def Confirmed (plan : VerificationPlan) (answer : (q : interface.Request) → interface.Answer q)
    (check : DepositCheck) : Prop :=
  ∃ confirmed : UInt32, answer (.confirmations check.deposit.txid) = .ok confirmed ∧
    plan.minConfirmations ≤ confirmed

/-- The deposit is an output with the script that was announced and no less than the required
amount. -/
def Funded (answer : (q : interface.Request) → interface.Answer q) (check : DepositCheck) : Prop :=
  ∃ found : Ledger.TxOutput, answer (.output check.deposit.outPoint) = .ok (some found) ∧
    found.script = check.deposit.script ∧ check.required.toNat ≤ found.amount.toNat

/-- The deposit pays the escrow address. -/
def Paid (plan : VerificationPlan) (answer : (q : interface.Request) → interface.Answer q)
    (check : DepositCheck) : Prop :=
  answer (.isConfirmedPaying check.deposit.outPoint plan.escrowAddress check.required) = .ok true

/-- No question about the check fails, and each is answered as it has to be. -/
structure Passes (plan : VerificationPlan) (answer : (q : interface.Request) → interface.Answer q)
    (check : DepositCheck) : Prop where
  confirmed : plan.Confirmed answer check
  funded : Funded answer check
  paid : plan.Paid answer check

/-- The check does not pass: the first `n - 1` of its questions are answered as they have to be, and
the next one fails, or its answer shows what is wrong with the deposit. -/
inductive Fails (plan : VerificationPlan) (answer : (q : interface.Request) → interface.Answer q)
    (check : DepositCheck) : Nat → Except Ledger.Error EscrowFailure → Prop
  | confirmationsUnknown {e : Ledger.Error}
      (h : answer (.confirmations check.deposit.txid) = .error e) :
      Fails plan answer check 1 (.error e)
  | unconfirmed {confirmed : UInt32}
      (h : answer (.confirmations check.deposit.txid) = .ok confirmed)
      (hlt : confirmed < plan.minConfirmations) :
      Fails plan answer check 1
        (.ok (.insufficientConfirmations check.role confirmed plan.minConfirmations))
  | outputUnknown {e : Ledger.Error} (hc : plan.Confirmed answer check)
      (h : answer (.output check.deposit.outPoint) = .error e) :
      Fails plan answer check 2 (.error e)
  | missing (hc : plan.Confirmed answer check)
      (h : answer (.output check.deposit.outPoint) = .ok none) :
      Fails plan answer check 2 (.ok (.missingOutput check.role))
  | mismatch {found : Ledger.TxOutput} (hc : plan.Confirmed answer check)
      (h : answer (.output check.deposit.outPoint) = .ok (some found))
      (hs : found.script ≠ check.deposit.script) :
      Fails plan answer check 2 (.ok (.scriptMismatch check.role))
  | underpaid {found : Ledger.TxOutput} (hc : plan.Confirmed answer check)
      (h : answer (.output check.deposit.outPoint) = .ok (some found))
      (hs : found.script = check.deposit.script) (hlt : found.amount.toNat < check.required.toNat) :
      Fails plan answer check 2 (.ok (.underpaid check.role check.required found.amount))
  | paymentUnknown {e : Ledger.Error} (hc : plan.Confirmed answer check)
      (hf : Funded answer check)
      (h : answer (.isConfirmedPaying check.deposit.outPoint plan.escrowAddress check.required) =
        .error e) :
      Fails plan answer check 3 (.error e)
  | misdirected (hc : plan.Confirmed answer check) (hf : Funded answer check)
      (h : answer (.isConfirmedPaying check.deposit.outPoint plan.escrowAddress check.required) =
        .ok false) : Fails plan answer check 3 (.ok (.wrongAddress check.role))

theorem passes_or_fails (plan : VerificationPlan)
    (answer : (q : interface.Request) → interface.Answer q) (check : DepositCheck) :
    plan.Passes answer check ∨ ∃ n result, plan.Fails answer check n result := by
  rcases h₁ : answer (.confirmations check.deposit.txid) with e | (confirmed : UInt32)
  · exact .inr ⟨1, _, .confirmationsUnknown h₁⟩
  by_cases hlt : confirmed < plan.minConfirmations
  · exact .inr ⟨1, _, .unconfirmed h₁ hlt⟩
  have hc : plan.Confirmed answer check := ⟨confirmed, h₁, UInt32.not_lt.1 hlt⟩
  rcases h₂ : answer (.output check.deposit.outPoint) with e | _ | (found : Ledger.TxOutput)
  · exact .inr ⟨2, _, .outputUnknown hc h₂⟩
  · exact .inr ⟨2, _, .missing hc h₂⟩
  by_cases hs : found.script ≠ check.deposit.script
  · exact .inr ⟨2, _, .mismatch hc h₂ hs⟩
  have hs : found.script = check.deposit.script := Decidable.not_not.1 hs
  by_cases hlt : found.amount.toNat < check.required.toNat
  · exact .inr ⟨2, _, .underpaid hc h₂ hs hlt⟩
  have hf : Funded answer check := ⟨found, h₂, hs, Nat.not_lt.1 hlt⟩
  rcases h₃ : answer (.isConfirmedPaying check.deposit.outPoint plan.escrowAddress check.required)
    with e | _ | _
  · exact .inr ⟨3, _, .paymentUnknown hc hf h₃⟩
  · exact .inr ⟨3, _, .misdirected hc hf h₃⟩
  · exact .inl ⟨hc, hf, h₃⟩

/-- What is left of the check once the confirmations suffice and the output is worth enough. -/
def checkPayment (plan : VerificationPlan) (check : DepositCheck) :
    Asking (Option EscrowFailure) := do
  if ← isConfirmedPaying check.deposit.outPoint plan.escrowAddress check.required then
    return none
  else
    return some (.wrongAddress check.role)

/-- What is left of the check once the confirmations suffice. -/
def checkOutput (plan : VerificationPlan) (check : DepositCheck) :
    Asking (Option EscrowFailure) := do
  match ← output check.deposit.outPoint with
  | none => return some (.missingOutput check.role)
  | some found =>
    if found.script ≠ check.deposit.script then
      return some (.scriptMismatch check.role)
    else if found.amount.toNat < check.required.toNat then
      return some (.underpaid check.role check.required found.amount)
    else
      plan.checkPayment check

theorem checkDeposit_eq (plan : VerificationPlan) (check : DepositCheck) :
    plan.checkDeposit check = (do
      let confirmed ← confirmations check.deposit.txid
      if confirmed < plan.minConfirmations then
        return some (.insufficientConfirmations check.role confirmed plan.minConfirmations)
      plan.checkOutput check) :=
  rfl

theorem gives_question {q : Query} {r : interface.Answer q} (h : answer q = r) :
    Gives answer (Program.request (I := interface) q) [q] r :=
  ⟨rfl, h⟩

theorem gives_return (answer : (q : interface.Request) → interface.Answer q) {α : Type} (a : α) :
    Gives answer (pure a : Asking α).run [] (.ok a) :=
  ⟨rfl, rfl⟩

theorem Confirmed.gives {asked : List interface.Request}
    {r : Except Ledger.Error (Option EscrowFailure)} (h : plan.Confirmed answer check)
    (hrest : Gives answer (plan.checkOutput check).run asked r) :
    Gives answer (plan.checkDeposit check).run (.confirmations check.deposit.txid :: asked) r := by
  obtain ⟨confirmed, h, hle⟩ := h
  rw [checkDeposit_eq]
  refine Gives.bind_ok (gives_question h) ?_
  rw [if_neg (UInt32.not_lt.2 hle)]
  exact hrest

theorem Funded.gives {asked : List interface.Request}
    {r : Except Ledger.Error (Option EscrowFailure)} (h : Funded answer check)
    (hrest : Gives answer (plan.checkPayment check).run asked r) :
    Gives answer (plan.checkOutput check).run (.output check.deposit.outPoint :: asked) r := by
  obtain ⟨found, h, hs, hle⟩ := h
  refine Gives.bind_ok (gives_question h) ?_
  dsimp only
  rw [if_neg (not_not_intro hs), if_neg (Nat.not_lt.2 hle)]
  exact hrest

/-- All that there is to ask is asked about a check that passes. -/
theorem Passes.gives (h : plan.Passes answer check) :
    Gives answer (plan.checkDeposit check).run (plan.questions check) (.ok none) := by
  refine h.confirmed.gives (h.funded.gives (Gives.bind_last (gives_question h.paid) ?_))
  exact gives_return answer none

/-- Nothing is asked about a check once it is known not to pass. -/
theorem Fails.gives (h : plan.Fails answer check n result) :
    Gives answer (plan.checkDeposit check).run ((plan.questions check).take n)
      (result.map some) := by
  cases h with
  | confirmationsUnknown h => exact Gives.bind_error (gives_question h)
  | unconfirmed h hlt =>
    refine Gives.bind_last (gives_question h) ?_
    rw [if_pos hlt]
    exact gives_return answer _
  | outputUnknown hc h => exact hc.gives (Gives.bind_error (gives_question h))
  | missing hc h => exact hc.gives (Gives.bind_last (gives_question h) (gives_return answer _))
  | mismatch hc h hs =>
    refine hc.gives (Gives.bind_last (gives_question h) ?_)
    dsimp only
    rw [if_pos hs]
    exact gives_return answer _
  | underpaid hc h hs hlt =>
    refine hc.gives (Gives.bind_last (gives_question h) ?_)
    dsimp only
    rw [if_neg (not_not_intro hs), if_pos hlt]
    exact gives_return answer _
  | paymentUnknown hc hf h => exact hc.gives (hf.gives (Gives.bind_error (gives_question h)))
  | misdirected hc hf h =>
    exact hc.gives (hf.gives (Gives.bind_last (gives_question h) (gives_return answer _)))

/-! ### All deposits -/

theorem gives_checkAll {asked : List interface.Request} {r : Except Ledger.Error Verdict}
    (h : ∀ c ∈ passed, plan.Passes answer c)
    (hrest : Gives answer (plan.checkAll rest).run asked r) :
    Gives answer (plan.checkAll (passed ++ rest)).run (passed.flatMap plan.questions ++ asked)
      r := by
  induction passed with
  | nil => exact hrest
  | cons check passed ih =>
    rw [List.flatMap_cons, List.append_assoc]
    exact Gives.bind_ok (h check List.mem_cons_self).gives
      (ih fun c hc => h c (List.mem_cons_of_mem _ hc))

theorem Fails.gives_checkAll (h : plan.Fails answer check n result) :
    Gives answer (plan.checkAll (check :: rest)).run ((plan.questions check).take n)
      (result.map .rejected) := by
  cases result with
  | error e => exact Gives.bind_error h.gives
  | ok failure =>
    exact Gives.bind_last h.gives (gives_return answer _)

/-- The first check that does not pass. -/
theorem all_pass_or_first_fails (plan : VerificationPlan)
    (answer : (q : interface.Request) → interface.Answer q) (checks : List DepositCheck) :
    (∀ c ∈ checks, plan.Passes answer c) ∨ ∃ passed check rest n result,
      checks = passed ++ check :: rest ∧ (∀ c ∈ passed, plan.Passes answer c) ∧
        plan.Fails answer check n result := by
  induction checks with
  | nil => exact .inl fun c hc => absurd hc List.not_mem_nil
  | cons first checks ih =>
    rcases plan.passes_or_fails answer first with hfirst | ⟨n, result, hfirst⟩
    · rcases ih with h | ⟨passed, check, rest, n, result, rfl, h, hfails⟩
      · exact .inl (List.forall_mem_cons.2 ⟨hfirst, h⟩)
      · exact .inr ⟨first :: passed, check, rest, n, result, rfl,
          List.forall_mem_cons.2 ⟨hfirst, h⟩, hfails⟩
    · exact .inr ⟨[], first, checks, n, result, rfl, fun c hc => absurd hc List.not_mem_nil, hfirst⟩

/-- The failure that two checks of one output amount to. -/
def Shares (plan : VerificationPlan) (failure : EscrowFailure) : Prop :=
  ∃ check other, Repeats plan.checks check other ∧
    failure = .sharedOutput check.role other.role

/-- No two checks are of one output, and there is a first check that does not pass; of it and of all
before it these questions are asked. -/
def Stops (plan : VerificationPlan) (answer : (q : interface.Request) → interface.Answer q)
    (result : Except Ledger.Error EscrowFailure) (asked : List interface.Request) : Prop :=
  Distinct plan.checks ∧ ∃ passed check rest n, plan.checks = passed ++ check :: rest ∧
    (∀ c ∈ passed, plan.Passes answer c) ∧ plan.Fails answer check n result ∧
    asked = passed.flatMap plan.questions ++ (plan.questions check).take n

/-- How a run may go: what it asks, and what it comes to. -/
inductive Goes (plan : VerificationPlan) (answer : (q : interface.Request) → interface.Answer q) :
    List interface.Request → Except Ledger.Error Verdict → Prop
  | shared {failure : EscrowFailure} (h : plan.Shares failure) :
      Goes plan answer [] (.ok (.rejected failure))
  | passed (hd : Distinct plan.checks) (h : ∀ c ∈ plan.checks, plan.Passes answer c) :
      Goes plan answer (plan.checks.flatMap plan.questions) (.ok .accepted)
  | failed {failure : EscrowFailure} {asked : List interface.Request}
      (h : plan.Stops answer (.ok failure) asked) : Goes plan answer asked (.ok (.rejected failure))
  | broken {e : Ledger.Error} {asked : List interface.Request}
      (h : plan.Stops answer (.error e) asked) : Goes plan answer asked (.error e)

theorem Goes.of_stops {result : Except Ledger.Error EscrowFailure} {asked : List interface.Request}
    (h : plan.Stops answer result asked) : plan.Goes answer asked (result.map .rejected) := by
  cases result with
  | error e => exact .broken h
  | ok failure => exact .failed h

theorem exists_goes (plan : VerificationPlan)
    (answer : (q : interface.Request) → interface.Answer q) :
    ∃ asked r, plan.Goes answer asked r := by
  cases hshared : findShared [] plan.checks with
  | some failure =>
    obtain ⟨check, other, h⟩ := exists_repeats hshared .nil
    exact ⟨_, _, .shared ⟨check, other, h, rfl⟩⟩
  | none =>
    have hd : Distinct plan.checks := sharedOutput?_eq_none hshared
    rcases plan.all_pass_or_first_fails answer plan.checks with
      h | ⟨passed, check, rest, n, result, he, h, hfails⟩
    · exact ⟨_, _, .passed hd h⟩
    · exact ⟨_, _, .of_stops ⟨hd, passed, check, rest, n, he, h, hfails, rfl⟩⟩

theorem Stops.gives {result : Except Ledger.Error EscrowFailure} {asked : List interface.Request}
    (h : plan.Stops answer result asked) :
    Gives answer plan.run.run asked (result.map .rejected) := by
  obtain ⟨hd, passed, check, rest, n, he, h, hfails, rfl⟩ := h
  rw [run_of_distinct hd, he]
  exact gives_checkAll h hfails.gives_checkAll

theorem Goes.gives {asked : List interface.Request} {r : Except Ledger.Error Verdict}
    (h : plan.Goes answer asked r) : Gives answer plan.run.run asked r := by
  cases h with
  | shared h =>
    obtain ⟨check, other, h, rfl⟩ := h
    unfold run sharedOutput?
    rw [h.findShared_eq]
    exact gives_return answer _
  | passed hd h =>
    rw [run_of_distinct hd]
    have hall : Gives answer (plan.checkAll (plan.checks ++ [])).run
        (plan.checks.flatMap plan.questions ++ []) (.ok .accepted) :=
      gives_checkAll h (gives_return answer _)
    rwa [List.append_nil, List.append_nil] at hall
  | failed h => exact h.gives
  | broken h => exact h.gives

theorem gives_iff_goes {asked : List interface.Request} {r : Except Ledger.Error Verdict} :
    Gives answer plan.run.run asked r ↔ plan.Goes answer asked r := by
  refine ⟨fun h => ?_, Goes.gives⟩
  obtain ⟨asked', r', h'⟩ := plan.exists_goes answer
  rwa [← h.1, ← h.2, h'.gives.1, h'.gives.2]

/-- Which verdict a plan comes to, and the questions that it asks to come to it. -/
theorem verdict_exact (plan : VerificationPlan)
    (answer : (q : interface.Request) → interface.Answer q) (asked : List interface.Request) :
    (Gives answer plan.run.run asked (.ok .accepted) ↔
      Distinct plan.checks ∧ (∀ check ∈ plan.checks, plan.Passes answer check) ∧
        asked = plan.checks.flatMap plan.questions) ∧
    (∀ failure, Gives answer plan.run.run asked (.ok (.rejected failure)) ↔
      plan.Shares failure ∧ asked = [] ∨ plan.Stops answer (.ok failure) asked) ∧
    (∀ e, Gives answer plan.run.run asked (.error e) ↔ plan.Stops answer (.error e) asked) := by
  simp only [gives_iff_goes]
  refine ⟨⟨fun h => ?_, ?_⟩, fun failure => ⟨fun h => ?_, ?_⟩, fun e => ⟨fun h => ?_, .broken⟩⟩
  · cases h with
    | passed hd h => exact ⟨hd, h, rfl⟩
  · rintro ⟨hd, h, rfl⟩
    exact .passed hd h
  · cases h with
    | shared h => exact .inl ⟨h, rfl⟩
    | failed h => exact .inr h
  · rintro (⟨h, rfl⟩ | h)
    · exact .shared h
    · exact .failed h
  · cases h with
    | broken h => exact h

/-- Nothing is asked, whatever the ledger would answer, when one output is announced twice. -/
example (answer : (q : interface.Request) → interface.Answer q) (address : Address) (least : UInt32)
    (deposit : Deposit) (share share' : Amount) :
    Gives answer
      (run ⟨address, least, [⟨.sender, deposit, share⟩, ⟨.mixer, deposit, share'⟩]⟩).run []
      (.ok (.rejected (.sharedOutput .mixer .sender))) := by
  refine Goes.gives (.shared ⟨_, _, ⟨[], [], [], rfl, List.pairwise_singleton _ _, rfl, ?_⟩, rfl⟩)
  exact fun c hc => absurd hc List.not_mem_nil

end VerificationPlan

end EscrowMix
