import EscrowMix.Proofs.Except

/-!
What the operations of an escrow record do to the deposits and to the distribution.
-/

namespace EscrowMix.Escrow.Record

variable {r r' : Record} {role q : Role} {d : Deposit} {tx : Bytes} {count : UInt8}

@[simp] theorem empty_deposit (q : Role) : empty.deposit q = none := by cases q <;> rfl

@[simp] theorem empty_reclaimable (q : Role) : empty.reclaimable.get q = false := by
  cases q <;> rfl

/-! ### Deposits -/

/-- The record with the deposit of one more role. -/
def deposited (r : Record) (role : Role) (d : Deposit) : Record :=
  { r with deposits := r.deposits.set role (some d) }

@[simp] theorem deposited_candidate (r : Record) (role : Role) (d : Deposit) :
    (r.deposited role d).candidate = r.candidate := rfl

@[simp] theorem deposited_signedCount (r : Record) (role : Role) (d : Deposit) :
    (r.deposited role d).signedCount = r.signedCount := rfl

@[simp] theorem deposited_reclaimable (r : Record) (role : Role) (d : Deposit) :
    (r.deposited role d).reclaimable = r.reclaimable := rfl

theorem deposited_deposit (r : Record) (role : Role) (d : Deposit) (q : Role) :
    (r.deposited role d).deposit q = if q = role then some d else r.deposit q := by
  cases role <;> cases q <;> rfl

theorem holder?_eq_none {o : OutPoint} :
    r.holder? o = none ↔ ∀ q d', r.deposit q = some d' → d'.outPoint ≠ o := by
  simp only [holder?, List.find?_eq_none, Option.any_eq_true, decide_eq_true_eq, not_exists, not_and]
  exact ⟨fun h q d' hq => h q (Role.mem_all q) d' hq, fun h q _ d' hq => h q d' hq⟩

/-- A deposit is recorded iff the role has none and no role holds the output. -/
theorem recordDeposit_eq_ok : r.recordDeposit role d = .ok r' ↔
    r.deposit role = none ∧ (∀ q d', r.deposit q = some d' → d'.outPoint ≠ d.outPoint) ∧
      r' = r.deposited role d := by
  rw [← holder?_eq_none]
  unfold recordDeposit checkDeposit
  cases hd : r.deposit role with
  | some d' => simp [bind, Except.bind]
  | none =>
    cases hh : r.holder? d.outPoint with
    | some q => simp [bind, Except.bind]
    | none =>
      simp only [Option.isSome_none, Bool.false_eq_true, if_false, bind_eq_ok, pure_eq_ok, true_and,
        exists_const, deposited]
      exact eq_comm

theorem hasAllDeposits_iff : r.hasAllDeposits = true ↔ ∀ q, (r.deposit q).isSome := by
  constructor
  · intro h q
    simp only [hasAllDeposits, RoleMap.all, RoleMap.values, List.all_cons, List.all_nil,
      Bool.and_eq_true] at h
    cases q with
    | sender => exact h.1
    | mixer => exact h.2.1
    | guarantor => exact h.2.2.1
  · intro h
    simp only [hasAllDeposits, RoleMap.all, RoleMap.values, List.all_cons, List.all_nil,
      Bool.and_eq_true]
    exact ⟨h .sender, h .mixer, h .guarantor, trivial⟩

/-! ### Deposits with a way back -/

/-- The record with a way back for the deposit of one more role. -/
def reclaimed (r : Record) (role : Role) : Record :=
  { r with reclaimable := r.reclaimable.set role true }

@[simp] theorem reclaimed_candidate (r : Record) (role : Role) :
    (r.reclaimed role).candidate = r.candidate := rfl

@[simp] theorem reclaimed_signedCount (r : Record) (role : Role) :
    (r.reclaimed role).signedCount = r.signedCount := rfl

@[simp] theorem reclaimed_deposit (r : Record) (role q : Role) :
    (r.reclaimed role).deposit q = r.deposit q := rfl

theorem reclaimed_reclaimable (r : Record) (role q : Role) :
    (r.reclaimed role).reclaimable.get q = if q = role then true else r.reclaimable.get q := by
  cases role <;> cases q <;> rfl

theorem markReclaimable_eq_ok : r.markReclaimable role = .ok r' ↔
    (r.deposit role).isSome ∧ r' = r.reclaimed role := by
  unfold markReclaimable
  split
  · next h => simp [h, reclaimed, eq_comm]
  · next h => simp [h]

theorem unreclaimed_eq_nil :
    r.unreclaimed = [] ↔ ∀ q, (r.deposit q).isSome → r.reclaimable.get q = true := by
  simp only [unreclaimed, List.filter_eq_nil_iff, Bool.and_eq_true, Bool.not_eq_true',
    not_and, Bool.not_eq_false]
  exact ⟨fun h q => h q (Role.mem_all q), fun h q _ => h q⟩

/-! ### The distribution -/

/-- The record with the distribution of a round. -/
def proposed (r : Record) (tx : Bytes) (count : UInt8) : Record :=
  { r with candidate := some tx, signedCount := count }

@[simp] theorem proposed_candidate (r : Record) (tx : Bytes) (count : UInt8) :
    (r.proposed tx count).candidate = some tx := rfl

@[simp] theorem proposed_signedCount (r : Record) (tx : Bytes) (count : UInt8) :
    (r.proposed tx count).signedCount = count := rfl

@[simp] theorem proposed_deposit (r : Record) (tx : Bytes) (count : UInt8) (q : Role) :
    (r.proposed tx count).deposit q = r.deposit q := rfl

@[simp] theorem proposed_reclaimable (r : Record) (tx : Bytes) (count : UInt8) :
    (r.proposed tx count).reclaimable = r.reclaimable := rfl

/-- A distribution that is taken has at most two signatures and no fewer than are counted; once one
is held, it has more. -/
theorem checkCandidate_ok {u : Unit} (h : r.checkCandidate count = .ok u) :
    count ≤ signatureThreshold ∧ r.signedCount ≤ count ∧
      (count = r.signedCount → r.candidate = none) := by
  unfold checkCandidate at h
  split at h
  · cases h
  · next hc =>
    split at h
    · cases h
    · next hs =>
      simp only [not_or, not_and, Option.not_isSome_iff_eq_none] at hs
      exact ⟨UInt8.not_lt.1 hc, UInt8.not_lt.1 hs.1, hs.2⟩

theorem setCandidate_eq_ok :
    r.setCandidate tx count = .ok r' ↔ r.checkCandidate count = .ok () ∧ r' = r.proposed tx count := by
  simp only [setCandidate, bind_eq_ok, pure_eq_ok, proposed]
  exact ⟨fun ⟨_, h, h'⟩ => ⟨h, h'.symm⟩, fun ⟨h, h'⟩ => ⟨(), h, h'.symm⟩⟩

end EscrowMix.Escrow.Record
