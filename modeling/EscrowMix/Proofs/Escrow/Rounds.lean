import EscrowMix.Proofs.Escrow

/-!
An escrow record on its own, over any history of calls: deposits, marks and distributions, in any
order and with any arguments. The record counts the signatures of the distribution that it holds.
The counter of an empty record stands where round 0 leaves it, so the record does not tell the two
apart when it looks for a gap:

    held          taken next
    nothing       0, and also 1
    round 0       1
    round 1       2
    round 2       none

So a history may begin with round 1. From its first round on none is skipped and none repeated.
-/

namespace EscrowMix.Escrow.Record

variable {r r' : Record} {tx : Bytes} {count : UInt8}

/-! ### Calls -/

/-- A call on a record. -/
inductive Call where
  | recordDeposit (role : Role) (d : Deposit)
  | markReclaimable (role : Role)
  | setCandidate (tx : Bytes) (count : UInt8)

/-- The record that a call leads to, unless it is refused. -/
def Call.result (r : Record) : Call → Except Error Record
  | .recordDeposit role d => r.recordDeposit role d
  | .markReclaimable role => r.markReclaimable role
  | .setCandidate tx count => r.setCandidate tx count

/-- Steps on a record. Where they stop, the record stays as it is at that moment. -/
abbrev Edit := EStateM Error Record

/-- Looks at the record and may refuse the call. -/
def look (check : Record → Except Error Unit) : Edit Unit := fun r =>
  match check r with
  | .ok () => .ok () r
  | .error e => .error e r

/-- The steps of a call, in their order. -/
def Call.steps : Call → Edit Unit
  | .recordDeposit role d => do
    look (·.checkDeposit role d)
    modify fun r => { r with deposits := r.deposits.set role (some d) }
  | .markReclaimable role => do
    look fun r => if (r.deposit role).isSome then .ok () else .error (.missingDeposit role)
    modify fun r => { r with reclaimable := r.reclaimable.set role true }
  | .setCandidate tx count => do
    look (·.checkCandidate count)
    modify fun r => { r with candidate := some tx }
    modify fun r => { r with signedCount := count }

/-- Performs a call: its answer, and the record it leaves. -/
def perform (r : Record) (c : Call) : Except Error Unit × Record :=
  match c.steps r with
  | .ok () r' => (.ok (), r')
  | .error e r' => (.error e, r')

theorem look_then (check : Record → Except Error Unit) (rest : Edit Unit) (r : Record) :
    (do look check; rest) r =
      match check r with
      | .ok () => rest r
      | .error e => .error e r := by
  simp only [bind, EStateM.bind, look]
  cases check r <;> rfl

/-- Nothing is written before the last check. -/
theorem perform_eq (r : Record) (c : Call) : r.perform c =
    match c.result r with
    | .ok r' => (.ok (), r')
    | .error e => (.error e, r) := by
  cases c with
  | recordDeposit role d =>
    rw [perform, Call.steps, look_then, Call.result, recordDeposit]
    cases r.checkDeposit role d <;> rfl
  | markReclaimable role =>
    rw [perform, Call.steps, look_then, Call.result, markReclaimable]
    cases (r.deposit role).isSome <;> rfl
  | setCandidate tx count =>
    rw [perform, Call.steps, look_then, Call.result, setCandidate]
    cases r.checkCandidate count <;> rfl

theorem perform_ok {c : Call} (h : c.result r = .ok r') : r.perform c = (.ok (), r') := by
  rw [perform_eq, h]

theorem perform_error {c : Call} {e : Error} (h : c.result r = .error e) :
    r.perform c = (.error e, r) := by
  rw [perform_eq, h]

/-- The record after calls. -/
def after (r : Record) (cs : List Call) : Record := cs.foldl (fun r c => (r.perform c).2) r

/-- The number of signatures that came with a distribution, if it was taken. -/
def Call.taken? : Call → Except Error Unit → Option UInt8
  | .setCandidate _ count, .ok () => some count
  | _, _ => none

/-- These numbers over calls, in order. -/
def counts : Record → List Call → List UInt8
  | _, [] => []
  | r, c :: cs => (c.taken? (r.perform c).1).toList ++ counts (r.perform c).2 cs

/-- The number of signatures of the distribution that the record holds. -/
def held? (r : Record) : Option UInt8 := r.candidate.map fun _ => r.signedCount

theorem perform_cases (r : Record) (c : Call) :
    (c.taken? (r.perform c).1 = none ∧ (r.perform c).2.candidate = r.candidate ∧
      (r.perform c).2.signedCount = r.signedCount) ∨
    ∃ tx count, r.checkCandidate count = .ok () ∧ c.taken? (r.perform c).1 = some count ∧
      (r.perform c).2 = r.proposed tx count := by
  cases hc : c.result r with
  | error e =>
    rw [perform_error hc]
    exact .inl ⟨by cases c <;> rfl, rfl, rfl⟩
  | ok r' =>
    rw [perform_ok hc]
    cases c with
    | recordDeposit role d =>
      obtain ⟨-, -, rfl⟩ := recordDeposit_eq_ok.1 hc
      exact .inl ⟨rfl, rfl, rfl⟩
    | markReclaimable role =>
      obtain ⟨-, rfl⟩ := markReclaimable_eq_ok.1 hc
      exact .inl ⟨rfl, rfl, rfl⟩
    | setCandidate tx count =>
      obtain ⟨hcheck, rfl⟩ := setCandidate_eq_ok.1 hc
      exact .inr ⟨tx, count, hcheck, rfl, rfl⟩

/-! ### Rounds -/

theorem checkCandidate_eq_ok : r.checkCandidate count = .ok () ↔
    count ≤ signatureThreshold ∧ r.signedCount ≤ count ∧
      (count = r.signedCount → r.candidate = none) ∧ count.toNat ≤ r.signedCount.toNat + 1 := by
  constructor
  · intro h
    obtain ⟨hmax, hmin, hnew⟩ := checkCandidate_ok h
    refine ⟨hmax, hmin, hnew, ?_⟩
    rw [checkCandidate, if_neg (UInt8.not_lt.2 hmax)] at h
    split at h
    · cases h
    · split at h
      · cases h
      · next hgap => exact Nat.le_of_not_lt hgap
  · rintro ⟨hmax, hmin, hnew, hgap⟩
    have hstale : ¬(count < r.signedCount ∨ (count = r.signedCount ∧ r.candidate.isSome)) := by
      rintro (hlt | ⟨he, hsome⟩)
      · exact UInt8.not_lt.2 hmin hlt
      · rw [hnew he] at hsome
        cases hsome
    rw [checkCandidate, if_neg (UInt8.not_lt.2 hmax), if_neg hstale, if_neg (Nat.not_lt.2 hgap)]

/-- The number of signatures stands for the distribution: it is zero without one, and never more
than the escrow asks for. -/
structure Counted (r : Record) : Prop where
  empty : r.candidate = none → r.signedCount = 0
  bounded : r.signedCount ≤ signatureThreshold

/-- The number of signatures that a distribution is taken with: one more than held. As the first one
it is taken with none or one. -/
def ComesNext : Option UInt8 → UInt8 → Prop
  | none, count => count = 0 ∨ count = 1
  | some held, count => held < signatureThreshold ∧ count = held + 1

theorem Counted.checkCandidate_eq_ok (h : Counted r) :
    r.checkCandidate count = .ok () ↔ ComesNext r.held? count := by
  have hthreshold : signatureThreshold.toNat = 2 := rfl
  rw [Record.checkCandidate_eq_ok, held?]
  cases hc : r.candidate with
  | none =>
    rw [h.empty hc]
    simp only [Option.map_none, ComesNext, implies_true, true_and, UInt8.le_iff_toNat_le,
      ← UInt8.toNat_inj, hthreshold, UInt8.toNat_zero, UInt8.toNat_one]
    omega
  | some tx =>
    simp only [Option.map_some, ComesNext, reduceCtorEq, imp_false, UInt8.le_iff_toNat_le,
      UInt8.lt_iff_toNat_lt, ← UInt8.toNat_inj, hthreshold, UInt8.toNat_add, UInt8.toNat_one]
    omega

theorem Counted.perform (h : Counted r) (c : Call) : Counted (r.perform c).2 := by
  rcases perform_cases r c with ⟨-, hcandidate, hcount⟩ | ⟨tx, count, hcheck, -, he⟩
  · exact ⟨hcandidate ▸ hcount ▸ h.empty, hcount ▸ h.bounded⟩
  · rw [he]
    exact ⟨nofun, (checkCandidate_ok hcheck).1⟩

theorem empty_counted : Counted empty := ⟨fun _ => rfl, by decide⟩

theorem Counted.after (h : Counted r) (cs : List Call) : Counted (r.after cs) := by
  induction cs generalizing r with
  | nil => exact h
  | cons c cs ih => exact ih (h.perform c)

/-- What is taken is held, and nothing else changes what is held. -/
theorem held?_perform (r : Record) (c : Call) :
    (c.taken? (r.perform c).1 = none ∧ (r.perform c).2.held? = r.held?) ∨
    ∃ count, r.checkCandidate count = .ok () ∧ c.taken? (r.perform c).1 = some count ∧
      (r.perform c).2.held? = some count := by
  rcases perform_cases r c with ⟨htaken, hcandidate, hcount⟩ | ⟨tx, count, hcheck, htaken, he⟩
  · exact .inl ⟨htaken, by rw [held?, held?, hcandidate, hcount]⟩
  · exact .inr ⟨count, hcheck, htaken, he ▸ rfl⟩

/-- The record holds the last distribution that it took. -/
theorem held?_after (r : Record) (cs : List Call) :
    (r.after cs).held? = (counts r cs).getLast?.or r.held? := by
  induction cs generalizing r with
  | nil => rfl
  | cons c cs ih =>
    have hrest : (r.after (c :: cs)).held? = _ := ih (r.perform c).2
    rw [hrest, counts, List.getLast?_append, Option.or_assoc]
    congr 1
    rcases held?_perform r c with ⟨htaken, hheld⟩ | ⟨count, -, htaken, hheld⟩
    · rw [htaken, hheld]
      rfl
    · rw [htaken, hheld]
      rfl

/-- The numbers of signatures that may still come. -/
def ahead (held : UInt8) : List UInt8 := [0, 1, 2].drop (held.toNat + 1)

theorem ahead_of_lt {held : UInt8} (h : held < signatureThreshold) :
    ahead held = (held + 1) :: ahead (held + 1) := by
  have hlt : held.toNat < 2 := UInt8.lt_iff_toNat_lt.1 h
  have hheld : held = 0 ∨ held = 1 := by
    simp only [← UInt8.toNat_inj, UInt8.toNat_zero, UInt8.toNat_one]
    omega
  rcases hheld with rfl | rfl <;> rfl

theorem Counted.counts_of_some (h : Counted r) {held : UInt8} (hheld : r.held? = some held)
    (cs : List Call) : counts r cs <+: ahead held := by
  induction cs generalizing r held with
  | nil => exact List.nil_prefix
  | cons c cs ih =>
    rw [counts]
    rcases held?_perform r c with ⟨htaken, hkept⟩ | ⟨count, hcheck, htaken, hnow⟩
    · rw [htaken]
      exact ih (h.perform c) (hkept.trans hheld)
    · have hnext := h.checkCandidate_eq_ok.1 hcheck
      rw [hheld] at hnext
      obtain ⟨hlt, rfl⟩ := hnext
      rw [htaken, ahead_of_lt hlt]
      exact List.cons_prefix_cons.2 ⟨rfl, ih (h.perform c) hnow⟩

theorem Counted.counts_of_none (h : Counted r) (hheld : r.held? = none) (cs : List Call) :
    counts r cs <+: [0, 1, 2] ∨ counts r cs <+: [1, 2] := by
  induction cs generalizing r with
  | nil => exact .inl List.nil_prefix
  | cons c cs ih =>
    rw [counts]
    rcases held?_perform r c with ⟨htaken, hkept⟩ | ⟨count, hcheck, htaken, hnow⟩
    · rw [htaken]
      exact ih (h.perform c) (hkept.trans hheld)
    · have hrest := (h.perform c).counts_of_some hnow cs
      have hnext := h.checkCandidate_eq_ok.1 hcheck
      rw [hheld] at hnext
      rw [htaken]
      -- the first distribution settles which of the two the counts begin
      rcases hnext with rfl | rfl
      · exact .inl (List.cons_prefix_cons.2 ⟨rfl, hrest⟩)
      · exact .inr (List.cons_prefix_cons.2 ⟨rfl, hrest⟩)

/-- Whatever is called on an empty record, the distributions that it takes come with one signature
more each time, up to two, and the first of them with none or one. Each moment decides what comes
next, and a call that is refused leaves the record as it was. -/
theorem rounds_in_sequence (cs : List Call) :
    (counts empty cs <+: [0, 1, 2] ∨ counts empty cs <+: [1, 2]) ∧
    (empty.after cs).held? = (counts empty cs).getLast? ∧
    ((empty.after cs).candidate = none → (empty.after cs).signedCount = 0) ∧
    (∀ tx count, ((empty.after cs).perform (.setCandidate tx count)).1 = .ok () ↔
      ComesNext (empty.after cs).held? count) ∧
    ∀ c e, ((empty.after cs).perform c).1 = .error e →
      ((empty.after cs).perform c).2 = empty.after cs := by
  have hcounted : Counted (empty.after cs) := empty_counted.after cs
  refine ⟨empty_counted.counts_of_none rfl cs, ?_, hcounted.empty, fun tx count => ?_,
    fun c e he => ?_⟩
  · rw [held?_after]
    exact Option.or_none
  · rw [← hcounted.checkCandidate_eq_ok, perform_eq, Call.result, setCandidate]
    cases (empty.after cs).checkCandidate count <;> simp [bind, Except.bind, pure, Except.pure]
  · cases hc : c.result (empty.after cs) with
    | ok r' =>
      rw [perform_ok hc] at he
      cases he
    | error e' => rw [perform_error hc]

/-- A deposit, two rounds, and what is refused between them. -/
def twoRounds : List Call :=
  [.recordDeposit .sender ⟨⟨.replicate 32 1⟩, 0, ⟨[]⟩⟩, .setCandidate [0] 0, .setCandidate [7] 0,
    .markReclaimable .sender, .setCandidate [0, 1] 1, .setCandidate [7] 3]

theorem rounds_in_sequence_of_twoRounds :
    counts empty twoRounds = [0, 1] ∧ (empty.after twoRounds).held? = some 1 ∧
    ((empty.after twoRounds).perform (.setCandidate [0, 1, 2] 2)).1 = .ok () ∧
    ((empty.after twoRounds).perform (.markReclaimable .mixer)).2 = empty.after twoRounds := by
  have hcounts : counts empty twoRounds = [0, 1] := by decide +kernel
  obtain ⟨-, hheld, -, hnext, hkept⟩ := rounds_in_sequence twoRounds
  rw [hcounts] at hheld
  refine ⟨hcounts, hheld, (hnext _ _).2 ?_, hkept _ (.missingDeposit .mixer) rfl⟩
  rw [hheld]
  exact ⟨by decide, rfl⟩

/-- A distribution with one signature is taken while none was ever built. -/
theorem first_round_skipped :
    empty.candidate = none ∧ (empty.perform (.setCandidate [0] 1)).1 = .ok () ∧
      counts empty [.setCandidate [0] 1] = [1] ∧ ¬[1] <+: ([0, 1, 2] : List UInt8) :=
  ⟨rfl, rfl, rfl, by decide⟩

end EscrowMix.Escrow.Record
