import EscrowMix.Proofs.Escrow.Rounds
import Mathlib.Data.List.Induction

/-!
The deposits of an escrow record and the marks on them, over any history of calls. A role's deposit
is written once and an output counts for one role, so whoever holds a deposit at the end has held it
since it was recorded. What is left to rescue is read off the history: a role is unreclaimed from
the moment of its deposit until the first mark that follows.

    call                  taken when                             deposits      marks
    a deposit             the role has none, no role the output  one more      -
    a mark                the role has a deposit                 -             one more
    a distribution        its count comes next                   -             -
-/

namespace EscrowMix.Escrow.Record

variable {r r' : Record} {role q : Role} {d : Deposit} {c : Call} {cs : List Call}
  {answer : Except Error Unit}

/-! ### One call -/

/-- What a call does to the deposits and their marks, as the table above has it. -/
inductive Books (r : Record) : Call → Except Error Unit → Record → Prop
  | deposited {role : Role} {d : Deposit} (hnone : r.deposit role = none)
      (hnew : ∀ q d', r.deposit q = some d' → d'.outPoint ≠ d.outPoint) :
      Books r (.recordDeposit role d) (.ok ()) (r.deposited role d)
  | marked {role : Role} (h : (r.deposit role).isSome) :
      Books r (.markReclaimable role) (.ok ()) (r.reclaimed role)
  | proposed {tx : Bytes} {count : UInt8} :
      Books r (.setCandidate tx count) (.ok ()) (r.proposed tx count)
  | refused {c : Call} {e : Error} (h : c.result r = .error e) : Books r c (.error e) r

theorem perform_books (hs : r.perform c = (answer, r')) : Books r c answer r' := by
  cases hc : c.result r with
  | error e =>
    cases (perform_error hc).symm.trans hs
    exact .refused hc
  | ok r' =>
    cases (perform_ok hc).symm.trans hs
    cases c with
    | recordDeposit role d =>
      obtain ⟨hnone, hnew, rfl⟩ := recordDeposit_eq_ok.1 hc
      exact .deposited hnone hnew
    | markReclaimable role =>
      obtain ⟨h, rfl⟩ := markReclaimable_eq_ok.1 hc
      exact .marked h
    | setCandidate tx count =>
      obtain ⟨-, rfl⟩ := setCandidate_eq_ok.1 hc
      exact .proposed

theorem unchanged_of_refused {e : Error} (h : (r.perform c).1 = .error e) :
    (r.perform c).2 = r := by
  generalize hs : r.perform c = out at h ⊢
  obtain ⟨answer, r'⟩ := out
  obtain rfl : answer = .error e := h
  cases perform_books hs
  rfl

/-- A mark is refused only where there is no deposit. -/
theorem deposit_of_mark_refused {e : Error} (h : (Call.markReclaimable q).result r = .error e) :
    r.deposit q = none := by
  have h : r.markReclaimable q = .error e := h
  unfold markReclaimable at h
  split at h
  · cases h
  · next hnone => simpa using hnone

/-- Nothing takes a deposit away or puts another in its place. -/
theorem perform_deposit_kept (h : r.deposit q = some d) (c : Call) :
    (r.perform c).2.deposit q = some d := by
  generalize hs : r.perform c = out
  obtain ⟨answer, r'⟩ := out
  cases perform_books hs with
  | @deposited role d' hnone =>
    have hne : q ≠ role := by
      rintro rfl
      rw [hnone] at h
      cases h
    rw [deposited_deposit, if_neg hne, h]
  | marked | proposed | refused => exact h

theorem after_deposit_kept (h : r.deposit q = some d) (cs : List Call) :
    (r.after cs).deposit q = some d := by
  induction cs generalizing r with
  | nil => exact h
  | cons c cs ih => exact ih (perform_deposit_kept h c)

/-! ### What was recorded -/

/-- The deposit that a call records, with its role, if it was taken. -/
def Call.recorded? : Call → Except Error Unit → Option (Role × Deposit)
  | .recordDeposit role d, .ok () => some (role, d)
  | _, _ => none

/-- The deposits that were taken over calls, in order. -/
def recorded : Record → List Call → List (Role × Deposit)
  | _, [] => []
  | r, c :: cs => (c.recorded? (r.perform c).1).toList ++ recorded (r.perform c).2 cs

theorem lookup_cons_of_ne {l : List (Role × Deposit)} (h : q ≠ role) :
    ((role, d) :: l).lookup q = l.lookup q := by
  rw [List.lookup_cons, beq_false_of_ne h]

theorem lookup_isSome_iff {l : List (Role × Deposit)} :
    (l.lookup q).isSome ↔ ∃ d, (q, d) ∈ l := by
  induction l with
  | nil => simp
  | cons e l ih =>
    obtain ⟨p, d⟩ := e
    by_cases hq : q = p
    · subst hq
      simp only [List.lookup_cons_self, Option.isSome_some, List.mem_cons, true_iff]
      exact ⟨d, .inl rfl⟩
    · simp [lookup_cons_of_ne hq, hq, ih]

/-- A role holds what it held before, or else the first deposit that was taken for it. -/
theorem after_deposit (r : Record) (cs : List Call) (q : Role) :
    (r.after cs).deposit q = (r.deposit q).or ((recorded r cs).lookup q) := by
  induction cs generalizing r with
  | nil => exact (Option.or_none).symm
  | cons c cs ih =>
    have hrest : (r.after (c :: cs)).deposit q = _ := ih (r.perform c).2
    rw [hrest, recorded]
    generalize recorded (r.perform c).2 cs = rest
    generalize hs : r.perform c = out
    obtain ⟨answer, r'⟩ := out
    cases perform_books hs with
    | @deposited role d hnone =>
      show ((r.deposited role d).deposit q).or _ = _
      show _ = (r.deposit q).or (List.lookup q ((role, d) :: rest))
      rw [deposited_deposit]
      by_cases hq : q = role
      · subst hq
        simp [hnone]
      · simp [lookup_cons_of_ne hq, hq]
    | marked | proposed => rfl
    | refused => cases c <;> rfl

/-! ### What a record keeps -/

/-- No two roles hold one output, and only deposits are marked. -/
structure Sound (r : Record) : Prop where
  distinct : ∀ p q d d', r.deposit p = some d → r.deposit q = some d' →
    d.outPoint = d'.outPoint → p = q
  backed : ∀ q, r.reclaimable.get q = true → (r.deposit q).isSome

theorem empty_sound : Sound empty where
  distinct p q d d' h := by simp at h
  backed q h := by simp at h

theorem Sound.perform (h : Sound r) (c : Call) : Sound (r.perform c).2 := by
  generalize hs : r.perform c = out
  obtain ⟨answer, r'⟩ := out
  cases perform_books hs with
  | @deposited role d hnone hnew =>
    refine ⟨fun p q d₁ d₂ h₁ h₂ ho => ?_, fun q hq => ?_⟩
    · rw [deposited_deposit] at h₁ h₂
      split at h₁ <;> split at h₂
      · next hp hq => rw [hp, hq]
      · cases h₁
        exact absurd ho.symm (hnew q d₂ h₂)
      · cases h₂
        exact absurd ho (hnew p d₁ h₁)
      · exact h.distinct p q d₁ d₂ h₁ h₂ ho
    · rw [deposited_deposit]
      split
      · rfl
      · exact h.backed q hq
  | @marked role hsome =>
    refine ⟨h.distinct, fun q hq => ?_⟩
    rw [reclaimed_reclaimable] at hq
    split at hq
    · next he => exact he ▸ hsome
    · exact h.backed q hq
  | proposed => exact ⟨h.distinct, h.backed⟩
  | refused => exact h

theorem Sound.after (h : Sound r) (cs : List Call) : Sound (r.after cs) := by
  induction cs generalizing r with
  | nil => exact h
  | cons c cs ih => exact ih (h.perform c)

theorem mem_unreclaimed :
    q ∈ r.unreclaimed ↔ (r.deposit q).isSome ∧ r.reclaimable.get q = false := by
  simp [unreclaimed, Role.mem_all]

/-- After a new deposit its role is unreclaimed, and nothing else changes. -/
theorem Sound.mem_unreclaimed_deposited (h : Sound r) (hnone : r.deposit role = none) :
    q ∈ (r.deposited role d).unreclaimed ↔ q = role ∨ q ∈ r.unreclaimed := by
  rw [mem_unreclaimed, mem_unreclaimed, deposited_deposit, deposited_reclaimable]
  by_cases hq : q = role
  · subst hq
    have hmark : r.reclaimable.get q = false := by
      rw [Bool.eq_false_iff]
      intro hmark
      have hsome := h.backed q hmark
      rw [hnone] at hsome
      cases hsome
    simp [hmark]
  · simp [hq]

theorem mem_unreclaimed_reclaimed : q ∈ (r.reclaimed role).unreclaimed ↔
    q ≠ role ∧ q ∈ r.unreclaimed := by
  rw [mem_unreclaimed, mem_unreclaimed, reclaimed_deposit, reclaimed_reclaimable]
  by_cases hq : q = role <;> simp [hq]

/-! ### What is left to rescue -/

/-- Over these calls a deposit was taken for the role, and no mark followed. -/
def LeftOpen (cs : List Call) (q : Role) : Prop :=
  ∃ cs₁ d cs₂, cs = cs₁ ++ .recordDeposit q d :: cs₂ ∧
    ((empty.after cs₁).perform (.recordDeposit q d)).1 = .ok () ∧ .markReclaimable q ∉ cs₂

theorem after_snoc (r : Record) (cs : List Call) (c : Call) :
    r.after (cs ++ [c]) = ((r.after cs).perform c).2 := by
  simp [after]

/-- The last call left it open, or did not close what was open before. -/
theorem leftOpen_snoc : LeftOpen (cs ++ [c]) q ↔
    (∃ d, c = .recordDeposit q d ∧ ((empty.after cs).perform c).1 = .ok ()) ∨
      (c ≠ .markReclaimable q ∧ LeftOpen cs q) := by
  constructor
  · rintro ⟨cs₁, d, cs₂, he, hok, hmark⟩
    rcases List.eq_nil_or_concat cs₂ with rfl | ⟨cs₂, c', rfl⟩
    · obtain ⟨rfl, rfl⟩ := List.append_inj' he rfl |>.imp id (List.singleton_inj.1 ·)
      exact .inl ⟨d, rfl, hok⟩
    · rw [List.concat_eq_append, ← List.cons_append, ← List.append_assoc] at he
      obtain ⟨rfl, hc⟩ := List.append_inj' he rfl
      obtain rfl := List.singleton_inj.1 hc
      simp only [List.concat_eq_append, List.mem_append, List.mem_singleton, not_or] at hmark
      exact .inr ⟨Ne.symm hmark.2, cs₁, d, cs₂, rfl, hok, hmark.1⟩
  · rintro (⟨d, rfl, hok⟩ | ⟨hne, cs₁, d, cs₂, rfl, hok, hmark⟩)
    · exact ⟨cs, d, [], rfl, hok, List.not_mem_nil⟩
    · refine ⟨cs₁, d, cs₂ ++ [c], by simp, hok, ?_⟩
      simp [hmark, Ne.symm hne]

/-- The roles that the record counts as unreclaimed are those that the history left open. -/
theorem mem_unreclaimed_after (cs : List Call) (q : Role) :
    q ∈ (empty.after cs).unreclaimed ↔ LeftOpen cs q := by
  induction cs using List.reverseRecOn with
  | nil => simp [after, mem_unreclaimed, LeftOpen]
  | append_singleton cs c ih =>
    have hsound := empty_sound.after cs
    rw [after_snoc, leftOpen_snoc, ← ih]
    generalize empty.after cs = r at hsound
    generalize hs : r.perform c = out
    obtain ⟨answer, r'⟩ := out
    cases perform_books hs with
    | @deposited role d hnone =>
      show q ∈ (r.deposited role d).unreclaimed ↔ _
      rw [hsound.mem_unreclaimed_deposited hnone]
      simp [eq_comm]
    | @marked role =>
      show q ∈ (r.reclaimed role).unreclaimed ↔ _
      rw [mem_unreclaimed_reclaimed]
      simp [eq_comm]
    | proposed => simp [mem_unreclaimed]
    | @refused c e he =>
      -- a mark that was refused closes nothing, for there was no deposit
      have hopen : q ∈ r.unreclaimed → c ≠ .markReclaimable q := by
        rintro hq rfl
        rw [mem_unreclaimed, deposit_of_mark_refused he] at hq
        cases hq.1
      simp only [reduceCtorEq, and_false, exists_false, false_or]
      exact ⟨fun hq => ⟨hopen hq, hq⟩, And.right⟩

/-! ### When a deposit is taken -/

theorem perform_recordDeposit (r : Record) (role : Role) (d : Deposit) :
    (r.perform (.recordDeposit role d)).1 = r.checkDeposit role d := by
  rw [perform_eq, Call.result, recordDeposit]
  cases r.checkDeposit role d <;> rfl

theorem checkDeposit_eq_ok : r.checkDeposit role d = .ok () ↔
    r.deposit role = none ∧ ∀ q d', r.deposit q = some d' → d'.outPoint ≠ d.outPoint := by
  rw [← holder?_eq_none, checkDeposit]
  cases r.deposit role <;> cases r.holder? d.outPoint <;> simp

theorem checkDeposit_duplicate :
    r.checkDeposit role d = .error (.duplicateDeposit role) ↔ (r.deposit role).isSome := by
  rw [checkDeposit]
  cases r.deposit role <;> cases r.holder? d.outPoint <;> simp

/-- The output is found with the one role that holds it. -/
theorem Sound.holder?_eq_some (h : Sound r) {o : OutPoint} :
    r.holder? o = some q ↔ ∃ d, r.deposit q = some d ∧ d.outPoint = o := by
  constructor
  · intro hq
    have hq := List.find?_some hq
    simpa [Option.any_eq_true] using hq
  · rintro ⟨d, hd, rfl⟩
    cases hh : r.holder? d.outPoint with
    | none => exact absurd rfl (holder?_eq_none.1 hh q d hd)
    | some p =>
      obtain ⟨d', hd', ho⟩ : ∃ d', r.deposit p = some d' ∧ d'.outPoint = d.outPoint := by
        have hp := List.find?_some hh
        simpa [Option.any_eq_true] using hp
      rw [h.distinct p q d' d hd' hd ho]

theorem Sound.checkDeposit_shared (h : Sound r) {holder : Role} :
    r.checkDeposit role d = .error (.duplicateOutPoint role holder) ↔
      r.deposit role = none ∧ ∃ d', r.deposit holder = some d' ∧ d'.outPoint = d.outPoint := by
  rw [← h.holder?_eq_some, checkDeposit]
  cases r.deposit role <;> cases r.holder? d.outPoint <;> simp

theorem allDeposits_eq_some {m : RoleMap Deposit} :
    r.allDeposits = some m ↔ ∀ q, r.deposit q = some (m.get q) := by
  obtain ⟨_, _, ⟨a, b, c⟩, _⟩ := r
  obtain ⟨a', b', c'⟩ := m
  constructor
  · intro h q
    simp only [allDeposits, RoleMap.sequence, Option.bind_eq_bind, Option.bind_eq_some_iff,
      Option.pure_def, Option.some.injEq, RoleMap.mk.injEq] at h
    obtain ⟨_, rfl, _, rfl, _, rfl, rfl, rfl, rfl⟩ := h
    cases q <;> rfl
  · intro h
    obtain rfl : a = some a' := h .sender
    obtain rfl : b = some b' := h .mixer
    obtain rfl : c = some c' := h .guarantor
    rfl

/-- All deposits are there just when the three of them can be given. -/
theorem hasAllDeposits_iff_exists : r.hasAllDeposits = true ↔
    ∃ m, r.allDeposits = some m ∧ ∀ q, r.deposit q = some (m.get q) := by
  rw [hasAllDeposits_iff]
  constructor
  · intro h
    let m := RoleMap.ofFn fun q => (r.deposit q).get (h q)
    have hm (q : Role) : r.deposit q = some (m.get q) := by
      rw [RoleMap.get_ofFn, Option.some_get]
    exact ⟨m, allDeposits_eq_some.2 hm, hm⟩
  · rintro ⟨m, -, hm⟩ q
    rw [hm q]
    rfl

/-! ### Any history -/

/-- What the deposits of a record are after these calls on an empty one. -/
structure Holdings (cs : List Call) (r : Record) : Prop where
  /-- Each role holds the first deposit that was taken for it. -/
  first : ∀ q, r.deposit q = (recorded empty cs).lookup q
  /-- And holds it whatever is called later. -/
  lasting : ∀ q d, r.deposit q = some d → ∀ cs', (r.after cs').deposit q = some d
  /-- Different roles hold different outputs. -/
  distinct : ∀ p q d d', r.deposit p = some d → r.deposit q = some d' → p ≠ q →
    d.outPoint ≠ d'.outPoint
  /-- Only deposits are marked. -/
  backed : ∀ q, r.reclaimable.get q = true → (r.deposit q).isSome
  /-- The unreclaimed roles stand in signing order, each once. -/
  ordered : r.unreclaimed.Sublist Role.all ∧ r.unreclaimed.Nodup
  /-- They are those with a deposit that was not marked since it was taken. -/
  unreclaimed : ∀ q, q ∈ r.unreclaimed ↔ LeftOpen cs q
  /-- All deposits are there once one was taken for each role, in whatever order. -/
  complete : r.hasAllDeposits = true ↔ ∀ q, ∃ d, (q, d) ∈ recorded empty cs
  /-- Just then the three of them are given. -/
  given : r.hasAllDeposits = true ↔ ∃ m, r.allDeposits = some m ∧ ∀ q, r.deposit q = some (m.get q)
  /-- A deposit is taken if its role has none and no role holds the output. -/
  taken : ∀ role d, (r.perform (.recordDeposit role d)).1 = .ok () ↔
    r.deposit role = none ∧ ∀ q d', r.deposit q = some d' → d'.outPoint ≠ d.outPoint
  /-- A role that has one is named first. -/
  repeated : ∀ role d, (r.perform (.recordDeposit role d)).1 = .error (.duplicateDeposit role) ↔
    (r.deposit role).isSome
  /-- Otherwise the role that holds the output is. -/
  shared : ∀ role d holder,
    (r.perform (.recordDeposit role d)).1 = .error (.duplicateOutPoint role holder) ↔
      r.deposit role = none ∧ ∃ d', r.deposit holder = some d' ∧ d'.outPoint = d.outPoint
  /-- What is refused changes nothing. -/
  refused : ∀ c e, (r.perform c).1 = .error e → (r.perform c).2 = r

/-- Whatever is called on an empty record, its deposits and their marks are those of the history. -/
theorem holdings_after (cs : List Call) : Holdings cs (empty.after cs) := by
  have hsound := empty_sound.after cs
  have hfirst (q : Role) : (empty.after cs).deposit q = (recorded empty cs).lookup q := by
    rw [after_deposit, empty_deposit, Option.none_or]
  have hsublist : (empty.after cs).unreclaimed.Sublist Role.all := List.filter_sublist
  exact {
    first := hfirst
    lasting := fun q d h cs' => after_deposit_kept h cs'
    distinct := fun p q d d' h h' hne ho => hne (hsound.distinct p q d d' h h' ho)
    backed := hsound.backed
    ordered := ⟨hsublist, hsublist.nodup (by decide)⟩
    unreclaimed := mem_unreclaimed_after cs
    complete := by simp only [hasAllDeposits_iff, hfirst, lookup_isSome_iff]
    given := hasAllDeposits_iff_exists
    taken := fun role d => by rw [perform_recordDeposit, checkDeposit_eq_ok]
    repeated := fun role d => by rw [perform_recordDeposit, checkDeposit_duplicate]
    shared := fun role d holder => by rw [perform_recordDeposit, hsound.checkDeposit_shared]
    refused := fun c e he => unchanged_of_refused he }

end EscrowMix.Escrow.Record
