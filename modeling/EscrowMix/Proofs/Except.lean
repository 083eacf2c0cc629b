import EscrowMix.Error

/-!
When a computation that may fail ends well. A chain of guards succeeds only if every link does, so
these equivalences open the transitions of a session one guard at a time.
-/

namespace EscrowMix

variable {ε ε' α β : Type}

theorem bind_eq_ok {x : Except ε α} {f : α → Except ε β} {b : β} :
    x >>= f = .ok b ↔ ∃ a, x = .ok a ∧ f a = .ok b := by
  rcases x with e | a
  · exact ⟨nofun, fun ⟨_, h, _⟩ => nomatch h⟩
  · exact ⟨fun h => ⟨a, rfl, h⟩, fun ⟨_, h, h'⟩ => Except.ok.inj h ▸ h'⟩

theorem bind_of_ok {x : Except ε α} {a : α} (h : x = .ok a) (f : α → Except ε β) :
    x >>= f = f a := by
  rw [h]
  rfl

theorem bind_eq_error {x : Except ε α} {f : α → Except ε β} {e : ε} :
    x >>= f = .error e ↔ x = .error e ∨ ∃ a, x = .ok a ∧ f a = .error e := by
  rcases x with e' | a
  · simp [bind, Except.bind]
  · simp [bind, Except.bind]

theorem mapError_eq_ok {x : Except ε α} {f : ε → ε'} {a : α} :
    x.mapError f = .ok a ↔ x = .ok a := by
  rw [Except.mapError.eq_def]
  split
  · exact ⟨nofun, nofun⟩
  · simp only [Except.ok.injEq]

theorem mapError_bind {x : Except ε α} {f : α → Except ε β} {g : ε → ε'} :
    (x >>= f).mapError g = x.mapError g >>= fun a => (f a).mapError g := by
  rcases x with e | a <;> rfl

theorem map_eq_error {x : Except ε α} {f : α → β} {e : ε} :
    x.map f = .error e ↔ x = .error e := by
  rcases x with e' | a
  · simp only [Except.map, Except.error.injEq]
  · exact ⟨nofun, nofun⟩

theorem map_eq_ok {x : Except ε α} {f : α → β} {b : β} :
    x.map f = .ok b ↔ ∃ a, x = .ok a ∧ f a = b := by
  rcases x with e | a
  · exact ⟨nofun, fun ⟨_, h, _⟩ => nomatch h⟩
  · simp only [Except.map, Except.ok.injEq, exists_eq_left']

theorem pure_eq_ok {a b : α} : (pure a : Except ε α) = .ok b ↔ a = b := by
  simp [pure, Except.pure]

theorem exists_eq_ok {x : Except ε α} (h : x.isOk = true) : ∃ a, x = .ok a := by
  cases x with
  | error e => cases h
  | ok a => exact ⟨a, rfl⟩

/-- The error of a computation that failed. -/
def failure? : Except ε α → Option ε
  | .error e => some e
  | .ok _ => none

theorem failure?_eq_some {x : Except ε α} {e : ε} : failure? x = some e ↔ x = .error e := by
  rcases x with e' | a
  · simp only [failure?, Option.some.injEq, Except.error.injEq]
  · exact ⟨nofun, nofun⟩

theorem throw_ne_ok {e : ε} {a : α} : (throw e : Except ε α) ≠ .ok a := nofun

/-- A check that throws lets only the other case through. -/
theorem check_eq_ok {c : Prop} [Decidable c] {e : ε} {f : Unit → Except ε α} {a : α} :
    (if c then (throw e : Except ε Unit) >>= f else f ()) = .ok a ↔ ¬c ∧ f () = .ok a := by
  by_cases h : c
  · simp [h, bind, Except.bind, throw, throwThe, MonadExceptOf.throw]
  · simp [h]

/-- The guards of the three roles hold only if each of them does, and give the results in order. -/
theorem mapM_roles_eq_ok {f : Role → Except ε α} {as : List α} :
    Role.all.mapM f = .ok as ↔ ∃ a : Role → α, (∀ r, f r = .ok (a r)) ∧ as = Role.all.map a := by
  simp only [Role.all, List.mapM_cons, List.mapM_nil, bind_eq_ok, pure_eq_ok]
  constructor
  · rintro ⟨a, ha, _, ⟨b, hb, _, ⟨c, hc, _, rfl, rfl⟩, rfl⟩, rfl⟩
    refine ⟨RoleMap.get ⟨a, b, c⟩, fun r => ?_, rfl⟩
    cases r with
    | sender => exact ha
    | mixer => exact hb
    | guarantor => exact hc
  · rintro ⟨a, h, rfl⟩
    exact ⟨_, h .sender, _, ⟨_, h .mixer, _, ⟨_, h .guarantor, _, rfl, rfl⟩, rfl⟩, rfl⟩

/-! ### Kinds of failures -/

section

variable {p : ε → Prop}

/-- The computation fails with errors of this kind only. -/
def FailsAs (p : ε → Prop) (x : Except ε α) : Prop := ∀ e, x = .error e → p e

theorem failsAs_ok (p : ε → Prop) (a : α) : FailsAs p (.ok a) := nofun

theorem failsAs_error {e : ε} (h : p e) : FailsAs p (.error e : Except ε α) := by
  intro e' he
  cases he
  exact h

theorem FailsAs.mono {q : ε → Prop} {x : Except ε α} (h : FailsAs p x) (hq : ∀ e, p e → q e) :
    FailsAs q x :=
  fun e he => hq e (h e he)

theorem FailsAs.bind {x : Except ε α} {f : α → Except ε β} (hx : FailsAs p x)
    (hf : ∀ a, x = .ok a → FailsAs p (f a)) : FailsAs p (x >>= f) := by
  intro e he
  rcases bind_eq_error.1 he with he | ⟨a, ha, he⟩
  · exact hx e he
  · exact hf a ha e he

theorem FailsAs.mapError {x : Except ε' α} {g : ε' → ε} (hx : FailsAs (fun e => p (g e)) x) :
    FailsAs p (x.mapError g) := by
  rcases x with e | a
  · exact failsAs_error (hx e rfl)
  · exact failsAs_ok p a

theorem FailsAs.check {c : Prop} [Decidable c] {e : ε} {f : Unit → Except ε α} (he : p e)
    (hf : ¬c → FailsAs p (f ())) :
    FailsAs p (if c then (throw e : Except ε Unit) >>= f else f ()) := by
  by_cases h : c
  · rw [if_pos h]
    exact failsAs_error he
  · rw [if_neg h]
    exact hf h

/-- The three roles fail as each of them does. -/
theorem FailsAs.mapM_roles {f : Role → Except ε α} (h : ∀ r, FailsAs p (f r)) :
    FailsAs p (Role.all.mapM f) := by
  simp only [Role.all, List.mapM_cons, List.mapM_nil]
  refine .bind (h .sender) fun _ _ => .bind ?_ fun _ _ => failsAs_ok p _
  refine .bind (h .mixer) fun _ _ => .bind ?_ fun _ _ => failsAs_ok p _
  exact .bind (h .guarantor) fun _ _ => .bind (failsAs_ok p _) fun _ _ => failsAs_ok p _

end

end EscrowMix
