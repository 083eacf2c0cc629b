import EscrowMix.Proofs.Except

/-!
What the operations of a registry do to each role's entry.
-/

namespace EscrowMix.Registry

variable {g g' : Registry} {r q : Role} {a : Address} {k : PublicKey} {p : PeerId}

@[simp] theorem empty_role : empty.role = none := rfl

@[simp] theorem empty_address (r : Role) : empty.address r = none := by cases r <;> rfl

@[simp] theorem empty_key (r : Role) : empty.key r = none := by cases r <;> rfl

/-! ### Connections -/

@[simp] theorem setPeer_role (g : Registry) (r : Role) (p : PeerId) : (g.setPeer r p).role = g.role :=
  rfl

@[simp] theorem setPeer_address (g : Registry) (r : Role) (p : PeerId) (q : Role) :
    (g.setPeer r p).address q = g.address q := by
  cases r <;> cases q <;> rfl

@[simp] theorem setPeer_key (g : Registry) (r : Role) (p : PeerId) (q : Role) :
    (g.setPeer r p).key q = g.key q := by
  cases r <;> cases q <;> rfl

/-! ### The own role -/

theorem setRole_eq_ok (h : g.role = none) : g.setRole r = .ok g' ↔ g' = { g with role := some r } := by
  simp only [setRole, h, Except.ok.injEq]
  exact eq_comm

theorem localRole_eq_ok : g.localRole = .ok r ↔ g.role = some r := by
  unfold localRole
  cases g.role <;> simp

/-! ### Keys -/

/-- The registry with the address and the key of one more role. -/
def registered (g : Registry) (r : Role) (a : Address) (k : PublicKey) : Registry :=
  { g with parties := g.parties.set r { g.parties.get r with address := some a, key := some k } }

@[simp] theorem registered_role (g : Registry) (r : Role) (a : Address) (k : PublicKey) :
    (g.registered r a k).role = g.role := rfl

theorem registered_address (g : Registry) (r : Role) (a : Address) (k : PublicKey) (q : Role) :
    (g.registered r a k).address q = if q = r then some a else g.address q := by
  cases r <;> cases q <;> rfl

theorem registered_key (g : Registry) (r : Role) (a : Address) (k : PublicKey) (q : Role) :
    (g.registered r a k).key q = if q = r then some k else g.key q := by
  cases r <;> cases q <;> rfl

/-- An entry is news for a role without one, and no news if it is the very entry that stands
there. -/
theorem isNews_eq_ok {news : Bool} : g.isNews r a k = .ok news ↔
    (news = true ∧ g.address r = none ∧ g.key r = none) ∨
    (news = false ∧ g.address r = some a ∧ g.key r = some k) := by
  unfold isNews
  cases g.address r with
  | none => cases g.key r <;> simp [eq_comm]
  | some a' =>
    cases g.key r with
    | none => simp
    | some k' =>
      by_cases h : a' = a ∧ k' = k
      · simp [h, eq_comm]
      · simp only [if_neg h, reduceCtorEq, and_false, Option.some.injEq, false_or,
          false_iff]
        exact fun ⟨_, h'⟩ => h h'

theorem register_eq_ok {news : Bool} : g.register r a k = .ok (news, g') ↔
    (news = true ∧ g.address r = none ∧ g.key r = none ∧ g' = g.registered r a k) ∨
    (news = false ∧ g.address r = some a ∧ g.key r = some k ∧ g' = g) := by
  simp only [register, bind_eq_ok, isNews_eq_ok]
  constructor
  · rintro ⟨_, ⟨rfl, h⟩ | ⟨rfl, h⟩, h'⟩ <;> obtain ⟨rfl, rfl⟩ := Prod.mk.inj (Except.ok.inj h')
    · exact .inl ⟨rfl, h.1, h.2, rfl⟩
    · exact .inr ⟨rfl, h.1, h.2, rfl⟩
  · rintro (⟨rfl, ha, hk, rfl⟩ | ⟨rfl, ha, hk, rfl⟩)
    · exact ⟨true, .inl ⟨rfl, ha, hk⟩, rfl⟩
    · exact ⟨false, .inr ⟨rfl, ha, hk⟩, rfl⟩

/-- Another entry is in the way. -/
theorem register_of_other {a' : Address} {k' : PublicKey} (ha : g.address r = some a)
    (hk : g.key r = some k) (hne : (a', k') ≠ (a, k)) :
    g.register r a' k' = .error (.keyAlreadySet r) := by
  have hother : ¬(a = a' ∧ k = k') := fun ⟨ea, ek⟩ => hne (by rw [ea, ek])
  rw [register, isNews, ha, hk]
  dsimp only
  rw [if_neg hother]
  rfl

theorem hasAllKeys_iff : g.hasAllKeys = true ↔ ∀ r, (g.key r).isSome := by
  constructor
  · intro h r
    simp only [hasAllKeys, RoleMap.all, RoleMap.values, List.all_cons, List.all_nil,
      Bool.and_eq_true] at h
    cases r with
    | sender => exact h.1
    | mixer => exact h.2.1
    | guarantor => exact h.2.2.1
  · intro h
    simp only [hasAllKeys, RoleMap.all, RoleMap.values, List.all_cons, List.all_nil,
      Bool.and_eq_true]
    exact ⟨h .sender, h .mixer, h .guarantor, trivial⟩

theorem exists_keys (h : ∀ r, (g.key r).isSome) : ∃ keys, g.keys = some keys := by
  obtain ⟨ks, hs⟩ := Option.isSome_iff_exists.1 (h .sender)
  obtain ⟨km, hm⟩ := Option.isSome_iff_exists.1 (h .mixer)
  obtain ⟨kg, hg⟩ := Option.isSome_iff_exists.1 (h .guarantor)
  refine ⟨⟨ks, km, kg⟩, ?_⟩
  rw [keys, RoleMap.ofFn, hs, hm, hg]
  rfl

end EscrowMix.Registry
