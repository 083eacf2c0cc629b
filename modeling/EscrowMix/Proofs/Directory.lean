import EscrowMix.Proofs.Session.Transitions
import EscrowMix.Directory

/-!
What the operations of a directory do to the active session and to each slot.
-/

namespace EscrowMix.Directory

variable {d d' : Directory} {id : SessionId} {slot slot' : Slot} {s : Session} {now : UInt64}

/-! ### Slots -/

theorem session_update_self (h : slot < d.sessions.length) : (d.update slot s).session slot = s := by
  simp [session, update, h]

theorem session_update_ne (h : slot' ≠ slot) : (d.update slot s).session slot' = d.session slot' := by
  simp [session, update, List.getElem?_set_ne (Ne.symm h)]

/-- Only the slot itself changes, if it was handed out. -/
theorem session_update (d : Directory) (slot slot' : Slot) (s : Session) :
    (d.update slot s).session slot' =
      if slot' = slot ∧ slot < d.sessions.length then s else d.session slot' := by
  split
  · next h =>
    rw [h.1]
    exact session_update_self h.2
  · next h =>
    by_cases he : slot' = slot
    · have hlt : d.sessions.length ≤ slot := Nat.not_lt.1 fun hlt => h ⟨he, hlt⟩
      rw [update, List.set_eq_of_length_le hlt]
    · exact session_update_ne he

@[simp] theorem update_active : (d.update slot s).active = d.active := rfl

@[simp] theorem update_fees : (d.update slot s).fees = d.fees := rfl

@[simp] theorem length_update : (d.update slot s).sessions.length = d.sessions.length :=
  List.length_set

/-- Putting a session back changes nothing. -/
theorem update_session : d.update slot (d.session slot) = d := by
  simp only [update, session, List.getD_eq_getElem?_getD]
  by_cases h : slot < d.sessions.length
  · simp [h]
  · rw [List.set_eq_of_length_le (Nat.not_lt.1 h)]

/-- Nothing stands in a slot that was not handed out. -/
theorem session_of_length_le (h : d.sessions.length ≤ slot) : d.session slot = vacant := by
  rw [session, List.getD_eq_getElem?_getD, List.getElem?_eq_none h, Option.getD_none]

theorem lookup_eq_ok : d.lookup id = .ok slot ↔ d.active = some (id, slot) := by
  unfold lookup
  split
  · next current slot' h =>
    by_cases hc : current = id <;> simp [hc, h]
  · next h => simp [h]

/-! ### A new session -/

/-- The directory with a new session of this identifier as the active one. -/
def opened (d : Directory) (id : SessionId) (now : UInt64) : Directory :=
  (d.activate (.fresh id d.fees now)).2

@[simp] theorem opened_active : (d.opened id now).active = some (id, d.sessions.length) := rfl

@[simp] theorem opened_fees : (d.opened id now).fees = d.fees := rfl

@[simp] theorem length_opened : (d.opened id now).sessions.length = d.sessions.length + 1 := by
  simp [opened, activate]

theorem session_opened_self :
    (d.opened id now).session d.sessions.length = .fresh id d.fees now := by
  simp [session, opened, activate]

theorem session_opened_of_lt (h : slot < d.sessions.length) :
    (d.opened id now).session slot = d.session slot := by
  simp [session, opened, activate, List.getElem?_append_left h]

/-- How room was made for another session: there was no active one, or it was not in progress, or
it was reset. -/
inductive Vacated (d : Directory) (id : SessionId) (now : UInt64) : Directory → Prop
  | free (h : d.active = none) : Vacated d id now d
  | finished {id' : SessionId} {slot : Slot} (h : d.active = some (id', slot)) (hid : id' ≠ id)
      (hover : (d.session slot).isInProgress = false) : Vacated d id now d
  | cleared {id' : SessionId} {slot : Slot} {s : Session} (h : d.active = some (id', slot))
      (hid : id' ≠ id) (hbusy : (d.session slot).isBusy = false)
      (hreset : (d.session slot).reset true now = .ok s) : Vacated d id now (d.update slot s)

theorem Vacated.length_eq (h : Vacated d id now d') : d'.sessions.length = d.sessions.length := by
  cases h with
  | free | finished => rfl
  | cleared => exact length_update

theorem Vacated.fees_eq (h : Vacated d id now d') : d'.fees = d.fees := by
  cases h <;> rfl

theorem vacate_ok {id' : SessionId} {eviction : Eviction} (ha : d.active = some (id', slot))
    (hid : id' ≠ id) (h : d.vacate id' slot now = .ok (eviction, d')) : Vacated d id now d' := by
  unfold vacate at h
  dsimp only at h
  split at h
  · split at h
    · cases h
    · next hb =>
      obtain ⟨s, hr, h⟩ := bind_eq_ok.1 h
      obtain ⟨-, rfl⟩ := Prod.mk.inj (Except.ok.inj h)
      simp only [Bool.or_eq_true, not_or, Bool.not_eq_true] at hb
      exact .cleared ha hid hb.1 hr
  · next hp =>
    obtain ⟨-, rfl⟩ := Prod.mk.inj (Except.ok.inj h)
    exact .finished ha hid (by simpa using hp)

theorem vacate_id {id' : SessionId} {eviction : Eviction}
    (h : d.vacate id' slot now = .ok (eviction, d')) : eviction.id = id' := by
  unfold vacate at h
  dsimp only at h
  split at h
  · split at h
    · cases h
    · obtain ⟨s, -, h⟩ := bind_eq_ok.1 h
      obtain ⟨rfl, -⟩ := Prod.mk.inj (Except.ok.inj h)
      rfl
  · obtain ⟨rfl, -⟩ := Prod.mk.inj (Except.ok.inj h)
    rfl

/-- A session is found under its identifier, or a new one is put into a slot of its own. -/
theorem getOrCreate_ok {evicted : Option Eviction}
    (h : d.getOrCreate id now = .ok ((slot, evicted), d')) :
    (d.active = some (id, slot) ∧ d' = d) ∨
    ∃ d₁, Vacated d id now d₁ ∧ slot = d.sessions.length ∧ d' = d₁.opened id now := by
  unfold getOrCreate enroll at h
  split at h
  · next ha =>
    simp only [activate, Except.ok.injEq, Prod.mk.injEq] at h
    obtain ⟨⟨rfl, -⟩, rfl⟩ := h
    exact .inr ⟨d, .free ha, rfl, rfl⟩
  · next id' slot' ha =>
    split at h
    · next hid =>
      simp only [Bool.false_eq_true, if_false, Except.ok.injEq, Prod.mk.injEq] at h
      obtain ⟨⟨rfl, -⟩, rfl⟩ := h
      exact .inl ⟨ha.trans (by rw [hid]; rfl), rfl⟩
    · next hid =>
      obtain ⟨⟨eviction, d₁⟩, hv, h⟩ := bind_eq_ok.1 h
      simp only [activate, pure_eq_ok, Prod.mk.injEq] at h
      obtain ⟨⟨rfl, -⟩, rfl⟩ := h
      have hv := vacate_ok ha hid hv
      exact .inr ⟨d₁, hv, hv.length_eq, by rw [opened, activate, hv.fees_eq]⟩

/-- Whoever makes way for another session is told, and nobody else is. -/
theorem getOrCreate_evicted {evicted : Option Eviction}
    (h : d.getOrCreate id now = .ok ((slot, evicted), d')) :
    evicted.map (·.id) = if d.activeId = some id then none else d.activeId := by
  unfold getOrCreate enroll at h
  split at h
  · next ha =>
    simp only [activate, Except.ok.injEq, Prod.mk.injEq] at h
    obtain ⟨⟨-, rfl⟩, -⟩ := h
    simp [activeId, ha]
  · next id' slot' ha =>
    have hactive : d.activeId = some id' := by rw [activeId, ha]; rfl
    rw [hactive]
    split at h
    · next hid =>
      simp only [Except.ok.injEq, Prod.mk.injEq] at h
      obtain ⟨⟨-, rfl⟩, -⟩ := h
      exact (if_pos (congrArg some hid)).symm
    · next hid =>
      obtain ⟨⟨eviction, d₁⟩, hv, h⟩ := bind_eq_ok.1 h
      simp only [activate, pure_eq_ok, Prod.mk.injEq] at h
      obtain ⟨⟨-, rfl⟩, -⟩ := h
      have hne : ¬some id' = some id := fun he => hid (Option.some.inj he)
      exact (congrArg some (vacate_id hv)).trans (if_neg hne).symm

/-- A session that is active already is found where it is. -/
theorem getOrCreate_of_active (h : d.active = some (id, slot)) :
    d.getOrCreate id now = .ok ((slot, none), d) := by
  unfold getOrCreate enroll
  rw [h]
  simp [Session.fresh]

/-! ### Leaving -/

/-- The directory without an active session. -/
def closed (d : Directory) : Directory := { d with active := none }

@[simp] theorem closed_session : d.closed.session slot = d.session slot := rfl

@[simp] theorem closed_active : d.closed.active = none := rfl

@[simp] theorem length_closed : d.closed.sessions.length = d.sessions.length := rfl

theorem drop_cases (d : Directory) (id : SessionId) :
    (d.activeId = some id ∧ (d.drop id).2 = d.closed) ∨
    (d.activeId ≠ some id ∧ (d.drop id).2 = d) := by
  unfold drop
  split
  · next h => exact .inl ⟨h, rfl⟩
  · next h => exact .inr ⟨h, rfl⟩

/-- A sweep leaves the directory alone, or resets the active session and drops it, or flags it. -/
theorem sweep_cases (d : Directory) (now maxIdle : UInt64) (locked : Option Slot) :
    (d.sweep now maxIdle locked).2 = d ∨ ∃ id slot, d.active = some (id, slot) ∧
      (d.session slot).isBusy = false ∧
      ((∃ s, (d.session slot).reset true now = .ok s ∧
          (d.sweep now maxIdle locked).2 = (d.update slot s).closed) ∨
        (d.sweep now maxIdle locked).2 = d.update slot ((d.session slot).flag now)) := by
  unfold sweep
  split
  · exact .inl rfl
  · next id slot ha =>
    dsimp only
    split
    · exact .inl rfl
    · split
      · next hc =>
        simp only [Bool.and_eq_true, Bool.not_eq_true', decide_eq_true_eq] at hc
        refine .inr ⟨id, slot, ha, hc.1.2, ?_⟩
        cases hr : (d.session slot).reset true now with
        | ok s => exact .inl ⟨s, rfl, rfl⟩
        | error e => exact .inr rfl
      · exact .inl rfl

/-- What a sweep tells, along with what it does. -/
theorem sweep_told (d : Directory) (now maxIdle : UInt64) (locked : Option Slot) :
    d.sweep now maxIdle locked = ([], d) ∨ ∃ id slot, d.active = some (id, slot) ∧
      (d.session slot).isInProgress = true ∧
      ((∃ s, (d.session slot).reset true now = .ok s ∧
          d.sweep now maxIdle locked = ([.reset id], (d.update slot s).closed)) ∨
        d.sweep now maxIdle locked = ([.flagged id], d.update slot ((d.session slot).flag now))) := by
  unfold sweep
  split
  · exact .inl rfl
  · next id slot ha =>
    dsimp only
    split
    · exact .inl rfl
    · split
      · next hc =>
        simp only [Bool.and_eq_true, Bool.not_eq_true', decide_eq_true_eq] at hc
        refine .inr ⟨id, slot, ha, hc.1.1, ?_⟩
        cases hr : (d.session slot).reset true now with
        | ok s => exact .inl ⟨s, rfl, rfl⟩
        | error e => exact .inr rfl
      · exact .inl rfl

end EscrowMix.Directory
