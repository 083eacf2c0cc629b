import EscrowMix.Proofs.Session.Effects
import EscrowMix.Proofs.Session.Facts

/-!
How calls move a session into progress and out of it, whatever its data, also one that a store gave
back. Only a begin call takes a session from not begun to in progress; a session in progress climbs,
and only the broadcast makes it complete; and only resets lead back, to a session that is as new.
-/

namespace EscrowMix.Session

variable {s s' : Session} {now : UInt64} {c : Call}

/-- How a call moves the status of a session. The identifier stays, and only the end of a broadcast
completes the session. -/
inductive Shifts (s : Session) (c : Call) : Session → Prop
  | stays {s' : Session} (h : s'.status = s.status) (hid : s'.id = s.id) : Shifts s c s'
  | begins {s' : Session} (hc : c.begins = true) (hst : s.status = .notBegun)
      (hst' : s'.status = .reserved) (hid : s'.id = s.id) : Shifts s c s'
  | climbs {s' : Session} (h : s.isInProgress = true ∨ ∃ t, s.pending = some t)
      (hst : s'.status ≠ .notBegun) (hover : s'.status = .complete → ∃ t, c = .completeCommit t)
      (hid : s'.id = s.id) : Shifts s c s'
  | cleared (s₀ : Session) (keepLog : Bool) (now : UInt64) (hid : s₀.id = s.id) :
      Shifts s c (s₀.cleared keepLog now)

theorem Shifts.id_eq (h : Shifts s c s') : s'.id = s.id := by
  cases h with
  | stays _ hid | begins _ _ _ hid | climbs _ _ _ hid | cleared _ _ _ hid => exact hid

theorem isInProgress_iff : s.isInProgress = true ↔ s.status ≠ .notBegun ∧ s.status ≠ .complete := by
  simp [isInProgress, Status.isInProgress]

/-- A status of the setup is one of progress. -/
theorem isInProgress_of_mem {statuses : List Status} (h : s.status ∈ statuses)
    (hall : statuses.all Status.isInProgress = true) : s.isInProgress = true :=
  List.all_eq_true.1 hall _ h

theorem isInProgress_of_round {round : UInt8} (h : s.status.expectedRound? = some round) :
    s.isInProgress = true := by
  unfold isInProgress
  generalize s.status = st at h
  cases st <;> first | rfl | cases h

/-- A climb that does not lead to the end. -/
theorem Shifts.within (h : s.isInProgress = true ∨ ∃ t, s.pending = some t)
    (hp : s'.isInProgress = true) (hid : s'.id = s.id) : Shifts s c s' :=
  .climbs h (isInProgress_iff.1 hp).1 (fun he => absurd he (isInProgress_iff.1 hp).2) hid

/-- Catching up leads to a status of progress. -/
theorem promoted_isInProgress (h : s.isInProgress = true) (now : UInt64) :
    ((s.promoted now).touched now).isInProgress = true := by
  unfold promoted caughtUp?
  split
  · next st hc =>
    split at hc
    · obtain ⟨-, hc⟩ := Option.ite_none_right_eq_some.1 hc
      cases hc
      rfl
    · obtain ⟨-, hc⟩ := Option.ite_none_right_eq_some.1 hc
      cases hc
      rfl
    · cases hc
  · exact h

/-- The status catches up with the data of a session in progress. -/
theorem promoted_shifts (h : s.isInProgress = true ∨ ∃ t, s.pending = some t)
    (hp : s'.isInProgress = true) (hid : s'.id = s.id) (now : UInt64) :
    Shifts s c ((s'.promoted now).touched now) := by
  refine .within h (promoted_isInProgress hp now) ?_
  rw [promoted_eq]
  exact hid

theorem deposited_shifts (h : s.isInProgress = true) (record : Escrow.Record) (event : String)
    (now : UInt64) : Shifts s c (s.deposited record event now) := by
  refine promoted_shifts (.inl h) ?_ ?_ now
  · exact h
  · rfl

theorem afterRound_isInProgress (round : UInt8) :
    (Status.afterRound round).isInProgress = true := by
  unfold Status.afterRound
  split <;> rfl

theorem roundRecorded_shifts {s₀ : Session} (h : s.isInProgress = true ∨ ∃ t, s.pending = some t)
    (hid : s₀.id = s.id) (record : Escrow.Record) (round : UInt8) (verb : String) (now : UInt64) :
    Shifts s c (s₀.roundRecorded record round verb now) :=
  .within h (afterRound_isInProgress round) hid

theorem keyed_id (s : Session) (role : Role) (address : Address) (key : PublicKey) (now : UInt64) :
    (s.keyed role address key now).id = s.id := by
  unfold keyed
  dsimp only
  split <;> rfl

theorem keyed_isInProgress (h : s.isInProgress = true) (role : Role) (address : Address)
    (key : PublicKey) (now : UInt64) : (s.keyed role address key now).isInProgress = true := by
  unfold keyed
  dsimp only
  split
  · rfl
  · exact h

/-- Only a session that has not begun begins. -/
theorem notBegun_of_begins {a : c.Answer} (hc : c.begins = true)
    (hs : s.perform now c = (.ok a, s')) : s.status = .notBegun := by
  cases perform_outcome hs with
  | begunAsSender _ hst | begunInvited _ hst => exact hst
  | _ => cases hc

/-- And it is reserved then. -/
theorem reserved_of_begins {a : c.Answer} (hc : c.begins = true)
    (hs : s.perform now c = (.ok a, s')) : s'.status = .reserved := by
  cases perform_outcome hs with
  | begunAsSender | begunInvited => rfl
  | _ => cases hc

theorem Outcome.shifts {answer : Except Error c.Answer} (h : Outcome s now c answer s') :
    Shifts s c s' := by
  cases h with
  | begunAsSender _ hst | begunInvited _ hst => exact .begins rfl hst rfl rfl
  | ownKey _ hst =>
    have hp := isInProgress_of_mem hst rfl
    exact promoted_shifts (.inl hp) (keyed_isInProgress hp _ _ _ now) (keyed_id ..) now
  | peerKey _ hst =>
    have hp := isInProgress_of_mem hst rfl
    refine promoted_shifts (.inl hp) ?_ ?_ now
    · exact hp
    · rfl
  | multisig hp =>
    refine promoted_shifts (.inr ⟨_, hp⟩) ?_ ?_ now
    · rfl
    · rfl
  | ownDeposit _ hst =>
    exact deposited_shifts (isInProgress_of_mem (List.mem_singleton.2 hst) rfl) _ _ now
  | peerDeposit _ hst => exact deposited_shifts (isInProgress_of_mem hst rfl) _ _ now
  | accepted hh => exact .within (.inr ⟨_, (honours_iff.1 hh).1⟩) rfl rfl
  | produced _ hh =>
    have hid : s.idle.id = s.id := rfl
    exact roundRecorded_shifts (.inr ⟨_, (honours_iff.1 hh).1⟩) hid _ _ _ now
  | received _ _ hround =>
    exact roundRecorded_shifts (.inl (isInProgress_of_round hround)) rfl _ _ _ now
  | committed hp => exact .climbs (.inr ⟨_, hp⟩) nofun (fun _ => ⟨_, rfl⟩) rfl
  | reset => exact .cleared _ _ _ (by split <;> rfl)
  | miscounted | forced =>
    rw [forceReset_eq]
    exact .cleared _ _ _ rfl
  | _ => exact .stays rfl rfl

/-- Every call moves the status in one of these ways. -/
theorem perform_shifts (s : Session) (now : UInt64) (c : Call) : Shifts s c (s.perform now c).2 :=
  (perform_outcome rfl).shifts

/-! ### Sessions with something outstanding are in progress -/

/-- What is outstanding is a step of a session in progress. -/
def Engaged (s : Session) : Prop := ∀ t, s.pending = some t → s.isInProgress = true

theorem fresh_engaged (id : SessionId) (fees : FeePolicy) (now : UInt64) :
    Engaged (fresh id fees now) :=
  nofun

theorem cleared_engaged (s : Session) (keepLog : Bool) (now : UInt64) :
    Engaged (s.cleared keepLog now) :=
  fun _ h => by cases h

/-- A transition is claimed by a session in progress. -/
theorem perform_claimed_inProgress {t : Ticket} (ht : c.claimed? (s.perform now c).1 = some t) :
    s.isInProgress = true := by
  generalize hs : s.perform now c = out at ht
  obtain ⟨answer, s'⟩ := out
  cases perform_outcome hs with
  | refused => cases c <;> cases ht
  | claimedMultisig _ hst | claimedVerification _ hst | claimedCommit _ hst =>
    exact isInProgress_of_mem (List.mem_singleton.2 hst) rfl
  | claimedSignature _ _ hround => exact isInProgress_of_round hround
  | _ => cases ht

theorem Engaged.perform (h : s.Engaged) (now : UInt64) (c : Call) :
    (s.perform now c).2.Engaged := by
  intro t ht
  have hsame : ∀ {s' : Session}, s'.status = s.status → s.isInProgress = true →
      s'.isInProgress = true := fun he hp => (congrArg Status.isInProgress he).trans hp
  generalize hs : s.perform now c = out at ht
  obtain ⟨answer, s'⟩ := out
  have hanswer : answer = (s.perform now c).1 := by rw [hs]
  cases Session.perform_effect hs with
  | kept hkept _ hpending => exact hsame hkept.status (h t (hpending.symm.trans ht))
  | claimed t' hclaimed =>
    rw [hanswer] at hclaimed
    exact hsame rfl (perform_claimed_inProgress hclaimed)
  | returned => cases ht
  | committed _ hpending | cleared _ hpending => cases hpending.symm.trans ht

/-- Without a begin call, a session in progress was so before. -/
theorem Engaged.inProgress_before (h : s.Engaged) (hc : c.begins = false)
    (hp : (s.perform now c).2.isInProgress = true) : s.isInProgress = true := by
  have hshifts := perform_shifts s now c
  generalize (s.perform now c).2 = s' at hshifts hp
  cases hshifts with
  | stays hst => exact (congrArg Status.isInProgress hst).symm.trans hp
  | begins hbegins => cases hc.symm.trans hbegins
  | climbs hbefore => exact hbefore.elim (fun hp => hp) fun ⟨t, ht⟩ => h t ht
  | cleared => cases hp

theorem perform_id (s : Session) (now : UInt64) (c : Call) : (s.perform now c).2.id = s.id :=
  (perform_shifts s now c).id_eq

/-! ### Sessions that have not begun -/

/-- If the session has not begun, then there is nothing in it. -/
def Untouched (s : Session) : Prop := s.status = .notBegun → s.Consistent

theorem fresh_untouched (id : SessionId) (fees : FeePolicy) (now : UInt64) :
    Untouched (fresh id fees now) :=
  fun _ => fresh_consistent id fees now

/-- Without anything outstanding no ticket completes a transition, so the call may be for any. -/
theorem Consistent.performed_idle (h : s.Consistent) (hp : s.pending = none) (now : UInt64)
    (c : Call) : (s.perform now c).2.Consistent := by
  cases hc : c.redeemed? with
  | some t =>
    have hh : ¬s.honours t = true := fun hh => nomatch hp.symm.trans (honours_iff.1 hh).1
    rw [perform_refused hh hc now]
    exact h
  | none =>
    refine perform_consistent h now c ?_
    cases c <;> trivial

/-- Whatever leads back to where a session has not begun leaves nothing in it. -/
theorem Untouched.perform (h : s.Untouched) (hr : s.Ready) (now : UInt64) (c : Call) :
    (s.perform now c).2.Untouched := by
  by_cases hst : s.status = .notBegun
  · exact fun _ => (h hst).performed_idle (hr hst).2 now c
  · have hshifts := perform_shifts s now c
    generalize (s.perform now c).2 = s' at hshifts
    intro hst'
    cases hshifts with
    | stays hs => exact absurd (hs.symm.trans hst') hst
    | begins _ hs => exact absurd hs hst
    | climbs _ hs => exact absurd hst' hs
    | cleared s₀ keepLog now => exact cleared_consistent s₀ keepLog now

end EscrowMix.Session
