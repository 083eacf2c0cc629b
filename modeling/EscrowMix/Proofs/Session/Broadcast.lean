import EscrowMix.Proofs.Session.Lifecycle

/-!
The end of a session. A session is completed by the end of a broadcast and by nothing else, and a
complete one keeps its distribution for good, whatever is called but a reset by force.
-/

namespace EscrowMix.Session

variable {s s' : Session} {now : UInt64} {c : Call} {tx : Bytes}

/-- The distribution that was broadcast: a session has one once it is complete. -/
def broadcast? (s : Session) : Option Bytes :=
  if s.status = .complete then s.record.candidate else none

/-- The session waits for the broadcast of its distribution, which has all its signatures. -/
structure Offers (s : Session) (tx : Bytes) : Prop where
  status : s.status = .distTxComplete
  signedCount : s.record.signedCount = 2
  candidate : s.record.candidate = some tx

theorem broadcast?_of_complete (h : s.status = .complete) : s.broadcast? = s.record.candidate :=
  if_pos h

theorem broadcast?_of_not_complete (h : s.status ≠ .complete) : s.broadcast? = none :=
  if_neg h

/-- A complete session has a distribution. -/
theorem Consistent.isSome_broadcast?_iff (h : s.Consistent) :
    s.broadcast?.isSome ↔ s.status = .complete := by
  by_cases hst : s.status = .complete
  · have hcandidate : s.record.candidate.isSome := h.record.candidate.2 (by rw [hst]; decide)
    rw [broadcast?_of_complete hst]
    exact iff_of_true hcandidate hst
  · rw [broadcast?_of_not_complete hst]
    exact iff_of_false nofun hst

theorem candidate_of_broadcast? (h : s.broadcast? = some tx) : s.record.candidate = some tx :=
  (Option.ite_none_right_eq_some.1 h).2

/-- Nothing is outstanding once a session is complete. -/
theorem Consistent.idle_of_complete (h : s.Consistent) (hst : s.status = .complete) :
    s.pending = none := by
  cases hp : s.pending with
  | none => rfl
  | some t =>
    have hawaits := h.pending t hp
    cases t with
    | deriveMultisig | verifyDeposits | commit => cases hst.symm.trans hawaits
    | signature round =>
      have hround := hawaits.1
      rw [hst] at hround
      cases hround

theorem Grows.broadcast? (hg : Grows s s') (h : s.Consistent) (h' : s'.Consistent)
    (hst : s.status = .complete) : s'.broadcast? = s.broadcast? := by
  have hst' : s'.status = .complete := by
    have hle := hg.status
    rw [hst] at hle
    generalize s'.status = st at hle
    cases st <;> first | rfl | exact absurd hle (by decide)
  have hcount : s'.record.signedCount = s.record.signedCount := by
    rw [h.record.signedCount, h'.record.signedCount, hst, hst']
  have hsome := (h.isSome_broadcast?_iff).2 hst
  obtain ⟨tx, htx⟩ := Option.isSome_iff_exists.1 hsome
  rw [htx, broadcast?_of_complete hst']
  exact hg.candidate tx (candidate_of_broadcast? htx) hcount

/-- Whatever is called on a complete session leaves it complete, with its distribution. -/
theorem perform_final (h : s.Consistent) (hm : c.IsMatched) (hf : c.isForced = false)
    (hst : s.status = .complete) {answer : Except Error c.Answer}
    (hs : s.perform now c = (answer, s')) : s'.broadcast? = s.broadcast? := by
  have hidle := h.idle_of_complete hst
  cases ht : c.ticket? with
  | some t =>
    have hh : ¬s.honours t = true := fun hh => nomatch hidle.symm.trans (honours_iff.1 hh).1
    have hsame := perform_unhonoured hh ht now
    rw [hs] at hsame
    rw [← hsame]
  | none =>
    have hv : c.isVerdict = false := by cases c <;> first | rfl | cases ht
    have h' := h.performed hm hs
    rcases answer with e | a
    · rw [perform_error hv hs]
    · cases perform_evolves h hm hs with
      | same hsame => exact hsame.grows.broadcast? h h' hst
      | grown hg => exact hg.broadcast? h h' hst
      | cleared _ hc =>
        rcases hc with hc | hc
        · exact absurd hst (canReset_iff.1 hc).2.1
        · exact absurd hc (Call.not_overrides hf a)

/-- Only the end of a broadcast changes what was broadcast. -/
theorem perform_broadcast? (h : s.Consistent) (hm : c.IsMatched) (hf : c.isForced = false)
    (hc : ∀ t, c ≠ .completeCommit t) {answer : Except Error c.Answer}
    (hs : s.perform now c = (answer, s')) : s'.broadcast? = s.broadcast? := by
  by_cases hst : s.status = .complete
  · exact perform_final h hm hf hst hs
  · rw [broadcast?_of_not_complete hst]
    refine broadcast?_of_not_complete ?_
    have hshifts := perform_shifts s now c
    rw [hs] at hshifts
    cases hshifts with
    | stays hsame => exact hsame ▸ hst
    | begins _ _ hbegun => exact hbegun ▸ nofun
    | climbs _ _ hover =>
      intro hst'
      obtain ⟨t, he⟩ := hover hst'
      exact hc t he
    | cleared => exact nofun

/-- The end of the broadcast of the distribution, with the ticket that was claimed for it. -/
theorem Offers.completed {t : Ticket} (h : s.Offers tx) (hh : s.honours t = true) (now : UInt64) :
    ∃ s', s.perform now (.completeCommit t) = (.ok (), s') ∧ s'.broadcast? = some tx := by
  rw [perform, completeCommit, redeem_of_honours hh]
  refine ⟨_, rfl, ?_⟩
  rw [broadcast?_of_complete rfl]
  exact h.candidate

/-- A broadcast that failed leaves the distribution to the next one. -/
theorem Offers.released {t : Ticket} (h : s.Offers tx) (hh : s.honours t = true) :
    (s.release t).Offers tx ∧ (s.release t).pending = none := by
  rw [release_of_honours hh]
  exact ⟨⟨h.status, h.signedCount, h.candidate⟩, rfl⟩

end EscrowMix.Session
