import EscrowMix.Proofs.Session.Tickets

/-!
The way of a session through its statuses. A call that completes the transition of its ticket leads
the session on by one status after the other, each noted in the log, and a derived escrow stays.

Of the four calls that complete a transition only the one for a distribution round looks at what its
ticket is for. The three others take any outstanding ticket, and with the ticket of another
transition they break all of this.
-/

namespace EscrowMix

namespace Status

/-- Each status with the one after it. -/
def steps : List (Status × Status) := all.zip all.tail

/-- The steps that lead from one status up to another. -/
def climb (a b : Status) : List (Status × Status) := (steps.drop a.rank).take (b.rank - a.rank)

theorem climb_self (a : Status) : climb a a = [] := by
  rw [climb, Nat.sub_self, List.take_zero]

theorem climb_next {a b : Status} (h : b.rank = a.rank + 1) : climb a b = [(a, b)] := by
  cases a <;> cases b <;> first | rfl | cases h

theorem climb_append {a b c : Status} (hab : a ≤ b) (hbc : b ≤ c) :
    climb a b ++ climb b c = climb a c := by
  have hab' : a.rank ≤ b.rank := hab
  have hbc' : b.rank ≤ c.rank := hbc
  have hdrop : steps.drop b.rank = (steps.drop a.rank).drop (b.rank - a.rank) := by
    rw [List.drop_drop]
    congr 1
    omega
  have hsum : c.rank - a.rank = (b.rank - a.rank) + (c.rank - b.rank) := by omega
  rw [climb, climb, climb, hdrop, hsum, List.take_add]

end Status

namespace Session

variable {s s' s'' : Session} {now : UInt64} {c : Call}

/-- From a session to a later one: the log is continued, and its new lines note every step from the
old status to the new one in order. -/
structure Ascends (s s' : Session) : Prop where
  status : s.status ≤ s'.status
  noted : ∃ lines, s'.log = s.log ++ lines ∧
    ((s.status.climb s'.status).map fun step => advanceEvent step.1 step.2).Sublist
      (lines.map LogEntry.event)

/-- A session in the same status, with a log that was continued. -/
def Continues (s s' : Session) : Prop := s'.status = s.status ∧ s.log <+: s'.log

namespace Ascends

theorem of_continues (h : Continues s s') : Ascends s s' where
  status := Nat.le_of_eq (congrArg Status.rank h.1.symm)
  noted := by
    obtain ⟨hst, lines, hl⟩ := h
    exact ⟨lines, hl.symm, by simp [hst, Status.climb_self]⟩

theorem refl (s : Session) : Ascends s s := of_continues ⟨rfl, List.prefix_refl _⟩

theorem trans (h : Ascends s s') (h' : Ascends s' s'') : Ascends s s'' where
  status := Nat.le_trans h.status h'.status
  noted := by
    obtain ⟨lines, hl, hsub⟩ := h.noted
    obtain ⟨lines', hl', hsub'⟩ := h'.noted
    refine ⟨lines ++ lines', by rw [hl', hl, List.append_assoc], ?_⟩
    rw [← Status.climb_append h.status h'.status, List.map_append, List.map_append]
    exact hsub.append hsub'

/-- One step up. -/
theorem advanced (s : Session) {st : Status} (h : st.rank = s.status.rank + 1) (now : UInt64) :
    Ascends s (s.advanced st now) where
  status := Nat.le_of_lt (by rw [Session.advanced, h]; exact Nat.lt_succ_self _)
  noted := by
    refine ⟨[⟨now, advanceEvent s.status st⟩], rfl, ?_⟩
    have hc : s.status.climb (s.advanced st now).status = [(s.status, st)] := Status.climb_next h
    rw [hc]
    exact List.Sublist.refl _

/-- One step up, after the log was continued. -/
theorem entered {st : Status} (h : st.rank = s.status.rank + 1) (hs : Continues s s')
    (now : UInt64) : Ascends s (s'.advanced st now) :=
  (of_continues hs).trans (advanced s' (by rw [hs.1, h]) now)

theorem promoted (h : Ascends s s') (now : UInt64) : Ascends s (s'.promoted now) := by
  refine h.trans ?_
  unfold Session.promoted caughtUp?
  split
  · next st hc =>
    refine advanced s' ?_ now
    split at hc
    · next hst =>
      obtain ⟨-, hc⟩ := Option.ite_none_right_eq_some.1 hc
      cases hc
      rw [hst]
      rfl
    · next hst =>
      obtain ⟨-, hc⟩ := Option.ite_none_right_eq_some.1 hc
      cases hc
      rw [hst]
      rfl
    · cases hc
  · exact refl s'

theorem touched (h : Ascends s s') (now : UInt64) : Ascends s (s'.touched now) :=
  h.trans (of_continues ⟨rfl, List.prefix_refl _⟩)

end Ascends

/-- The session was cleared as a whole: by a reset, or since the own wallet returned a wrong number
of signatures. -/
def Call.clears : (c : Call) → Except Error c.Answer → Bool
  | .completeSignature .., .error (.fatal _) => true
  | c, answer => c.resets answer

/-- One of the calls cleared the session. -/
def wasCleared : Session → Script → Bool
  | _, [] => false
  | s, (now, c) :: cs => c.clears (s.perform now c).1 || wasCleared (s.perform now c).2 cs

theorem rank_afterRound {st : Status} {round : UInt8} (h : st.expectedRound? = some round) :
    (Status.afterRound round).rank = st.rank + 1 := by
  cases st <;> cases h <;> rfl

/-- A call with a ticket of its own, if with any, leads the session on unless it clears it. -/
theorem perform_ascends (h : Consistent s) (hm : c.IsMatched) {answer : Except Error c.Answer}
    (hs : s.perform now c = (answer, s')) (hc : c.clears answer = false) : Ascends s s' := by
  cases perform_outcome hs with
  | refused | ignored | flaggedBefore => exact .refl s
  | begunAsSender _ hst | begunInvited _ hst =>
    have hnext : Status.reserved.rank = s.status.rank + 1 := by rw [hst]; rfl
    refine .touched (.entered hnext ?_ now) now
    exact ⟨rfl, List.prefix_append ..⟩
  | ownKey _ hst ho _ hk =>
    have hr : s.status = .reserved := h.reserved_of_no_key ho hst hk
    have hnext : Status.initData.rank = s.status.rank + 1 := by rw [hr]; rfl
    rw [keyed_of_reserved hr]
    refine .touched (.promoted (.entered hnext ?_ now) now) now
    exact ⟨rfl, List.prefix_append ..⟩
  | peerKey | ownDeposit | peerDeposit =>
    refine .touched (.promoted (.of_continues ?_) now) now
    exact ⟨rfl, List.prefix_append ..⟩
  | multisig hp =>
    have hst : s.status = .pubKey := h.awaits hp hm
    have hnext : Status.multisigAddr.rank = s.status.rank + 1 := by rw [hst]; rfl
    refine .touched (.promoted (.entered hnext ?_ now) now) now
    exact ⟨rfl, List.prefix_append ..⟩
  | accepted hh =>
    have hst : s.status = .depositsObserved := h.awaits (honours_iff.1 hh).1 hm
    have hnext : Status.depositsVerified.rank = s.status.rank + 1 := by rw [hst]; rfl
    refine .touched (.entered hnext ?_ now) now
    exact ⟨rfl, List.prefix_append ..⟩
  | produced ht hh =>
    have hround : s.Awaits (.signature _) := h.awaits (honours_iff.1 hh).1 ht
    refine .touched (.entered (rank_afterRound hround.1) ?_ now) now
    exact ⟨rfl, List.prefix_append ..⟩
  | received _ _ hround =>
    refine .touched (.entered (rank_afterRound hround) ?_ now) now
    exact ⟨rfl, List.prefix_append ..⟩
  | committed hp =>
    have hst : s.status = .distTxComplete := h.awaits hp hm
    have hnext : Status.complete.rank = s.status.rank + 1 := by rw [hst]; rfl
    refine .touched (.entered hnext ?_ now) now
    exact ⟨rfl, List.prefix_append ..⟩
  | rejected | reclaimable =>
    refine .touched (.of_continues ?_) now
    exact ⟨rfl, List.prefix_append ..⟩
  | flagged => exact .of_continues ⟨rfl, List.prefix_append ..⟩
  | miscounted | reset | forced => cases hc
  | ownKeyAgain | peerKeyAgain | claimedMultisig | claimedVerification | claimedSignature | unfit
  | claimedCommit | returned | peerSet => exact .of_continues ⟨rfl, List.prefix_refl _⟩

/-- A way up on which a derived escrow stays. -/
structure Progress (s s' : Session) : Prop extends Ascends s s' where
  escrow : ∀ m, s.escrow = some m → s'.escrow = some m

theorem perform_progress (h : Consistent s) (hm : c.IsMatched) {answer : Except Error c.Answer}
    (hs : s.perform now c = (answer, s')) (hc : c.clears answer = false) : Progress s s' := by
  have hup := perform_ascends h hm hs hc
  refine ⟨hup, ?_⟩
  cases perform_evolves h hm hs with
  | same hsame => exact hsame.grows.escrow
  | grown hg => exact hg.escrow
  | cleared hcl =>
    -- only a session that had not begun can be taken back to the beginning without going down
    intro m hm
    have hle := hup.status
    rw [hcl.status] at hle
    have hst : .multisigAddr ≤ s.status := h.escrow.1 (by rw [hm]; rfl)
    exact absurd (Nat.le_trans hst hle) (by decide)

theorem Reachable.after (h : Reachable s) {cs : Script} (hm : ∀ e ∈ cs, e.2.IsMatched) :
    Reachable (s.after cs) := by
  induction cs generalizing s with
  | nil => exact h
  | cons e cs ih =>
    have hhead : e.2.IsMatched := hm e List.mem_cons_self
    exact ih (h.perform e.1 e.2 hhead) fun e' he' => hm e' (List.mem_cons_of_mem e he')

theorem Reachable.progress_after (h : Reachable s) {cs : Script} (hm : ∀ e ∈ cs, e.2.IsMatched)
    (hc : s.wasCleared cs = false) : Progress s (s.after cs) := by
  induction cs generalizing s with
  | nil => exact ⟨.refl s, fun _ hm => hm⟩
  | cons e cs ih =>
    obtain ⟨now, c⟩ := e
    obtain ⟨hhead, hrest⟩ := Bool.or_eq_false_iff.1 hc
    have hmatched : c.IsMatched := hm (now, c) List.mem_cons_self
    have hstep := perform_progress h.consistent hmatched rfl hhead
    have hlast := ih (h.perform now c hmatched)
      (fun e' he' => hm e' (List.mem_cons_of_mem _ he')) hrest
    exact ⟨hstep.toAscends.trans hlast.toAscends, fun m hm => hlast.escrow m (hstep.escrow m hm)⟩

/-- A round is completed with the ticket of a round only; with any other ticket nothing happens. And
in every session that calls can lead to, as long as each ticket is brought to its own completion, no
calls but a reset or a wallet that returns a wrong number of signatures ever take the status back,
skip one, or replace the escrow. -/
theorem Reachable.progress (h : Reachable s) :
    (∀ ticket candidate count now, (∀ round, ticket.transition ≠ .signature round) →
      s.perform now (.completeSignature ticket candidate count) =
        (.error .concurrentTransition, s)) ∧
    ∀ cs : Script, (∀ e ∈ cs, e.2.IsMatched) → s.wasCleared cs = false →
      Progress s (s.after cs) := by
  refine ⟨fun ticket candidate count now hother => ?_, fun cs => h.progress_after⟩
  rcases completeSignature_cases s ticket candidate count now with ⟨-, e⟩ | ⟨round, hround, -⟩
  · exact e
  · exact absurd hround (hother round)

namespace Misused

open Reclaimed

/-- The ticket for the escrow is outstanding. -/
def claimed : Session := start.after (setup ++ [(5, .claimMultisig)])

theorem claimed_reachable : Reachable claimed :=
  (Reachable.fresh ..).after (by simp [setup, Call.IsMatched])

/-- It is completed, the deposits come, and the ticket for their check is outstanding. -/
def funding : Script :=
  [(6, .completeMultisig ticket ⟨⟨"escrow"⟩, ⟨[]⟩⟩),
    (7, .recordOwnDeposit ⟨⟨.replicate 32 1⟩, 0, ⟨[]⟩⟩),
    (8, .learnDeposit .sender ⟨⟨.replicate 32 2⟩, 0, ⟨[]⟩⟩),
    (9, .learnDeposit .guarantor ⟨⟨.replicate 32 3⟩, 0, ⟨[]⟩⟩),
    (10, .claimVerification 1)]

theorem funding_isMatched : ∀ e ∈ funding, e.2.IsMatched := by
  simp [funding, Call.IsMatched, ticket]

end Misused

open Misused in
theorem Reachable.progress_of_funding :
    Progress claimed (claimed.after funding) ∧ claimed.status = .pubKey ∧
      (claimed.after funding).status = .depositsObserved :=
  ⟨claimed_reachable.progress.2 funding funding_isMatched (by decide +kernel), by decide +kernel,
    by decide +kernel⟩

open Reclaimed Misused in
/-- The ticket for the escrow completes the broadcast, from PubKey to Complete and without an
escrow; the one for the check of the deposits completes the derivation, and replaces the escrow. -/
theorem foreign_tickets_complete :
    (Reachable claimed ∧ claimed.honours ticket ∧ ticket.transition = .deriveMultisig ∧
      claimed.status = .pubKey ∧
      (claimed.completeCommit ticket 11).toOption.map (fun s => (s.status, s.escrow)) =
        some (.complete, none)) ∧
    ∃ check : Ticket, Reachable (claimed.after funding) ∧
      (claimed.after funding).honours check ∧ check.transition = .verifyDeposits ∧
      (claimed.after funding).escrow = some ⟨⟨"escrow"⟩, ⟨[]⟩⟩ ∧
      ((claimed.after funding).completeMultisig check ⟨⟨"other"⟩, ⟨[]⟩⟩ 11).toOption.map
        (·.escrow) = some (some ⟨⟨"other"⟩, ⟨[]⟩⟩) :=
  ⟨⟨claimed_reachable, by decide +kernel⟩, ⟨.verifyDeposits, 8⟩,
    claimed_reachable.after funding_isMatched, by decide +kernel⟩

end Session

end EscrowMix
