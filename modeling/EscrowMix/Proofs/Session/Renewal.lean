import EscrowMix.Proofs.Session.Lifecycle
import EscrowMix.Proofs.Session.Tickets

/-!
What a reset leaves of a session. Whatever was called on it, the session is as it was made, with two
exceptions: the epoch goes on, so that no ticket of before is honoured, and the fees stay those of
the last invitation that was accepted, also one of a run that a reset ended long ago.

    field                    after a reset
    identifier               as at first
    last activity            the time of the reset
    fees                     those of the last accepted invitation, else as at first
    log                      empty, or the lines of before and one for the reset
    epoch                    one more
    everything else          nothing
-/

namespace EscrowMix.Session

variable {s s' : Session} {now : UInt64} {c : Call} {t : Ticket}

/-! ### Fees -/

/-- The fees that a call brings into a session. -/
def Call.offered? : (c : Call) → Except Error c.Answer → Option FeePolicy
  | .beginInvited _ _ _ fees _, .ok _ => some fees
  | _, _ => none

/-- The fees of the last invitation that is accepted in these calls. -/
def lastOffer? : Session → Script → Option FeePolicy
  | _, [] => none
  | s, (now, c) :: cs =>
    (lastOffer? (s.perform now c).2 cs).or (c.offered? (s.perform now c).1)

theorem promoted_fees (s : Session) (now : UInt64) :
    ((s.promoted now).touched now).fees = s.fees := by
  rw [promoted_eq]
  rfl

theorem keyed_fees (s : Session) (role : Role) (a : Address) (k : PublicKey) (now : UInt64) :
    (s.keyed role a k now).fees = s.fees := by
  unfold keyed
  dsimp only
  split <;> rfl

theorem Call.offered?_error (c : Call) (e : Error) : c.offered? (.error e) = none := by
  cases c <;> rfl

theorem Outcome.fees {answer : Except Error c.Answer} (h : Outcome s now c answer s') :
    s'.fees = (c.offered? answer).getD s.fees := by
  cases h with
  | refused => rw [Call.offered?_error, Option.getD_none]
  | ownKey => exact (promoted_fees _ now).trans (keyed_fees ..)
  | peerKey | multisig | ownDeposit | peerDeposit => exact promoted_fees _ now
  | @reset keepLog => cases keepLog <;> rfl
  | miscounted | forced =>
    rw [forceReset_eq]
    rfl
  | _ => rfl

/-- Only an invitation that is accepted changes the fees. -/
theorem perform_fees (s : Session) (now : UInt64) (c : Call) :
    (s.perform now c).2.fees = (c.offered? (s.perform now c).1).getD s.fees :=
  (perform_outcome rfl).fees

theorem after_fees (s : Session) (cs : Script) :
    (s.after cs).fees = (s.lastOffer? cs).getD s.fees := by
  induction cs generalizing s with
  | nil => rfl
  | cons e cs ih =>
    obtain ⟨now, c⟩ := e
    refine (ih (s.perform now c).2).trans ?_
    rw [perform_fees, lastOffer?]
    cases lastOffer? (s.perform now c).2 cs <;> rfl

theorem after_id (s : Session) (cs : Script) : (s.after cs).id = s.id := by
  induction cs generalizing s with
  | nil => rfl
  | cons e cs ih => exact (ih _).trans (perform_id s e.1 e.2)

/-! ### Tickets -/

/-- The tickets that calls hand out. -/
def handedOut : Session → Script → List Ticket
  | _, [] => []
  | s, (now, c) :: cs =>
    (c.claimed? (s.perform now c).1).toList ++ handedOut (s.perform now c).2 cs

theorem epoch_le_of_handedOut {cs : Script} (ht : t ∈ s.handedOut cs) :
    t.epoch ≤ (s.after cs).epoch := by
  induction cs generalizing s with
  | nil => cases ht
  | cons e cs ih =>
    obtain ⟨now, c⟩ := e
    rcases List.mem_append.1 ht with ht | ht
    · have hs : s.perform now c = ((s.perform now c).1, (s.perform now c).2) := rfl
      rw [(perform_claimed hs (Option.mem_toList.1 ht)).2.2.1]
      exact epoch_le_after s ((now, c) :: cs)
    · exact ih ht

/-! ### Resets -/

theorem reset_eq {keepLog : Bool} (h : s.reset keepLog now = .ok s') :
    s' = { fresh s.id s.fees now with
      log := if keepLog then s.log ++ [⟨now, resetEvent s.status⟩] else []
      epoch := s.epoch + 1 } := by
  obtain ⟨-, rfl⟩ := reset_ok h
  cases keepLog <;> rfl

/-- After any calls on a new session, a reset makes it a new one again, with the fees that were
accepted last and in an epoch that no ticket was handed out for. The log is empty, or has one line
more. -/
theorem reset_renews (id : SessionId) (fees : FeePolicy) (start : UInt64) (cs : Script)
    {keepLog : Bool} (h : ((fresh id fees start).after cs).reset keepLog now = .ok s') :
    s' = { fresh id (((fresh id fees start).lastOffer? cs).getD fees) now with
      log := if keepLog then ((fresh id fees start).after cs).log ++
        [⟨now, resetEvent ((fresh id fees start).after cs).status⟩] else []
      epoch := ((fresh id fees start).after cs).epoch + 1 } ∧
    ∀ t ∈ (fresh id fees start).handedOut cs, t.epoch < s'.epoch := by
  rw [reset_eq h, after_id, after_fees]
  exact ⟨rfl, fun t ht => Nat.lt_succ_of_le (epoch_le_of_handedOut ht)⟩

namespace Reclaimed

/-- The fees of an invitation, twice the usual ones. -/
def offered : FeePolicy := ⟨⟨20000⟩, 100, 50⟩

/-- A Mixer is invited under them, and its deposits never come. -/
def abandoned : Script :=
  (1, .beginInvited .mixer ⟨1⟩ ⟨[⟨⟨"payee"⟩, ⟨100000⟩⟩]⟩ offered .none) :: setup.tail ++
    [(5, .claimMultisig)]

end Reclaimed

open Reclaimed in
/-- The ticket for the escrow is outstanding at the reset. -/
theorem reset_renews_abandoned :
    ∃ s', (start.after abandoned).reset true 6 = .ok s' ∧ s'.role = none ∧ s'.pending = none ∧
      s'.fees = offered ∧
      s'.log = (start.after abandoned).log ++ [⟨6, "reset from PubKey"⟩] ∧
      ticket ∈ start.handedOut abandoned ∧ ticket.epoch < s'.epoch := by
  have hticket : ticket ∈ start.handedOut abandoned := by decide +kernel
  obtain ⟨s', hs⟩ : ∃ s', (start.after abandoned).reset true 6 = .ok s' :=
    exists_eq_ok (by decide +kernel)
  obtain ⟨he, hepoch⟩ := reset_renews start.id .standard 0 abandoned hs
  refine ⟨s', hs, ?_, ?_, ?_, ?_, hticket, hepoch ticket hticket⟩
  · rw [he]
    rfl
  · rw [he]
    rfl
  · rw [he]
    decide +kernel
  · rw [he]
    decide +kernel

open Reclaimed in
/-- The fees that a peer offered outlive the reset, so the session is not what it was at first. -/
theorem offered_fees_survive :
    ∃ s', (start.after abandoned).reset false 6 = .ok s' ∧ s'.fees = offered ∧
      ∀ epoch, s' ≠ { fresh start.id start.fees 6 with epoch := epoch } := by
  obtain ⟨s', hs⟩ : ∃ s', (start.after abandoned).reset false 6 = .ok s' :=
    exists_eq_ok (by decide +kernel)
  have hfees : s'.fees = offered := by
    rw [reset_eq hs]
    decide +kernel
  refine ⟨s', hs, hfees, fun epoch he => ?_⟩
  have hne : start.fees ≠ offered := by decide +kernel
  rw [he] at hfees
  exact hne hfees

end EscrowMix.Session
