import EscrowMix.Proofs.Session.Effects
import Mathlib.Data.List.Nodup

/-!
What holding a ticket means. Whoever calls a session has the tickets in hand that it handed out, and
uses each of them once at most, for its own transition or to give it back. From the claim of a
ticket until its use there are two phases:

    no reset yet     the transition is outstanding: whatever needs an idle session is refused, and
                     only notes aside change the session
    after a reset    the epoch of the ticket is over: it is stale, whatever is claimed later

The epoch tells the phases apart, since no call takes it back and every reset moves it on.
-/

namespace EscrowMix.Session

variable {s s₀ s₁ : Session} {now : UInt64} {c : Call} {t t' : Ticket} {hand : List Ticket}

/-! ### Calls in a row -/

/-- Calls on a session, each with its time. -/
abbrev Script := List (UInt64 × Call)

/-- The session after calls. -/
def after (s : Session) (cs : Script) : Session := cs.foldl (fun s c => (s.perform c.1 c.2).2) s

/-- One of the calls was a reset that succeeded. -/
def wasReset : Session → Script → Bool
  | _, [] => false
  | s, (now, c) :: cs => c.resets (s.perform now c).1 || wasReset (s.perform now c).2 cs

/-- The tickets that a call leaves in hand: all but the one that it uses. -/
def Call.spent (c : Call) (hand : List Ticket) : List Ticket :=
  match c.ticket? with
  | some t => hand.erase t
  | none => hand

/-- The tickets in hand after a call, with the one that it handed out. -/
def Call.handAfter (c : Call) (hand : List Ticket) (answer : Except Error c.Answer) : List Ticket :=
  c.spent hand ++ (c.claimed? answer).toList

/-- The tickets in hand after calls. -/
def handAfter : Session → List Ticket → Script → List Ticket
  | _, hand, [] => hand
  | s, hand, (now, c) :: cs =>
    handAfter (s.perform now c).2 (c.handAfter hand (s.perform now c).1) cs

theorem after_append (s : Session) (cs cs' : Script) :
    s.after (cs ++ cs') = (s.after cs).after cs' :=
  List.foldl_append

theorem handAfter_append (s : Session) (hand : List Ticket) (cs cs' : Script) :
    handAfter s hand (cs ++ cs') = handAfter (s.after cs) (handAfter s hand cs) cs' := by
  induction cs generalizing s hand with
  | nil => rfl
  | cons e cs ih => exact ih (s.perform e.1 e.2).2 _

/-! ### The tickets in hand -/

theorem honours_unique (h : s.honours t) (h' : s.honours t') : t = t' := by
  obtain ⟨hp, he⟩ := honours_iff.1 h
  obtain ⟨hp', he'⟩ := honours_iff.1 h'
  obtain ⟨transition, epoch⟩ := t
  obtain ⟨transition', epoch'⟩ := t'
  simp only [hp, Option.some.injEq] at hp'
  simp only at he he'
  rw [hp', ← he, ← he']

theorem not_honours_of_epoch_lt (h : t.epoch < s.epoch) : ¬s.honours t := by
  intro hh
  have he := (honours_iff.1 hh).2
  omega

/-- The tickets in hand differ from each other, and each is honoured or of an epoch that is over. -/
structure Issued (s : Session) (hand : List Ticket) : Prop where
  nodup : hand.Nodup
  past : ∀ t ∈ hand, s.honours t ∨ t.epoch < s.epoch

theorem issued_nil (s : Session) : Issued s [] := ⟨.nil, nofun⟩

theorem Issued.not_honours_of_idle (h : Issued s hand) (hp : s.pending = none) (ht : t ∈ hand) :
    t.epoch < s.epoch := by
  rcases h.past t ht with hh | hlt
  · have hp' := (honours_iff.1 hh).1
    rw [hp] at hp'
    cases hp'
  · exact hlt

theorem Issued.epoch_le (h : Issued s hand) (ht : t ∈ hand) : t.epoch ≤ s.epoch := by
  rcases h.past t ht with hh | hlt
  · exact Nat.le_of_eq (honours_iff.1 hh).2.symm
  · exact Nat.le_of_lt hlt

theorem mem_spent (hn : hand.Nodup) : t ∈ c.spent hand ↔ t ∈ hand ∧ c.ticket? ≠ some t := by
  unfold Call.spent
  cases c.ticket? with
  | none => simp
  | some t' =>
    simp only [hn.mem_erase_iff, ne_eq, Option.some.injEq]
    rw [and_comm, eq_comm]

theorem Issued.nodup_spent (h : Issued s hand) (c : Call) : (c.spent hand).Nodup := by
  unfold Call.spent
  cases c.ticket? with
  | none => exact h.nodup
  | some t => exact h.nodup.erase t

theorem Issued.perform (h : Issued s hand) (now : UInt64) (c : Call) :
    Issued (s.perform now c).2 (c.handAfter hand (s.perform now c).1) := by
  have hmem : ∀ t ∈ c.spent hand, t ∈ hand ∧ c.ticket? ≠ some t := fun _ => (mem_spent h.nodup).1
  unfold Call.handAfter
  generalize hs : s.perform now c = r
  obtain ⟨answer, s'⟩ := r
  dsimp only
  cases ht : c.claimed? answer with
  | some t =>
    -- a claim finds no transition outstanding, so all earlier tickets are of earlier epochs
    obtain ⟨hp, -, he, rfl⟩ := perform_claimed hs ht
    have hlt : ∀ t' ∈ c.spent hand, t'.epoch < s.epoch := fun t' ht' =>
      h.not_honours_of_idle hp (hmem t' ht').1
    refine ⟨List.nodup_append.2 ⟨h.nodup_spent c, by simp, ?_⟩, ?_⟩
    · intro t' ht' t'' ht'' e
      obtain rfl := List.mem_singleton.1 ht''
      have := hlt t' ht'
      rw [e] at this
      omega
    · intro t' ht'
      rcases List.mem_append.1 ht' with ht' | ht'
      · exact .inr (hlt t' ht')
      · obtain rfl := List.mem_singleton.1 ht'
        exact .inl (honours_iff.2 ⟨rfl, he.symm⟩)
  | none =>
    rw [Option.toList_none, List.append_nil]
    refine ⟨h.nodup_spent c, fun t ht' => ?_⟩
    obtain ⟨hin, hne⟩ := hmem t ht'
    cases perform_effect hs with
    | kept _ he hp =>
      rcases h.past t hin with hh | hlt
      · rw [honours_iff, hp, he]
        exact .inl (honours_iff.1 hh)
      · exact .inr (he ▸ hlt)
    | claimed t' hc =>
      rw [ht] at hc
      cases hc
    | returned t' hu hh' =>
      rcases h.past t hin with hh | hlt
      · exact absurd (honours_unique hh' hh ▸ hu) hne
      · exact .inr hlt
    | committed he | cleared he =>
      have := h.epoch_le hin
      exact .inr (by omega)

theorem Issued.after (h : Issued s hand) (cs : Script) :
    Issued (s.after cs) (handAfter s hand cs) := by
  induction cs generalizing s hand with
  | nil => exact h
  | cons e cs ih => exact ih (h.perform e.1 e.2)

/-- A ticket stays in hand until it is used. -/
theorem Issued.mem_handAfter (h : Issued s hand) (ht : t ∈ hand) {cs : Script}
    (hu : ∀ e ∈ cs, e.2.ticket? ≠ some t) : t ∈ handAfter s hand cs := by
  induction cs generalizing s hand with
  | nil => exact ht
  | cons e cs ih =>
    refine ih (h.perform e.1 e.2) ?_ fun e' he' => hu e' (List.mem_cons_of_mem e he')
    exact List.mem_append_left _ ((mem_spent h.nodup).2 ⟨ht, hu e List.mem_cons_self⟩)

/-! ### The two phases of a ticket -/

theorem perform_resets (h : c.resets (s.perform now c).1 = true) :
    s.epoch < (s.perform now c).2.epoch := by
  cases c with
  | reset keepLog =>
    cases hr : s.reset keepLog now with
    | error e =>
      rw [perform, hr] at h
      cases h
    | ok s' =>
      obtain ⟨-, rfl⟩ := reset_ok hr
      rw [perform, hr]
      cases keepLog <;> exact Nat.lt_succ_self _
  | forceReset reason =>
    rw [perform, forceReset_eq]
    exact Nat.lt_succ_self _
  | _ => cases h

theorem epoch_le_after (s : Session) (cs : Script) : s.epoch ≤ (s.after cs).epoch := by
  induction cs generalizing s with
  | nil => exact Nat.le_refl _
  | cons e cs ih => exact Nat.le_trans (perform_effect rfl).epoch_le (ih (s.perform e.1 e.2).2)

theorem epoch_lt_of_wasReset {cs : Script} (h : s.wasReset cs = true) :
    s.epoch < (s.after cs).epoch := by
  induction cs generalizing s with
  | nil => cases h
  | cons e cs ih =>
    have hle : s.epoch ≤ (s.perform e.1 e.2).2.epoch := (perform_effect rfl).epoch_le
    rcases Bool.or_eq_true_iff.1 h with hr | hr
    · exact Nat.lt_of_lt_of_le (perform_resets hr) (epoch_le_after (s.perform e.1 e.2).2 cs)
    · exact Nat.lt_of_le_of_lt hle (ih hr)

/-- While a transition is outstanding, and unless its own ticket is used, a call that neither resets
the session nor notes something aside changes nothing. -/
theorem perform_waiting (h : s.honours t) (hu : c.ticket? ≠ some t) (ha : c.isAside = false)
    (hr : c.resets (s.perform now c).1 = false) : (s.perform now c).2 = s := by
  have hp := (honours_iff.1 h).1
  have hother : ∀ t', c.ticket? = some t' → ¬s.honours t' := by
    intro t' ht' hh
    rw [honours_unique hh h] at ht'
    exact hu ht'
  cases c with
  | completeMultisig t' | completeVerification t' | completeSignature t' | completeCommit t'
  | release t' => exact perform_unhonoured (hother t' rfl) rfl now
  | reset keepLog =>
    cases hs : s.reset keepLog now with
    | error e =>
      rw [perform, hs]
      rfl
    | ok s' =>
      rw [perform, hs] at hr
      cases hr
  | forceReset => cases hr
  | flag | setPeer => cases ha
  | _ => rw [perform_busy hp rfl]

/-- The calls among these that only note something aside. -/
def asides (cs : Script) : Script := cs.filter (·.2.isAside)

theorem asides_cons_of_pos {cs : Script} (h : c.isAside = true) :
    asides ((now, c) :: cs) = (now, c) :: asides cs :=
  List.filter_cons_of_pos h

theorem asides_cons_of_neg {cs : Script} (h : c.isAside = false) :
    asides ((now, c) :: cs) = asides cs :=
  List.filter_cons_of_neg (by simp [h])

theorem after_asides (s : Session) (cs : Script) :
    (s.after (asides cs)).pending = s.pending ∧ (s.after (asides cs)).epoch = s.epoch := by
  induction cs generalizing s with
  | nil => exact ⟨rfl, rfl⟩
  | cons e cs ih =>
    obtain ⟨now, c⟩ := e
    cases ha : c.isAside with
    | true =>
      obtain ⟨-, hp, he⟩ := perform_aside_kept ha s now
      obtain ⟨hp', he'⟩ := ih (s.perform now c).2
      rw [asides_cons_of_pos ha]
      exact ⟨hp'.trans hp, he'.trans he⟩
    | false =>
      rw [asides_cons_of_neg ha]
      exact ih s

/-- From its claim on, until it is used or the session is reset, the transition of a ticket stays
outstanding, and only notes aside change the session. -/
theorem after_occupied {cs : Script} (he : s.epoch = t.epoch)
    (hu : ∀ e ∈ cs, e.2.ticket? ≠ some t)
    (hr : (s.occupied t.transition).wasReset cs = false) :
    (s.occupied t.transition).after cs = (s.after (asides cs)).occupied t.transition := by
  induction cs generalizing s with
  | nil => rfl
  | cons e cs ih =>
    obtain ⟨now, c⟩ := e
    have hu' : ∀ e ∈ cs, e.2.ticket? ≠ some t := fun e' he' => hu e' (List.mem_cons_of_mem _ he')
    obtain ⟨hc, hr⟩ := Bool.or_eq_false_iff.1 hr
    cases ha : c.isAside with
    | true =>
      have hstep := perform_aside (s := s) ha now t.transition
      rw [hstep] at hr
      rw [asides_cons_of_pos ha]
      have hrest := ih ((perform_aside_kept ha s now).2.2.trans he) hu' hr
      exact (congrArg (Session.after · cs) hstep).trans hrest
    | false =>
      have hstep := perform_waiting (occupied_honours he) (hu (now, c) List.mem_cons_self) ha hc
      rw [hstep] at hr
      rw [asides_cons_of_neg ha]
      exact (congrArg (Session.after · cs) hstep).trans (ih he hu' hr)

/-! ### Exclusivity -/

/-- What a ticket means that was claimed in `s₁`, which left `s₂`, and was not used in the calls
`cs` since, after which these tickets are in hand. -/
structure Governs (t : Ticket) (s₁ s₂ : Session) (cs : Script) (hand : List Ticket) : Prop where
  /-- It is in hand, and no other ticket there can be taken for it. -/
  single : hand.count t = 1
  /-- Without a reset nothing that needs an idle session is begun. -/
  excludes : s₂.wasReset cs = false → ∀ now c, c.needsIdle = true →
    (s₂.after cs).perform now c = (.error .concurrentTransition, s₂.after cs)
  /-- It passes redemption unless the session was reset. -/
  redeems : (s₂.after cs).redeem t =
    if s₂.wasReset cs then .error .concurrentTransition else .ok (s₂.after cs).idle
  /-- So the call that completes its transition fails as a concurrent one only after a reset. -/
  completes : ∀ now c, c.redeemed? = some t → c.IsMatched →
    (((s₂.after cs).perform now c).1 = .error .concurrentTransition ↔ s₂.wasReset cs = true)
  /-- And then changes nothing. -/
  refused : s₂.wasReset cs = true → ∀ now c, c.redeemed? = some t →
    (s₂.after cs).perform now c = (.error .concurrentTransition, s₂.after cs)
  /-- After a reset it is stale for good, and giving it back changes nothing either. -/
  stale : s₂.wasReset cs = true → ∀ cs' : Script,
    ¬(s₂.after (cs ++ cs')).honours t ∧ (s₂.after (cs ++ cs')).release t = s₂.after (cs ++ cs')
  /-- Without a reset giving it back restores the session before the claim, up to notes aside. -/
  restores : s₂.wasReset cs = false → (s₂.after cs).release t = s₁.after (asides cs)

/-- Whatever the session was at first and whatever calls were made on it: from its claim on and
until it is used, a ticket governs the session. -/
theorem ticket_governs {before since : Script}
    (ht : c.claimed? ((s₀.after before).perform now c).1 = some t)
    (hu : ∀ e ∈ since, e.2.ticket? ≠ some t) :
    Governs t (s₀.after before) ((s₀.after before).perform now c).2 since
      (handAfter s₀ [] (before ++ (now, c) :: since)) := by
  generalize hs₁ : s₀.after before = s₁ at ht ⊢
  have hissued : Issued s₁ (handAfter s₀ [] before) := hs₁ ▸ (issued_nil s₀).after before
  have hstep : s₁.perform now c = ((s₁.perform now c).1, (s₁.perform now c).2) := rfl
  obtain ⟨hp, -, he, hs₂⟩ := perform_claimed hstep ht
  -- the ticket came to hand with the claim and was not used since
  have hsingle : (handAfter s₀ [] (before ++ (now, c) :: since)).count t = 1 := by
    rw [handAfter_append, hs₁]
    have hissued₂ := hissued.perform now c
    have hmem := hissued₂.mem_handAfter (List.mem_append_right _ (by simp [ht])) hu
    exact List.count_eq_one_of_mem (hissued₂.after since).nodup hmem
  rw [hs₂]
  have hhonours : (s₁.occupied t.transition).wasReset since = false →
      ((s₁.occupied t.transition).after since).honours t := by
    intro hr
    rw [after_occupied he.symm hu hr]
    exact occupied_honours ((after_asides s₁ since).2.trans he.symm)
  have hstale : (s₁.occupied t.transition).wasReset since = true → ∀ cs,
      ¬((s₁.occupied t.transition).after (since ++ cs)).honours t := by
    intro hr cs
    refine not_honours_of_epoch_lt ?_
    rw [after_append]
    have hlt : s₁.epoch < ((s₁.occupied t.transition).after since).epoch := epoch_lt_of_wasReset hr
    have hle := epoch_le_after ((s₁.occupied t.transition).after since) cs
    omega
  have hstale₀ : (s₁.occupied t.transition).wasReset since = true →
      ¬((s₁.occupied t.transition).after since).honours t := by
    intro hr
    have h := hstale hr []
    rwa [List.append_nil] at h
  exact {
    single := hsingle
    excludes := fun hr now c hc => perform_busy (honours_iff.1 (hhonours hr)).1 hc now
    redeems := by
      cases hr : (s₁.occupied t.transition).wasReset since with
      | false => exact redeem_of_honours (hhonours hr)
      | true => exact redeem_of_not_honours (hstale₀ hr)
    completes := fun now c hc hm => by
      cases hr : (s₁.occupied t.transition).wasReset since with
      | false =>
        have hne := perform_honoured (hhonours hr) hc hm now
        exact ⟨fun h => absurd h hne, nofun⟩
      | true => exact ⟨fun _ => rfl, fun _ => by rw [perform_refused (hstale₀ hr) hc]⟩
    refused := fun hr now c hc => perform_refused (hstale₀ hr) hc now
    stale := fun hr cs => ⟨hstale hr cs, release_of_not_honours (hstale hr cs)⟩
    restores := fun hr => by
      rw [release_of_honours (hhonours hr), after_occupied he.symm hu hr]
      exact idle_occupied ((after_asides s₁ since).1.trans hp) t.transition }

namespace Reclaimed

/-- One key serves all parties here. -/
def key : PublicKey := ⟨2 :: (.replicate 31 0 ++ [4]), by decide +kernel⟩

def start : Session := fresh ⟨.replicate 16 7⟩ .standard 0

/-- A Mixer is invited and hears the keys of the others. -/
def setup : Script :=
  [(1, .beginInvited .mixer ⟨1⟩ ⟨[⟨⟨"payee"⟩, ⟨100000⟩⟩]⟩ .standard .none),
    (2, .setOwnKey ⟨"mixer"⟩ key),
    (3, .learnKey .sender ⟨"sender"⟩ key none),
    (4, .learnKey .guarantor ⟨"guarantor"⟩ key none)]

/-- While its wallet derives the escrow, the Guarantor connects. -/
def meanwhile : Script :=
  [(6, .setPeer .guarantor ⟨3⟩), (7, .recordOwnDeposit ⟨⟨.replicate 32 1⟩, 0, ⟨[]⟩⟩)]

/-- Then the session is reset, set up again, and the same transition claimed once more. -/
def again : Script := meanwhile ++ (8, .reset true) :: setup ++ [(9, .claimMultisig)]

/-- The first ticket and the one that is claimed after the reset. -/
def ticket : Ticket := ⟨.deriveMultisig, 4⟩
def newer : Ticket := ⟨.deriveMultisig, 9⟩

end Reclaimed

open Reclaimed in
theorem ticket_governs_reclaimed :
    let s₁ := start.after setup
    let s₂ := (s₁.perform 5 .claimMultisig).2
    s₂.wasReset meanwhile = false ∧ s₂.wasReset again = true ∧
    handAfter start [] (setup ++ (5, .claimMultisig) :: again) = [ticket, newer] ∧
    Governs ticket s₁ s₂ meanwhile (handAfter start [] (setup ++ (5, .claimMultisig) :: meanwhile)) ∧
    Governs ticket s₁ s₂ again (handAfter start [] (setup ++ (5, .claimMultisig) :: again)) :=
  ⟨by decide +kernel, by decide +kernel, by decide +kernel,
    ticket_governs (by decide +kernel) (by decide), ticket_governs (by decide +kernel) (by decide)⟩

end EscrowMix.Session
