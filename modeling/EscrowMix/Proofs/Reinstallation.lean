import EscrowMix.Proofs.Directory
import EscrowMix.Proofs.Session.Admitted
import EscrowMix.Proofs.Session.Tickets

/-!
Tickets of a session that is installed anew. A snapshot takes the place of the active session, in
the same slot, and counts its changes from zero again. A ticket is known by its transition and by
the number of changes before its claim, so one from before an install is refused until the same
transition is claimed after just as many changes: from then on the two cannot be told apart.

    move                      epoch      outstanding
    a change is committed     + 1        none
    a claim                   as it was  what was claimed
    a snapshot is installed   0          none
-/

namespace EscrowMix

namespace Session

variable {s s' v : Session} {now : UInt64} {c : Call} {t : Ticket} {cs : Script}

/-! ### Counting changes -/

/-- A call that ends in this way has changed what the parties share, or the verdict on it. -/
def Call.commits : (c : Call) → Except Error c.Answer → Bool
  | .beginAsSender .., .ok _ | .beginInvited .., .ok _ => true
  | .setOwnKey .., .ok news => news
  | .learnKey .., .ok news => news
  | .completeMultisig .., .ok _ => true
  | .recordOwnDeposit _, .ok _ | .learnDeposit .., .ok _ => true
  | .completeVerification .., .ok _ | .completeVerification .., .error (.verification _) => true
  | .completeSignature .., .ok _ | .completeSignature .., .error (.fatal _) => true
  | .learnRound .., .ok _ => true
  | .completeCommit _, .ok _ => true
  | .markReclaimable _, .ok _ => true
  | .reset _, .ok _ | .forceReset _, .ok _ => true
  | _, _ => false

/-- The number of changes that calls commit. -/
def changes : Session → Script → Nat
  | _, [] => 0
  | s, (now, c) :: cs => (c.commits (s.perform now c).1).toNat + changes (s.perform now c).2 cs

theorem promoted_epoch (s : Session) (now : UInt64) :
    ((s.promoted now).touched now).epoch = s.epoch + 1 := by
  rw [promoted_eq]
  rfl

theorem keyed_epoch (s : Session) (role : Role) (a : Address) (k : PublicKey) (now : UInt64) :
    (s.keyed role a k now).epoch = s.epoch :=
  (keyed_retains s role a k now).2.1

/-- What is refused is not committed. -/
theorem Call.commits_refused {e : Error} (h : c.isVerdict = false ∨ e = .concurrentTransition) :
    c.commits (.error e) = false := by
  rcases h with h | rfl
  · cases c <;> first | rfl | cases h
  · cases c <;> rfl

theorem Outcome.epoch {answer : Except Error c.Answer} (h : Outcome s now c answer s') :
    s'.epoch = s.epoch + (c.commits answer).toNat := by
  cases h with
  | refused h =>
    rw [Call.commits_refused h]
    rfl
  | ownKey =>
    rw [promoted_epoch, keyed_epoch]
    rfl
  | peerKey | multisig | ownDeposit | peerDeposit => exact promoted_epoch _ now
  | @reset keepLog => cases keepLog <;> rfl
  | miscounted | forced =>
    rw [forceReset_eq]
    rfl
  | _ => rfl

/-- The epoch goes up by one when a change is committed, and stays as it is otherwise. -/
theorem perform_epoch (s : Session) (now : UInt64) (c : Call) :
    (s.perform now c).2.epoch = s.epoch + (c.commits (s.perform now c).1).toNat :=
  (perform_outcome rfl).epoch

theorem after_epoch (s : Session) (cs : Script) : (s.after cs).epoch = s.epoch + s.changes cs := by
  induction cs generalizing s with
  | nil => rfl
  | cons e cs ih =>
    obtain ⟨now, c⟩ := e
    have hrest : (s.after ((now, c) :: cs)).epoch = _ := ih (s.perform now c).2
    rw [hrest, perform_epoch, changes, Nat.add_assoc]

/-! ### The same ticket once more -/

/-- Among these calls on `v` is a claim that hands out this ticket, after as many changes as its
epoch says. -/
def HandsOut (v : Session) (cs : Script) (t : Ticket) : Prop :=
  ∃ cs₁ now c cs₂, cs = cs₁ ++ (now, c) :: cs₂ ∧
    c.claimed? ((v.after cs₁).perform now c).1 = some t ∧ v.changes cs₁ = t.epoch

theorem HandsOut.append (h : HandsOut v cs t) (cs' : Script) : HandsOut v (cs ++ cs') t := by
  obtain ⟨cs₁, now, c, cs₂, rfl, ht, hn⟩ := h
  exact ⟨cs₁, now, c, cs₂ ++ cs', by simp, ht, hn⟩

/-- A call leaves a ticket honoured only if it hands it out, or it was honoured before. -/
theorem honours_perform (h : (s.perform now c).2.honours t) :
    c.claimed? (s.perform now c).1 = some t ∨ s.honours t := by
  obtain ⟨transition, epoch⟩ := t
  generalize hs : s.perform now c = out at h ⊢
  obtain ⟨answer, s'⟩ := out
  obtain ⟨hpending, rfl⟩ : s'.pending = some transition ∧ s'.epoch = epoch := honours_iff.1 h
  rcases (perform_effect hs).pending hpending with hclaimed | ⟨hbefore, hsame⟩
  · exact .inl hclaimed
  · exact .inr (honours_iff.2 ⟨hbefore, hsame.symm⟩)

/-- If nothing was outstanding at first, only a ticket that was handed out since is honoured. -/
theorem handsOut_of_honours (he : v.epoch = 0) (hp : v.pending = none)
    (h : (v.after cs).honours t) : HandsOut v cs t := by
  induction cs using List.reverseRecOn with
  | nil =>
    have hpending := (honours_iff.1 h).1
    cases hp.symm.trans hpending
  | append_singleton cs e ih =>
    obtain ⟨now, c⟩ := e
    rw [after_append] at h
    rcases honours_perform h with hclaimed | hbefore
    · obtain ⟨-, -, hcount, -⟩ := perform_claimed rfl hclaimed
      rw [after_epoch, he, Nat.zero_add] at hcount
      exact ⟨cs, now, c, [], rfl, hclaimed, hcount.symm⟩
    · exact (ih hbefore).append _

theorem ofSnapshot_rested {b : Bytes} (h : ofSnapshot b = .ok v) :
    v.epoch = 0 ∧ v.pending = none := by
  have htakes := lawful.streams.takes_of_decode (ofSnapshot_eq_ok.1 h)
  exact ⟨(lawful.fits_of_takes htakes).epoch, (lawful.fits_of_takes htakes).pending⟩

end Session

namespace Directory

open Session (Call)

variable {d : Directory} {id : SessionId} {slot : Slot} {v : Session} {now : UInt64}

/-! ### Moves on the active session -/

/-- A snapshot of the session with this identifier, and the session that is read from it. -/
structure Copy (id : SessionId) where
  bytes : Bytes
  session : Session
  read : Session.ofSnapshot bytes = .ok session
  named : session.id = id

/-- What happens to the active session: it is called, or a snapshot takes its place. -/
inductive Move (id : SessionId) where
  | call (now : UInt64) (c : Call)
  | install (copy : Copy id) (now : UInt64)

/-- The directory after a move. -/
def moved (d : Directory) (slot : Slot) : Move id → Directory
  | .call now c => d.update slot ((d.session slot).perform now c).2
  | .install copy now =>
    match d.install copy.session now with
    | .ok (_, d') => d'
    | .error _ => d

/-- The directory after several moves. -/
def run (d : Directory) (slot : Slot) (ms : List (Move id)) : Directory :=
  ms.foldl (fun d m => d.moved slot m) d

/-- Calls are moves. -/
def calls (id : SessionId) (cs : Session.Script) : List (Move id) := cs.map fun e => .call e.1 e.2

/-- The session with this identifier is active, and in this slot. -/
structure HasActive (d : Directory) (id : SessionId) (slot : Slot) : Prop where
  active : d.active = some (id, slot)
  valid : slot < d.sessions.length

theorem run_append (d : Directory) (slot : Slot) (ms ms' : List (Move id)) :
    d.run slot (ms ++ ms') = (d.run slot ms).run slot ms' :=
  List.foldl_append

theorem HasActive.update (h : d.HasActive id slot) (s : Session) :
    (d.update slot s).HasActive id slot :=
  ⟨h.active, Nat.lt_of_lt_of_eq h.valid length_update.symm⟩

/-- The slot stays, and only its session is replaced. -/
theorem HasActive.install (h : d.HasActive id slot) (hv : v.id = id) (now : UInt64) :
    d.install v now = .ok ((slot, none), d.update slot v) := by
  rw [Directory.install, enroll, h.active]
  simp [hv]

theorem HasActive.moved_install (h : d.HasActive id slot) (copy : Copy id) (now : UInt64) :
    d.moved slot (.install copy now) = d.update slot copy.session := by
  rw [moved, h.install copy.named]

theorem HasActive.moved (h : d.HasActive id slot) (m : Move id) :
    (d.moved slot m).HasActive id slot := by
  cases m with
  | call now c => exact h.update _
  | install copy now =>
    rw [h.moved_install]
    exact h.update _

theorem HasActive.run (h : d.HasActive id slot) (ms : List (Move id)) :
    (d.run slot ms).HasActive id slot := by
  induction ms generalizing d with
  | nil => exact h
  | cons m ms ih => exact ih (h.moved m)

theorem HasActive.session_calls (h : d.HasActive id slot) (cs : Session.Script) :
    (d.run slot (calls id cs)).session slot = (d.session slot).after cs := by
  induction cs generalizing d with
  | nil => rfl
  | cons e cs ih =>
    obtain ⟨now, c⟩ := e
    have hrest := ih (h.update ((d.session slot).perform now c).2)
    rw [session_update_self h.valid] at hrest
    exact hrest

/-- Whatever happened before, after an install the session is that of the snapshot. -/
theorem HasActive.session_installed (h : d.HasActive id slot) (ms : List (Move id))
    (copy : Copy id) (now : UInt64) (cs : Session.Script) :
    (d.run slot (ms ++ .install copy now :: calls id cs)).session slot = copy.session.after cs := by
  have hbefore := h.run ms
  have hlast : d.run slot (ms ++ .install copy now :: calls id cs) =
      ((d.run slot ms).moved slot (.install copy now)).run slot (calls id cs) := run_append ..
  rw [hlast, (hbefore.moved _).session_calls, hbefore.moved_install,
    session_update_self hbefore.valid]

/-! ### Tickets from before an install -/

/-- What a ticket `t` is worth in the session `s` that was read as `v` and called since. -/
structure Outlived (t : Ticket) (v : Session) (since : Session.Script) (s : Session) : Prop where
  /-- The session is what the calls since have made of the snapshot, and counts their changes. -/
  session : s = v.after since
  epoch : s.epoch = v.changes since
  /-- The ticket is taken just when its transition is outstanding after as many changes. -/
  honoured : s.honours t ↔ s.pending = some t.transition ∧ v.changes since = t.epoch
  /-- Then the very same ticket was handed out since, -/
  reissued : s.honours t → v.HandsOut since t
  /-- and completes its transition. -/
  accepted : s.honours t → ∀ now c, c.redeemed? = some t → c.IsMatched →
    (s.perform now c).1 ≠ .error .concurrentTransition
  /-- Otherwise it completes nothing, -/
  refused : ¬s.honours t → ∀ now c, c.redeemed? = some t →
    s.perform now c = (.error .concurrentTransition, s)
  /-- and giving it back changes nothing. -/
  ignored : ¬s.honours t → s.release t = s

/-- However the active session was called and installed before, between and since: after the last
install a ticket from before is taken only where it has a double. -/
theorem ticket_outlived (h : d.HasActive id slot) (before : List (Move id)) {c : Call} {t : Ticket}
    (ht : c.claimed? (((d.run slot before).session slot).perform now c).1 = some t)
    (between : List (Move id)) (copy : Copy id) (now' : UInt64) (since : Session.Script) :
    t.epoch = ((d.run slot before).session slot).epoch ∧
      Outlived t copy.session since
        ((d.run slot (before ++ .call now c :: between ++
          .install copy now' :: calls id since)).session slot) := by
  obtain ⟨-, -, hclaimed, -⟩ := Session.perform_claimed rfl ht
  refine ⟨hclaimed, ?_⟩
  obtain ⟨he, hp⟩ := Session.ofSnapshot_rested copy.read
  rw [h.session_installed]
  have hepoch : (copy.session.after since).epoch = copy.session.changes since := by
    rw [Session.after_epoch, he, Nat.zero_add]
  exact {
    session := rfl
    epoch := hepoch
    honoured := by rw [Session.honours_iff, hepoch]
    reissued := Session.handsOut_of_honours he hp
    accepted := fun hh now c hc hm => Session.perform_honoured hh hc hm now
    refused := fun hn now c hc => Session.perform_refused hn hc now
    ignored := Session.release_of_not_honours }

namespace Doubled

open Session.Reclaimed (start setup ticket)

/-- A Mixer's session in which the escrow can be derived. -/
def directory : Directory := ((empty .standard).opened start.id 0).run 0 (calls start.id setup)

/-- It is written when the escrow is being derived, and installed again. -/
def copy : Copy start.id where
  bytes := (start.after (setup ++ [(5, .claimMultisig)])).toSnapshot
  session := (start.after setup).resumed
  read := by decide +kernel
  named := by decide +kernel

/-- Four changes follow. -/
def marked : Session.Script :=
  [(6, .learnDeposit .sender ⟨⟨.replicate 32 1⟩, 0, ⟨[]⟩⟩),
    (7, .learnDeposit .guarantor ⟨⟨.replicate 32 3⟩, 0, ⟨[]⟩⟩),
    (8, .markReclaimable .sender), (9, .markReclaimable .guarantor)]

/-- And the escrow is to be derived once more. -/
def doubled : Session.Script := marked ++ [(10, .claimMultisig)]

/-- The session after the first claim, the install and some calls. -/
def reached (since : Session.Script) : Session :=
  (directory.run 0 ([] ++ .call 5 .claimMultisig :: [] ++ .install copy 5 :: calls start.id since)
    ).session 0

end Doubled

open Session.Reclaimed (start ticket) in
open Doubled in
/-- Without the second claim the first ticket is refused, and with it the ticket is taken. -/
theorem ticket_outlived_doubled :
    (reached marked).honours ticket = false ∧ (reached doubled).honours ticket = true ∧
      Outlived ticket copy.session marked (reached marked) ∧
      Outlived ticket copy.session doubled (reached doubled) := by
  have hactive : directory.HasActive start.id 0 := ⟨by decide +kernel, by decide +kernel⟩
  have hclaimed : Call.claimMultisig.claimed?
      (((directory.run 0 ([] : List (Move start.id))).session 0).perform 5 .claimMultisig).1 =
        some ticket := by decide +kernel
  refine ⟨by decide +kernel, by decide +kernel, ?_, ?_⟩
  · exact (ticket_outlived hactive [] hclaimed [] copy 5 marked).2
  · exact (ticket_outlived hactive [] hclaimed [] copy 5 doubled).2

open Session.Reclaimed (start ticket) in
open Doubled in
/-- The ticket of the first claim completes the derivation that was begun by the second one. -/
theorem old_ticket_completes :
    Call.claimMultisig.claimed? ((directory.session 0).perform 5 .claimMultisig).1 = some ticket ∧
      (reached doubled).status = .pubKey ∧
      ((reached doubled).perform 11 (.completeMultisig ticket ⟨⟨"escrow"⟩, ⟨[]⟩⟩)).1 = .ok () ∧
      ((reached doubled).perform 11 (.completeMultisig ticket ⟨⟨"escrow"⟩, ⟨[]⟩⟩)).2.status =
        .multisigAddr := by
  refine ⟨by decide +kernel, by decide +kernel, ?_, by decide +kernel⟩
  have hok : ((reached doubled).completeMultisig ticket ⟨⟨"escrow"⟩, ⟨[]⟩⟩ 11).isOk = true := by
    decide +kernel
  rw [Session.perform]
  cases h : (reached doubled).completeMultisig ticket ⟨⟨"escrow"⟩, ⟨[]⟩⟩ 11 with
  | ok s => rfl
  | error e =>
    rw [h] at hok
    cases hok

end Directory

end EscrowMix
