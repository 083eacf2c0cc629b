import EscrowMix.Proofs.Session.Rounds

/-!
What is written once. From its beginning to the call that clears it a session only gains: the status
and the epoch go up, the log is continued, and whatever stands in the session stays as it is. So the
address and the key of another party can be announced again at any time, and never be replaced.
-/

namespace EscrowMix.Session

variable {s s' s'' : Session} {now : UInt64} {c : Call} {role : Role} {address : Address}
  {key : PublicKey} {peer : Option PeerId}

/-- A growth that also keeps the constraints, continues the log and does not take back the epoch. -/
structure Extends (s s' : Session) : Prop extends Grows s s' where
  constraints : s.status ≠ .notBegun → s'.constraints = s.constraints
  log : s.log <+: s'.log
  epoch : s.epoch ≤ s'.epoch

theorem Extends.refl (s : Session) : Extends s s :=
  ⟨(Same.refl s).grows, fun _ => rfl, List.prefix_refl _, Nat.le_refl _⟩

theorem Extends.trans (h : Extends s s') (h' : Extends s' s'') : Extends s s'' where
  toGrows := h.toGrows.trans h'.toGrows
  constraints hst := (h'.constraints (h.not_notBegun hst)).trans (h.constraints hst)
  log := h.log.trans h'.log
  epoch := Nat.le_trans h.epoch h'.epoch

theorem Ascends.log_prefix (h : Ascends s s') : s.log <+: s'.log := by
  obtain ⟨lines, hl, -⟩ := h.noted
  exact ⟨lines, hl.symm⟩

/-- A session that has not begun has nothing to lose. -/
theorem Consistent.grows_of_blank (h : Consistent s) (hst : s.status = .notBegun)
    (hid : s'.id = s.id) : Grows s s' := by
  obtain ⟨-, -, hparties, hrecord, -⟩ := h.blank hst
  have hescrow : s.escrow = none := h.not_escrowed (by rw [hst]; decide)
  refine ⟨hid, ?_, absurd hst, absurd hst, absurd hst, ?_, ?_, ?_, ?_, ?_, ?_, ?_⟩
  · rw [hst]
    exact Nat.zero_le _
  · simp [hparties]
  · simp [hparties]
  · simp [hescrow]
  · simp [hrecord]
  · simp [hrecord]
  · rw [hrecord]
    exact UInt8.le_iff_toNat_le.2 (Nat.zero_le _)
  · rw [hrecord]
    exact nofun

/-- A call that does not clear the session extends it. -/
theorem perform_extends (h : Consistent s) (hm : c.IsMatched) {answer : Except Error c.Answer}
    (hs : s.perform now c = (answer, s')) (hc : c.clears answer = false) : Extends s s' := by
  have hup := perform_ascends h hm hs hc
  refine ⟨?_, fun hst => ?_, hup.log_prefix, (perform_effect hs).epoch_le⟩
  · cases perform_evolves h hm hs with
    | same hsame => exact hsame.grows
    | grown hg => exact hg
    | cleared hcl =>
      have hle := hup.status
      rw [hcl.status] at hle
      exact h.grows_of_blank (Status.rank_inj (Nat.le_zero.1 hle)) hcl.id
  · cases hr : c.round? answer with
    | none => exact (perform_keeps hst hs hc hr).constraints
    | some r => exact (perform_takes h hs hr).constraints

theorem Reachable.extends_after (h : Reachable s) {cs : Script} (hm : ∀ e ∈ cs, e.2.IsMatched)
    (hc : s.wasCleared cs = false) : Extends s (s.after cs) := by
  induction cs generalizing s with
  | nil => exact .refl s
  | cons e cs ih =>
    obtain ⟨now, c⟩ := e
    obtain ⟨hhead, hrest⟩ := Bool.or_eq_false_iff.1 hc
    have hmatched : c.IsMatched := hm (now, c) List.mem_cons_self
    have hstep := perform_extends h.consistent hmatched rfl hhead
    exact hstep.trans (ih (h.perform now c hmatched)
      (fun e' he' => hm e' (List.mem_cons_of_mem _ he')) hrest)

/-! ### Announcements -/

variable {own : Role}

/-- The same once more only renews the time of the last activity. -/
theorem learnKey_known (hp : s.pending = none) (hst : s.status ≠ .notBegun)
    (ho : s.role = some own) (hr : role ≠ own) (ha : s.parties.address role = some address)
    (hk : s.parties.key role = some key) :
    s.learnKey role address key peer now = .ok (false, { s with lastActivity := now }) := by
  have hidle : s.ensureIdle = .ok () := ensureIdle_eq_ok.2 hp
  have hpeer : s.ensurePeerRole role = .ok () := ensurePeerRole_eq_ok.2 ⟨own, ho, hr⟩
  have hreg : s.parties.register role address key = .ok (false, s.parties) :=
    Registry.register_eq_ok.2 (.inr ⟨rfl, ha, hk, rfl⟩)
  rw [learnKey, bind_of_ok hidle, bind_of_ok hpeer, if_neg hst, bind_of_ok (mapError_eq_ok.2 hreg)]
  rfl

/-- Anything else is refused. -/
theorem learnKey_other (hp : s.pending = none) (hst : s.status ≠ .notBegun)
    (ho : s.role = some own) (hr : role ≠ own) (ha : s.parties.address role = some address)
    (hk : s.parties.key role = some key) {address' : Address} {key' : PublicKey}
    (hne : (address', key') ≠ (address, key)) :
    s.learnKey role address' key' peer now = .error (.party (.keyAlreadySet role)) := by
  have hidle : s.ensureIdle = .ok () := ensureIdle_eq_ok.2 hp
  have hpeer : s.ensurePeerRole role = .ok () := ensurePeerRole_eq_ok.2 ⟨own, ho, hr⟩
  rw [learnKey, bind_of_ok hidle, bind_of_ok hpeer, if_neg hst,
    Registry.register_of_other ha hk hne]
  rfl

/-- In every session that calls can lead to, no call but a reset or a wallet that returns a wrong
number of signatures takes anything back: the status, the epoch and the number of signatures do not
fall, the log is continued, and the role, the terms, the constraints, addresses, keys, the escrow,
deposits and marks stay once they are set. So at any later time without an outstanding transition
another party may announce the same address and key again, which renews the time of the last
activity and nothing else, and cannot announce another. -/
theorem Reachable.written_once (h : Reachable s) :
    (∀ now c, c.IsMatched → c.clears (s.perform now c).1 = false →
      Extends s (s.perform now c).2) ∧
    ∀ cs : Script, (∀ e ∈ cs, e.2.IsMatched) → s.wasCleared cs = false →
      Extends s (s.after cs) ∧
      ((s.after cs).pending = none → ∀ role address key, s.role ≠ some role →
        s.parties.address role = some address → s.parties.key role = some key → ∀ now peer,
          (s.after cs).perform now (.learnKey role address key peer) =
            (.ok false, { s.after cs with lastActivity := now }) ∧
          ∀ address' key', (address', key') ≠ (address, key) →
            (s.after cs).perform now (.learnKey role address' key' peer) =
              (.error (.party (.keyAlreadySet role)), s.after cs)) := by
  refine ⟨fun now c hm hc => perform_extends h.consistent hm rfl hc, fun cs hm hc => ?_⟩
  have hext := h.extends_after hm hc
  refine ⟨hext, fun hp role address key hr ha hk now peer => ?_⟩
  -- whoever knows a key has begun
  have hst : s.status ≠ .notBegun := fun e => by
    obtain ⟨-, -, hparties, -⟩ := h.consistent.blank e
    rw [hparties, Registry.empty_key] at hk
    cases hk
  obtain ⟨own, ho⟩ := h.consistent.exists_role hst
  have hne : role ≠ own := fun e => hr (e ▸ ho)
  have hst' := hext.not_notBegun hst
  have ho' := (hext.role hst).trans ho
  have ha' := hext.address role address ha
  have hk' := hext.key role key hk
  exact ⟨orKeep_eq_ok.2 (learnKey_known hp hst' ho' hne ha' hk'), fun address' key' hother => by
    rw [Session.perform, learnKey_other hp hst' ho' hne ha' hk' hother]
    rfl⟩

open Misused in
/-- The Sender's key comes once more, and then another one, when the deposits are checked. -/
theorem Reachable.written_once_of_funding :
    let checked := funding.take 4
    Extends claimed (claimed.after checked) ∧
      (claimed.after checked).perform 10 (.learnKey .sender ⟨"sender"⟩ Reclaimed.key none) =
        (.ok false, { claimed.after checked with lastActivity := 10 }) ∧
      (claimed.after checked).perform 10 (.learnKey .sender ⟨"other"⟩ Reclaimed.key none) =
        (.error (.party (.keyAlreadySet .sender)), claimed.after checked) := by
  have hm : ∀ e ∈ funding.take 4, e.2.IsMatched := fun e he =>
    funding_isMatched e (List.mem_of_mem_take he)
  have hc : claimed.wasCleared (funding.take 4) = false := by decide +kernel
  have hp : (claimed.after (funding.take 4)).pending = none := by decide +kernel
  obtain ⟨hext, hannounce⟩ := claimed_reachable.written_once.2 (funding.take 4) hm hc
  obtain ⟨hsame, hother⟩ := hannounce hp .sender ⟨"sender"⟩ Reclaimed.key (by decide +kernel)
    (by decide +kernel) (by decide +kernel) 10 none
  exact ⟨hext, hsame, hother ⟨"other"⟩ Reclaimed.key (by decide +kernel)⟩

end EscrowMix.Session
