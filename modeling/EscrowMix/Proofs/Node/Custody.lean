import EscrowMix.Proofs.Node.Calls

/-!
Deposits are safe with a node. As long as one of them has no way back and the distribution is not
broadcast, whatever the node is told and whatever its collaborators answer, the session stays the
active one and keeps its deposits. The only way around this is a wallet that breaks its word on the
number of signatures.
-/

namespace EscrowMix

namespace Process

/-- The session is active and holds the deposit. -/
structure Holds (w : Process) (id : SessionId) (slot : Slot) (role : Role) (d : Deposit) :
    Prop where
  active : w.active = some (id, slot)
  deposit : (w.session slot).record.deposit role = some d

/-- Nothing binds the node to the deposit any more. -/
def Released (w : Process) (slot : Slot) (role : Role) : Prop :=
  (w.session slot).record.reclaimable.get role = true ∨ (w.session slot).status = .complete

/-- The session is active, and its distribution is complete or was broadcast. -/
structure Signed (w : Process) (id : SessionId) (slot : Slot) (deposits : Role → Option Deposit) :
    Prop where
  active : w.active = some (id, slot)
  status : (w.session slot).status = .distTxComplete ∨ (w.session slot).status = .complete
  deposits : (w.session slot).record.deposit = deposits

end Process

variable {past : List Moment} {m : Moment} {id : SessionId} {slot : Slot} {role : Role} {d : Deposit}

/-- A deposit without a way back is in the way of a reset. -/
theorem Session.not_canReset {s : Session} (hd : s.record.deposit role = some d)
    (hr : s.record.reclaimable.get role ≠ true) : ¬s.canReset = true := by
  intro h
  have hnil := Escrow.Record.unreclaimed_eq_nil.1 (canReset_iff.1 h).2.2
  exact hr (hnil role (by rw [hd]; rfl))

/-- A session with a deposit began, and is in progress until it is complete. -/
theorem Session.Consistent.isInProgress {s : Session} (h : s.Consistent)
    (hd : s.record.deposit role = some d) (hst : s.status ≠ .complete) : s.isInProgress = true := by
  have hb : s.status ≠ .notBegun := h.begun_of_deposit (by rw [hd]; rfl)
  simp [Session.isInProgress, Status.isInProgress, hb, hst]

/-- A segment keeps a deposit that binds the node. -/
theorem Moment.Happens.holds (h : m.Happens) (hs : m.before.Sound past) (hf : ¬m.isFatal = true)
    (hh : m.before.Holds id slot role d) (hr : ¬m.before.Released slot role) :
    m.after.Holds id slot role d := by
  have ht := (h.acts hs.jobs).turns hs.directory
  have hlt := (hs.directory.active id slot hh.active).1
  simp only [Process.Released, not_or] at hr
  have hreset := Session.not_canReset hh.deposit hr.1
  refine ⟨?_, ?_⟩
  · rcases ht.active id slot hh.active with ha | hover | hc
    · exact ha
    · have hin := (hs.directory.consistent slot).isInProgress hh.deposit hr.2
      rw [hin] at hover
      cases hover
    · exact absurd hc hreset
  · cases ht.evolves slot hlt with
    | same hsame => exact hsame.grows.deposit role d hh.deposit
    | grown hg => exact hg.deposit role d hh.deposit
    | cleared _ hc => exact absurd hc (not_or.2 ⟨hreset, hf⟩)

/-- A segment keeps a distribution that waits for its broadcast. -/
theorem Moment.Happens.signed {deposits : Role → Option Deposit} (h : m.Happens)
    (hs : m.before.Sound past) (hf : ¬m.isFatal = true) (hh : m.before.Signed id slot deposits)
    (hst : (m.before.session slot).status ≠ .complete) : m.after.Signed id slot deposits := by
  have ht := (h.acts hs.jobs).turns hs.directory
  have hlt := (hs.directory.active id slot hh.active).1
  have hst : (m.before.session slot).status = .distTxComplete := hh.status.resolve_right hst
  have hreset : ¬(m.before.session slot).canReset = true := fun hc =>
    (Session.canReset_iff.1 hc).1 hst
  have hg : (m.before.session slot).Grows (m.after.session slot) := by
    cases ht.evolves slot hlt with
    | same hsame => exact hsame.grows
    | grown hg => exact hg
    | cleared _ hc => exact absurd hc (not_or.2 ⟨hreset, hf⟩)
  refine ⟨?_, ?_, ?_⟩
  · rcases ht.active id slot hh.active with ha | hover | hc
    · exact ha
    · have hin : (m.before.session slot).isInProgress = true := by
        rw [Session.isInProgress, hst]
        rfl
      cases hin.symm.trans hover
    · exact absurd hc hreset
  · have hle := hg.status
    rw [hst] at hle
    cases hst' : (m.after.session slot).status with
    | distTxComplete => exact .inl rfl
    | complete => exact .inr rfl
    | notBegun | reserved | initData | pubKey | multisigAddr | depositsObserved | depositsVerified
    | distTxRound0 | distTxRound1 =>
      rw [hst'] at hle
      exact absurd hle (by decide)
  · rw [← hh.deposits]
    funext q
    have hall : .depositsObserved ≤ (m.before.session slot).status := by rw [hst]; decide
    obtain ⟨d, hd⟩ := Option.isSome_iff_exists.1
      ((hs.directory.consistent slot).record.allDeposits hall q)
    rw [hg.deposit q d hd]
    exact hd.symm

namespace Path

variable {ms₀ ms : List Moment} {config : Config} {w w' : Process}

/-- A deposit that binds the node is kept as long as it does. -/
theorem holds (h₀ : Path (.start config) ms₀ w) (hh : w.Holds id slot role d) (h : Path w ms w')
    (hf : ∀ m ∈ ms, ¬m.isFatal = true) (hkept : ∀ m ∈ ms, ¬m.before.Released slot role) :
    w'.Holds id slot role d := by
  induction h with
  | refl => exact hh
  | @snoc ms m h hm ih =>
    refine hm.holds (h₀.append h).sound (hf m (by simp)) ?_ (hkept m (by simp))
    exact ih (fun m hm => hf m (by simp [hm])) fun m hm => hkept m (by simp [hm])

/-- A distribution with all its signatures is kept until it was broadcast. -/
theorem signed {deposits : Role → Option Deposit} (h₀ : Path (.start config) ms₀ w)
    (hs : w.Signed id slot deposits) (h : Path w ms w') (hf : ∀ m ∈ ms, ¬m.isFatal = true)
    (hkept : ∀ m ∈ ms, (m.before.session slot).status ≠ .complete) :
    w'.Signed id slot deposits := by
  induction h with
  | refl => exact hs
  | @snoc ms m h hm ih =>
    refine hm.signed (h₀.append h).sound (hf m (by simp)) ?_ (hkept m (by simp))
    exact ih (fun m hm => hf m (by simp [hm])) fun m hm => hkept m (by simp [hm])

/-- What counts as reclaimable on the way was marked on the way, or before. -/
theorem marked_of_reclaimable_during (h₀ : Path (.start config) ms₀ w) (h : Path w ms w')
    (hm : m ∈ ms) (hr : (m.before.session slot).record.reclaimable.get role = true) :
    ∃ m' ∈ ms₀ ++ ms, m'.Marks slot role := by
  obtain ⟨front, back, rfl⟩ := List.append_of_mem hm
  obtain ⟨m', hmem, hmarks⟩ := (h₀.append h.split.1).marked_of_reclaimable hr
  refine ⟨m', ?_, hmarks⟩
  rw [← List.append_assoc]
  exact List.mem_append_left _ hmem

/-- On every way from a state in which the active session is in progress and holds a deposit that
was never marked as reclaimable, that session stays the active one and keeps the deposit unchanged,
until the deposit is marked or the distribution was broadcast. Marks count wherever they were made
in the slot, also in an earlier session there that a failure of the wallet cleared. A distribution
with all its signatures is kept with its deposits until it was broadcast, even if these are
marked. -/
theorem keeps_escrowed_funds (h₀ : Path (.start config) ms₀ w) (ha : w.active = some (id, slot))
    (h : Path w ms w') (hf : ∀ m ∈ ms, ¬m.isFatal = true) :
    (∀ role d, (w.session slot).isInProgress = true →
      (w.session slot).record.deposit role = some d →
      (∀ m ∈ ms₀ ++ ms, ¬m.Marks slot role) →
      (∀ m ∈ ms, (m.before.session slot).status ≠ .complete) →
      w'.active = some (id, slot) ∧ (w'.session slot).id = id ∧
        (w'.session slot).record.deposit role = some d) ∧
    ((w.session slot).status = .distTxComplete →
      (∀ m ∈ ms, (m.before.session slot).status ≠ .complete) →
      w'.active = some (id, slot) ∧ (w'.session slot).id = id ∧
        ∀ role, (w'.session slot).record.deposit role = (w.session slot).record.deposit role) := by
  have hid : w'.active = some (id, slot) → (w'.session slot).id = id := fun ha =>
    ((h₀.append h).sound.directory.active id slot ha).2
  refine ⟨fun role d _ hd hm hst => ?_, fun hst hkept => ?_⟩
  · have hh : w'.Holds id slot role d := by
      refine h₀.holds ⟨ha, hd⟩ h hf fun m hmem hrel => ?_
      rcases hrel with hr | hst'
      · obtain ⟨m', hmem', hmarks⟩ := h₀.marked_of_reclaimable_during h hmem hr
        exact hm m' hmem' hmarks
      · exact hst m hmem hst'
    exact ⟨hh.active, hid hh.active, hh.deposit⟩
  · have hh := h₀.signed ⟨ha, .inl hst, rfl⟩ h hf hkept
    exact ⟨hh.active, hid hh.active, congrFun hh.deposits⟩

end Path

/-! ### A cancel that is refused -/

namespace RefusedCancel

/-- The identifier that the Sender draws. -/
def sessionId : SessionId := ⟨.replicate 16 7⟩

/-- The clock stands still, every party can be reached, and no collaborator answers. -/
def circumstances : Circumstances where
  surroundings := ⟨5, fun _ => true⟩
  drawn := sessionId
  wallet _ := .error .locked
  ledger _ := .error .unavailable

/-- The Mixer's deposit. -/
def deposit : Deposit := ⟨⟨.replicate 32 1⟩, 0, ⟨[]⟩⟩

/-- The Sender begins a session. -/
def begun : Moment :=
  (Process.start .standard).tell circumstances
    (.beginSend [⟨"payee"⟩] ⟨100000⟩ .none ⟨1⟩ ⟨2⟩)

/-- It learns of the Mixer's deposit before it has set its own key. -/
def noted : Moment :=
  begun.after.tell circumstances (.onDepositNotice sessionId .mixer deposit)

/-- It is told to cancel. -/
def cancelled : Moment := noted.after.tell circumstances (.cancel sessionId)

end RefusedCancel

open RefusedCancel in
theorem Path.keeps_deposit_of_refused_cancel :
    noted.after.active = some (sessionId, 0) ∧
      (noted.after.session 0).record.deposit .mixer = some deposit ∧
      cancelled.after.active = some (sessionId, 0) ∧ (cancelled.after.session 0).id = sessionId ∧
      (cancelled.after.session 0).record.deposit .mixer = some deposit := by
  have ha : noted.after.active = some (sessionId, 0) := by decide +kernel
  have hd : (noted.after.session 0).record.deposit .mixer = some deposit := by decide +kernel
  have hp : (noted.after.session 0).isInProgress = true := by decide +kernel
  have hst : (noted.after.session 0).status ≠ .complete := by decide +kernel
  have hfatal : ¬cancelled.isFatal = true := by decide +kernel
  have hbegun : begun.Happens := Process.tell_happens _ _ nofun
  have hnoted : noted.Happens := Process.tell_happens _ _ nofun
  have hcancelled : cancelled.Happens := Process.tell_happens _ _ nofun
  have hf : ∀ m ∈ [cancelled], ¬m.isFatal = true := by
    intro m hm
    rw [List.mem_singleton.1 hm]
    exact hfatal
  have hkept : ∀ m ∈ [cancelled], (m.before.session 0).status ≠ .complete := by
    intro m hm
    rw [List.mem_singleton.1 hm]
    exact hst
  have hm : ∀ m ∈ [begun, noted] ++ [cancelled], ¬m.Marks 0 .mixer := by
    intro m hm ⟨c, hmove, id, now, s, hc, _⟩
    subst hc
    simp only [List.cons_append, List.nil_append, List.mem_cons, List.not_mem_nil, or_false] at hm
    rcases hm with rfl | rfl | rfl <;> cases hmove
  have h₀ : Path (.start .standard) [begun, noted] noted.after :=
    (Path.refl.snoc hbegun).snoc hnoted
  have h : Path noted.after [cancelled] cancelled.after := Path.refl.snoc hcancelled
  exact ⟨ha, hd, (h₀.keeps_escrowed_funds ha h hf).1 .mixer deposit hp hd hm hkept⟩

end EscrowMix
